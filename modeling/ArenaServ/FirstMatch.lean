import Mathlib.Algebra.BigOperators.Group.List.Basic
import Mathlib.Tactic.Abel

/-!
# Changing the first match in a list

A loop over a list that changes or erases the first element it is looking for and then
stops, and what it does to a sum over the list. A loop over several keys picks the first match
of each.
-/

namespace FirstMatch

variable {α M : Type*} (p : α → Bool) (f : α → Option α)

/-- The first element with `p` becomes what `f` makes of it, or goes. -/
def alterFirst : List α → List α
  | [] => []
  | x :: rest => if p x then (f x).toList ++ rest else x :: alterFirst rest

variable {p f}

/-- What is found stands after elements that do not match, and its place is what changes. -/
theorem exists_of_find? {xs : List α} {x : α} (h : xs.find? p = some x) :
    ∃ front rest, xs = front ++ x :: rest ∧
      ∀ f : α → Option α, alterFirst p f xs = front ++ ((f x).toList ++ rest) := by
  induction xs with
  | nil => cases h
  | cons y rest ih =>
      by_cases hy : p y = true
      · rw [List.find?_cons_of_pos hy, Option.some.injEq] at h
        refine ⟨[], rest, by rw [h, List.nil_append], ?_⟩
        intro f
        rw [alterFirst, if_pos hy, h, List.nil_append]
      · rw [List.find?_cons_of_neg hy] at h
        obtain ⟨front, tail, hrest, halter⟩ := ih h
        refine ⟨y :: front, tail, by rw [hrest, List.cons_append], ?_⟩
        intro f
        rw [alterFirst, if_neg hy, halter, List.cons_append]

/-- The only element with a key is the one that is found. -/
theorem find?_key {κ : Type*} [DecidableEq κ] {key : α → κ} {xs : List α} {x : α}
    (hinj : ∀ y ∈ xs, key y = key x → y = x) (hx : x ∈ xs) :
    (xs.find? fun y => key y = key x) = some x := by
  cases hfind : xs.find? fun y => key y = key x with
  | none => exact absurd (decide_eq_true rfl) (List.find?_eq_none.mp hfind x hx)
  | some y =>
      have hkey := List.find?_some hfind
      rw [decide_eq_true_iff] at hkey
      rw [hinj y (List.mem_of_find?_eq_some hfind) hkey]

/-- What is left of the matches when the first of them is erased. -/
theorem filter_eraseP_self (xs : List α) : (xs.eraseP p).filter p = (xs.filter p).tail := by
  induction xs with
  | nil => rfl
  | cons x rest ih =>
      by_cases hx : p x = true
      · rw [List.eraseP_cons_of_pos hx, List.filter_cons_of_pos hx, List.tail_cons]
      · rw [List.eraseP_cons_of_neg hx, List.filter_cons_of_neg hx, List.filter_cons_of_neg hx, ih]

theorem filter_eraseP_of_not {q : α → Bool} (h : ∀ x, p x = true → ¬ q x = true) (xs : List α) :
    (xs.eraseP p).filter q = xs.filter q := by
  induction xs with
  | nil => rfl
  | cons x rest ih =>
      by_cases hx : p x = true
      · rw [List.eraseP_cons_of_pos hx, List.filter_cons_of_neg (h x hx)]
      · rw [List.eraseP_cons_of_neg hx, List.filter_cons, List.filter_cons, ih]

/-- What a list of distinct keys is mapped to has each key once at most. -/
theorem filter_filterMap_key {κ : Type*} [DecidableEq κ] {g : κ → Option α} {key : α → κ}
    (hg : ∀ k x, g k = some x → key x = k) {keys : List κ} (hnodup : keys.Nodup) (k : κ) :
    (keys.filterMap g).filter (fun x => key x = k) = if k ∈ keys then (g k).toList else [] := by
  induction keys with
  | nil => rfl
  | cons k' rest ih =>
      obtain ⟨hnotin, hrest⟩ := List.nodup_cons.mp hnodup
      have ih := ih hrest
      by_cases hk : k = k'
      · rw [if_neg (hk ▸ hnotin)] at ih
        rw [if_pos (hk ▸ List.mem_cons_self), hk]
        rw [hk] at ih
        cases hx : g k' with
        | none => rw [List.filterMap_cons_none hx, ih, Option.toList_none]
        | some x =>
            rw [List.filterMap_cons_some hx, List.filter_cons, ih, if_pos, Option.toList_some]
            exact decide_eq_true (hg k' x hx)
      · have hiff : k ∈ k' :: rest ↔ k ∈ rest := by
          rw [List.mem_cons, or_iff_right hk]
        simp only [hiff]
        rw [← ih]
        cases hx : g k' with
        | none => rw [List.filterMap_cons_none hx]
        | some x =>
            rw [List.filterMap_cons_some hx, List.filter_cons, if_neg]
            rw [decide_eq_true_iff, hg k' x hx]
            exact Ne.symm hk

/-- An element is old or has taken the place of the first match. -/
theorem mem_of_mem_alterFirst {xs : List α} {y : α} (h : y ∈ alterFirst p f xs) :
    y ∈ xs ∨ ∃ x, xs.find? p = some x ∧ f x = some y := by
  induction xs with
  | nil => cases h
  | cons x rest ih =>
      rw [alterFirst] at h
      by_cases hx : p x = true
      · rw [if_pos hx, List.mem_append, Option.mem_toList] at h
        rcases h with hnew | hold
        · exact Or.inr ⟨x, List.find?_cons_of_pos hx, hnew⟩
        · exact Or.inl (List.mem_cons_of_mem _ hold)
      · rw [if_neg hx, List.mem_cons] at h
        rcases h with rfl | hrest
        · exact Or.inl List.mem_cons_self
        · rw [List.find?_cons_of_neg hx]
          exact (ih hrest).imp_left (List.mem_cons_of_mem _)

section Update
variable {g : α → α} {q : α → Bool}

/-- An element that is found first is found where it has been changed. -/
theorem find?_alterFirst {xs : List α} {x : α} (h : xs.find? p = some x) (hg : p (g x) = true) :
    (alterFirst p (fun x => some (g x)) xs).find? p = some (g x) := by
  induction xs with
  | nil => cases h
  | cons y rest ih =>
      rw [alterFirst]
      by_cases hy : p y = true
      · rw [List.find?_cons_of_pos hy] at h
        rw [if_pos hy, Option.some.inj h, Option.toList_some, List.singleton_append,
          List.find?_cons_of_pos hg]
      · rw [List.find?_cons_of_neg hy] at h
        rw [if_neg hy, List.find?_cons_of_neg hy, ih h]

/-- What is looked for elsewhere is found as before. -/
theorem find?_alterFirst_of_not (h : ∀ x, p x = true → q x = false ∧ q (g x) = false)
    (xs : List α) : (alterFirst p (fun x => some (g x)) xs).find? q = xs.find? q := by
  induction xs with
  | nil => rfl
  | cons y rest ih =>
      rw [alterFirst]
      by_cases hy : p y = true
      · obtain ⟨hold, hnew⟩ := h y hy
        rw [if_pos hy, Option.toList_some, List.singleton_append,
          List.find?_cons_of_neg (by simp [hnew]), List.find?_cons_of_neg (by simp [hold])]
      · rw [if_neg hy, List.find?_cons, List.find?_cons, ih]

theorem countP_alterFirst (h : ∀ x, q (g x) = q x) (xs : List α) :
    (alterFirst p (fun x => some (g x)) xs).countP q = xs.countP q := by
  induction xs with
  | nil => rfl
  | cons y rest ih =>
      rw [alterFirst]
      split_ifs
      · rw [Option.toList_some, List.singleton_append, List.countP_cons, List.countP_cons, h]
      · rw [List.countP_cons, List.countP_cons, ih]

theorem length_alterFirst (xs : List α) :
    (alterFirst p (fun x => some (g x)) xs).length = xs.length := by
  induction xs with
  | nil => rfl
  | cons y rest ih =>
      rw [alterFirst]
      split_ifs
      · rfl
      · rw [List.length_cons, List.length_cons, ih]

end Update

/-- Of a series of changes, those that match the head go to it and the others past it. -/
theorem foldl_alterFirst_cons {β : Type*} {p : β → α → Bool} {g : β → α → α}
    (hp : ∀ e e' x, p e (g e' x) = p e x) (x : α) (rest : List α) (es : List β) :
    es.foldl (fun xs e => alterFirst (p e) (fun x => some (g e x)) xs) (x :: rest) =
      (es.filter (p · x)).foldl (fun x e => g e x) x ::
        (es.filter (!p · x)).foldl
          (fun xs e => alterFirst (p e) (fun x => some (g e x)) xs) rest := by
  induction es generalizing x rest with
  | nil => rfl
  | cons e es ih =>
      rw [List.foldl_cons, alterFirst]
      by_cases hx : p e x = true
      · rw [if_pos hx, Option.toList_some, List.singleton_append, ih]
        have hsame (e' : β) : p e' (g e x) = p e' x := hp e' e x
        simp only [hsame, List.filter_cons, hx, ↓reduceIte, Bool.not_true, Bool.false_eq_true,
          List.foldl_cons]
      · rw [if_neg hx, ih]
        simp only [List.filter_cons, hx, ↓reduceIte, Bool.not_false, Bool.false_eq_true,
          List.foldl_cons]

section Keys
variable {κ β : Type*} [DecidableEq κ] (key : α → κ) (dest : β → κ) {g : β → α → α}

/-- Where the keys are distinct, each change goes to the element with its key. -/
theorem foldl_alterFirst_of_nodup (hkey : ∀ e x, key (g e x) = key x) {xs : List α}
    (h : (xs.map key).Nodup) (es : List β) :
    es.foldl (fun xs e => alterFirst (key · = dest e) (fun x => some (g e x)) xs) xs =
      xs.map fun x => (es.filter (key x = dest ·)).foldl (fun x e => g e x) x := by
  induction xs generalizing es with
  | nil =>
      induction es with
      | nil => rfl
      | cons e es ih => exact ih
  | cons x rest ih =>
      obtain ⟨hx, hrest⟩ := List.nodup_cons.mp h
      rw [foldl_alterFirst_cons (p := fun e x => decide (key x = dest e))
        (fun e e' x => by rw [hkey]), ih hrest, List.map_cons, List.cons.injEq]
      refine ⟨rfl, List.map_congr_left ?_⟩
      intro y hy
      rw [List.filter_filter]
      congr 1
      apply List.filter_congr
      intro e _
      have hne : key y ≠ key x := fun heq => hx (heq ▸ List.mem_map_of_mem hy)
      by_cases he : key y = dest e
      · simp [← he, hne.symm]
      · simp [he]

/-- What is made of the element with a key is what has that key. -/
theorem filter_flatMap_of_nodup {f : α → List β} (hdest : ∀ x, ∀ e ∈ f x, dest e = key x)
    {xs : List α} (h : (xs.map key).Nodup) {x : α} (hx : x ∈ xs) :
    (xs.flatMap f).filter (key x = dest ·) = f x := by
  induction xs with
  | nil => cases hx
  | cons y rest ih =>
      obtain ⟨hy, hrest⟩ := List.nodup_cons.mp h
      rw [List.flatMap_cons, List.filter_append]
      rcases List.mem_cons.mp hx with rfl | hx
      · have hall : (f x).filter (key x = dest ·) = f x :=
          List.filter_eq_self.mpr fun e he => by simp [hdest x e he]
        have hnone : (rest.flatMap f).filter (key x = dest ·) = [] := by
          rw [List.filter_eq_nil_iff]
          intro e he
          obtain ⟨z, hz, he⟩ := List.mem_flatMap.mp he
          have hne : key x ≠ key z := fun heq => hy (heq ▸ List.mem_map_of_mem hz)
          simp [hdest z e he, hne]
        rw [hall, hnone, List.append_nil]
      · have hnone : (f y).filter (key x = dest ·) = [] := by
          rw [List.filter_eq_nil_iff]
          intro e he
          have hne : key x ≠ key y := fun heq => hy (heq ▸ List.mem_map_of_mem hx)
          simp [hdest y e he, hne]
        rw [hnone, List.nil_append, ih hrest hx]

end Keys

section Picks
variable {β : Type*} {q : β → α → Bool} {xs : List α}

/-- Every match of every key counts. -/
def counted (q : β → α → Bool) (xs : List α) (keys : List β) : ℕ :=
  keys.foldl (fun n key => n + xs.countP (q key)) 0

/-- The first match of each key. -/
def picks (q : β → α → Bool) (xs : List α) (keys : List β) : List α :=
  keys.filterMap fun key => xs.find? (q key)

theorem foldl_counted (n : ℕ) (keys : List β) :
    keys.foldl (fun n key => n + xs.countP (q key)) n = n + counted q xs keys := by
  unfold counted
  induction keys generalizing n with
  | nil => rfl
  | cons key rest ih =>
      rw [List.foldl_cons, List.foldl_cons, ih, ih (0 + _), Nat.zero_add, Nat.add_assoc]

theorem counted_cons (key : β) (rest : List β) :
    counted q xs (key :: rest) = xs.countP (q key) + counted q xs rest := by
  unfold counted
  rw [List.foldl_cons, foldl_counted, Nat.zero_add]
  rfl

theorem picks_cons (key : β) (rest : List β) :
    picks q xs (key :: rest) = (xs.find? (q key)).toList ++ picks q xs rest := by
  unfold picks
  cases hfind : xs.find? (q key) with
  | none => simp only [List.filterMap_cons, hfind, Option.toList_none, List.nil_append]
  | some x => simp only [List.filterMap_cons, hfind, Option.toList_some, List.singleton_append]

theorem length_find?_le (p : α → Bool) (xs : List α) : (xs.find? p).toList.length ≤ xs.countP p := by
  cases hfind : xs.find? p with
  | none => exact Nat.zero_le _
  | some x =>
      exact List.countP_pos_iff.mpr ⟨x, List.mem_of_find?_eq_some hfind, List.find?_some hfind⟩

theorem length_find?_eq_iff (p : α → Bool) :
    xs.countP p = (xs.find? p).toList.length ↔ xs.countP p ≤ 1 := by
  cases hfind : xs.find? p with
  | none =>
      have hzero : xs.countP p = 0 := List.countP_eq_zero.mpr (List.find?_eq_none.mp hfind)
      simp [hzero]
  | some x =>
      have hpos : 0 < xs.countP p :=
        List.countP_pos_iff.mpr ⟨x, List.mem_of_find?_eq_some hfind, List.find?_some hfind⟩
      rw [Option.toList_some, List.length_singleton]
      omega

theorem length_picks_le (q : β → α → Bool) (xs : List α) (keys : List β) : (picks q xs keys).length ≤ counted q xs keys := by
  induction keys with
  | nil => exact Nat.le_refl 0
  | cons key rest ih =>
      rw [picks_cons, counted_cons, List.length_append]
      exact Nat.add_le_add (length_find?_le _ _) ih

/-- As many are counted as picked where no key has two matches. -/
theorem counted_eq_length_iff (q : β → α → Bool) (xs : List α) (keys : List β) :
    counted q xs keys = (picks q xs keys).length ↔ ∀ key ∈ keys, xs.countP (q key) ≤ 1 := by
  induction keys with
  | nil => exact ⟨fun _ _ hkey => absurd hkey List.not_mem_nil, fun _ => rfl⟩
  | cons key rest ih =>
      have hfirst := length_find?_le (q key) xs
      have hrest := length_picks_le q xs rest
      rw [List.forall_mem_cons, ← ih, ← length_find?_eq_iff, picks_cons, counted_cons,
        List.length_append]
      omega

theorem length_picks (keys : List β) :
    (picks q xs keys).length = keys.countP fun key => xs.any (q key) := by
  induction keys with
  | nil => rfl
  | cons key rest ih =>
      have hany : (xs.find? (q key)).toList.length = if xs.any (q key) then 1 else 0 := by
        cases hfind : xs.find? (q key) with
        | none =>
            rw [if_neg]
            · rfl
            · rw [List.any_eq_true]
              rintro ⟨x, hx, hmatch⟩
              exact List.find?_eq_none.mp hfind x hx hmatch
        | some x =>
            rw [if_pos]
            · rfl
            · rw [List.any_eq_true]
              exact ⟨x, List.mem_of_find?_eq_some hfind, List.find?_some hfind⟩
      rw [picks_cons, List.length_append, ih, hany, List.countP_cons, Nat.add_comm]

theorem nodup_picks_iff (keys : List β) :
    (picks q xs keys).Nodup ↔
      keys.Pairwise fun k l => ∀ x, xs.find? (q k) = some x → xs.find? (q l) ≠ some x := by
  unfold picks List.Nodup
  rw [List.pairwise_filterMap]
  constructor
  · intro h
    exact h.imp fun hkl x hk hl => hkl x hk x hl rfl
  · intro h
    refine h.imp fun hkl x hk y hl hxy => ?_
    exact hkl x hk (hxy ▸ hl)

end Picks

section Sum
variable [AddCommGroup M] (w : α → M)

/-- Only the share of the first match changes. -/
theorem sum_alterFirst {xs : List α} {x : α} (h : xs.find? p = some x) :
    ((alterFirst p f xs).map w).sum =
      (xs.map w).sum - w x + ((f x).toList.map w).sum := by
  induction xs with
  | nil => cases h
  | cons y rest ih =>
      rw [alterFirst, List.map_cons, List.sum_cons]
      by_cases hy : p y = true
      · rw [List.find?_cons_of_pos hy, Option.some.injEq] at h
        rw [if_pos hy, h, List.map_append, List.sum_append]
        abel
      · rw [List.find?_cons_of_neg hy] at h
        rw [if_neg hy, List.map_cons, List.sum_cons, ih h]
        abel

/-- One entry of a list of states changes. -/
theorem sum_set {xs : List α} {i : ℕ} {x : α} (h : xs[i]? = some x) (y : α) :
    ((xs.set i y).map w).sum = (xs.map w).sum - w x + w y := by
  obtain ⟨hi, rfl⟩ := List.getElem?_eq_some_iff.mp h
  have hmap : i < (xs.map w).length := by
    rw [List.length_map]
    exact hi
  rw [List.map_set, List.sum_set', dif_pos hmap, List.getElem_map]
  abel

end Sum

end FirstMatch
