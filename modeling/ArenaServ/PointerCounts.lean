import Mathlib.Data.Int.Notation
import Mathlib.Data.Set.Card
import Mathlib.Logic.Function.Basic

/-!
# Objects that count the pointers to them

Each object that is there has a count, which is exact if it is the number of the pointers to the
object. What moves a pointer releases the object it has been to and retains the one it goes to, and
an object may only be freed once nothing points to it.
-/

namespace PointerCounts
open Function

variable {α β : Type*} [DecidableEq β]

/-- The number of the pointers to `b`. -/
noncomputable def number (pointer : α → Option β) (b : β) : ℕ := {x | pointer x = some b}.ncard

/-- The counts are exact, and no pointer dangles. -/
structure Exact (count : β → Option ℤ) (pointer : α → Option β) : Prop where
  counted : ∀ b n, count b = some n → n = number pointer b
  live : ∀ x b, pointer x = some b → (count b).isSome

def add (count : β → Option ℤ) (b : β) (d : ℤ) : β → Option ℤ :=
  update count b ((count b).map (· + d))

def release (count : β → Option ℤ) (p : Option β) : β → Option ℤ :=
  p.elim count fun b => add count b (-1)

def retain (count : β → Option ℤ) (p : Option β) : β → Option ℤ :=
  p.elim count fun b => add count b 1

variable {count : β → Option ℤ} {pointer : α → Option β} {b c : β} {x : α} {p q : Option β}

theorem add_apply {d : ℤ} :
    add count b d c = (count c).map fun n => n + if b = c then d else 0 := by
  unfold add
  by_cases hc : b = c
  · subst hc
    rw [update_self]
    simp only [if_true]
  · rw [update_of_ne (Ne.symm hc)]
    simp only [if_neg hc, Int.add_zero]
    exact Option.map_id'.symm

theorem release_apply :
    release count p c = (count c).map fun n => n - if p = some c then 1 else 0 := by
  cases p with
  | none =>
      unfold release
      simp
  | some b =>
      change add count b (-1) c = _
      rw [add_apply]
      by_cases hc : b = c
      · simp [hc, Int.sub_eq_add_neg]
      · simp [hc]

theorem retain_apply :
    retain count p c = (count c).map fun n => n + if p = some c then 1 else 0 := by
  cases p with
  | none =>
      unfold retain
      simp
  | some b =>
      change add count b 1 c = _
      rw [add_apply]
      by_cases hc : b = c
      · simp [hc]
      · simp [hc]

/-- One pointer more or less is one to count more or less. -/
theorem number_update [DecidableEq α] (hfinite : {x | pointer x = some b}.Finite) :
    (number (update pointer x q) b : ℤ) =
      number pointer b - (if pointer x = some b then 1 else 0) + if q = some b then 1 else 0 := by
  have hothers : {y | update pointer x q y = some b} \ {x} = {y | pointer y = some b} \ {x} := by
    ext y
    by_cases hy : y = x
    · simp [hy]
    · simp [hy]
  have hsplit : ∀ pointer : α → Option β, {y | pointer y = some b}.Finite →
      ({y | pointer y = some b}.ncard : ℤ) =
        ({y | pointer y = some b} \ {x}).ncard + if pointer x = some b then 1 else 0 := by
    intro pointer hfinite
    by_cases hx : pointer x = some b
    · have hone := Set.ncard_sdiff_singleton_add_one (s := {y | pointer y = some b}) hx hfinite
      rw [if_pos hx]
      omega
    · have hsame : {y | pointer y = some b} \ {x} = {y | pointer y = some b} :=
        Set.sdiff_singleton_eq_self hx
      rw [if_neg hx, hsame, Int.add_zero]
  have hfinite' : {y | update pointer x q y = some b}.Finite := by
    apply (hfinite.union (Set.finite_singleton x)).subset
    intro y hy
    by_cases hyx : y = x
    · exact Or.inr hyx
    · rw [Set.mem_ofPred_eq, update_of_ne hyx] at hy
      exact Or.inl hy
  have hnew := hsplit (update pointer x q) hfinite'
  have hold := hsplit pointer hfinite
  rw [hothers, update_self] at hnew
  unfold number
  omega

/-- A pointer is moved from one object to another one. -/
theorem Exact.redirect [DecidableEq α] (h : Exact count pointer)
    (hfinite : ∀ b, {x | pointer x = some b}.Finite) (hlive : ∀ b, q = some b → (count b).isSome) :
    Exact (retain (release count (pointer x)) q) (update pointer x q) where
  counted := by
    intro b n hn
    rw [retain_apply, release_apply] at hn
    cases hb : count b with
    | none =>
        rw [hb] at hn
        cases hn
    | some m =>
        rw [hb] at hn
        simp only [Option.map_some, Option.some.injEq] at hn
        rw [number_update (hfinite b), ← h.counted b m hb, ← hn]
  live := by
    intro y b hy
    rw [retain_apply, release_apply, Option.isSome_map, Option.isSome_map]
    by_cases hyx : y = x
    · rw [hyx, update_self] at hy
      exact hlive b hy
    · rw [update_of_ne hyx] at hy
      exact h.live y b hy

/-- An object that nothing points to is freed. -/
theorem Exact.free (h : Exact count pointer) (hnone : ∀ x, pointer x ≠ some b) :
    Exact (update count b none) pointer where
  counted := by
    intro c n hn
    by_cases hc : c = b
    · rw [hc, update_self] at hn
      cases hn
    · rw [update_of_ne hc] at hn
      exact h.counted c n hn
  live := by
    intro x c hx
    by_cases hc : c = b
    · rw [hc] at hx
      exact absurd hx (hnone x)
    · rw [update_of_ne hc]
      exact h.live x c hx

/-- Those that point to an object, each once in a list, forget it, and it is freed. -/
theorem Exact.forget [DecidableEq α] {list : List α} (h : Exact count pointer)
    (hlist : ∀ x, x ∈ list ↔ pointer x = some b) :
    Exact (update count b none) (fun x => if x ∈ list then none else pointer x) where
  counted := by
    intro c n hn
    by_cases hc : c = b
    · rw [hc, update_self] at hn
      cases hn
    · rw [update_of_ne hc] at hn
      rw [h.counted c n hn]
      unfold number
      congr 2
      ext x
      by_cases hx : x ∈ list
      · have hb := (hlist x).mp hx
        simp [hx, hb, Ne.symm hc]
      · simp [hx]
  live := by
    intro x c hx
    by_cases hmem : x ∈ list
    · rw [if_pos hmem] at hx
      cases hx
    · rw [if_neg hmem] at hx
      have hc : c ≠ b := by
        rintro rfl
        exact hmem ((hlist x).mpr hx)
      rw [update_of_ne hc]
      exact h.live x c hx

/-- An object is made, and those in a list, which point nowhere, point to it. -/
theorem Exact.adopt [DecidableEq α] {list : List α} (h : Exact count pointer) (hfree : count b = none)
    (hnodup : list.Nodup) (hnone : ∀ x ∈ list, pointer x = none) :
    Exact (update count b (some (list.length : ℤ)))
      (fun x => if x ∈ list then some b else pointer x) where
  counted := by
    intro c n hn
    by_cases hc : c = b
    · subst hc
      rw [update_self] at hn
      cases hn
      have hset : {x | (if x ∈ list then some c else pointer x) = some c} =
          (list.toFinset : Set α) := by
        ext x
        by_cases hx : x ∈ list
        · simp [hx]
        · have hne : pointer x ≠ some c := by
            intro hpointer
            have hlive := h.live x c hpointer
            rw [hfree] at hlive
            cases hlive
          simp [hx, hne]
      unfold number
      rw [hset, Set.ncard_coe_finset, List.toFinset_card_of_nodup hnodup]
    · rw [update_of_ne hc] at hn
      rw [h.counted c n hn]
      unfold number
      congr 2
      ext x
      by_cases hx : x ∈ list
      · simp [hx, hnone x hx, Ne.symm hc]
      · simp [hx]
  live := by
    intro x c hx
    by_cases hmem : x ∈ list
    · rw [if_pos hmem] at hx
      cases hx
      rw [update_self]
      rfl
    · rw [if_neg hmem] at hx
      by_cases hc : c = b
      · rw [hc, update_self]
        rfl
      · rw [update_of_ne hc]
        exact h.live x c hx

end PointerCounts
