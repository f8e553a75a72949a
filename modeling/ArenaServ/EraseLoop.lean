import Mathlib.Data.List.Chain

/-!
# Erasing in a loop that goes on

A loop over a container erases some elements that it visits. Erasing gives the position of the next
one, which the increment of the loop then passes over. All that should be erased is erased exactly
when no two neighbours should be.
-/

/-- What a loop has left and erased, and what it has visited and left. -/
structure Sweep (α : Type*) where
  kept : List α
  erased : List α
  visited : List α

namespace Sweep
variable {α : Type*}

def empty : Sweep α := ⟨[], [], []⟩

/-- An element before those of a sweep is visited and left, passed over, or erased. -/
def leave (a : α) (s : Sweep α) : Sweep α :=
  { s with kept := a :: s.kept, visited := a :: s.visited }

def passOver (a : α) (s : Sweep α) : Sweep α := { s with kept := a :: s.kept }

def erase (a : α) (s : Sweep α) : Sweep α := { s with erased := a :: s.erased }

/-- The loop over the rest of a container of this size, which goes on as long as `go` of the size
says so. `behind` when the element in front is behind an erased one. -/
def run (go : ℕ → Bool) (p : α → Bool) : Bool → ℕ → List α → Sweep α
  | _, _, [] => empty
  | true, size, a :: rest => (run go p false size rest).passOver a
  | false, size, a :: rest =>
      if go size then
        if p a then (run go p true (size - 1) rest).erase a
        else (run go p false size rest).leave a
      else ⟨a :: rest, [], []⟩

/-- A loop that goes on to the end. -/
def all (p : α → Bool) (l : List α) : Sweep α := run (fun _ => true) p false l.length l

/-- No two neighbours. -/
def Apart (p q : α → Bool) (l : List α) : Prop :=
  l.IsChain fun a b => p a = true → q b = false

/-- Every other element, from the first on. -/
def everyOther : List α → List α
  | [] => []
  | [a] => [a]
  | a :: _ :: rest => a :: everyOther rest

/-- Of neighbours that should be erased, every other one. -/
def alternate (p : α → Bool) (l : List α) : List α :=
  (l.splitOnP fun a => !p a).flatMap everyOther

variable {go : ℕ → Bool} {p q : α → Bool}

theorem apart_cons {a : α} {l : List α} :
    Apart p q (a :: l) ↔ (p a = true → ∀ b ∈ l.head?, q b = false) ∧ Apart p q l := by
  unfold Apart
  rw [List.isChain_cons]
  apply and_congr_left
  intro _
  exact ⟨fun h hp b hb => h b hb hp, fun h b hb hp => h hp b hb⟩

theorem apart_cons_of_neg {a : α} {l : List α} (hp : p a = false) :
    Apart p q (a :: l) ↔ Apart p q l := by
  rw [apart_cons]
  exact and_iff_right fun h => by rw [hp] at h; cases h

theorem apart_of_forall {l : List α} (h : ∀ b ∈ l, q b = false) : Apart p q l := by
  induction l with
  | nil => exact List.isChain_nil
  | cons a rest ih =>
      rw [apart_cons]
      constructor
      · intro _ b hb
        exact h b (List.mem_cons_of_mem _ (List.mem_of_mem_head? hb))
      · exact ih fun b hb => h b (List.mem_cons_of_mem _ hb)

/-! ## One step of the loop -/

section Steps
variable {size : ℕ} {a : α} {rest : List α}

theorem run_nil (behind : Bool) : run go p behind size [] = empty := by
  cases behind <;> rfl

theorem run_over : run go p true size (a :: rest) = (run go p false size rest).passOver a := rfl

theorem run_stop (h : go size = false) : run go p false size (a :: rest) = ⟨a :: rest, [], []⟩ := by
  rw [run, h]
  rfl

theorem run_erase (h : go size = true) (hp : p a = true) :
    run go p false size (a :: rest) = (run go p true (size - 1) rest).erase a := by
  rw [run, if_pos h, if_pos hp]

theorem run_leave (h : go size = true) (hp : p a = false) :
    run go p false size (a :: rest) = (run go p false size rest).leave a := by
  rw [run, if_pos h, hp]
  rfl

end Steps

/-! ## A loop to the end -/

section Always
variable {size : ℕ} {behind : Bool} {l : List α}

/-- Nothing is passed over that should be erased. -/
def Clear (p q : α → Bool) (behind : Bool) (l : List α) : Prop :=
  (behind = true → ∀ a ∈ l.head?, q a = false) ∧ Apart p q l

theorem clear_nil : Clear p q behind [] := by
  constructor
  · intro _ a ha
    cases ha
  · exact List.isChain_nil

theorem clear_false : Clear p q false l ↔ Apart p q l :=
  and_iff_right (fun h => by cases h)

theorem clear_true_cons {a : α} :
    Clear p q true (a :: l) ↔ q a = false ∧ Apart p q (a :: l) := by
  apply and_congr_left
  intro _
  exact ⟨fun h => h rfl a rfl, fun h _ b hb => by cases hb; exact h⟩

theorem apart_cons_iff_clear {a : α} : Apart p q (a :: l) ↔ Clear p q (p a) l :=
  apart_cons

/-- Everything that should be erased is erased if and only if nothing of it is passed over. -/
theorem kept_run_iff :
    (run (fun _ => true) p behind size l).kept = l.filter (fun a => !p a) ↔ Clear p p behind l := by
  induction l generalizing behind size with
  | nil =>
      rw [run_nil]
      exact iff_of_true rfl clear_nil
  | cons a rest ih =>
      cases behind with
      | true =>
          rw [run_over, clear_true_cons, apart_cons_iff_clear]
          change a :: (run _ p false size rest).kept = _ ↔ _
          cases hp : p a with
          | true =>
              apply iff_of_false
              · intro h
                have hmem : a ∈ (a :: rest).filter fun a => !p a := by
                  rw [← h]
                  exact List.mem_cons_self
                rw [List.mem_filter, hp] at hmem
                cases hmem.2
              · intro h
                cases h.1
          | false =>
              rw [List.filter_cons_of_pos (by rw [hp]; rfl), List.cons_inj_right, ih]
              exact (and_iff_right rfl).symm
      | false =>
          rw [clear_false, apart_cons_iff_clear]
          cases hp : p a with
          | true =>
              rw [run_erase rfl hp, List.filter_cons_of_neg (by rw [hp]; decide)]
              exact ih
          | false =>
              rw [run_leave rfl hp, List.filter_cons_of_pos (by rw [hp]; rfl), ← ih]
              exact List.cons_inj_right a

theorem erased_run (h : Clear p p behind l) :
    (run (fun _ => true) p behind size l).erased = l.filter p := by
  induction l generalizing behind size with
  | nil => rw [run_nil]; rfl
  | cons a rest ih =>
      cases behind with
      | true =>
          obtain ⟨hp, hrest⟩ := clear_true_cons.1 h
          rw [run_over, List.filter_cons_of_neg (by rw [hp]; decide)]
          exact ih (clear_false.2 ((apart_cons_of_neg hp).1 hrest))
      | false =>
          have hrest := apart_cons_iff_clear.1 (clear_false.1 h)
          cases hp : p a with
          | true =>
              rw [hp] at hrest
              rw [run_erase rfl hp, List.filter_cons_of_pos hp, ← ih hrest]
              rfl
          | false =>
              rw [hp] at hrest
              rw [run_leave rfl hp, List.filter_cons_of_neg (by rw [hp]; decide), ← ih hrest]
              rfl

theorem all_iff : (all p l).kept = l.filter (fun a => !p a) ∧ (all p l).erased = l.filter p ↔
    Apart p p l := by
  constructor
  · intro h
    exact clear_false.1 (kept_run_iff.1 h.1)
  · intro h
    exact ⟨kept_run_iff.2 (clear_false.2 h), erased_run (clear_false.2 h)⟩

/-- Nothing else is erased. -/
theorem filter_kept_run :
    (run go p behind size l).kept.filter (fun a => !p a) = l.filter (fun a => !p a) := by
  induction l generalizing behind size with
  | nil => rw [run_nil]; rfl
  | cons a rest ih =>
      cases behind with
      | true =>
          change (a :: (run go p false size rest).kept).filter _ = _
          rw [List.filter_cons, List.filter_cons, ih]
      | false =>
          cases hgo : go size with
          | false => rw [run_stop hgo]
          | true =>
              cases hp : p a with
              | true =>
                  rw [run_erase hgo hp, List.filter_cons_of_neg (by rw [hp]; decide)]
                  exact ih
              | false =>
                  rw [run_leave hgo hp]
                  change (a :: (run go p false size rest).kept).filter _ = _
                  rw [List.filter_cons, List.filter_cons, ih]

theorem kept_all_iff : (∀ a ∈ (all p l).kept, p a = false) ↔ Apart p p l := by
  have hfilter : (all p l).kept.filter (fun a => !p a) = l.filter (fun a => !p a) :=
    filter_kept_run
  rw [← clear_false, ← @kept_run_iff _ p l.length, ← hfilter]
  constructor
  · intro h
    exact (List.filter_eq_self.2 fun a ha => by rw [h a ha]; rfl).symm
  · intro h a ha
    have hkept := List.filter_eq_self.1 h.symm a ha
    rwa [Bool.not_eq_true'] at hkept

theorem kept_sublist : (run go p behind size l).kept.Sublist l := by
  induction l generalizing behind size with
  | nil =>
      rw [run_nil]
      exact List.Sublist.slnil
  | cons a rest ih =>
      cases behind with
      | true => exact ih.cons_cons a
      | false =>
          cases hgo : go size with
          | false => rw [run_stop hgo]
          | true =>
              cases hp : p a with
              | true =>
                  rw [run_erase hgo hp]
                  exact ih.cons a
              | false =>
                  rw [run_leave hgo hp]
                  exact ih.cons_cons a

theorem mem_of_mem_visited {b : α} (h : b ∈ (run go p behind size l).visited) : b ∈ l := by
  induction l generalizing behind size with
  | nil =>
      rw [run_nil] at h
      cases h
  | cons a rest ih =>
      cases behind with
      | true => exact List.mem_cons_of_mem a (ih h)
      | false =>
          cases hgo : go size with
          | false =>
              rw [run_stop hgo] at h
              cases h
          | true =>
              cases hp : p a with
              | true =>
                  rw [run_erase hgo hp] at h
                  exact List.mem_cons_of_mem a (ih h)
              | false =>
                  rw [run_leave hgo hp] at h
                  rcases List.mem_cons.1 h with heq | hmem
                  · rw [heq]
                    exact List.mem_cons_self
                  · exact List.mem_cons_of_mem a (ih hmem)

/-- A loop without a miss looks at the only element that is looked for, unless it passes it over. -/
theorem any_visited_run (hpq : ∀ a, q a = true → p a = false)
    (hone : l.Pairwise fun a b => q a = true → q b = false) (h : Clear p p behind l) :
    ((run (fun _ => true) p behind size l).visited.any q = l.any q ↔ Clear p q behind l) := by
  induction l generalizing behind size with
  | nil =>
      rw [run_nil]
      exact iff_of_true rfl clear_nil
  | cons a rest ih =>
      obtain ⟨hhead, hrest⟩ := List.pairwise_cons.1 hone
      rw [List.any_cons]
      cases behind with
      | true =>
          obtain ⟨hp, happart⟩ := clear_true_cons.1 h
          have hnext := clear_false.2 ((apart_cons_of_neg hp).1 happart)
          rw [run_over, clear_true_cons, apart_cons_of_neg hp]
          change (run _ p false size rest).visited.any q = _ ↔ _
          cases hq : q a with
          | true =>
              apply iff_of_false
              · rw [Bool.true_or, List.any_eq_true]
                rintro ⟨b, hb, hqb⟩
                rw [hhead b (mem_of_mem_visited hb) hq] at hqb
                cases hqb
              · intro hfalse
                cases hfalse.1
          | false =>
              rw [Bool.false_or, ih hrest hnext, clear_false]
              exact (and_iff_right rfl).symm
      | false =>
          have hnext := apart_cons_iff_clear.1 (clear_false.1 h)
          rw [clear_false, apart_cons_iff_clear]
          cases hp : p a with
          | true =>
              rw [hp] at hnext
              have hq : q a = false := by
                cases hq : q a with
                | true => rw [hpq a hq] at hp; cases hp
                | false => rfl
              rw [run_erase rfl hp, hq, Bool.false_or]
              exact ih hrest hnext
          | false =>
              rw [hp] at hnext
              rw [run_leave rfl hp]
              change (a :: (run _ p false size rest).visited).any q = _ ↔ _
              rw [List.any_cons]
              cases hq : q a with
              | true =>
                  have happart : Apart p q rest := apart_of_forall fun b hb => hhead b hb hq
                  exact iff_of_true rfl (clear_false.2 happart)
              | false =>
                  rw [Bool.false_or, Bool.false_or]
                  exact ih hrest hnext

theorem any_visited_all (hpq : ∀ a, q a = true → p a = false)
    (hone : l.Pairwise fun a b => q a = true → q b = false) (h : Apart p p l) :
    ((all p l).visited.any q = l.any q ↔ Apart p q l) := by
  rw [← clear_false]
  exact any_visited_run hpq hone (clear_false.2 h)

/-! ## How many are erased -/

theorem everyOther_cons (a : α) (l : List α) : everyOther (a :: l) = a :: everyOther l.tail := by
  cases l <;> rfl

/-- What is erased of blocks of neighbours, the first of them being passed over. -/
def fromBlocks (behind : Bool) (blocks : List (List α)) : List α :=
  everyOther (if behind then (blocks.headD []).tail else blocks.headD []) ++
    blocks.tail.flatMap everyOther

theorem fromBlocks_false {blocks : List (List α)} :
    fromBlocks false blocks = blocks.flatMap everyOther := by
  cases blocks with
  | nil => rfl
  | cons block rest => rfl

theorem erased_run_eq :
    (run (fun _ => true) p behind size l).erased =
      fromBlocks behind (l.splitOnP fun a => !p a) := by
  induction l generalizing behind size with
  | nil =>
      rw [run_nil]
      cases behind <;> rfl
  | cons a rest ih =>
      obtain ⟨block, blocks, hblocks⟩ :=
        List.exists_cons_of_ne_nil (List.splitOnP_ne_nil (fun a => !p a) rest)
      rw [List.splitOnP_cons_eq_if_modifyHead]
      rw [hblocks] at ih ⊢
      cases hp : p a with
      | true =>
          rw [Bool.not_true, if_neg Bool.false_ne_true, List.modifyHead_cons]
          cases behind with
          | true => exact ih
          | false =>
              rw [run_erase rfl hp]
              change a :: (run _ p true (size - 1) rest).erased = everyOther (a :: block) ++ _
              rw [ih, everyOther_cons]
              rfl
      | false =>
          rw [Bool.not_false, if_pos rfl]
          cases behind with
          | true => exact ih
          | false =>
              rw [run_leave rfl hp]
              exact ih

theorem erased_all : (all p l).erased = alternate p l := by
  rw [all, erased_run_eq, fromBlocks_false, alternate]

theorem length_run : (run go p behind size l).kept.length + (run go p behind size l).erased.length =
    l.length := by
  induction l generalizing behind size with
  | nil => rw [run_nil]; rfl
  | cons a rest ih =>
      rw [List.length_cons]
      cases behind with
      | true =>
          rw [run_over, ← ih]
          exact Nat.add_right_comm _ 1 _
      | false =>
          cases hgo : go size with
          | false =>
              rw [run_stop hgo]
              rfl
          | true =>
              cases hp : p a with
              | true =>
                  rw [run_erase hgo hp, ← ih]
                  rfl
              | false =>
                  rw [run_leave hgo hp, ← ih]
                  exact Nat.add_right_comm _ 1 _

end Always

/-! ## A loop that makes room -/

section Room
variable {limit size : ℕ} {behind : Bool} {l : List α}

/-- What a loop to the end leaves is still too much: the loop that makes room runs to the end. -/
theorem run_room_of_le
    (h : limit + (run (fun _ => true) p behind size l).erased.length ≤ size) :
    run (fun n => limit ≤ n) p behind size l = run (fun _ => true) p behind size l := by
  induction l generalizing behind size with
  | nil => rw [run_nil, run_nil]
  | cons a rest ih =>
      cases behind with
      | true =>
          rw [run_over, run_over, ih h]
      | false =>
          have hgo : decide (limit ≤ size) = true := decide_eq_true (by omega)
          cases hp : p a with
          | true =>
              rw [run_erase rfl hp] at h
              rw [run_erase hgo hp, run_erase rfl hp, ih]
              change limit + ((run _ p true (size - 1) rest).erased.length + 1) ≤ size at h
              omega
          | false =>
              rw [run_leave rfl hp] at h
              rw [run_leave hgo hp, run_leave rfl hp, ih h]

/-- Otherwise it stops with room. -/
theorem run_room_of_lt
    (h : size < limit + (run (fun _ => true) p behind size l).erased.length) :
    size < limit + (run (fun n => limit ≤ n) p behind size l).erased.length := by
  induction l generalizing behind size with
  | nil => exact h
  | cons a rest ih =>
      cases behind with
      | true => exact ih h
      | false =>
          by_cases hle : limit ≤ size
          · have hgo : decide (limit ≤ size) = true := decide_eq_true hle
            cases hp : p a with
            | true =>
                rw [run_erase rfl hp] at h
                rw [run_erase hgo hp]
                change size < limit + ((run _ p true (size - 1) rest).erased.length + 1) at h
                change size < limit + ((run _ p true (size - 1) rest).erased.length + 1)
                rcases Nat.eq_zero_or_pos size with hzero | hpos
                · omega
                · have := @ih (size - 1) true (by omega)
                  omega
            | false =>
                rw [run_leave rfl hp] at h
                rw [run_leave hgo hp]
                exact ih h
          · omega

/-- A loop that goes on until there is room. -/
def room (limit : ℕ) (p : α → Bool) (l : List α) : Sweep α :=
  run (fun n => limit ≤ n) p false l.length l

theorem room_full_iff :
    limit ≤ (room limit p l).kept.length ↔ limit + (alternate p l).length ≤ l.length := by
  have hroom : (room limit p l).kept.length + (room limit p l).erased.length = l.length :=
    length_run
  rw [← erased_all]
  constructor
  · intro h
    by_contra hlt
    have hless : l.length < limit + (room limit p l).erased.length :=
      run_room_of_lt (Nat.lt_of_not_le hlt)
    omega
  · intro h
    have heq : room limit p l = all p l := run_room_of_le h
    rw [heq] at hroom ⊢
    omega

/-- If it ends without room, all that is left is not to be erased exactly when no two neighbours
were. -/
theorem room_iff : (limit ≤ (room limit p l).kept.length →
    ∀ a ∈ (room limit p l).kept, p a = false) ↔
      (limit + (alternate p l).length ≤ l.length → Apart p p l) := by
  rw [room_full_iff]
  apply imp_congr_right
  intro h
  have heq : room limit p l = all p l := run_room_of_le (by rwa [← erased_all] at h)
  rw [heq]
  exact kept_all_iff

end Room

end Sweep
