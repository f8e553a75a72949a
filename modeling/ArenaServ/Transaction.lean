import Mathlib.Data.List.Nodup
import Mathlib.Logic.Function.Basic

/-!
# Tables and a transaction

What a database has committed, and what the statements of an open transaction have made of
it. Outside a transaction a statement takes effect at once.
-/

/-! ## Rows -/

section Rows
variable {κ ρ : Type*} [DecidableEq κ]

/-- An `UPDATE` of the row with a key, if there is one. -/
def updateRow (k : κ) (r : ρ) (rows : κ → Option ρ) : κ → Option ρ :=
  Function.update rows k ((rows k).map fun _ => r)

def updateRows (es : List (κ × ρ)) (rows : κ → Option ρ) : κ → Option ρ :=
  es.foldl (fun rows e => updateRow e.1 e.2 rows) rows

variable {rows : κ → Option ρ} {es : List (κ × ρ)} {k : κ} {r : ρ}

theorem updateRow_self : updateRow k r rows k = (rows k).map fun _ => r :=
  Function.update_self ..

theorem updateRow_of_ne {j : κ} (h : j ≠ k) : updateRow k r rows j = rows j :=
  Function.update_of_ne h ..

theorem isSome_updateRow (j : κ) : (updateRow k r rows j).isSome = (rows j).isSome := by
  by_cases hj : j = k
  · rw [hj, updateRow_self, Option.isSome_map]
  · rw [updateRow_of_ne hj]

theorem updateRows_of_not_mem (h : k ∉ es.map Prod.fst) : updateRows es rows k = rows k := by
  induction es generalizing rows with
  | nil => rfl
  | cons e rest ih =>
      rw [List.map_cons, List.mem_cons, not_or] at h
      rw [updateRows, List.foldl_cons]
      exact (ih h.2).trans (updateRow_of_ne h.1)

theorem updateRows_of_mem (hes : (es.map Prod.fst).Nodup) (h : (k, r) ∈ es) :
    updateRows es rows k = (rows k).map fun _ => r := by
  induction es generalizing rows with
  | nil => cases h
  | cons e rest ih =>
      obtain ⟨he, hrest⟩ := List.nodup_cons.mp hes
      rw [updateRows, List.foldl_cons]
      rcases List.mem_cons.mp h with rfl | h
      · exact (updateRows_of_not_mem he).trans updateRow_self
      · have hne : k ≠ e.1 := fun heq => he (heq ▸ List.mem_map_of_mem h)
        refine (ih hrest h).trans ?_
        rw [updateRow_of_ne hne]

end Rows

/-! ## The transaction -/

structure Transactional (τ : Type*) where
  committed : τ
  working : Option τ

namespace Transactional

variable {τ : Type*}

/-- No transaction is open. -/
def settled (t : τ) : Transactional τ := ⟨t, none⟩

def isOpen (s : Transactional τ) : Bool := s.working.isSome

/-- What queries see. -/
def current (s : Transactional τ) : τ := s.working.getD s.committed

/-- Opens a transaction unless one is open. -/
def openUp (s : Transactional τ) : Transactional τ := { s with working := some s.current }

def update (f : τ → τ) (s : Transactional τ) : Transactional τ :=
  match s.working with
  | none => { s with committed := f s.committed }
  | some t => { s with working := some (f t) }

def commit (s : Transactional τ) : Transactional τ := settled s.current

def rollback (s : Transactional τ) : Transactional τ := settled s.committed

variable (s : Transactional τ) (f : τ → τ)

@[simp] theorem current_settled (t : τ) : (settled t).current = t := rfl

@[simp] theorem current_openUp : s.openUp.current = s.current := rfl

@[simp] theorem committed_openUp : s.openUp.committed = s.committed := rfl

@[simp] theorem isOpen_openUp : s.openUp.isOpen = true := rfl

@[simp] theorem committed_commit : s.commit.committed = s.current := rfl

@[simp] theorem committed_rollback : s.rollback.committed = s.committed := rfl

@[simp] theorem current_update : (s.update f).current = f s.current := by
  obtain ⟨committed, working⟩ := s
  cases working <;> rfl

@[simp] theorem isOpen_update : (s.update f).isOpen = s.isOpen := by
  obtain ⟨committed, working⟩ := s
  cases working <;> rfl

/-- Nothing is committed before the end of a transaction. -/
theorem committed_update (h : s.isOpen = true) : (s.update f).committed = s.committed := by
  obtain ⟨committed, working⟩ := s
  cases working with
  | none => cases h
  | some t => rfl

/-- Without a transaction a statement takes effect. -/
theorem committed_update_of_not_isOpen (h : s.isOpen = false) :
    (s.update f).committed = f s.committed := by
  obtain ⟨committed, working⟩ := s
  cases working with
  | none => rfl
  | some t => cases h

theorem current_of_not_isOpen (h : s.isOpen = false) : s.current = s.committed := by
  obtain ⟨committed, working⟩ := s
  cases working with
  | none => rfl
  | some t => cases h

end Transactional
