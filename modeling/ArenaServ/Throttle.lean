import Mathlib.Data.List.Flatten
import Mathlib.Logic.Function.Basic
import Mathlib.Tactic.SplitIfs

/-!
# Throttled visits

Visits are served in order. Whoever makes one is served if its stamp is ready, and gets a new stamp
when it is. What comes of it for one key depends on the visits of that key alone.
-/

/-- The stamps of the keys, and what has been put out. -/
structure Throttle (κ τ β : Type*) where
  stamp : κ → τ
  output : List β

namespace Throttle
open Function

variable {κ τ α β : Type*}

/-- Those visits of one key that are served. -/
def admitted (ready : τ → Bool) (now : τ) : τ → List α → List α
  | _, [] => []
  | stamp, v :: rest => if ready stamp then v :: admitted ready now now rest else []

variable [DecidableEq κ] (ready : τ → Bool) (now : τ) (key : α → κ) (serve : α → List β)

def visit (t : Throttle κ τ β) (v : α) : Throttle κ τ β :=
  if ready (t.stamp (key v)) then ⟨update t.stamp (key v) now, t.output ++ serve v⟩ else t

variable {ready now key serve}

omit [DecidableEq κ] in
theorem admitted_of_not {stamp : τ} (h : ready stamp = false) (visits : List α) :
    admitted ready now stamp visits = [] := by
  cases visits with
  | nil => rfl
  | cons v rest => rw [admitted, if_neg (by rw [h]; decide)]

theorem mem_of_mem_admitted {stamp : τ} {visits : List α} {v : α}
    (h : v ∈ admitted ready now stamp visits) : v ∈ visits := by
  induction visits generalizing stamp with
  | nil => exact h
  | cons u rest ih =>
      rw [admitted] at h
      split_ifs at h with hready
      · rcases List.mem_cons.mp h with rfl | h
        · exact List.mem_cons_self
        · exact List.mem_cons_of_mem u (ih h)
      · cases h

theorem admitted_map {γ : Type*} (f : γ → α) (stamp : τ) (visits : List γ) :
    admitted ready now stamp (visits.map f) = (admitted ready now stamp visits).map f := by
  induction visits generalizing stamp with
  | nil => rfl
  | cons v rest ih =>
      rw [List.map_cons, admitted, admitted, ih]
      split_ifs
      · rfl
      · rfl

/-- Where a stamp that has just been given is not ready, only the first visit is served. -/
theorem admitted_of_not_now (h : ready now = false) (stamp : τ) (visits : List α) :
    admitted ready now stamp visits = if ready stamp then visits.take 1 else [] := by
  cases visits with
  | nil => rw [admitted, List.take_nil, ite_self]
  | cons v rest => rw [admitted, admitted_of_not h, List.take_succ_cons, List.take_zero]

theorem filter_output {owner : β → κ} (howner : ∀ v, ∀ b ∈ serve v, owner b = key v) (k : κ)
    (t : Throttle κ τ β) (visits : List α) :
    ((visits.foldl (visit ready now key serve) t).output.filter (owner · = k)) =
      t.output.filter (owner · = k) ++
        (admitted ready now (t.stamp k) (visits.filter (key · = k))).flatMap serve := by
  induction visits generalizing t with
  | nil => exact (List.append_nil _).symm
  | cons v rest ih =>
      rw [List.foldl_cons, ih, visit]
      by_cases hk : key v = k
      · have hmine : (v :: rest).filter (key · = k) = v :: rest.filter (key · = k) :=
          List.filter_cons_of_pos (decide_eq_true hk)
        rw [hmine, admitted, ← hk]
        split_ifs with hready
        · have hall : (serve v).filter (owner · = key v) = serve v :=
            List.filter_eq_self.mpr fun b hb => decide_eq_true (howner v b hb)
          dsimp only
          rw [List.filter_append, hall, update_self, List.flatMap_cons, List.append_assoc]
        · rw [admitted_of_not (by simpa using hready)]
      · have hother : (v :: rest).filter (key · = k) = rest.filter (key · = k) :=
          List.filter_cons_of_neg (by simpa using hk)
        rw [hother]
        split_ifs with hready
        · have hnone : (serve v).filter (owner · = k) = [] := by
            apply List.filter_eq_nil_iff.mpr
            intro b hb
            rw [howner v b hb, decide_eq_true_iff]
            exact hk
          dsimp only
          rw [List.filter_append, hnone, List.append_nil, update_of_ne (Ne.symm hk)]
        · rfl

end Throttle
