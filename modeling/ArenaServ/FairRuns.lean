import ArenaServ.RunSteps
import Mathlib.Data.List.Range

/-!
# Runs that get somewhere

When each state before the end has steps that bring it closer, and the other steps keep those that
do, then a sequence of steps in which one of them always comes again gets to the end.
-/

namespace RunSteps
variable {σ α : Type*} {next : σ → α → Option σ}

/-- What the steps of a state do on the way to `Done`. -/
structure Progresses (next : σ → α → Option σ) (I Done : σ → Prop) (useful : σ → α → Prop)
    (distance : σ → ℕ) : Prop where
  defined : ∀ s a, I s → ¬ Done s → ∃ s', next s a = some s' ∧ I s'
  closer : ∀ s a s', I s → ¬ Done s → next s a = some s' → useful s a →
    Done s' ∨ distance s' < distance s
  others : ∀ s a s', I s → ¬ Done s → next s a = some s' → ¬ useful s a →
    Done s' ∨ distance s' ≤ distance s ∧ ∀ b, useful s b → useful s' b

theorem run_range_succ (f : ℕ → α) (s : σ) (n : ℕ) :
    run next s ((List.range (n + 1)).map f) =
      (next s (f 0)).bind fun s' => run next s' ((List.range n).map fun i => f (i + 1)) := by
  rw [List.range_succ_eq_map, List.map_cons, List.map_map]
  rfl

variable {I Done : σ → Prop} {useful : σ → α → Prop} {distance : σ → ℕ}

/-- One useful step in the future is enough to be done or to come closer. -/
theorem Progresses.closer_of_useful (h : Progresses next I Done useful distance) {s : σ} (hs : I s)
    (hnot : ¬ Done s) (f : ℕ → α) (j : ℕ) (huseful : useful s (f j)) :
    ∃ n s', run next s ((List.range n).map f) = some s' ∧ I s' ∧
      (Done s' ∨ distance s' < distance s) := by
  induction j generalizing s f with
  | zero =>
      obtain ⟨s', hnext, hs'⟩ := h.defined s (f 0) hs hnot
      refine ⟨1, s', ?_, hs', h.closer s (f 0) s' hs hnot hnext huseful⟩
      rw [run_range_succ, hnext]
      rfl
  | succ j ih =>
      obtain ⟨s', hnext, hs'⟩ := h.defined s (f 0) hs hnot
      have hfirst : run next s ((List.range 1).map f) = some s' := by
        rw [run_range_succ, hnext]
        rfl
      by_cases hnow : useful s (f 0)
      · exact ⟨1, s', hfirst, hs', h.closer s (f 0) s' hs hnot hnext hnow⟩
      · by_cases hdone : Done s'
        · exact ⟨1, s', hfirst, hs', Or.inl hdone⟩
        · obtain ⟨hle, hkeep⟩ := (h.others s (f 0) s' hs hnot hnext hnow).resolve_left hdone
          obtain ⟨n, s'', hrun, hs'', hcloser⟩ :=
            ih hs' hdone (fun i => f (i + 1)) (hkeep _ huseful)
          refine ⟨n + 1, s'', ?_, hs'', hcloser.imp_right fun hlt => lt_of_lt_of_le hlt hle⟩
          rw [run_range_succ, hnext]
          exact hrun

theorem run_range_add (f : ℕ → α) (s : σ) (m n : ℕ) :
    run next s ((List.range (m + n)).map f) =
      (run next s ((List.range m).map f)).bind fun s' =>
        run next s' ((List.range n).map fun i => f (m + i)) := by
  induction m generalizing s f with
  | zero =>
      rw [Nat.zero_add]
      simp only [Nat.zero_add]
      rfl
  | succ m ih =>
      rw [Nat.succ_add, run_range_succ, run_range_succ]
      cases next s (f 0) with
      | none => rfl
      | some s' =>
          rw [Option.bind_some, Option.bind_some, ih]
          have hindex : ∀ i, m + i + 1 = m + 1 + i := fun i => by omega
          simp only [hindex]

/-- The end is reached if a useful step always comes again. -/
theorem Progresses.exists_done (h : Progresses next I Done useful distance) {s : σ} (hs : I s)
    (f : ℕ → α) (hfair : ∀ s, I s → ¬ Done s → ∀ i, ∃ j, i ≤ j ∧ useful s (f j)) :
    ∃ n s', run next s ((List.range n).map f) = some s' ∧ I s' ∧ Done s' := by
  induction hd : distance s using Nat.strong_induction_on generalizing s f with
  | h d ih =>
      by_cases hdone : Done s
      · exact ⟨0, s, rfl, hs, hdone⟩
      · obtain ⟨j, -, huseful⟩ := hfair s hs hdone 0
        obtain ⟨m, s', hrun, hs', hdone' | hlt⟩ := h.closer_of_useful hs hdone f j huseful
        · exact ⟨m, s', hrun, hs', hdone'⟩
        · rw [hd] at hlt
          have hfair' : ∀ s, I s → ¬ Done s → ∀ i, ∃ j, i ≤ j ∧ useful s (f (m + j)) := by
            intro t ht hnot i
            obtain ⟨j, hij, hj⟩ := hfair t ht hnot (m + i)
            refine ⟨j - m, by omega, ?_⟩
            have hindex : m + (j - m) = j := by omega
            rwa [hindex]
          obtain ⟨n, s'', hrest, hs'', hend⟩ :=
            ih (distance s') hlt hs' (fun i => f (m + i)) hfair' rfl
          refine ⟨m + n, s'', ?_, hs'', hend⟩
          rw [run_range_add, hrun]
          exact hrest

end RunSteps
