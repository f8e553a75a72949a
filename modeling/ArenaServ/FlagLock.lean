import Mathlib.Data.List.Nodup
import Mathlib.Logic.Function.Basic

/-!
# Locks that are flags

A lock is a flag for each key; who has taken it is not recorded with it. The list `held`
of the keys of all holders says what the flags should be: `Exclusive` when no flag of a
guarded key is missing (nobody looks at the flags of the others), `Accounted` when no
flag is left over.
-/

namespace FlagLock

variable {K : Type*} [DecidableEq K] {guarded flags : K → Bool} {held before after : List K} {k : K}

/-- Every holder's flag is set, and no key has two holders. -/
structure Exclusive (guarded flags : K → Bool) (held : List K) : Prop where
  flagged : ∀ k ∈ held, guarded k = true → flags k = true
  nodup : (held.filter guarded).Nodup

/-- Every flag that is set has a holder. -/
def Accounted (flags : K → Bool) (held : List K) : Prop := ∀ k, flags k = true → k ∈ held

omit [DecidableEq K] in
theorem Exclusive.notMem (h : Exclusive guarded flags held) (hguard : guarded k = true)
    (hk : flags k = false) : k ∉ held := by
  intro hmem
  rw [h.flagged k hmem hguard] at hk
  cases hk

theorem Exclusive.setFlag (h : Exclusive guarded flags held) (k : K) :
    Exclusive guarded (Function.update flags k true) held := by
  refine ⟨?_, h.nodup⟩
  intro k' hk' hguard
  by_cases heq : k' = k
  · rw [heq, Function.update_self]
  · rw [Function.update_of_ne heq]
    exact h.flagged k' hk' hguard

theorem Exclusive.clearFlag (h : Exclusive guarded flags held)
    (hk : guarded k = true → k ∉ held) :
    Exclusive guarded (Function.update flags k false) held := by
  refine ⟨?_, h.nodup⟩
  intro k' hk' hguard
  have hne : k' ≠ k := fun heq => hk (heq ▸ hguard) (heq ▸ hk')
  rw [Function.update_of_ne hne]
  exact h.flagged k' hk' hguard

/-- Taking a lock whose flag was not set. -/
theorem Exclusive.acquire (h : Exclusive guarded flags held)
    (hk : guarded k = true → flags k = false) :
    Exclusive guarded (Function.update flags k true) (held ++ [k]) := by
  have hset := h.setFlag k
  refine ⟨?_, ?_⟩
  · intro k' hk' hguard
    rcases List.mem_append.mp hk' with hold | hnew
    · exact hset.flagged k' hold hguard
    · rw [List.mem_singleton.mp hnew, Function.update_self]
  · rw [List.filter_append, List.nodup_append]
    refine ⟨h.nodup, (List.nodup_singleton k).filter _, ?_⟩
    intro a ha b hb heq
    obtain ⟨hb, hguard⟩ := List.mem_filter.mp hb
    obtain rfl : b = k := List.mem_singleton.mp hb
    exact h.notMem hguard (hk hguard) (heq ▸ (List.mem_filter.mp ha).1)

omit [DecidableEq K] in
/-- A holder that goes without clearing the flag. -/
theorem Exclusive.abandon (h : Exclusive guarded flags (before ++ k :: after)) :
    Exclusive guarded flags (before ++ after) := by
  have hsub : (before ++ after).Sublist (before ++ k :: after) :=
    (List.Sublist.refl before).append (List.sublist_cons_self k after)
  exact ⟨fun k' hk' => h.flagged k' (hsub.subset hk'), h.nodup.sublist (hsub.filter guarded)⟩

omit [DecidableEq K] in
/-- The holder of a guarded key is the only one. -/
theorem Exclusive.notMem_others (h : Exclusive guarded flags (before ++ k :: after))
    (hguard : guarded k = true) : k ∉ before ++ after := by
  have hnodup := h.nodup
  rw [List.filter_append, List.filter_cons_of_pos hguard, List.nodup_middle,
    List.nodup_cons, ← List.filter_append] at hnodup
  exact fun hmem => hnodup.1 (List.mem_filter.mpr ⟨hmem, hguard⟩)

theorem Exclusive.release (h : Exclusive guarded flags (before ++ k :: after)) :
    Exclusive guarded (Function.update flags k false) (before ++ after) :=
  h.abandon.clearFlag h.notMem_others

theorem Accounted.clearFlag (h : Accounted flags held) (k : K) :
    Accounted (Function.update flags k false) held := by
  intro k' hk'
  by_cases heq : k' = k
  · rw [heq, Function.update_self] at hk'
    cases hk'
  · rw [Function.update_of_ne heq] at hk'
    exact h k' hk'

theorem Accounted.acquire (h : Accounted flags held) (k : K) :
    Accounted (Function.update flags k true) (held ++ [k]) := by
  intro k' hk'
  rw [List.mem_append, List.mem_singleton]
  by_cases heq : k' = k
  · exact Or.inr heq
  · rw [Function.update_of_ne heq] at hk'
    exact Or.inl (h k' hk')

theorem Accounted.release (h : Accounted flags (before ++ k :: after)) :
    Accounted (Function.update flags k false) (before ++ after) := by
  intro k' hk'
  by_cases heq : k' = k
  · rw [heq, Function.update_self] at hk'
    cases hk'
  · rw [Function.update_of_ne heq] at hk'
    have hmem := h k' hk'
    rw [List.mem_append, List.mem_cons] at hmem
    rw [List.mem_append]
    rcases hmem with hbefore | hsame | hafter
    · exact Or.inl hbefore
    · exact absurd hsame heq
    · exact Or.inr hafter

end FlagLock
