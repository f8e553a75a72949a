import Mathlib.Logic.Function.Basic

/-!
# Caches of weak pointers

An object is cached under its key when it is made. When it is destroyed it removes what is cached
under that key, whether that is still itself or not.
-/

/-- The keys of the objects that are alive, and what is cached. -/
structure WeakCache (κ ω : Type*) where
  key : ω → Option κ
  entry : κ → Option ω

namespace WeakCache
open Function

variable {κ ω : Type*}

/-- Nothing is cached that has been destroyed. -/
def Pointed (c : WeakCache κ ω) : Prop := ∀ k o, c.entry k = some o → c.key o = some k

/-- Each object that is alive is found under its key. -/
def Faithful (c : WeakCache κ ω) : Prop := ∀ o k, c.key o = some k → c.entry k = some o

variable {c : WeakCache κ ω} {o : ω} {k : κ}

theorem Pointed.entry_eq_none (h : c.Pointed) (hk : ∀ o, c.key o ≠ some k) : c.entry k = none := by
  cases hentry : c.entry k with
  | none => rfl
  | some o => exact absurd (h k o hentry) (hk o)

variable [DecidableEq κ] [DecidableEq ω]

def insert (c : WeakCache κ ω) (o : ω) (k : κ) : WeakCache κ ω :=
  ⟨update c.key o (some k), update c.entry k (some o)⟩

def erase (c : WeakCache κ ω) (k : κ) : WeakCache κ ω := { c with entry := update c.entry k none }

def destroy (c : WeakCache κ ω) (o : ω) : WeakCache κ ω :=
  match c.key o with
  | none => c
  | some k => ⟨update c.key o none, update c.entry k none⟩

/-- The last pointer to an object, if there is one, is given up. -/
def release (c : WeakCache κ ω) (o : Option ω) : WeakCache κ ω :=
  match o with
  | none => c
  | some o => c.destroy o

theorem destroy_of_dead (hdead : c.key o = none) : c.destroy o = c := by
  unfold destroy
  rw [hdead]

theorem destroy_of_live (hlive : c.key o = some k) :
    c.destroy o = ⟨update c.key o none, update c.entry k none⟩ := by
  unfold destroy
  rw [hlive]

theorem destroy_erase (hlive : c.key o = some k) : (c.erase k).destroy o = c.destroy o := by
  rw [destroy_of_live hlive, destroy_of_live (c := c.erase k) hlive]
  unfold erase
  rw [update_idem]

theorem pointed_insert (h : c.Pointed) (hfresh : c.key o = none) : (c.insert o k).Pointed := by
  intro k' o' hentry
  unfold insert at hentry ⊢
  dsimp only at hentry ⊢
  by_cases hk : k' = k
  · rw [hk, update_self] at hentry
    rw [← Option.some.inj hentry, hk, update_self]
  · rw [update_of_ne hk] at hentry
    have hkey := h k' o' hentry
    have hne : o' ≠ o := by
      rintro rfl
      rw [hfresh] at hkey
      cases hkey
    rw [update_of_ne hne, hkey]

theorem pointed_destroy (h : c.Pointed) : (c.destroy o).Pointed := by
  cases hkey : c.key o with
  | none =>
      rw [destroy_of_dead hkey]
      exact h
  | some k =>
      rw [destroy_of_live hkey]
      intro k' o' hentry
      dsimp only at hentry ⊢
      by_cases hk : k' = k
      · rw [hk, update_self] at hentry
        cases hentry
      · rw [update_of_ne hk] at hentry
        have hkey' := h k' o' hentry
        have hne : o' ≠ o := by
          rintro rfl
          rw [hkey] at hkey'
          exact hk (Option.some.inj hkey').symm
        rw [update_of_ne hne, hkey']

theorem pointed_release (h : c.Pointed) (o : Option ω) : (c.release o).Pointed := by
  cases o with
  | none => exact h
  | some o => exact pointed_destroy h

theorem faithful_destroy (h : c.Faithful) : (c.destroy o).Faithful := by
  cases hkey : c.key o with
  | none =>
      rw [destroy_of_dead hkey]
      exact h
  | some k =>
      rw [destroy_of_live hkey]
      intro o' k' hkey'
      dsimp only at hkey' ⊢
      by_cases ho : o' = o
      · rw [ho, update_self] at hkey'
        cases hkey'
      · rw [update_of_ne ho] at hkey'
        have hne : k' ≠ k := by
          rintro rfl
          have hentry := h o' k' hkey'
          rw [h o k' hkey] at hentry
          exact ho (Option.some.inj hentry).symm
        rw [update_of_ne hne]
        exact h o' k' hkey'

theorem faithful_release (h : c.Faithful) (o : Option ω) : (c.release o).Faithful := by
  cases o with
  | none => exact h
  | some o => exact faithful_destroy h

theorem faithful_insert (h : c.Faithful) (hunused : ∀ o', c.key o' ≠ some k) :
    (c.insert o k).Faithful := by
  intro o' k' hkey
  unfold insert at hkey ⊢
  dsimp only at hkey ⊢
  by_cases ho : o' = o
  · rw [ho, update_self] at hkey
    rw [ho, ← Option.some.inj hkey, update_self]
  · rw [update_of_ne ho] at hkey
    have hne : k' ≠ k := by
      rintro rfl
      exact hunused o' hkey
    rw [update_of_ne hne]
    exact h o' k' hkey

theorem key_insert_of_ne {o' : ω} (hne : o' ≠ o) : (c.insert o k).key o' = c.key o' :=
  update_of_ne hne _ _

theorem key_destroy_of_ne {o' : ω} (hne : o' ≠ o) : (c.destroy o).key o' = c.key o' := by
  cases hkey : c.key o with
  | none => rw [destroy_of_dead hkey]
  | some k =>
      rw [destroy_of_live hkey]
      exact update_of_ne hne _ _

theorem key_release_of_ne {old : Option ω} (hne : old ≠ some o) :
    (c.release old).key o = c.key o := by
  cases old with
  | none => rfl
  | some old => exact key_destroy_of_ne fun heq => hne (congrArg some heq.symm)

/-- An object takes the place of another one. If there is an object with the key of the new one,
then either both stay alive, or the one that goes takes the new entry with it. -/
theorem faithful_replace_iff (h : c.Faithful) (hfresh : c.key o = none) {old : Option ω}
    (hold : old ≠ some o) :
    ((c.insert o k).release old).Faithful ↔ ∀ o', c.key o' ≠ some k := by
  constructor
  · intro hfaithful o' hkey
    have hne : o' ≠ o := by
      rintro rfl
      rw [hfresh] at hkey
      cases hkey
    have hself : (c.insert o k).key o = some k := update_self _ _ _
    have hother : (c.insert o k).key o' = some k := by
      rw [key_insert_of_ne hne]
      exact hkey
    by_cases ho : old = some o'
    · -- the object that goes has the key
      rw [ho, release, destroy_of_live hother] at hfaithful
      have hentry := hfaithful o k (by
        dsimp only
        rw [update_of_ne hne.symm]
        exact hself)
      dsimp only at hentry
      rw [update_self] at hentry
      cases hentry
    · -- both stay
      have hentry := hfaithful o k ((key_release_of_ne hold).trans hself)
      rw [hfaithful o' k ((key_release_of_ne ho).trans hother)] at hentry
      exact hne (Option.some.inj hentry)
  · intro hunused
    exact faithful_release (faithful_insert h hunused) old

end WeakCache
