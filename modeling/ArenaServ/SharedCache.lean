import Mathlib.Data.List.Basic
import Mathlib.Logic.Function.Basic

/-!
# Caches that know an object under several keys

An object is cached under each key of what it stands for when it is made. When it is destroyed it
removes what is cached under these keys, whether that is still itself or not.
-/

/-- What the objects that are alive stand for, and what is cached. -/
structure SharedCache (ι κ ω : Type*) where
  object : ω → Option ι
  entry : κ → Option ω

namespace SharedCache
open Function

variable {ι κ ω : Type*} {keys : ι → List κ}

/-- Nothing is cached that has been destroyed, or under a key that it does not have. -/
def Pointed (keys : ι → List κ) (c : SharedCache ι κ ω) : Prop :=
  ∀ k o, c.entry k = some o → ∃ i, c.object o = some i ∧ k ∈ keys i

/-- Each object that is alive is found under each of its keys. -/
def Faithful (keys : ι → List κ) (c : SharedCache ι κ ω) : Prop :=
  ∀ o i, c.object o = some i → ∀ k ∈ keys i, c.entry k = some o

variable {c : SharedCache ι κ ω} {o o' : ω} {i i' : ι} {k : κ}

theorem Pointed.object_ne_none (h : c.Pointed keys) (hk : c.entry k = some o) :
    c.object o ≠ none := by
  obtain ⟨i, hi, -⟩ := h k o hk
  rw [hi]
  exact Option.some_ne_none i

/-- Two objects do not share a key. -/
theorem Faithful.eq_of_mem (h : c.Faithful keys) (hi : c.object o = some i)
    (hi' : c.object o' = some i') (hk : k ∈ keys i) (hk' : k ∈ keys i') : o = o' := by
  have hentry := h o i hi k hk
  rw [h o' i' hi' k hk'] at hentry
  exact (Option.some.inj hentry).symm

variable [DecidableEq κ] [DecidableEq ω]

def insert (keys : ι → List κ) (c : SharedCache ι κ ω) (o : ω) (i : ι) : SharedCache ι κ ω :=
  ⟨update c.object o (some i), fun k => if k ∈ keys i then some o else c.entry k⟩

def destroy (keys : ι → List κ) (c : SharedCache ι κ ω) (o : ω) : SharedCache ι κ ω :=
  (c.object o).elim c fun i =>
    ⟨update c.object o none, fun k => if k ∈ keys i then none else c.entry k⟩

theorem destroy_of_dead (hdead : c.object o = none) : c.destroy keys o = c := by
  unfold destroy
  rw [hdead]
  rfl

theorem destroy_of_live (hlive : c.object o = some i) : c.destroy keys o =
    ⟨update c.object o none, fun k => if k ∈ keys i then none else c.entry k⟩ := by
  unfold destroy
  rw [hlive]
  rfl

theorem pointed_insert (h : c.Pointed keys) (hfresh : c.object o = none) :
    (c.insert keys o i).Pointed keys := by
  intro k o' hentry
  unfold insert at hentry ⊢
  dsimp only at hentry ⊢
  by_cases hk : k ∈ keys i
  · rw [if_pos hk] at hentry
    rw [← Option.some.inj hentry, update_self]
    exact ⟨i, rfl, hk⟩
  · rw [if_neg hk] at hentry
    have hne : o' ≠ o := by
      rintro rfl
      exact h.object_ne_none hentry hfresh
    rw [update_of_ne hne]
    exact h k o' hentry

theorem pointed_destroy (h : c.Pointed keys) (o : ω) : (c.destroy keys o).Pointed keys := by
  cases hobject : c.object o with
  | none =>
      rw [destroy_of_dead hobject]
      exact h
  | some i =>
      rw [destroy_of_live hobject]
      intro k o' hentry
      dsimp only at hentry ⊢
      by_cases hk : k ∈ keys i
      · rw [if_pos hk] at hentry
        cases hentry
      · rw [if_neg hk] at hentry
        obtain ⟨i', hi', hk'⟩ := h k o' hentry
        have hne : o' ≠ o := by
          rintro rfl
          rw [hobject] at hi'
          exact hk (Option.some.inj hi' ▸ hk')
        rw [update_of_ne hne]
        exact ⟨i', hi', hk'⟩

theorem faithful_destroy (h : c.Faithful keys) (o : ω) : (c.destroy keys o).Faithful keys := by
  cases hobject : c.object o with
  | none =>
      rw [destroy_of_dead hobject]
      exact h
  | some i =>
      rw [destroy_of_live hobject]
      intro o' i' hi' k hk'
      dsimp only at hi' ⊢
      by_cases ho : o' = o
      · rw [ho, update_self] at hi'
        cases hi'
      · rw [update_of_ne ho] at hi'
        rw [if_neg fun hk => ho (h.eq_of_mem hi' hobject hk' hk)]
        exact h o' i' hi' k hk'

theorem faithful_insert (h : c.Faithful keys)
    (hdisjoint : ∀ o' i', c.object o' = some i' → ∀ k ∈ keys i', k ∉ keys i) :
    (c.insert keys o i).Faithful keys := by
  intro o' i' hi' k hk'
  unfold insert at hi' ⊢
  dsimp only at hi' ⊢
  by_cases ho : o' = o
  · rw [ho, update_self] at hi'
    rw [← Option.some.inj hi'] at hk'
    rw [if_pos hk', ho]
  · rw [update_of_ne ho] at hi'
    rw [if_neg (hdisjoint o' i' hi' k hk')]
    exact h o' i' hi' k hk'

theorem object_insert_self : (c.insert keys o i).object o = some i := by
  unfold insert
  exact update_self _ _ _

theorem object_insert_of_ne (hne : o' ≠ o) : (c.insert keys o i).object o' = c.object o' := by
  unfold insert
  exact update_of_ne hne _ _

/-- An object that is alive is lost when another one is made for the same thing. -/
theorem not_faithful_insert (hk : k ∈ keys i) (hne : o' ≠ o) (hlive : c.object o' = some i) :
    ¬(c.insert keys o i).Faithful keys := by
  intro h
  have hold : (c.insert keys o i).object o' = some i := (object_insert_of_ne hne).trans hlive
  exact hne (h.eq_of_mem hold object_insert_self hk hk)

end SharedCache
