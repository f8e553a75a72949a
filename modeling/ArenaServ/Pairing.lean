import Mathlib.Logic.Function.Basic

/-!
# Partners

Everyone has one partner or none. That partners have each other is kept when both change
together, and lost as soon as one of them changes alone.
-/

namespace Pairing

open Function

variable {α : Type*} [DecidableEq α] {nobody a b p q : α} {f : α → α}

/-- Whoever is the partner of somebody has them as partner. -/
def Mutual (nobody : α) (f : α → α) : Prop :=
  ∀ a b, a ≠ nobody → b ≠ nobody → (f a = b ↔ f b = a)

structure Couples (nobody : α) (f : α → α) : Prop where
  both : Mutual nobody f
  other : ∀ a, a ≠ nobody → f a ≠ a

/-- Two become partners. -/
def pair (p q : α) (f : α → α) : α → α := update (update f p q) q p

theorem pair_left (hpq : p ≠ q) : pair p q f p = q := by
  unfold pair
  rw [update_of_ne hpq, update_self]

theorem pair_right : pair p q f q = p := by
  unfold pair
  rw [update_self]

theorem pair_of_ne (hp : a ≠ p) (hq : a ≠ q) : pair p q f a = f a := by
  unfold pair
  rw [update_of_ne hq, update_of_ne hp]

/-- Only two that are free for each other can become partners. -/
theorem free_of_mutual_pair (h : Couples nobody f) (hpq : p ≠ q) (hp : p ≠ nobody)
    (hpair : Mutual nobody (pair p q f)) : f p = nobody ∨ f p = q := by
  by_contra hnot
  obtain ⟨hnobody, hq⟩ := not_or.mp hnot
  have hother : f p ≠ p := h.other p hp
  have hback : f (f p) = p := (h.both p (f p) hp hnobody).mp rfl
  have hstill : pair p q f (f p) = p := by
    rw [pair_of_ne hother hq]
    exact hback
  have hnew := (hpair (f p) p hnobody hp).mp hstill
  rw [pair_left hpq] at hnew
  exact hq hnew.symm

theorem pair_comm (hpq : p ≠ q) : pair p q f = pair q p f := by
  unfold pair
  exact update_comm hpq q p f

theorem Couples.pair (h : Couples nobody f) (hpq : p ≠ q) (hp : f p = nobody ∨ f p = q)
    (hq : f q = nobody ∨ f q = p) : Couples nobody (pair p q f) := by
  have hfree : ∀ a b, a ≠ nobody → b ≠ nobody → b ≠ p → b ≠ q → f a = b → a ≠ p ∧ a ≠ q := by
    intro a b ha hb hbp hbq hab
    constructor
    · rintro rfl
      rcases hp with hp | hp
      · exact hb (hab.symm.trans hp)
      · exact hbq (hab.symm.trans hp)
    · rintro rfl
      rcases hq with hq | hq
      · exact hb (hab.symm.trans hq)
      · exact hbp (hab.symm.trans hq)
  have hto : ∀ a b, a ≠ nobody → b ≠ nobody → Pairing.pair p q f a = b →
      Pairing.pair p q f b = a := by
    intro a b ha hb hab
    by_cases hap : a = p
    · subst hap
      rw [pair_left hpq] at hab
      rw [← hab, pair_right]
    by_cases haq : a = q
    · subst haq
      rw [pair_right] at hab
      rw [← hab, pair_left hpq]
    rw [pair_of_ne hap haq] at hab
    have hba := (h.both a b ha hb).mp hab
    obtain ⟨hbp, hbq⟩ := hfree b a hb ha hap haq hba
    rw [pair_of_ne hbp hbq]
    exact hba
  constructor
  · exact fun a b ha hb => ⟨hto a b ha hb, hto b a hb ha⟩
  · intro a ha heq
    by_cases hap : a = p
    · rw [hap, pair_left hpq] at heq
      exact hpq heq.symm
    by_cases haq : a = q
    · rw [haq, pair_right] at heq
      exact hpq heq
    rw [pair_of_ne hap haq] at heq
    exact h.other a ha heq

/-- Two that are partners of each other part. -/
theorem Couples.part (h : Couples nobody f) (hp : p ≠ nobody) (hq : q ≠ nobody) (hpq : f p = q) :
    Couples nobody (update (update f q nobody) p nobody) := by
  have hqp : f q = p := (h.both p q hp hq).mp hpq
  have hto : ∀ a b, a ≠ nobody → b ≠ nobody →
      update (update f q nobody) p nobody a = b → update (update f q nobody) p nobody b = a := by
    intro a b ha hb hab
    by_cases hap : a = p
    · rw [hap, update_self] at hab
      exact absurd hab.symm hb
    by_cases haq : a = q
    · rw [haq, update_of_ne (haq ▸ hap), update_self] at hab
      exact absurd hab.symm hb
    rw [update_of_ne hap, update_of_ne haq] at hab
    have hba := (h.both a b ha hb).mp hab
    have hbp : b ≠ p := fun heq => haq (hba.symm.trans (heq ▸ hpq))
    have hbq : b ≠ q := fun heq => hap (hba.symm.trans (heq ▸ hqp))
    rw [update_of_ne hbp, update_of_ne hbq]
    exact hba
  constructor
  · exact fun a b ha hb => ⟨hto a b ha hb, hto b a hb ha⟩
  · intro a ha heq
    by_cases hap : a = p
    · rw [hap, update_self] at heq
      exact hp heq.symm
    by_cases haq : a = q
    · rw [haq, update_of_ne (haq ▸ hap), update_self] at heq
      exact hq heq.symm
    rw [update_of_ne hap, update_of_ne haq] at heq
    exact h.other a ha heq

/-- One that parts alone stays the partner of the other. -/
theorem not_mutual_leave (h : Couples nobody f) (hp : p ≠ nobody) (hq : q ≠ nobody)
    (hpq : f p = q) : ¬ Mutual nobody (update f p nobody) := by
  intro hleave
  have hqp : f q = p := (h.both p q hp hq).mp hpq
  have hne : q ≠ p := fun heq => h.other p hp (heq ▸ hpq)
  have hstill : update f p nobody q = p := by
    rw [update_of_ne hne]
    exact hqp
  have hgone := (hleave q p hq hp).mp hstill
  rw [update_self] at hgone
  exact hq hgone.symm

end Pairing
