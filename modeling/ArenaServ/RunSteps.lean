import Mathlib.Logic.Basic

/-!
# Properties of the steps of a run

A step may fail, and a run stops where one does. What an invariant makes equivalent for a
single step is equivalent for all steps of a run.
-/

namespace RunSteps

variable {σ α μ : Type*}

/-- `P` holds of each step of the run from `s`. -/
def Every (next : σ → α → Option σ) (P : σ → α → Prop) : σ → List α → Prop
  | _, [] => True
  | s, a :: rest => P s a ∧ ∀ s' ∈ next s a, Every next P s' rest

instance Every.decidable (next : σ → α → Option σ) (P : σ → α → Prop)
    [∀ s a, Decidable (P s a)] : ∀ s steps, Decidable (Every next P s steps)
  | _, [] => inferInstanceAs (Decidable True)
  | s, a :: rest =>
      have (s' : σ) : Decidable (Every next P s' rest) := Every.decidable next P s' rest
      inferInstanceAs (Decidable (P s a ∧ ∀ s' ∈ next s a, Every next P s' rest))

/-- The states a run reaches, the first included. -/
def Reaches (next : σ → α → Option σ) : σ → List α → σ → Prop
  | s, [], t => t = s
  | s, a :: rest, t => t = s ∨ ∃ s' ∈ next s a, Reaches next s' rest t

def run (next : σ → α → Option σ) : σ → List α → Option σ
  | s, [] => some s
  | s, a :: rest => (next s a).bind fun s' => run next s' rest

/-- A step leaves `measure` as it is. -/
def Keeps (next : σ → α → Option σ) (measure : σ → μ) (s : σ) (a : α) : Prop :=
  ∀ s' ∈ next s a, measure s' = measure s

variable {next : σ → α → Option σ} {P Q : σ → α → Prop} {measure : σ → μ}

theorem keeps_of_none {s : σ} {a : α} (h : next s a = none) : Keeps next measure s a := by
  rw [Keeps, h]
  exact fun _ hs' => nomatch hs'

/-- A step that may fail, may be refused, or does something. -/
theorem keeps_iff_of_map {β : Type*} {s : σ} {a : α} {e : Option (Option β)} {t : Option β → σ}
    (h : next s a = e.map t) (hrefused : measure (t none) = measure s) :
    Keeps next measure s a ↔ ∀ x, e = some (some x) → measure (t (some x)) = measure s := by
  rw [Keeps, h]
  constructor
  · intro hkeeps x hx
    exact hkeeps (t (some x)) (by rw [hx]; rfl)
  · intro hall s' hs'
    obtain ⟨y, hy, rfl⟩ := Option.map_eq_some_iff.mp hs'
    cases y with
    | none => exact hrefused
    | some x => exact hall x hy

/-- Where a run ends is a state that it reaches. -/
theorem reaches_of_run {s t : σ} {steps : List α} (h : run next s steps = some t) :
    Reaches next s steps t := by
  induction steps generalizing s with
  | nil => exact (Option.some.inj h).symm
  | cons a rest ih =>
      obtain ⟨s', hs', hrest⟩ := Option.bind_eq_some_iff.mp h
      exact Or.inr ⟨s', hs', ih hrest⟩

/-- What an invariant makes follow for a step follows for the steps of a run. -/
theorem every_of_every (I : σ → Prop) (himp : ∀ s a, I s → Q s a → P s a)
    (hkeep : ∀ s a s', I s → Q s a → next s a = some s' → I s') {s : σ} {steps : List α}
    (hs : I s) (h : Every next Q s steps) : Every next P s steps := by
  induction steps generalizing s with
  | nil => trivial
  | cons a rest ih =>
      obtain ⟨hq, hrest⟩ := h
      exact ⟨himp s a hs hq, fun s' hs' => ih (hkeep s a s' hs hq hs') (hrest s' hs')⟩

theorem every_iff (I : σ → Prop) (hiff : ∀ s a, I s → (P s a ↔ Q s a))
    (hkeep : ∀ s a s', I s → Q s a → next s a = some s' → I s') {s : σ} {steps : List α}
    (hs : I s) : Every next P s steps ↔ Every next Q s steps := by
  constructor
  · apply every_of_every I (fun s a hs => (hiff s a hs).mp) _ hs
    exact fun s a s' hs hp => hkeep s a s' hs ((hiff s a hs).mp hp)
  · exact every_of_every I (fun s a hs => (hiff s a hs).mpr) hkeep hs

theorem every_of_forall (h : ∀ s a, P s a) (s : σ) (steps : List α) : Every next P s steps := by
  induction steps generalizing s with
  | nil => trivial
  | cons a rest ih => exact ⟨h s a, fun s' _ => ih s'⟩

/-- A run in two parts. -/
theorem every_append {s : σ} {first rest : List α} (hfirst : Every next P s first)
    (hrest : ∀ t, run next s first = some t → Every next P t rest) :
    Every next P s (first ++ rest) := by
  induction first generalizing s with
  | nil => exact hrest s rfl
  | cons a first ih =>
      refine ⟨hfirst.1, ?_⟩
      intro s' hs'
      apply ih (hfirst.2 s' hs')
      intro t ht
      apply hrest t
      rw [run, hs', Option.bind_some]
      exact ht

/-- The steps after the first part of a run. -/
theorem every_of_append {s t : σ} {first rest : List α} (h : Every next P s (first ++ rest))
    (ht : run next s first = some t) : Every next P t rest := by
  induction first generalizing s with
  | nil =>
      cases ht
      exact h
  | cons a first ih =>
      obtain ⟨s', hs', hrun⟩ := Option.bind_eq_some_iff.mp ht
      exact ih (h.2 s' hs') hrun

/-- An invariant holds in every state that a run of good steps reaches. -/
theorem invariant_of_every (I : σ → Prop)
    (hkeep : ∀ s a s', I s → Q s a → next s a = some s' → I s') {s t : σ} {steps : List α}
    (hs : I s) (hsteps : Every next Q s steps)
    (ht : Reaches next s steps t) : I t := by
  induction steps generalizing s with
  | nil =>
      rw [Reaches] at ht
      rw [ht]
      exact hs
  | cons a rest ih =>
      rcases ht with rfl | ⟨s', hs', ht⟩
      · exact hs
      · exact ih (hkeep s a s' hs hsteps.1 hs') (hsteps.2 s' hs') ht

/-- What holds in every state that a run reaches holds at its start and after each step. -/
theorem forall_reaches_iff {I : σ → Prop} {s : σ} {steps : List α} :
    (∀ t, Reaches next s steps t → I t) ↔
      I s ∧ Every next (fun s a => ∀ s' ∈ next s a, I s') s steps := by
  induction steps generalizing s with
  | nil =>
      constructor
      · exact fun h => ⟨h s rfl, trivial⟩
      · rintro ⟨hs, -⟩ t rfl
        exact hs
  | cons a rest ih =>
      constructor
      · intro h
        have hrest : ∀ s' ∈ next s a,
            I s' ∧ Every next (fun s a => ∀ s' ∈ next s a, I s') s' rest :=
          fun s' hs' => ih.mp fun t ht => h t (Or.inr ⟨s', hs', ht⟩)
        exact ⟨h s (Or.inl rfl), fun s' hs' => (hrest s' hs').1, fun s' hs' => (hrest s' hs').2⟩
      · rintro ⟨hs, hstep, hrest⟩ t (rfl | ⟨s', hs', ht⟩)
        · exact hs
        · exact ih.mpr ⟨hstep s' hs', hrest s' hs'⟩ t ht

end RunSteps
