import ArenaServ.Exec
import Mathlib.Data.List.Basic
import Mathlib.Order.Nat

/-!
# Executions that read a stream

The state shows what is left of a stream. An execution reads a part of it, which may depend on what
comes behind; a loop reads one part after the other. It may go on as often as there is something
left, and as each round reads something, that is enough.
-/

namespace Exec

variable {σ ε φ α β τ : Type}

/-- The loop with so many rounds left. -/
def iterate (timeout : φ) (body : α → Exec σ ε φ (α ⊕ β)) : ℕ → α → Exec σ ε φ β
  | 0, _ => fault timeout
  | rounds + 1, a => body a >>= Sum.elim (iterate timeout body rounds) pure

def loop (view : σ → List τ) (timeout : φ) (body : α → Exec σ ε φ (α ⊕ β)) (a : α) :
    Exec σ ε φ β := fun s => iterate timeout body ((view s).length + 1) a s

/-! ## What is read -/

/-- Where what comes behind has `next`, the execution reads `ts` and gives `a`. -/
def Consumes (view : σ → List τ) (next : List τ → Prop) (m : Exec σ ε φ α) (ts : List τ) (a : α) :
    Prop :=
  ∀ s rest, view s = ts ++ rest → next rest → ∃ s', m s = .done a s' ∧ view s' = rest

/-- The same of a loop that has more rounds than there are tokens. -/
def LoopConsumes (view : σ → List τ) (next : List τ → Prop) (timeout : φ)
    (body : α → Exec σ ε φ (α ⊕ β)) (a : α) (ts : List τ) (b : β) : Prop :=
  ∀ rounds, ts.length < rounds → Consumes view next (iterate timeout body rounds a) ts b

variable {view : σ → List τ} {next next' : List τ → Prop} {m : Exec σ ε φ α}
  {f : α → Exec σ ε φ β} {ts us : List τ} {a a' : α} {b : β} {timeout : φ}
  {body : α → Exec σ ε φ (α ⊕ β)}

theorem consumes_pure : Consumes view next (pure a : Exec σ ε φ α) [] a :=
  fun s _ hs _ => ⟨s, rfl, hs⟩

theorem Consumes.bind (hm : Consumes view next' m ts a) (hf : Consumes view next (f a) us b)
    (hnext : ∀ rest, next rest → next' (us ++ rest)) :
    Consumes view next (m >>= f) (ts ++ us) b := by
  intro s rest hs hrest
  rw [List.append_assoc] at hs
  obtain ⟨s₁, hm₁, hs₁⟩ := hm s (us ++ rest) hs (hnext rest hrest)
  obtain ⟨s₂, hf₂, hs₂⟩ := hf s₁ rest hs₁ hrest
  exact ⟨s₂, by rw [bind_of_done hm₁, hf₂], hs₂⟩

theorem Consumes.mono (h : Consumes view next m ts a) (hnext : ∀ rest, next' rest → next rest) :
    Consumes view next' m ts a :=
  fun s rest hs hrest => h s rest hs (hnext rest hrest)

theorem Consumes.bind_eq_pure (h : Consumes view next m ts a) (hf : f a = pure b) :
    Consumes view next (m >>= f) ts b := by
  have hbind : Consumes view next (m >>= f) (ts ++ []) b :=
    h.bind (by rw [hf]; exact consumes_pure) fun rest hrest => hrest
  rwa [List.append_nil] at hbind

theorem Consumes.bind_pure (h : Consumes view next m ts a) (g : α → β) :
    Consumes view next (m >>= fun a => pure (g a)) ts (g a) :=
  h.bind_eq_pure rfl

theorem loopConsumes_last (h : Consumes view next (body a) ts (.inr b)) :
    LoopConsumes view next timeout body a ts b := by
  intro rounds hrounds
  cases rounds with
  | zero => omega
  | succ rounds => exact h.bind_eq_pure rfl

theorem Consumes.round (hbody : Consumes view next' (body a) ts (.inl a')) (hts : ts ≠ [])
    (hloop : LoopConsumes view next timeout body a' us b)
    (hnext : ∀ rest, next rest → next' (us ++ rest)) :
    LoopConsumes view next timeout body a (ts ++ us) b := by
  intro rounds hrounds
  have hpos := List.length_pos_iff.2 hts
  rw [List.length_append] at hrounds
  cases rounds with
  | zero => omega
  | succ rounds => exact hbody.bind (hloop rounds (by omega)) hnext

/-- One round for each element of a list. What is left of the list and the value of the loop have
`I`. -/
theorem LoopConsumes.rounds {γ : Type} (I : List γ → α → Prop) (step : α → γ → α)
    (between : List τ → Prop) {chunk : γ → List τ}
    (hstep : ∀ c l a, I (c :: l) a →
      Consumes view between (body a) (chunk c) (.inl (step a c)) ∧ I l (step a c))
    (hne : ∀ c, chunk c ≠ []) {l : List γ} (hI : I l a)
    (hloop : LoopConsumes view next timeout body (l.foldl step a) us b)
    (hnext : ∀ (l : List γ) rest, next rest → between (l.flatMap chunk ++ us ++ rest)) :
    LoopConsumes view next timeout body a (l.flatMap chunk ++ us) b := by
  induction l generalizing a with
  | nil => exact hloop
  | cons c l ih =>
      obtain ⟨hbody, hI'⟩ := hstep c l a hI
      rw [List.flatMap_cons, List.append_assoc]
      exact hbody.round (hne c) (ih hI' hloop) (hnext l)

/-- There are enough rounds. -/
theorem LoopConsumes.consumes (h : LoopConsumes view next timeout body a ts b) :
    Consumes view next (loop view timeout body a) ts b := by
  intro s rest hs hrest
  apply h ((view s).length + 1) _ s rest hs hrest
  rw [hs, List.length_append]
  omega

/-! ## Loops end -/

/-- The execution ends, with at most so much more in the stream than before. -/
def Within (view : σ → List τ) (bound : α → ℤ) (m : Exec σ ε φ α) : Prop :=
  ∀ s, (∀ f, m s ≠ .fault f) ∧
    ∀ a s', m s = .done a s' → ((view s').length : ℤ) ≤ (view s).length + bound a

variable {bound : α → ℤ} {bound' : β → ℤ}

theorem within_pure (h : 0 ≤ bound a) : Within view bound (pure a : Exec σ ε φ α) := by
  intro s
  constructor
  · intro f hf
    cases hf
  · intro b s' hdone
    cases hdone
    omega

theorem within_of_raised (h : ∀ s, ∃ e s', m s = .raised e s') : Within view bound m := by
  intro s
  obtain ⟨e, s₁, hraised⟩ := h s
  rw [hraised]
  constructor
  · intro f hf
    cases hf
  · intro b s' hdone
    cases hdone

theorem Within.bind (hm : Within view bound m)
    (hf : ∀ a, Within view (fun b => bound' b - bound a) (f a)) : Within view bound' (m >>= f) := by
  intro s
  cases hout : m s with
  | fault fault => exact absurd hout ((hm s).1 fault)
  | raised e s₁ =>
      have hraised : (m >>= f) s = .raised e s₁ := bind_of_raised hout
      rw [hraised]
      constructor
      · intro f hf
        cases hf
      · intro b s' hdone
        cases hdone
  | done a s₁ =>
      have hdone : (m >>= f) s = f a s₁ := bind_of_done hout
      have hle := (hm s).2 a s₁ hout
      rw [hdone]
      constructor
      · exact (hf a s₁).1
      · intro b s' hb
        have hle' : ((view s').length : ℤ) ≤ (view s₁).length + (bound' b - bound a) :=
          (hf a s₁).2 b s' hb
        omega

theorem Within.mono {bound₂ : α → ℤ} (h : Within view bound m) (hle : ∀ a, bound a ≤ bound₂ a) :
    Within view bound₂ m := by
  intro s
  refine ⟨(h s).1, ?_⟩
  intro a s' hdone
  have := (h s).2 a s' hdone
  have := hle a
  omega

/-- A round that goes on has read something. -/
def roundBound : α ⊕ β → ℤ := Sum.elim (fun _ => -1) fun _ => 0

def Progress (view : σ → List τ) (body : α → Exec σ ε φ (α ⊕ β)) : Prop :=
  ∀ a, Within view roundBound (body a)

theorem within_iterate (hbody : Progress view body) (rounds : ℕ) (a : α) (s : σ)
    (h : (view s).length < rounds) :
    (∀ f, iterate timeout body rounds a s ≠ .fault f) ∧
      ∀ b s', iterate timeout body rounds a s = .done b s' →
        ((view s').length : ℤ) ≤ (view s).length := by
  induction rounds generalizing a s with
  | zero => omega
  | succ rounds ih =>
      cases hout : body a s with
      | fault f => exact absurd hout ((hbody a s).1 f)
      | raised e s₁ =>
          have hraised : iterate timeout body (rounds + 1) a s = .raised e s₁ :=
            bind_of_raised hout
          rw [hraised]
          constructor
          · intro f hf
            cases hf
          · intro b s' hdone
            cases hdone
      | done r s₁ =>
          have hle := (hbody a s).2 r s₁ hout
          have hdone : iterate timeout body (rounds + 1) a s =
              Sum.elim (iterate timeout body rounds) pure r s₁ := bind_of_done hout
          rw [hdone]
          cases r with
          | inl a' =>
              have hless : ((view s₁).length : ℤ) ≤ (view s).length + -1 := hle
              obtain ⟨hends, hrest⟩ := ih a' s₁ (by omega)
              refine ⟨hends, ?_⟩
              intro b s' hb
              have := hrest b s' hb
              omega
          | inr b =>
              have hsame : ((view s₁).length : ℤ) ≤ (view s).length + 0 := hle
              constructor
              · intro f hf
                cases hf
              · intro b' s' hb
                cases hb
                omega

/-- There are rounds enough for every loop that makes progress. -/
theorem within_loop (hbody : Progress view body) (a : α) :
    Within view (fun _ => 0) (loop view timeout body a) := by
  intro s
  obtain ⟨hends, hle⟩ := within_iterate hbody ((view s).length + 1) a s (Nat.lt_succ_self _)
  refine ⟨hends, ?_⟩
  intro b s' hb
  rw [Int.add_zero]
  exact hle b s' hb

end Exec
