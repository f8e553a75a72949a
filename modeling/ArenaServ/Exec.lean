/-!
# Executions with exceptions and faults

A program over a state that ends with a value, with an exception, which leaves in place what
was done so far and can be caught, or with a fault, after which there is no state. `Sat` is
partial correctness with an invariant, for each of these ways out.
-/

inductive Outcome (σ ε φ α : Type) where
  | done (a : α) (s : σ)
  | raised (e : ε) (s : σ)
  | fault (f : φ)

def Outcome.fault? {σ ε φ α : Type} : Outcome σ ε φ α → Option φ
  | .fault f => some f
  | _ => none

def Exec (σ ε φ α : Type) := σ → Outcome σ ε φ α

namespace Exec

variable {σ ε φ α β : Type}

def get : Exec σ ε φ σ := fun s => .done s s

def modify (f : σ → σ) : Exec σ ε φ Unit := fun s => .done () (f s)

def throw (e : ε) : Exec σ ε φ α := fun s => .raised e s

def fault (f : φ) : Exec σ ε φ α := fun _ => .fault f

def bind (m : Exec σ ε φ α) (f : α → Exec σ ε φ β) : Exec σ ε φ β := fun s =>
  match m s with
  | .done a s' => f a s'
  | .raised e s' => .raised e s'
  | .fault f => .fault f

instance : Monad (Exec σ ε φ) where
  pure a := fun s => .done a s
  bind := bind

instance : LawfulMonad (Exec σ ε φ) :=
  LawfulMonad.mk' _
    (by
      intro α x
      funext s
      change bind x _ s = x s
      unfold bind
      cases x s <;> rfl)
    (fun _ _ => rfl)
    (by
      intro α β γ x f g
      funext s
      change bind (bind x f) g s = bind x (fun a => bind (f a) g) s
      unfold bind
      cases x s <;> rfl)

def tryCatch (m : Exec σ ε φ α) (handler : ε → Exec σ ε φ α) : Exec σ ε φ α := fun s =>
  match m s with
  | .done a s' => .done a s'
  | .raised e s' => handler e s'
  | .fault f => .fault f

/-- What is done before an exception goes on. -/
def onRaise (m : Exec σ ε φ α) (cleanup : σ → σ) : Exec σ ε φ α :=
  tryCatch m fun e s => .raised e (cleanup s)

def onlyIf (c : Bool) (m : Exec σ ε φ Unit) : Exec σ ε φ Unit := if c then m else pure ()

def forEach : List β → (β → Exec σ ε φ Unit) → Exec σ ε φ Unit
  | [], _ => pure ()
  | b :: rest, body => do
      body b
      forEach rest body

/-- The first element that passes a test; the ones after it are not tested. -/
def findM? : List β → (β → Exec σ ε φ Bool) → Exec σ ε φ (Option β)
  | [], _ => pure none
  | b :: rest, test => do
      if ← test b then pure (some b) else findM? rest test

/-! ## What a step leads to -/

theorem get_bind (f : σ → Exec σ ε φ β) (s : σ) : (get >>= f) s = f s s := rfl

theorem modify_bind (g : σ → σ) (f : Unit → Exec σ ε φ β) (s : σ) :
    (modify g >>= f) s = f () (g s) := rfl

theorem bind_of_done {m : Exec σ ε φ α} {f : α → Exec σ ε φ β} {s s' : σ} {a : α}
    (h : m s = .done a s') : (m >>= f) s = f a s' := by
  change bind m f s = _
  rw [bind, h]

theorem bind_of_raised {m : Exec σ ε φ α} {f : α → Exec σ ε φ β} {s s' : σ} {e : ε}
    (h : m s = .raised e s') : (m >>= f) s = .raised e s' := by
  change bind m f s = _
  rw [bind, h]

theorem tryCatch_of_done {m : Exec σ ε φ α} {handler : ε → Exec σ ε φ α} {s s' : σ} {a : α}
    (h : m s = .done a s') : tryCatch m handler s = .done a s' := by
  rw [tryCatch, h]

theorem tryCatch_of_raised {m : Exec σ ε φ α} {handler : ε → Exec σ ε φ α} {s s' : σ} {e : ε}
    (h : m s = .raised e s') : tryCatch m handler s = handler e s' := by
  rw [tryCatch, h]

/-! ## Partial correctness -/

end Exec

/-- The state has `I`, a value has `Q`, and a fault is one that `ok` allows. -/
def Outcome.Meets {σ ε φ α : Type} (I : σ → Prop) (ok : φ → Prop) (Q : α → Prop) :
    Outcome σ ε φ α → Prop
  | .done a s => I s ∧ Q a
  | .raised _ s => I s
  | .fault f => ok f

theorem Outcome.Meets.mono {σ ε φ α : Type} {I I' : σ → Prop} {ok : φ → Prop} {Q Q' : α → Prop}
    {o : Outcome σ ε φ α} (h : o.Meets I ok Q) (hI : ∀ s, I s → I' s) (hQ : ∀ a, Q a → Q' a) :
    o.Meets I' ok Q' := by
  cases o with
  | done a s => exact ⟨hI s h.1, hQ a h.2⟩
  | raised e s => exact hI s h
  | fault f => exact h

namespace Exec

variable {σ ε φ α β : Type}

/-- From states with `I` the execution ends in one, by an allowed fault or with a value that
has `Q`. -/
def Sat (I : σ → Prop) (ok : φ → Prop) (m : Exec σ ε φ α) (Q : α → Prop) : Prop :=
  ∀ s, I s → (m s).Meets I ok Q

def Keeps (I : σ → Prop) (ok : φ → Prop) (m : Exec σ ε φ α) : Prop :=
  Sat I ok m fun _ => True

variable {I : σ → Prop} {ok : φ → Prop} {m : Exec σ ε φ α} {f : α → Exec σ ε φ β}
  {Q Q' : α → Prop} {R : β → Prop}

theorem Sat.mono (hm : Sat I ok m Q) (h : ∀ a, Q a → Q' a) : Sat I ok m Q' :=
  fun s hs => (hm s hs).mono (fun _ => id) h

theorem Sat.keeps (hm : Sat I ok m Q) : Keeps I ok m := hm.mono fun _ _ => trivial

theorem sat_pure {a : α} (h : Q a) : Sat I ok (pure a : Exec σ ε φ α) Q := fun _ hs => ⟨hs, h⟩

theorem keeps_pure (a : α) : Keeps I ok (pure a : Exec σ ε φ α) := sat_pure trivial

theorem Sat.bind (hm : Sat I ok m Q) (hf : ∀ a, Q a → Sat I ok (f a) R) :
    Sat I ok (m >>= f) R := by
  intro s hs
  have hout := hm s hs
  change (Exec.bind m f s).Meets I ok R
  unfold Exec.bind
  revert hout
  cases m s with
  | done a s' => exact fun hout => hf a hout.2 s' hout.1
  | raised e s' => exact id
  | fault f => exact id

theorem Keeps.bind (hm : Keeps I ok m) (hf : ∀ a, Sat I ok (f a) R) : Sat I ok (m >>= f) R :=
  Sat.bind hm fun a _ => hf a

theorem sat_get : Sat I ok (get : Exec σ ε φ σ) I := fun _ hs => ⟨hs, hs⟩

theorem keeps_modify {g : σ → σ} (h : ∀ s, I s → I (g s)) :
    Keeps I ok (modify g : Exec σ ε φ Unit) := fun s hs => ⟨h s hs, trivial⟩

theorem sat_throw (e : ε) : Sat I ok (throw e : Exec σ ε φ α) Q := fun _ hs => hs

theorem sat_fault {f : φ} (h : ok f) : Sat I ok (fault f : Exec σ ε φ α) Q := fun _ _ => h

theorem Sat.tryCatch {handler : ε → Exec σ ε φ α} (hm : Sat I ok m Q)
    (hh : ∀ e, Sat I ok (handler e) Q) : Sat I ok (tryCatch m handler) Q := by
  intro s hs
  have hout := hm s hs
  unfold Exec.tryCatch
  revert hout
  cases m s with
  | done a s' => exact id
  | raised e s' => exact fun hout => hh e s' hout
  | fault f => exact id

theorem Sat.onRaise {cleanup : σ → σ} (hm : Sat I ok m Q) (hc : ∀ s, I s → I (cleanup s)) :
    Sat I ok (onRaise m cleanup) Q :=
  hm.tryCatch fun _ s hs => hc s hs

theorem keeps_onlyIf {c : Bool} {m : Exec σ ε φ Unit} (h : c = true → Keeps I ok m) :
    Keeps I ok (onlyIf c m) := by
  cases c with
  | true => exact h rfl
  | false => exact keeps_pure ()

theorem keeps_forEach {l : List β} {body : β → Exec σ ε φ Unit}
    (h : ∀ b ∈ l, Keeps I ok (body b)) : Keeps I ok (forEach l body) := by
  induction l with
  | nil => exact keeps_pure ()
  | cons b rest ih =>
      apply (h b List.mem_cons_self).bind
      intro _
      exact ih fun b hb => h b (List.mem_cons_of_mem _ hb)

theorem sat_findM? {l : List β} {test : β → Exec σ ε φ Bool}
    (h : ∀ b ∈ l, Keeps I ok (test b)) :
    Sat I ok (findM? l test) fun found => ∀ b ∈ found, b ∈ l := by
  induction l with
  | nil => exact sat_pure fun _ hb => nomatch hb
  | cons b rest ih =>
      apply (h b List.mem_cons_self).bind
      intro found
      cases found with
      | true =>
          apply sat_pure
          intro b' hb'
          rw [Option.some.inj hb']
          exact List.mem_cons_self
      | false =>
          have hrest := ih fun b hb => h b (List.mem_cons_of_mem _ hb)
          exact hrest.mono fun _ hmem b hb => List.mem_cons_of_mem _ (hmem b hb)

/-! ## Total correctness -/

/-- From states with `I` the execution ends with a value, in such a state. -/
def Finishes (I : σ → Prop) (m : Exec σ ε φ α) : Prop :=
  ∀ s, I s → ∃ a s', m s = .done a s' ∧ I s'

theorem Finishes.keeps (hm : Finishes I m) : Keeps I ok m := by
  intro s hs
  obtain ⟨a, s', hout, hs'⟩ := hm s hs
  rw [hout]
  exact ⟨hs', trivial⟩

theorem finishes_pure (a : α) : Finishes I (pure a : Exec σ ε φ α) := fun s hs => ⟨a, s, rfl, hs⟩

theorem Finishes.bind (hm : Finishes I m) (hf : ∀ a, Finishes I (f a)) : Finishes I (m >>= f) := by
  intro s hs
  obtain ⟨a, s', hout, hs'⟩ := hm s hs
  obtain ⟨b, s'', hout', hs''⟩ := hf a s' hs'
  refine ⟨b, s'', ?_, hs''⟩
  change Exec.bind m f s = _
  rw [Exec.bind, hout]
  exact hout'

theorem finishes_get : Finishes I (get : Exec σ ε φ σ) := fun s hs => ⟨s, s, rfl, hs⟩

theorem finishes_modify {g : σ → σ} (h : ∀ s, I s → I (g s)) :
    Finishes I (modify g : Exec σ ε φ Unit) := fun s hs => ⟨(), g s, rfl, h s hs⟩

theorem finishes_forEach {l : List β} {body : β → Exec σ ε φ Unit}
    (h : ∀ b ∈ l, Finishes I (body b)) : Finishes I (forEach l body) := by
  induction l with
  | nil => exact finishes_pure ()
  | cons b rest ih =>
      apply (h b List.mem_cons_self).bind
      intro _
      exact ih fun b hb => h b (List.mem_cons_of_mem _ hb)

end Exec
