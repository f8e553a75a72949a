import ArenaServ.Exec
import Mathlib.Algebra.Order.Ring.Int

/-!
# Executions that count

A state has a counter that blocks of an execution raise when they are entered and lower when
they are left, by whatever way out. Three executions are compared: one that stops where the
counter is lowered once too often, one that watches the counter from a certain value on, and
the execution itself. Either nothing of the kind happens, all three agree and the counter is
what it was, or the first one stops and the execution ends with a lower counter.
-/

/-- What the counter is after an execution that ends. -/
def Outcome.Counts {σ ε φ α : Type} (count : σ → ℤ) (r : ℤ → Prop) : Outcome σ ε φ α → Prop
  | .done _ s => r (count s)
  | .raised _ s => r (count s)
  | .fault _ => True

def Outcome.state? {σ ε φ α : Type} : Outcome σ ε φ α → Option σ
  | .done _ s => some s
  | .raised _ s => some s
  | .fault _ => none

theorem Outcome.Counts.mono {σ ε φ α : Type} {count : σ → ℤ} {r r' : ℤ → Prop}
    {o : Outcome σ ε φ α} (h : o.Counts count r) (hr : ∀ n, r n → r' n) : o.Counts count r' := by
  cases o with
  | done a s => exact hr _ h
  | raised e s => exact hr _ h
  | fault f => trivial

/-- What follows an execution, after a value and after an exception. -/
def Outcome.andThen {σ ε φ α β : Type} (o : Outcome σ ε φ α) (f : α → Exec σ ε φ β)
    (handler : ε → Exec σ ε φ β) : Outcome σ ε φ β :=
  match o with
  | .done a s => f a s
  | .raised e s => handler e s
  | .fault g => .fault g

namespace Exec

variable {σ ε φ α β : Type} {count : σ → ℤ} {stop lost : φ} {ok ok' : ℤ → Prop} {n n' d d' : ℤ}

/-- From a counter at `d` all three executions do the same, the one that watches if `d` is
`n`. The counter ends as it was, and where `ok` holds of it the fault is not `lost`. -/
structure Agrees (count : σ → ℤ) (lost : φ) (ok : ℤ → Prop) (n d : ℤ)
    (o watch o' : Outcome σ ε φ α) : Prop where
  eq : o = o'
  watch_eq : d = n → watch = o'
  counts : o'.Counts count (· = d)
  kept : ok d → o' ≠ .fault lost

def Compare (count : σ → ℤ) (stop lost : φ) (ok : ℤ → Prop) (n d : ℤ)
    (o watch o' : Outcome σ ε φ α) : Prop :=
  Agrees count lost ok n d o watch o' ∨ o = .fault stop ∧ o'.Counts count (· < d)

def Tally (count : σ → ℤ) (stop lost : φ) (ok : ℤ → Prop) (n : ℤ)
    (m watch m' : Exec σ ε φ α) : Prop :=
  ∀ s, Compare count stop lost ok n (count s) (m s) (watch s) (m' s)

/-- The execution leaves the counter alone, and never ends with the fault `lost`. -/
def Quiet (count : σ → ℤ) (lost : φ) (m : Exec σ ε φ α) : Prop :=
  ∀ s, (m s).Counts count (· = count s) ∧ m s ≠ .fault lost

section Outcomes
variable {o watch o' : Outcome σ ε φ α}

theorem Compare.counts_le (h : Compare count stop lost ok n d o watch o') :
    o'.Counts count (· ≤ d) := by
  rcases h with hagrees | ⟨-, hcount⟩
  · exact hagrees.counts.mono fun n hn => hn.le
  · exact hcount.mono fun n hn => hn.le

/-- One that has not stopped agrees. -/
theorem Compare.agrees (h : Compare count stop lost ok n d o watch o')
    (hstop : o.fault? ≠ some stop) : Agrees count lost ok n d o watch o' := by
  rcases h with hagrees | ⟨rfl, -⟩
  · exact hagrees
  · exact absurd rfl hstop

theorem compare_of_same (h : o.Counts count (· = d)) (hlost : o ≠ .fault lost) :
    Compare count stop lost ok n d o o o := by
  left
  exact {
    eq := rfl
    watch_eq := fun _ => rfl
    counts := h
    kept := fun _ => hlost }

/-- Only what is watched from `n` on matters. -/
theorem Compare.of_watch_eq {seen : Outcome σ ε φ α}
    (h : Compare count stop lost ok n d o watch o') (heq : d = n → seen = watch) :
    Compare count stop lost ok n d o seen o' := by
  rcases h with hagrees | hparted
  · left
    exact { hagrees with watch_eq := fun hn => (heq hn).trans (hagrees.watch_eq hn) }
  · exact Or.inr hparted

/-- What follows is compared from a counter that is lower by as much as the first part was
entered above. -/
theorem Compare.andThen {f g f' : α → Exec σ ε φ β} {handler caught handler' : ε → Exec σ ε φ β}
    (up : ℤ) (h : Compare count stop lost ok' (n + up) (d + up) o watch o')
    (hok : ok d → ok' (d + up))
    (hf : ∀ a s, Compare count stop lost ok n (count s - up) (f a s) (g a s) (f' a s))
    (hh : ∀ e s, Compare count stop lost ok n (count s - up) (handler e s) (caught e s)
      (handler' e s)) :
    Compare count stop lost ok n d (o.andThen f handler) (watch.andThen g caught)
      (o'.andThen f' handler') := by
  rcases h with ⟨rfl, hwatch, hcount, hkept⟩ | ⟨rfl, hcount⟩
  · have hwatch' (hn : d = n) : watch = o := hwatch (by rw [hn])
    cases o with
    | done a s =>
        have hs : count s - up = d := by
          have hcount : count s = d + up := hcount
          omega
        have hnext := hf a s
        rw [hs] at hnext
        apply hnext.of_watch_eq
        intro hn
        rw [hwatch' hn]
        rfl
    | raised e s =>
        have hs : count s - up = d := by
          have hcount : count s = d + up := hcount
          omega
        have hnext := hh e s
        rw [hs] at hnext
        apply hnext.of_watch_eq
        intro hn
        rw [hwatch' hn]
        rfl
    | fault g =>
        left
        exact {
          eq := rfl
          watch_eq := by
            intro hn
            rw [hwatch' hn]
            rfl
          counts := trivial
          kept := fun hd hlost => hkept (hok hd) (by rw [Outcome.fault.inj hlost]) }
  · right
    refine ⟨rfl, ?_⟩
    cases o' with
    | done a s =>
        have hlt : count s < d + up := hcount
        exact (hf a s).counts_le.mono fun k hk => by omega
    | raised e s =>
        have hlt : count s < d + up := hcount
        exact (hh e s).counts_le.mono fun k hk => by omega
    | fault g => trivial

end Outcomes

/-! ## Single steps -/

section Single
variable {m watch m' : Exec σ ε φ α}

theorem Tally.mono (h : Tally count stop lost ok n m watch m') (hok : ∀ d, ok' d → ok d) :
    Tally count stop lost ok' n m watch m' := by
  intro s
  rcases h s with hagrees | hparted
  · exact Or.inl { hagrees with kept := fun hs => hagrees.kept (hok _ hs) }
  · exact Or.inr hparted

/-- An execution that does not watch may take the place of the one that does. -/
theorem Tally.unwatched (h : Tally count stop lost ok n m watch m') :
    Tally count stop lost ok n' m m' m' := by
  intro s
  rcases h s with hagrees | hparted
  · exact Or.inl { hagrees with watch_eq := fun _ => rfl }
  · exact Or.inr hparted

theorem Quiet.tally {m : Exec σ ε φ α} (h : Quiet count lost m) :
    Tally count stop lost ok n m m m := fun s => compare_of_same (h s).1 (h s).2

end Single

theorem quiet_pure (a : α) : Quiet count lost (pure a : Exec σ ε φ α) :=
  fun _ => ⟨rfl, fun h => nomatch h⟩

theorem quiet_throw (e : ε) : Quiet count lost (throw e : Exec σ ε φ α) :=
  fun _ => ⟨rfl, fun h => nomatch h⟩

theorem quiet_get : Quiet count lost (get : Exec σ ε φ σ) := fun _ => ⟨rfl, fun h => nomatch h⟩

theorem quiet_modify {g : σ → σ} (h : ∀ s, count (g s) = count s) :
    Quiet count lost (modify g : Exec σ ε φ Unit) := fun s => ⟨h s, fun h => nomatch h⟩

/-! ## Sequences -/

theorem bind_eq_andThen (m : Exec σ ε φ α) (f : α → Exec σ ε φ β) (s : σ) :
    (m >>= f) s = (m s).andThen f throw := by
  change bind m f s = _
  unfold bind
  cases m s with
  | done a t => rfl
  | raised e t => rfl
  | fault g => rfl

theorem bind_of_fault {m : Exec σ ε φ α} {f : α → Exec σ ε φ β} {s : σ} {g : φ}
    (h : m s = .fault g) : (m >>= f) s = .fault g := by
  rw [bind_eq_andThen, h]
  rfl

theorem Tally.bind {m watch m' : Exec σ ε φ α} {f g f' : α → Exec σ ε φ β}
    (hm : Tally count stop lost ok n m watch m')
    (hf : ∀ a, Tally count stop lost ok n (f a) (g a) (f' a)) :
    Tally count stop lost ok n (m >>= f) (watch >>= g) (m' >>= f') := by
  intro s
  rw [bind_eq_andThen, bind_eq_andThen, bind_eq_andThen]
  have hfirst : Compare count stop lost ok (n + 0) (count s + 0) (m s) (watch s) (m' s) := by
    rw [Int.add_zero, Int.add_zero]
    exact hm s
  apply hfirst.andThen 0
  · rw [Int.add_zero]
    exact id
  · intro a t
    rw [Int.sub_zero]
    exact hf a t
  · intro e t
    rw [Int.sub_zero]
    exact (quiet_throw e).tally t

theorem Quiet.bind {m : Exec σ ε φ α} {f : α → Exec σ ε φ β} (hm : Quiet count lost m)
    (hf : ∀ a, Quiet count lost (f a)) : Quiet count lost (m >>= f) := by
  intro s
  obtain ⟨hcount, hlost⟩ := hm s
  rw [bind_eq_andThen]
  revert hcount hlost
  cases m s with
  | done a t =>
      intro hcount _
      have hsame : count t = count s := hcount
      rw [← hsame]
      exact hf a t
  | raised e t => exact fun hcount _ => ⟨hcount, fun h => nomatch h⟩
  | fault g => exact fun _ hlost => ⟨trivial, fun h => hlost (by rw [Outcome.fault.inj h])⟩

theorem quiet_forEach {l : List β} {body : β → Exec σ ε φ Unit}
    (h : ∀ b ∈ l, Quiet count lost (body b)) : Quiet count lost (forEach l body) := by
  induction l with
  | nil => exact quiet_pure ()
  | cons b rest ih =>
      apply (h b List.mem_cons_self).bind
      intro _
      exact ih fun b hb => h b (List.mem_cons_of_mem _ hb)

theorem quiet_findM? {l : List β} {test : β → Exec σ ε φ Bool}
    (h : ∀ b ∈ l, Quiet count lost (test b)) : Quiet count lost (findM? l test) := by
  induction l with
  | nil => exact quiet_pure none
  | cons b rest ih =>
      apply (h b List.mem_cons_self).bind
      intro found
      cases found with
      | true => exact quiet_pure (some b)
      | false => exact ih fun b hb => h b (List.mem_cons_of_mem _ hb)

theorem Tally.onlyIf {c : Bool} {m watch m' : Exec σ ε φ Unit}
    (h : c = true → Tally count stop lost ok n m watch m') :
    Tally count stop lost ok n (onlyIf c m) (onlyIf c watch) (onlyIf c m') := by
  cases c with
  | true => exact h rfl
  | false => exact (quiet_pure ()).tally

theorem tally_forEach {l : List β} {body watch body' : β → Exec σ ε φ Unit}
    (h : ∀ b ∈ l, Tally count stop lost ok n (body b) (watch b) (body' b)) :
    Tally count stop lost ok n (forEach l body) (forEach l watch) (forEach l body') := by
  induction l with
  | nil => exact (quiet_pure ()).tally
  | cons b rest ih =>
      apply (h b List.mem_cons_self).bind
      intro _
      exact ih fun b hb => h b (List.mem_cons_of_mem _ hb)

theorem tally_findM? {l : List β} {test watch test' : β → Exec σ ε φ Bool}
    (h : ∀ b ∈ l, Tally count stop lost ok n (test b) (watch b) (test' b)) :
    Tally count stop lost ok n (findM? l test) (findM? l watch) (findM? l test') := by
  induction l with
  | nil => exact (quiet_pure none).tally
  | cons b rest ih =>
      apply (h b List.mem_cons_self).bind
      intro found
      cases found with
      | true => exact (quiet_pure (some b)).tally
      | false => exact ih fun b hb => h b (List.mem_cons_of_mem _ hb)

/-! ## Exceptions and blocks -/

theorem tryCatch_eq_andThen (m : Exec σ ε φ α) (handler : ε → Exec σ ε φ α) (s : σ) :
    tryCatch m handler s = (m s).andThen pure handler := by
  unfold tryCatch
  cases m s with
  | done a t => rfl
  | raised e t => rfl
  | fault g => rfl

theorem Quiet.tryCatch {m : Exec σ ε φ α} {handler : ε → Exec σ ε φ α}
    (hm : Quiet count lost m) (hh : ∀ e, Quiet count lost (handler e)) :
    Quiet count lost (tryCatch m handler) := by
  intro s
  obtain ⟨hcount, hlost⟩ := hm s
  rw [tryCatch_eq_andThen]
  revert hcount hlost
  cases m s with
  | done a t => exact fun hcount _ => ⟨hcount, fun h => nomatch h⟩
  | raised e t =>
      intro hcount _
      have hsame : count t = count s := hcount
      rw [← hsame]
      exact hh e t
  | fault g => exact fun _ hlost => ⟨trivial, fun h => hlost (by rw [Outcome.fault.inj h])⟩

theorem onRaise_eq_andThen (m : Exec σ ε φ α) (cleanup : σ → σ) (s : σ) :
    onRaise m cleanup s = (m s).andThen pure fun e t => .raised e (cleanup t) := by
  unfold onRaise tryCatch
  cases m s with
  | done a t => rfl
  | raised e t => rfl
  | fault g => rfl

theorem Tally.tryCatch {m watch m' : Exec σ ε φ α} {handler caught handler' : ε → Exec σ ε φ α}
    (hm : Tally count stop lost ok n m watch m')
    (hh : ∀ e, Tally count stop lost ok n (handler e) (caught e) (handler' e)) :
    Tally count stop lost ok n (tryCatch m handler) (tryCatch watch caught)
      (tryCatch m' handler') := by
  intro s
  rw [tryCatch_eq_andThen, tryCatch_eq_andThen, tryCatch_eq_andThen]
  have hfirst : Compare count stop lost ok (n + 0) (count s + 0) (m s) (watch s) (m' s) := by
    rw [Int.add_zero, Int.add_zero]
    exact hm s
  apply hfirst.andThen 0
  · rw [Int.add_zero]
    exact id
  · intro a t
    rw [Int.sub_zero]
    exact (quiet_pure a).tally t
  · intro e t
    rw [Int.sub_zero]
    exact hh e t

/-- What follows in a block whose counter is lowered on every way out. -/
def leaving (leave : σ → σ) (m : Exec σ ε φ α) (f : α → Exec σ ε φ β) : Exec σ ε φ β := do
  let a ← onRaise m leave
  modify leave
  f a

theorem leaving_eq_andThen (leave : σ → σ) (m : Exec σ ε φ α) (f : α → Exec σ ε φ β) (s : σ) :
    leaving leave m f s =
      (m s).andThen (fun a t => f a (leave t)) fun e t => .raised e (leave t) := by
  unfold leaving
  rw [bind_eq_andThen, onRaise_eq_andThen]
  cases m s with
  | done a t => rfl
  | raised e t => rfl
  | fault g => rfl

/-- A block: entering it raises the counter or an exception, and every way out of it lowers
the counter again. -/
theorem Tally.block {enter : Exec σ ε φ Unit} {leave : σ → σ} {m watch m' : Exec σ ε φ α}
    {f g f' : α → Exec σ ε φ β} (hm : Tally count stop lost ok' (n + 1) m watch m')
    (henter : ∀ s, (∃ e, enter s = .raised e s) ∨
      ∃ t, enter s = .done () t ∧ count t = count s + 1 ∧ (ok (count s) → ok' (count s + 1)))
    (hleave : ∀ s, count (leave s) = count s - 1)
    (hf : ∀ a, Tally count stop lost ok n (f a) (g a) (f' a)) :
    Tally count stop lost ok n (do enter; leaving leave m f) (do enter; leaving leave watch g)
      (do enter; leaving leave m' f') := by
  intro s
  rw [bind_eq_andThen, bind_eq_andThen, bind_eq_andThen]
  rcases henter s with ⟨e, hraised⟩ | ⟨t, hdone, hcount, hok⟩
  · rw [hraised]
    exact (quiet_throw e).tally s
  · rw [hdone]
    change Compare count stop lost ok n (count s) (leaving leave m f t) (leaving leave watch g t)
      (leaving leave m' f' t)
    rw [leaving_eq_andThen, leaving_eq_andThen, leaving_eq_andThen]
    have hbody := hm t
    rw [hcount] at hbody
    apply hbody.andThen 1 hok
    · intro a u
      rw [← hleave]
      exact hf a (leave u)
    · intro e u
      rw [← hleave]
      exact (quiet_throw e).tally (leave u)

end Exec
