import ArenaServ.QuestParsing

/-!
# The parser ends

A round of a loop of the parser that goes on has taken a token, as what is put back was taken before
it. So a stream for which the lexer ends gives a quest or an error.
-/

namespace ArenaServ.EOPlus

open Exec

namespace TokenServer
variable {allow : ℕ} {s : TokenServer}

theorem eq_invalid_of_type {d : TokenData} (h : d.type = 0) : d = .invalid := by
  cases d <;> first | rfl | cases h

theorem found_of_invalid (allow : ℕ) {t : Token} (h : t.data = .invalid) (newlines : ℕ)
    (s : TokenServer) :
    (found allow newlines t s).1 = none ∧ (found allow newlines t s).2.view = s.view := by
  have hzero : t.data.type &&& allow = t.data.type := by
    rw [h]
    exact Nat.zero_and allow
  rw [found, if_neg (not_not_intro hzero), if_pos h]
  exact ⟨rfl, rfl⟩

theorem length_view_putBack (t : Token) : (s.putBack t).view.length ≤ s.view.length + 1 := by
  obtain ⟨d, n⟩ := t
  by_cases hd : d = .newLine
  · subst hd
    have hview : (s.putBack ⟨.newLine, n⟩).view = s.view := by
      rw [view_eq]
      change dataOf (⟨.newLine, n⟩ :: List.replicate n ⟨.newLine, 0⟩ ++ s.tokenBuffer) ++ _ = _
      rw [List.cons_append, dataOf_newLine, dataOf_replicate, view_eq]
      rfl
    rw [hview]
    exact Nat.le_succ _
  · rw [view_putBack hd, List.length_cons]

/-- A token that was taken, as what it changes in the length of the stream. -/
def taken (t : Option Token) : ℤ := if t.isSome then -1 else 0

theorem length_view_getToken (hallow : admits allow TokenData.newLine.type = false) :
    ((s.getToken allow).2.view.length : ℤ) ≤ s.view.length + taken (s.getToken allow).1 := by
  cases hview : s.view with
  | nil =>
      rw [view_eq, List.append_eq_nil_iff] at hview
      have hback := skipNewLines_nil hallow hview.1
      have hfront := skipNewLines_nil hallow hview.2
      have hget : s.getToken allow = found allow ((skipNewLines allow s.tokenBuffer).1 +
          (skipNewLines allow s.tokens).1) ⟨.invalid, 0⟩
            { s with tokenBuffer := [], tokens := [] } := by
        simp only [getToken, hback, hfront]
      obtain ⟨hnone, hsame⟩ := found_of_invalid allow (t := ⟨.invalid, 0⟩) rfl
        ((skipNewLines allow s.tokenBuffer).1 + (skipNewLines allow s.tokens).1)
        { s with tokenBuffer := [], tokens := [] }
      rw [hget, hnone, hsame]
      exact le_rfl
  | cons d ds =>
      by_cases hpos : d.type = 0
      · obtain ⟨n, t, s', hget, ht, rfl⟩ := getToken_eq hallow hview
        obtain ⟨hnone, hsame⟩ := found_of_invalid allow
          (ht.trans (eq_invalid_of_type hpos)) n s'
        rw [hget, hnone, hsame, List.length_cons]
        change (s'.view.length : ℤ) ≤ (s'.view.length + 1 : ℕ) + 0
        omega
      · cases hd : admits allow d.type with
        | true =>
            obtain ⟨n, s', hget, hs'⟩ := getToken_of_admits hallow hd hview
            rw [hget, hs', List.length_cons]
            change (ds.length : ℤ) ≤ (ds.length + 1 : ℕ) + -1
            omega
        | false =>
            obtain ⟨s', hget, hs'⟩ := getToken_of_not_admits hallow hd hpos hview
            rw [hget, hs']
            exact (Int.add_zero _).ge

end TokenServer

namespace Parser
variable {α β : Type} {allow : ℕ} {bound : β → ℤ}

open TokenServer (admits taken)

/-- The parser ends, with so much more in the stream than before. -/
abbrev EndsWithin (bound : α → ℤ) (m : Parse α) : Prop := Within TokenServer.view bound m

/-- The parser ends and has put nothing back that was not taken. -/
abbrev EndsBelow (m : Parse α) : Prop := EndsWithin (fun _ => 0) m

/-! ## Tokens -/

theorem within_parserError (what : String) : EndsWithin bound (parserError what) :=
  within_of_raised fun s => ⟨_, s, rfl⟩

theorem within_parserErrorGot (what : String) : EndsWithin bound (parserErrorGot what) :=
  within_of_raised fun s => ⟨_, s, rfl⟩

theorem within_putBack (t : Token) : EndsWithin (fun _ => 1) (putBack t) := by
  intro s
  constructor
  · intro f hf
    cases hf
  · intro u s' hdone
    cases hdone
    exact Int.ofNat_le.2 (TokenServer.length_view_putBack t)

theorem within_getToken (hallow : admits allow TokenData.newLine.type = false) :
    EndsWithin taken (getToken allow) := by
  intro s
  constructor
  · intro f hf
    cases hf
  · intro t s' hdone
    cases hdone
    exact TokenServer.length_view_getToken hallow

/-- What follows may put back the token that was taken. -/
theorem within_taken {m : Parse (Option Token)} {f : Option Token → Parse β}
    (hm : EndsWithin taken m) (hnone : EndsWithin bound (f none))
    (hsome : ∀ t, EndsWithin (fun b => bound b + 1) (f (some t))) : EndsWithin bound (m >>= f) := by
  apply Within.bind hm
  intro t
  cases t with
  | none => exact hnone.mono fun b => (Int.sub_zero (bound b)).ge
  | some t => exact (hsome t).mono fun b => (Int.sub_neg (bound b) 1).ge

theorem within_getTokenIf (hallow : admits allow TokenData.newLine.type = false)
    (test : TokenData → Bool) : EndsWithin taken (getTokenIf test allow) := by
  unfold getTokenIf
  apply within_taken (within_getToken hallow)
  · exact within_pure le_rfl
  · intro t
    dsimp only
    split_ifs
    · exact within_pure le_rfl
    · apply (within_putBack t).bind
      intro u
      exact within_pure le_rfl

theorem within_expect (hallow : admits allow TokenData.newLine.type = false) (what : String)
    {f : Token → Parse β} (hf : ∀ t, EndsWithin (fun b => bound b + 1) (f t)) :
    EndsWithin bound (expect allow what f) :=
  within_taken (within_getToken hallow) (within_parserErrorGot what) hf

theorem EndsBelow.bind {m : Parse α} {f : α → Parse β} (hm : EndsBelow m)
    (hf : ∀ a, EndsWithin bound (f a)) : EndsWithin bound (m >>= f) := by
  apply Within.bind hm
  intro a
  exact (hf a).mono fun b => (Int.sub_zero (bound b)).ge

theorem EndsBelow.bind_pure {m : Parse α} (hm : EndsBelow m) {g : α → β}
    (h : ∀ a, 0 ≤ bound (g a)) : EndsWithin bound (m >>= fun a => pure (g a)) :=
  hm.bind fun a => within_pure (h a)

/-! ## Expressions -/

theorem endsBelow_parseScopes : EndsBelow parseScopes := by
  apply within_loop
  intro scopes
  apply within_taken (within_getToken rfl)
  · exact within_pure le_rfl
  · intro t
    dsimp only
    split
    · apply (within_putBack t).bind
      intro u
      exact within_pure le_rfl
    · apply within_taken (within_getTokenIf rfl _)
      · exact within_parserErrorGot _
      · intro t'
        exact within_pure (show (0 : ℤ) ≤ -1 + 1 + 1 by decide)

theorem endsBelow_parseArgs (expression : Expression) : EndsBelow (parseArgs expression) := by
  apply within_loop
  intro expression
  apply within_expect rfl
  intro t
  apply within_taken (within_getTokenIf rfl _)
  · exact within_parserErrorGot _
  · intro t'
    dsimp only
    split_ifs
    · exact within_pure (show (0 : ℤ) ≤ 0 + 1 + 1 by decide)
    · exact within_pure (show (0 : ℤ) ≤ -1 + 1 + 1 by decide)

theorem endsBelow_parseExpression : EndsBelow parseExpression := by
  apply within_taken (within_getToken rfl)
  · exact within_pure le_rfl
  · intro t
    dsimp only
    split_ifs
    · apply within_expect rfl
      intro tt
      exact within_pure (by decide)
    · apply endsBelow_parseScopes.bind
      intro scopes
      apply within_taken (within_getTokenIf rfl _)
      · exact within_parserErrorGot _
      · intro t'
        apply within_taken (within_getTokenIf rfl _)
        · exact (endsBelow_parseArgs _).mono fun _ => by decide
        · intro t''
          exact within_pure (by decide)

theorem endsBelow_parseAction : EndsBelow parseAction :=
  endsBelow_parseExpression.bind_pure fun _ => le_rfl

theorem endsBelow_parseRule : EndsBelow parseRule :=
  endsBelow_parseExpression.bind fun _ => endsBelow_parseAction.bind_pure fun _ => le_rfl

/-! ## Blocks -/

section Blocks
variable {γ : Type} {customHandler : String → State × γ → Parse (Option (State × γ))}
  {errorHandler : String → Parse (State × γ)}

/-- The end of a round that has taken a token and goes on. -/
theorem within_goOn {m : Parse α} (hm : EndsBelow m) (g : α → β) :
    EndsWithin (fun b => roundBound b + 1) (m >>= fun a => (pure (.inl (g a)) : Parse (β ⊕ γ))) :=
  hm.bind_pure fun _ => show (0 : ℤ) ≤ -1 + 1 by decide

theorem within_error (herror : ∀ expected, EndsBelow (errorHandler expected)) {k : ℤ} (hk : 0 ≤ k)
    (expected : String) :
    EndsWithin (fun b => roundBound b + k)
      (Sum.inr <$> errorHandler expected : Parse (State × γ ⊕ State × γ)) := by
  apply (herror expected).bind_pure
  intro block
  exact hk.trans (Int.zero_add k).ge

theorem progress_blockRound
    (hcustom : ∀ entry block, EndsBelow (customHandler entry block))
    (herror : ∀ expected, EndsBelow (errorHandler expected)) :
    Progress TokenServer.view (blockRound customHandler errorHandler) := by
  have hputBack : ∀ t : Token, EndsWithin (fun b => roundBound b + 1)
      (putBack t >>= fun _ => (Sum.inr <$> errorHandler "rule/action/if/elseif/else" :
        Parse (State × γ ⊕ State × γ))) := by
    intro t
    apply (within_putBack t).bind
    intro u
    exact (within_error herror le_rfl _).mono fun _ => by omega
  intro block
  apply within_taken (within_getToken rfl)
  · exact (within_error herror le_rfl _).mono fun _ => by omega
  · intro t
    dsimp only
    split_ifs
    · exact within_goOn endsBelow_parseRule _
    · exact within_goOn endsBelow_parseAction _
    · exact within_goOn endsBelow_parseRule _
    · exact within_goOn endsBelow_parseRule _
    · exact within_goOn endsBelow_parseAction _
    · apply (hcustom _ _).bind
      intro entry
      cases entry with
      | none => exact hputBack t
      | some block => exact within_pure (show (0 : ℤ) ≤ -1 + 1 by decide)
    · exact within_pure (show (0 : ℤ) ≤ 0 + 1 by decide)
    · exact within_pure (show (0 : ℤ) ≤ -1 + 1 by decide)
    · exact hputBack t

end Blocks

theorem endsBelow_stateEntry (entry : String) (block : State × Bool) :
    EndsBelow (stateEntry entry block) := by
  unfold stateEntry
  split_ifs
  · exact within_parserError _
  · apply EndsBelow.bind_pure
    · apply within_expect rfl
      intro t
      exact within_pure (by decide)
    · intro desc
      exact le_rfl
  · exact endsBelow_parseRule.bind_pure fun _ => le_rfl
  · exact within_pure le_rfl

theorem endsBelow_parseStateBlock : EndsBelow parseStateBlock := by
  apply within_expect rfl
  intro t
  apply within_taken (within_getToken rfl)
  · exact within_parserErrorGot _
  · intro brace
    dsimp only
    split_ifs
    · apply EndsBelow.bind_pure
      · apply within_loop
        exact progress_blockRound endsBelow_stateEntry fun _ => within_parserErrorGot _
      · intro block
        decide
    · exact within_parserErrorGot _

theorem endsBelow_parseVersion : EndsBelow parseVersion := by
  apply within_expect rfl
  intro t
  apply within_taken (within_getTokenIf rfl _)
  · exact within_pure (by decide)
  · intro dot
    apply within_expect rfl
    intro t'
    exact within_pure (by decide)

theorem progress_mainRound : Progress TokenServer.view mainRound := by
  intro main
  apply within_expect rfl
  intro t
  split_ifs
  · exact within_parserError _
  · apply within_goOn
    apply within_expect rfl
    intro name
    exact within_pure (by decide)
  · exact within_parserError _
  · exact within_goOn endsBelow_parseVersion _
  · exact within_parserError _
  · exact within_pure (show (0 : ℤ) ≤ -1 + 1 by decide)
  · exact within_parserError _
  · exact within_pure (show (0 : ℤ) ≤ -1 + 1 by decide)
  · exact within_parserError _
  · exact within_pure (show (0 : ℤ) ≤ -1 + 1 by decide)
  · exact within_parserErrorGot _
  · exact within_pure (show (0 : ℤ) ≤ 0 + 1 by decide)
  · exact within_parserErrorGot _

theorem endsBelow_parseMainBlock : EndsBelow parseMainBlock := by
  apply within_expect rfl
  intro t
  split_ifs
  · exact (within_loop progress_mainRound _).mono fun _ => by decide
  · exact within_parserErrorGot _

theorem progress_globalRound : Progress TokenServer.view globalRound := by
  intro quest
  apply within_expect rfl
  intro t
  split_ifs
  · exact within_parserError _
  · exact within_goOn endsBelow_parseMainBlock _
  · apply endsBelow_parseStateBlock.bind
    intro state
    split_ifs
    · exact within_parserError _
    · exact within_pure (show (0 : ℤ) ≤ -1 + 1 by decide)
  · exact within_parserErrorGot _
  · exact within_pure (show (0 : ℤ) ≤ 0 + 1 by decide)
  · exact within_parserError _

theorem endsBelow_parseGlobal (quest : Quest) : EndsBelow (parseGlobal quest) :=
  within_loop progress_globalRound quest

/-- Only the lexer may go on for ever. -/
theorem ofStream_eq_hangs_iff (is : List Char) :
    Quest.ofStream is = .error .hangs ↔ (Lexer.start is).lex = .error .hangs := by
  unfold Quest.ofStream
  cases hlex : (Lexer.start is).lex with
  | error e =>
      cases e with
      | error e => simp
      | hangs => simp
  | ok tokens =>
      have hends := (endsBelow_parseGlobal ⟨false, .empty, .empty⟩ (TokenServer.start tokens)).1
      cases hparse : parseGlobal ⟨false, .empty, .empty⟩ (TokenServer.start tokens) with
      | done quest s => simp [hparse]
      | raised e s => simp [hparse]
      | fault f => exact absurd hparse (hends f)

end Parser

end ArenaServ.EOPlus
