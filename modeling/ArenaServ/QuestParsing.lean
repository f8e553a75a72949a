import ArenaServ.QuestLexing

/-!
# The parser reads what a script is written as

Whatever newlines there are between the tokens of a script, the parser makes of them what the script
stands for.
-/

namespace ArenaServ.EOPlus

open Exec

/-! ## The next token -/

namespace TokenServer

/-- The tokens of a list without the newlines. -/
def dataOf (l : List Token) : List TokenData := (l.map Token.data).filter (· ≠ .newLine)

theorem view_eq (s : TokenServer) : s.view = dataOf s.tokenBuffer ++ dataOf s.tokens := by
  rw [view, List.map_append, List.filter_append]
  rfl

/-- A token of this type is not put back. -/
def admits (allow type : ℕ) : Bool := type &&& allow == type && type != 0

variable {allow : ℕ} {d : TokenData} {ds : List TokenData} {s : TokenServer} {l : List Token}

theorem admits_iff {type : ℕ} : admits allow type = true ↔ type &&& allow = type ∧ type ≠ 0 := by
  rw [admits, Bool.and_eq_true, beq_iff_eq, bne_iff_ne]

theorem dataOf_newLine (n : ℕ) : dataOf (⟨.newLine, n⟩ :: l) = dataOf l :=
  List.filter_cons_of_neg (by simp)

theorem dataOf_cons {t : Token} (h : t.data ≠ .newLine) : dataOf (t :: l) = t.data :: dataOf l :=
  List.filter_cons_of_pos (by simpa using h)

theorem dataOf_replicate (n : ℕ) : dataOf (List.replicate n ⟨.newLine, 0⟩ ++ l) = dataOf l := by
  induction n with
  | zero => rfl
  | succ n ih => rw [List.replicate_succ, List.cons_append, dataOf_newLine, ih]

theorem skipNewLines_newLine (hallow : admits allow TokenData.newLine.type = false) (n : ℕ) :
    (skipNewLines allow (⟨.newLine, n⟩ :: l)).2 = (skipNewLines allow l).2 := by
  have hne : TokenData.newLine.type &&& allow ≠ TokenData.newLine.type := by
    intro heq
    rw [admits_iff.2 ⟨heq, by decide⟩] at hallow
    cases hallow
  rw [skipNewLines, if_pos ⟨rfl, hne⟩]

theorem skipNewLines_of_ne {t : Token} (h : t.data ≠ .newLine) :
    (skipNewLines allow (t :: l)).2 = t :: l := by
  rw [skipNewLines, if_neg fun hline => h hline.1]

theorem skipNewLines_nil (hallow : admits allow TokenData.newLine.type = false)
    (h : dataOf l = []) :
    (skipNewLines allow l).2 = [] := by
  induction l with
  | nil => rfl
  | cons t rest ih =>
      obtain ⟨d, n⟩ := t
      by_cases hd : d = .newLine
      · subst hd
        rw [skipNewLines_newLine hallow]
        exact ih (by rwa [dataOf_newLine] at h)
      · rw [dataOf_cons (t := ⟨d, n⟩) hd] at h
        cases h

theorem skipNewLines_cons (hallow : admits allow TokenData.newLine.type = false)
    (h : dataOf l = d :: ds) :
    ∃ t rest, (skipNewLines allow l).2 = t :: rest ∧ t.data = d ∧ dataOf rest = ds := by
  induction l with
  | nil => cases h
  | cons t rest ih =>
      obtain ⟨d', n⟩ := t
      by_cases hd : d' = .newLine
      · subst hd
        rw [skipNewLines_newLine hallow]
        exact ih (by rwa [dataOf_newLine] at h)
      · rw [dataOf_cons (t := ⟨d', n⟩) hd, List.cons.injEq] at h
        exact ⟨⟨d', n⟩, rest, skipNewLines_of_ne hd, h.1, h.2⟩

/-- The next token is found behind some newlines. -/
theorem getToken_eq (hallow : admits allow TokenData.newLine.type = false) (h : s.view = d :: ds) :
    ∃ newlines t s', s.getToken allow = found allow newlines t s' ∧ t.data = d ∧ s'.view = ds := by
  rw [view_eq] at h
  cases hback : dataOf s.tokenBuffer with
  | nil =>
      rw [hback, List.nil_append] at h
      obtain ⟨t, rest, hskip, ht, hrest⟩ := skipNewLines_cons hallow h
      have hnil := skipNewLines_nil hallow hback
      refine ⟨(skipNewLines allow s.tokenBuffer).1 + (skipNewLines allow s.tokens).1, t,
        { s with tokenBuffer := [], tokens := rest }, ?_, ht, ?_⟩
      · simp only [getToken, hnil, hskip]
      · rw [view_eq]
        exact hrest
  | cons d' ds' =>
      rw [hback, List.cons_append, List.cons.injEq] at h
      obtain ⟨t, rest, hskip, ht, hrest⟩ := skipNewLines_cons hallow hback
      refine ⟨(skipNewLines allow s.tokenBuffer).1, t, { s with tokenBuffer := rest }, ?_,
        ht.trans h.1, ?_⟩
      · simp only [getToken, hskip]
      · rw [view_eq, ← h.2]
        exact congrArg (· ++ _) hrest

theorem ne_newLine_of_view (h : s.view = d :: ds) : d ≠ .newLine := by
  have hmem : d ∈ s.view := by
    rw [h]
    exact List.mem_cons_self
  simpa using (List.mem_filter.1 hmem).2

theorem view_putBack {n : ℕ} (hd : d ≠ .newLine) : (s.putBack ⟨d, n⟩).view = d :: s.view := by
  rw [view_eq]
  change dataOf (⟨d, n⟩ :: List.replicate n ⟨.newLine, 0⟩ ++ s.tokenBuffer) ++ _ = _
  rw [List.cons_append, dataOf_cons (t := ⟨d, n⟩) hd, dataOf_replicate, view_eq]
  rfl

/-- A token of the right type is taken. -/
theorem getToken_of_admits (hallow : admits allow TokenData.newLine.type = false)
    (hd : admits allow d.type = true) (h : s.view = d :: ds) :
    ∃ n s', s.getToken allow = (some ⟨d, n⟩, s') ∧ s'.view = ds := by
  obtain ⟨n, t, s', hget, rfl, hview⟩ := getToken_eq hallow h
  obtain ⟨htype, hpos⟩ := admits_iff.1 hd
  have hvalid : t.data ≠ .invalid := fun heq => hpos (by rw [heq]; rfl)
  have hfound : found allow n t s' = (some ⟨t.data, n⟩,
      { s' with line := s'.line + n + if t.data = .newLine then 1 else 0 }) := by
    rw [found, if_neg (not_not_intro htype), if_neg hvalid]
  exact ⟨n, _, hget.trans hfound, hview⟩

/-- A token of another type is left. -/
theorem getToken_of_not_admits (hallow : admits allow TokenData.newLine.type = false)
    (hd : admits allow d.type = false) (hpos : d.type ≠ 0) (h : s.view = d :: ds) :
    ∃ s', s.getToken allow = (none, s') ∧ s'.view = d :: ds := by
  have hline := ne_newLine_of_view h
  obtain ⟨n, t, s', hget, rfl, hview⟩ := getToken_eq hallow h
  have htype : t.data.type &&& allow ≠ t.data.type := by
    intro heq
    rw [admits_iff.2 ⟨heq, hpos⟩] at hd
    cases hd
  have hfound : found allow n t s' = (none, ({ s' with
      line := s'.line + n + if t.data = .newLine then 1 else 0 } : TokenServer).putBack
        ⟨t.data, n⟩) := by
    rw [found, if_pos htype]
  refine ⟨_, hget.trans hfound, ?_⟩
  rw [view_putBack hline, ← hview]
  rfl

end TokenServer

namespace Parser
variable {α β : Type} {allow : ℕ} {d : TokenData} {ts us : List TokenData}
  {next : List TokenData → Prop}

open TokenServer (admits)

/-- Where what comes behind has `next`, the parser reads these tokens. -/
abbrev Reads (next : List TokenData → Prop) (m : Parse α) (ts : List TokenData) (a : α) : Prop :=
  Consumes TokenServer.view next m ts a

/-- Whatever comes behind. -/
def always (_ : List TokenData) : Prop := True

/-- Another token comes than those of some types. -/
def Other (allow : ℕ) (ts : List TokenData) : Prop :=
  ∃ d rest, ts = d :: rest ∧ admits allow d.type = false ∧ d.type ≠ 0

/-! ## Tokens -/

theorem reads_getToken (type : ℕ) {f : Option Token → Parse β} {b : β}
    (hallow : admits allow TokenData.newLine.type = false) (htype : d.type = type)
    (hd : admits allow type = true) (hf : ∀ n, Reads next (f (some ⟨d, n⟩)) us b) :
    Reads next (getToken allow >>= f) (d :: us) b := by
  subst htype
  intro s rest hs hrest
  obtain ⟨n, s₁, hget, hs₁⟩ := TokenServer.getToken_of_admits hallow hd hs
  obtain ⟨s₂, hf₂, hs₂⟩ := hf n s₁ rest hs₁ hrest
  refine ⟨s₂, ?_, hs₂⟩
  have hdone : getToken allow s = .done (some ⟨d, n⟩) s₁ := by rw [getToken, hget]
  rw [bind_of_done hdone, hf₂]

theorem reads_getToken_other {f : Option Token → Parse β} {b : β}
    (hallow : admits allow TokenData.newLine.type = false)
    (hother : ∀ rest, next rest → Other allow (us ++ rest)) (hf : Reads next (f none) us b) :
    Reads next (getToken allow >>= f) us b := by
  intro s rest hs hrest
  obtain ⟨d, ds, hds, hd, hpos⟩ := hother rest hrest
  rw [hds] at hs
  obtain ⟨s₁, hget, hs₁⟩ := TokenServer.getToken_of_not_admits hallow hd hpos hs
  obtain ⟨s₂, hf₂, hs₂⟩ := hf s₁ rest (hs₁.trans hds.symm) hrest
  refine ⟨s₂, ?_, hs₂⟩
  have hdone : getToken allow s = .done none s₁ := by rw [getToken, hget]
  rw [bind_of_done hdone, hf₂]

theorem reads_expect (type : ℕ) {what : String} {f : Token → Parse β} {b : β}
    (hallow : admits allow TokenData.newLine.type = false) (htype : d.type = type)
    (hd : admits allow type = true) (hf : ∀ n, Reads next (f ⟨d, n⟩) us b) :
    Reads next (expect allow what f) (d :: us) b :=
  reads_getToken type hallow htype hd hf

theorem reads_getTokenIf (type : ℕ) {test : TokenData → Bool} {f : Option Token → Parse β} {b : β}
    (hallow : admits allow TokenData.newLine.type = false) (htype : d.type = type)
    (hd : admits allow type = true) (htest : test d = true)
    (hf : ∀ n, Reads next (f (some ⟨d, n⟩)) us b) :
    Reads next (getTokenIf test allow >>= f) (d :: us) b := by
  subst htype
  intro s rest hs hrest
  obtain ⟨n, s₁, hget, hs₁⟩ := TokenServer.getToken_of_admits hallow hd hs
  obtain ⟨s₂, hf₂, hs₂⟩ := hf n s₁ rest hs₁ hrest
  refine ⟨s₂, ?_, hs₂⟩
  have hdone : getToken allow s = .done (some ⟨d, n⟩) s₁ := by rw [getToken, hget]
  have hif : getTokenIf test allow s = .done (some ⟨d, n⟩) s₁ := by
    unfold getTokenIf
    rw [bind_of_done hdone]
    dsimp only
    rw [if_pos htest]
    rfl
  rw [bind_of_done hif, hf₂]

/-- A token of another type, or one that fails the test. -/
def Fails (test : TokenData → Bool) (allow : ℕ) (ts : List TokenData) : Prop :=
  ∃ d rest, ts = d :: rest ∧ d.type ≠ 0 ∧ (admits allow d.type = true → test d = false)

theorem reads_getTokenIf_fails {test : TokenData → Bool} {f : Option Token → Parse β} {b : β}
    (hallow : admits allow TokenData.newLine.type = false)
    (hfails : ∀ rest, next rest → Fails test allow (us ++ rest)) (hf : Reads next (f none) us b) :
    Reads next (getTokenIf test allow >>= f) us b := by
  intro s rest hs hrest
  obtain ⟨d, ds, hds, hpos, htest⟩ := hfails rest hrest
  rw [hds] at hs
  have hnone : ∃ s₁, getTokenIf test allow s = .done none s₁ ∧ s₁.view = d :: ds := by
    cases hd : admits allow d.type with
    | false =>
        obtain ⟨s₁, hget, hs₁⟩ := TokenServer.getToken_of_not_admits hallow hd hpos hs
        refine ⟨s₁, ?_, hs₁⟩
        have hdone : getToken allow s = .done none s₁ := by rw [getToken, hget]
        unfold getTokenIf
        rw [bind_of_done hdone]
        rfl
    | true =>
        obtain ⟨n, s₁, hget, hs₁⟩ := TokenServer.getToken_of_admits hallow hd hs
        refine ⟨s₁.putBack ⟨d, n⟩, ?_, ?_⟩
        · have hdone : getToken allow s = .done (some ⟨d, n⟩) s₁ := by rw [getToken, hget]
          unfold getTokenIf
          rw [bind_of_done hdone]
          dsimp only
          rw [htest hd]
          rfl
        · rw [TokenServer.view_putBack (TokenServer.ne_newLine_of_view hs), hs₁]
  obtain ⟨s₁, hif, hs₁⟩ := hnone
  obtain ⟨s₂, hf₂, hs₂⟩ := hf s₁ rest (hs₁.trans hds.symm) hrest
  refine ⟨s₂, ?_, hs₂⟩
  rw [bind_of_done hif, hf₂]

/-! ## Expressions -/

theorem reads_parseScopes : Reads (Other identifier) parseScopes [] [] := by
  unfold parseScopes tokenLoop
  apply LoopConsumes.consumes
  apply loopConsumes_last
  exact reads_getToken_other rfl (fun rest hrest => hrest) consumes_pure

theorem isOp_comma : isOp ')' (.symbol ',') = false := by
  have hzero : Util.toInt [','] = 0 := by decide +kernel
  change decide (Util.toInt [','] = _) = false
  rw [hzero]
  rfl

theorem toVariant_token (a : Script.Arg) : a.token.toVariant = a.variant := by
  cases a <;> rfl

/-- The type of an argument. -/
def argType : Script.Arg → ℕ
  | .int _ _ => integer
  | .text _ => string

theorem type_token (a : Script.Arg) : a.token.type = argType a := by cases a <;> rfl

theorem admits_argType (a : Script.Arg) :
    admits (string ||| float ||| integer) (argType a) = true := by
  cases a with
  | int => exact (rfl : admits (string ||| float ||| integer) integer = true)
  | text => exact (rfl : admits (string ||| float ||| integer) string = true)

theorem not_admits_argType (a : Script.Arg) : admits operator (argType a) = false := by
  cases a with
  | int => exact (rfl : admits operator integer = false)
  | text => exact (rfl : admits operator string = false)

/-- In front of arguments there is no closing parenthesis. -/
theorem fails_argTokens (a : Script.Arg) (rest : List Script.Arg) (more : List TokenData) :
    Fails (isOp ')') operator (Script.argTokens (a :: rest) ++ more) := by
  have hhead : ∃ ts, Script.argTokens (a :: rest) ++ more = a.token :: ts := by
    cases rest <;> exact ⟨_, rfl⟩
  obtain ⟨ts, hts⟩ := hhead
  refine ⟨a.token, ts, hts, ?_, ?_⟩
  · cases a with
    | int => exact (by decide : integer ≠ 0)
    | text => exact (by decide : string ≠ 0)
  · rw [type_token, not_admits_argType]
    intro h
    cases h

theorem reads_parseArgs (expression : Expression) (a : Script.Arg) (rest : List Script.Arg) :
    Reads always (parseArgs expression) (Script.argTokens (a :: rest))
      { expression with args := expression.args ++ (a :: rest).map Script.Arg.variant } := by
  unfold parseArgs tokenLoop
  apply LoopConsumes.consumes
  induction rest generalizing expression a with
  | nil =>
      apply loopConsumes_last
      apply reads_expect (argType a) rfl (type_token a) (admits_argType a)
      intro n
      apply reads_getTokenIf operator rfl rfl rfl rfl
      intro n'
      dsimp only
      rw [if_pos (show isOp ')' Script.rightParens = true from rfl), toVariant_token]
      exact consumes_pure
  | cons b rest ih =>
      have hround := ih { expression with args := expression.args ++ [a.variant] } b
      dsimp only at hround
      rw [List.append_assoc] at hround
      have hread : Reads always (argRound expression) [a.token, .symbol ',']
          (.inl { expression with args := expression.args ++ [a.variant] }) := by
        apply reads_expect (argType a) rfl (type_token a) (admits_argType a)
        intro n
        apply reads_getTokenIf symbol rfl rfl rfl rfl
        intro n'
        dsimp only
        rw [isOp_comma, if_neg Bool.false_ne_true, toVariant_token]
        exact consumes_pure
      exact hread.round (List.cons_ne_nil _ _) hround fun _ _ => trivial

theorem reads_parseExpression (e : Script.Expression) :
    Reads always parseExpression e.tokens e.ast := by
  unfold parseExpression
  cases e with
  | goto name =>
      apply reads_getToken identifier rfl rfl rfl
      intro n
      dsimp only
      rw [if_pos (show (TokenData.identifier "goto").toText = "goto" from rfl)]
      apply reads_expect identifier rfl rfl rfl
      intro n'
      exact consumes_pure
  | call name args =>
      have hname : ¬(TokenData.identifier name.text).toText = "goto" :=
        fun heq => name.notReserved (by rw [show name.text = "goto" from heq]; decide)
      apply reads_getToken identifier rfl rfl rfl
      intro n
      dsimp only
      rw [if_neg hname]
      change Reads always _ ([] ++ Script.leftParens :: Script.argTokens args) _
      apply reads_parseScopes.bind
      · apply reads_getTokenIf operator rfl rfl rfl rfl
        intro n'
        cases args with
        | nil =>
            apply reads_getTokenIf operator rfl rfl rfl rfl
            intro n''
            exact consumes_pure
        | cons a rest =>
            apply reads_getTokenIf_fails rfl
            · intro more _
              exact fails_argTokens a rest more
            · exact reads_parseArgs _ a rest
      · intro more _
        exact ⟨Script.leftParens, _, rfl, rfl, by decide⟩

theorem reads_parseAction (e : Script.Expression) :
    Reads always parseAction e.tokens ⟨.condNone, .empty, e.ast⟩ :=
  (reads_parseExpression e).bind_pure fun expr => (⟨.condNone, .empty, expr⟩ : Action)

theorem reads_parseRule (e act : Script.Expression) :
    Reads always parseRule (e.tokens ++ act.tokens) ⟨e.ast, ⟨.condNone, .empty, act.ast⟩⟩ := by
  apply (reads_parseExpression e).bind
  · exact (reads_parseAction act).bind_pure fun action => (⟨e.ast, action⟩ : Rule)
  · intro rest _
    trivial

/-! ## States -/

@[simp] theorem toText_identifier (name : String) : (TokenData.identifier name).toText = name := rfl

@[simp] theorem type_identifier (name : String) : (TokenData.identifier name).type = identifier :=
  rfl

/-- A state with one more entry. -/
def addEntry (s : State) : Script.Entry → State
  | .semicolon => s
  | .rule expr act => s.addRule ⟨expr.ast, ⟨.condNone, .empty, act.ast⟩⟩
  | .goal expr act => s.addGoal ⟨expr.ast, ⟨.condNone, .empty, act.ast⟩⟩
  | .action expr => s.addAction ⟨.condNone, .empty, expr.ast⟩
  | .condIf cond expr => s.addAction ⟨.condIf, cond.ast, expr.ast⟩
  | .condElseIf cond expr => s.addAction ⟨.condElseIf, cond.ast, expr.ast⟩
  | .condElse expr => s.addAction ⟨.condElse, .empty, expr.ast⟩

section Block
variable {errorHandler : String → Parse (State × Bool)} {block block' : State × Bool}

theorem reads_blockRound_entry (e : Script.Entry) :
    Reads always (blockRound stateEntry errorHandler block) e.tokens
      (.inl (addEntry block.1 e, block.2)) := by
  cases e with
  | semicolon =>
      apply reads_getToken symbol rfl rfl rfl
      intro n
      exact consumes_pure
  | rule expr act =>
      apply reads_getToken identifier rfl rfl rfl
      intro n
      simp only [toText_identifier, type_identifier, ↓reduceIte]
      exact (reads_parseRule expr act).bind_pure
        fun rule => Sum.inl (block.1.addRule rule, block.2)
  | goal expr act =>
      have hentry : Reads always (stateEntry "goal" block) (expr.tokens ++ act.tokens)
          (some (addEntry block.1 (.goal expr act), block.2)) := by
        simp only [stateEntry, String.reduceEq, ↓reduceIte]
        exact (reads_parseRule expr act).bind_pure
          fun rule => some (block.1.addGoal rule, block.2)
      apply reads_getToken identifier rfl rfl rfl
      intro n
      simp only [toText_identifier, type_identifier, String.reduceEq, or_self, ↓reduceIte]
      exact hentry.bind_eq_pure rfl
  | action expr =>
      apply reads_getToken identifier rfl rfl rfl
      intro n
      simp only [toText_identifier, type_identifier, String.reduceEq, ↓reduceIte]
      exact (reads_parseAction expr).bind_pure
        fun action => Sum.inl (block.1.addAction action, block.2)
  | condIf cond expr =>
      apply reads_getToken identifier rfl rfl rfl
      intro n
      simp only [toText_identifier, type_identifier, String.reduceEq, ↓reduceIte]
      exact (reads_parseRule cond expr).bind_pure
        fun rule => Sum.inl (block.1.addAction (conditional .condIf rule), block.2)
  | condElseIf cond expr =>
      apply reads_getToken identifier rfl rfl rfl
      intro n
      simp only [toText_identifier, type_identifier, String.reduceEq, or_false, ↓reduceIte]
      exact (reads_parseRule cond expr).bind_pure
        fun rule => Sum.inl (block.1.addAction (conditional .condElseIf rule), block.2)
  | condElse expr =>
      apply reads_getToken identifier rfl rfl rfl
      intro n
      simp only [toText_identifier, type_identifier, String.reduceEq, or_self, ↓reduceIte]
      exact (reads_parseAction expr).bind_pure
        fun action => Sum.inl (block.1.addAction { action with cond := .condElse }, block.2)

theorem reads_blockRound_desc (desc : String) (s : State) :
    Reads always (blockRound stateEntry errorHandler (s, false))
      [.identifier "desc", .string desc] (.inl ({ s with desc := desc }, true)) := by
  have hdesc : Reads always parseDesc [.string desc] desc := by
    apply reads_expect string rfl rfl rfl
    intro n
    exact consumes_pure
  have hentry : Reads always (stateEntry "desc" (s, false)) [.string desc]
      (some ({ s with desc := desc }, true)) := by
    simp only [stateEntry, Bool.false_eq_true, ↓reduceIte]
    exact hdesc.bind_pure fun desc => some ({ s with desc := desc }, true)
  apply reads_getToken identifier rfl rfl rfl
  intro n
  simp only [toText_identifier, type_identifier, String.reduceEq, or_self, ↓reduceIte]
  exact hentry.bind_eq_pure rfl

theorem reads_blockRound_close :
    Reads next (blockRound stateEntry errorHandler block) [.symbol '}'] (.inr block) := by
  apply reads_getToken symbol rfl rfl rfl
  intro n
  exact consumes_pure

/-- The entries in front of the rest of a block. -/
theorem reads_entries (l : List Script.Entry)
    (hblock : LoopConsumes TokenServer.view next () (blockRound stateEntry errorHandler)
      (l.foldl addEntry block.1, block.2) us block') :
    LoopConsumes TokenServer.view next () (blockRound stateEntry errorHandler) block
      (l.flatMap Script.Entry.tokens ++ us) block' := by
  have hfold : l.foldl (fun block e => (addEntry block.1 e, block.2)) block =
      (l.foldl addEntry block.1, block.2) := by
    clear hblock
    induction l generalizing block with
    | nil => rfl
    | cons e l ih => exact ih
  rw [← hfold] at hblock
  exact LoopConsumes.rounds (fun _ _ => True) _ always
    (fun e _ _ _ => ⟨reads_blockRound_entry e, trivial⟩)
    (fun e => by cases e <;> exact List.cons_ne_nil _ _) trivial hblock fun _ _ _ => trivial

theorem addEntry_stateOf (name : String) (hasDesc : Bool) (desc : String)
    (entries : List Script.Entry) (e : Script.Entry) :
    addEntry (Script.stateOf name hasDesc desc entries) e =
      Script.stateOf name hasDesc desc (entries ++ [e]) := by
  have hgoal := Script.goalIndex_concat entries e
  cases e <;>
    simp [addEntry, Script.stateOf, State.addRule, State.addGoal, State.addAction, hgoal,
      Script.Entry.rule?, Script.Entry.action?, Script.Entry.isGoal]

theorem foldl_addEntry (name : String) (hasDesc : Bool) (desc : String)
    (entries l : List Script.Entry) :
    l.foldl addEntry (Script.stateOf name hasDesc desc entries) =
      Script.stateOf name hasDesc desc (entries ++ l) := by
  induction l generalizing entries with
  | nil => rw [List.append_nil]; rfl
  | cons e l ih =>
      rw [List.foldl_cons, addEntry_stateOf, ih, List.append_assoc]
      rfl

/-- The block of a state, without the flag for its description. -/
theorem reads_stateBlock (s : Script.State) :
    Reads always (parseRuleActionBlock stateEntry errorHandler (.empty, false))
      (s.entries.flatMap Script.Entry.tokens ++ (Script.descTokens s.desc ++
        (s.more.flatMap Script.Entry.tokens ++ [.symbol '}'])))
      (Script.stateOf "" false (s.desc.getD "") s.allEntries, s.desc.isSome) := by
  have hmore : ∀ (desc : String) (flag : Bool),
      LoopConsumes TokenServer.view always () (blockRound stateEntry errorHandler)
        (Script.stateOf "" false desc s.entries, flag)
        (s.more.flatMap Script.Entry.tokens ++ [.symbol '}'])
        (Script.stateOf "" false desc s.allEntries, flag) := by
    intro desc flag
    apply reads_entries
    rw [foldl_addEntry]
    exact loopConsumes_last reads_blockRound_close
  have hempty : s.entries.foldl addEntry State.empty = Script.stateOf "" false "" s.entries :=
    foldl_addEntry "" false "" [] s.entries
  unfold parseRuleActionBlock tokenLoop
  apply LoopConsumes.consumes
  apply reads_entries
  rw [hempty]
  cases s.desc with
  | none => exact hmore "" false
  | some desc =>
      exact (reads_blockRound_desc desc _).round (List.cons_ne_nil _ _) (hmore desc true)
        fun _ _ => trivial

end Block

/-- What is made of a state: the flag for its description is never set. -/
def parsedState (s : Script.State) : State :=
  Script.stateOf s.name.text false (s.desc.getD "") s.allEntries

theorem reads_parseStateBlock (s : Script.State) :
    Reads always parseStateBlock (s.tokens.tail) (s.name.text, parsedState s) := by
  have htokens : s.tokens.tail = .identifier s.name.text :: .symbol '{' ::
      (s.entries.flatMap Script.Entry.tokens ++ (Script.descTokens s.desc ++
        (s.more.flatMap Script.Entry.tokens ++ [.symbol '}']))) := by
    simp [Script.State.tokens]
  rw [htokens]
  apply reads_expect identifier rfl rfl rfl
  intro n
  apply reads_getToken symbol rfl rfl rfl
  intro n'
  dsimp only
  rw [if_pos (show (TokenData.symbol '{').toText = "\x7b" from rfl)]
  exact (reads_stateBlock s).bind_pure
    fun block => (s.name.text, { block.1 with name := s.name.text })

/-! ## The main block -/

theorem toUInt32_major (m : UInt16) :
    (TokenData.integer (Int32.ofNat m.toNat)).toInt.toUInt32 = m.toUInt32 := by
  have hlt := m.toNat_lt
  have hnat : (TokenData.integer (Int32.ofNat m.toNat)).toInt.toUInt32 = UInt32.ofNat m.toNat := rfl
  rw [hnat]
  apply UInt32.toNat_inj.1
  rw [UInt32.toNat_ofNat', UInt16.toNat_toUInt32]
  omega

theorem toUInt32_minor (m : UInt16) : m.toUInt32 &&& 0xFFFF = m.toUInt32 := by
  apply UInt32.toNat_inj.1
  rw [UInt32.toNat_and, UInt16.toNat_toUInt32]
  exact Nat.and_two_pow_sub_one_of_lt_two_pow (n := 16) m.toNat_lt

theorem reads_parseVersion (major : UInt16) (minor : Option UInt16) :
    Reads (Fails (isSymbol '.') symbol) parseVersion
      (Script.MainEntry.version major minor).tokens.tail (Script.versionOf major minor) := by
  cases minor with
  | none =>
      apply reads_expect integer rfl rfl rfl
      intro n
      apply reads_getTokenIf_fails rfl (fun rest hrest => hrest)
      dsimp only
      rw [toUInt32_major]
      have hversion : Script.versionOf major none = major.toUInt32 <<< 16 := UInt32.or_zero
      rw [hversion]
      exact consumes_pure
  | some minor =>
      apply reads_expect integer rfl rfl rfl
      intro n
      apply reads_getTokenIf symbol rfl rfl rfl rfl
      intro n'
      apply reads_expect integer rfl rfl rfl
      intro n''
      dsimp only
      rw [toUInt32_major, toUInt32_major, toUInt32_minor]
      exact consumes_pure

/-- Whether there has been an entry. -/
def MainLoop.seen (main : MainLoop) : Script.MainKey → Bool
  | .questname => main.hasQuestname
  | .version => main.hasVersion
  | .hidden => main.info.hidden ≠ .notHidden
  | .disabled => main.info.disabled

def addMain (main : MainLoop) (e : Script.MainEntry) : MainLoop where
  hasQuestname := main.hasQuestname || e.key = .questname
  hasVersion := main.hasVersion || e.key = .version
  info := e.addTo main.info

theorem seen_addMain (main : MainLoop) (e : Script.MainEntry) (key : Script.MainKey) :
    (addMain main e).seen key = (main.seen key || e.key = key) := by
  cases e <;> cases key <;>
    simp [addMain, MainLoop.seen, Script.MainEntry.key, Script.MainEntry.addTo]

theorem reads_mainRound {main : MainLoop} {e : Script.MainEntry} (h : main.seen e.key = false) :
    Reads (Fails (isSymbol '.') symbol) (mainRound main) e.tokens (.inl (addMain main e)) := by
  cases e with
  | questname name =>
      have hseen : main.hasQuestname = false := h
      have hname : Reads (Fails (isSymbol '.') symbol) parseQuestName [.string name] name := by
        apply reads_expect string rfl rfl rfl
        intro n
        exact consumes_pure
      apply reads_expect identifier rfl rfl rfl
      intro n
      simp only [toText_identifier, type_identifier, hseen, Bool.false_eq_true, ↓reduceIte]
      apply hname.bind_eq_pure
      simp [addMain, Script.MainEntry.key, Script.MainEntry.addTo]
  | version major minor =>
      have hseen : main.hasVersion = false := h
      have hcons : (Script.MainEntry.version major minor).tokens =
          .identifier "version" :: (Script.MainEntry.version major minor).tokens.tail := by
        cases minor <;> rfl
      rw [hcons]
      apply reads_expect identifier rfl rfl rfl
      intro n
      simp only [toText_identifier, type_identifier, hseen, Bool.false_eq_true, String.reduceEq,
        ↓reduceIte]
      apply (reads_parseVersion major minor).bind_eq_pure
      simp [addMain, Script.MainEntry.key, Script.MainEntry.addTo]
  | hidden =>
      have hdecide : decide (main.info.hidden ≠ .notHidden) = false := h
      have hseen : main.info.hidden = .notHidden := by simpa using hdecide
      apply reads_expect identifier rfl rfl rfl
      intro n
      simp only [toText_identifier, type_identifier, hseen, ne_eq, not_true_eq_false,
        String.reduceEq, ↓reduceIte]
      have hadd : addMain main .hidden = { main with info.hidden := .hidden } := by
        simp [addMain, Script.MainEntry.key, Script.MainEntry.addTo]
      rw [hadd]
      exact consumes_pure
  | hiddenEnd =>
      have hdecide : decide (main.info.hidden ≠ .notHidden) = false := h
      have hseen : main.info.hidden = .notHidden := by simpa using hdecide
      apply reads_expect identifier rfl rfl rfl
      intro n
      simp only [toText_identifier, type_identifier, hseen, ne_eq, not_true_eq_false,
        String.reduceEq, ↓reduceIte]
      have hadd : addMain main .hiddenEnd = { main with info.hidden := .hiddenEnd } := by
        simp [addMain, Script.MainEntry.key, Script.MainEntry.addTo]
      rw [hadd]
      exact consumes_pure
  | disabled =>
      have hseen : main.info.disabled = false := h
      apply reads_expect identifier rfl rfl rfl
      intro n
      simp only [toText_identifier, type_identifier, hseen, Bool.false_eq_true, String.reduceEq,
        ↓reduceIte]
      have hadd : addMain main .disabled = { main with info.disabled := true } := by
        simp [addMain, Script.MainEntry.key, Script.MainEntry.addTo]
      rw [hadd]
      exact consumes_pure

/-- What is left of the entries can still come. -/
def Open (l : List Script.MainEntry) (main : MainLoop) : Prop :=
  (l.map Script.MainEntry.key).Nodup ∧ ∀ e ∈ l, main.seen e.key = false

theorem Open.add {e : Script.MainEntry} {l : List Script.MainEntry} {main : MainLoop}
    (h : Open (e :: l) main) : Open l (addMain main e) := by
  obtain ⟨hnodup, hseen⟩ := h
  rw [List.map_cons, List.nodup_cons] at hnodup
  refine ⟨hnodup.2, ?_⟩
  intro e' he'
  have hne : e.key ≠ e'.key := fun heq => hnodup.1 (heq ▸ List.mem_map_of_mem he')
  rw [seen_addMain, hseen e' (List.mem_cons_of_mem e he'), Bool.false_or]
  exact decide_eq_false hne

/-- No entry begins with a dot, and the end of the block is none. -/
theorem fails_main (l : List Script.MainEntry) (rest : List TokenData) :
    Fails (isSymbol '.') symbol (l.flatMap Script.MainEntry.tokens ++ [.symbol '}'] ++ rest) := by
  cases l with
  | nil => exact ⟨.symbol '}', rest, rfl, by decide, fun _ => rfl⟩
  | cons e l =>
      have hhead : ∃ word ts, e.tokens = .identifier word :: ts := by
        cases e with
        | version major minor => cases minor <;> exact ⟨_, _, rfl⟩
        | _ => exact ⟨_, _, rfl⟩
      obtain ⟨word, ts, hts⟩ := hhead
      refine ⟨.identifier word, ts ++ (l.flatMap Script.MainEntry.tokens ++ [.symbol '}'] ++ rest),
        by simp [hts], Nat.one_ne_zero, ?_⟩
      have hnot : admits symbol (TokenData.identifier word).type = false :=
        (rfl : admits symbol identifier = false)
      rw [hnot]
      intro h
      cases h

theorem foldl_addMain (l : List Script.MainEntry) (main : MainLoop) :
    (l.foldl addMain main).info = l.foldl Script.MainEntry.addTo main.info := by
  induction l generalizing main with
  | nil => rfl
  | cons e l ih => exact ih (addMain main e)

theorem reads_parseMainBlock {main : List Script.MainEntry}
    (h : (main.map Script.MainEntry.key).Nodup) :
    Reads always parseMainBlock (Script.mainTokens main).tail
      (main.foldl Script.MainEntry.addTo .empty) := by
  apply reads_expect symbol rfl rfl rfl
  intro n
  dsimp only
  rw [if_pos (show (TokenData.symbol '{').toText = "\x7b" from rfl)]
  unfold parseMain tokenLoop
  apply LoopConsumes.consumes
  apply LoopConsumes.rounds Open addMain (Fails (isSymbol '.') symbol)
  · intro e l main hopen
    exact ⟨reads_mainRound (hopen.2 e List.mem_cons_self), hopen.add⟩
  · intro e
    cases e with
    | version major minor => cases minor <;> exact List.cons_ne_nil _ _
    | _ => exact List.cons_ne_nil _ _
  · refine ⟨h, ?_⟩
    intro e _
    cases e <;> rfl
  · apply loopConsumes_last
    apply reads_expect symbol rfl rfl rfl
    intro n
    dsimp only
    have hinfo := foldl_addMain main ⟨false, false, .empty⟩
    rw [← hinfo]
    exact consumes_pure
  · intro l rest _
    exact fails_main l rest

/-! ## Quests -/

def addState (quest : Quest) (s : Script.State) : Quest :=
  { quest with states := quest.states.insert s.name.text (parsedState s) }

/-- The states that are left have names of their own. -/
def Fresh (l : List Script.State) (quest : Quest) : Prop :=
  (l.map fun s => s.name.text).Nodup ∧ ∀ s ∈ l, quest.states.find? s.name.text = none

theorem Fresh.add {s : Script.State} {l : List Script.State} {quest : Quest}
    (h : Fresh (s :: l) quest) : Fresh l (addState quest s) := by
  obtain ⟨hnodup, hfree⟩ := h
  rw [List.map_cons, List.nodup_cons] at hnodup
  refine ⟨hnodup.2, ?_⟩
  intro s' hs'
  have hne : s'.name.text ≠ s.name.text := fun heq =>
    hnodup.1 (heq ▸ List.mem_map_of_mem (f := fun s : Script.State => s.name.text) hs')
  change (quest.states.insert s.name.text (parsedState s)).find? s'.name.text = none
  rw [SortedMap.find?_insert, if_neg hne]
  exact hfree s' (List.mem_cons_of_mem s hs')

theorem reads_globalRound_state {s : Script.State} {quest : Quest}
    (h : quest.states.find? s.name.text = none) :
    Reads always (globalRound quest) s.tokens (.inl (addState quest s)) := by
  have hcons : s.tokens = .identifier "state" :: s.tokens.tail := rfl
  rw [hcons]
  apply reads_expect identifier rfl rfl rfl
  intro n
  simp only [toText_identifier, type_identifier, String.reduceEq, ↓reduceIte]
  apply (reads_parseStateBlock s).bind_eq_pure
  rw [h]
  rfl

theorem reads_globalRound_main {main : List Script.MainEntry} {quest : Quest}
    (h : (main.map Script.MainEntry.key).Nodup) (hinfo : quest.hasInfo = false) :
    Reads always (globalRound quest) (Script.mainTokens main)
      (.inl { quest with info := main.foldl Script.MainEntry.addTo .empty, hasInfo := true }) := by
  have hcons : Script.mainTokens main = .identifier "main" :: (Script.mainTokens main).tail := rfl
  rw [hcons]
  apply reads_expect identifier rfl rfl rfl
  intro n
  simp only [toText_identifier, type_identifier, hinfo, Bool.false_eq_true, ↓reduceIte]
  exact (reads_parseMainBlock h).bind_eq_pure rfl

theorem reads_globalRound_end {quest : Quest} (hinfo : quest.hasInfo = true) :
    Reads next (globalRound quest) [.endOfFile] (.inr quest) := by
  apply reads_expect endOfFile rfl rfl rfl
  intro n
  simp only [hinfo, ↓reduceIte]
  exact consumes_pure

/-- The states in front of the rest of a quest. -/
theorem reads_states {l : List Script.State} {quest quest' : Quest} (h : Fresh l quest)
    (hquest : LoopConsumes TokenServer.view next () globalRound (l.foldl addState quest) us
      quest') :
    LoopConsumes TokenServer.view next () globalRound quest (l.flatMap Script.State.tokens ++ us)
      quest' := by
  apply LoopConsumes.rounds Fresh addState always _ _ h hquest
  · intro _ _ _
    trivial
  · intro s l quest hfresh
    exact ⟨reads_globalRound_state (hfresh.2 s List.mem_cons_self), hfresh.add⟩
  · intro s
    exact List.cons_ne_nil _ _

theorem Fresh.of_append {l l' : List Script.State} {quest : Quest} (h : Fresh (l ++ l') quest) :
    Fresh l quest := by
  obtain ⟨hnodup, hfree⟩ := h
  rw [List.map_append] at hnodup
  exact ⟨(List.nodup_append.1 hnodup).1, fun s hs => hfree s (List.mem_append_left l' hs)⟩

theorem Fresh.foldl {l l' : List Script.State} {quest : Quest} (h : Fresh (l ++ l') quest) :
    Fresh l' (l.foldl addState quest) := by
  induction l generalizing quest with
  | nil => exact h
  | cons s l ih => exact ih h.add

def insertStates (states : SortedMap String State) (l : List Script.State) :
    SortedMap String State :=
  l.foldl (fun states s => states.insert s.name.text (parsedState s)) states

theorem foldl_addState (l : List Script.State) (quest : Quest) :
    l.foldl addState quest = ⟨quest.hasInfo, quest.info, insertStates quest.states l⟩ := by
  induction l generalizing quest with
  | nil => rfl
  | cons s l ih => exact ih (addState quest s)

/-- What is made of a script. -/
def parsedQuest (q : Script.Quest) : Quest where
  hasInfo := true
  info := q.main.foldl Script.MainEntry.addTo .empty
  states := insertStates .empty q.allStates

theorem reads_parseGlobal (q : Script.Quest) (next : List TokenData → Prop) :
    Reads next (parseGlobal ⟨false, .empty, .empty⟩) (q.tokens ++ [.endOfFile])
      (parsedQuest q) := by
  have hfresh : Fresh (q.states ++ q.more) ⟨false, .empty, .empty⟩ :=
    ⟨q.states_nodup, fun _ _ => rfl⟩
  have hmore := hfresh.foldl
  rw [foldl_addState] at hmore
  unfold parseGlobal tokenLoop
  apply LoopConsumes.consumes
  unfold Script.Quest.tokens
  rw [List.append_assoc, List.append_assoc]
  apply reads_states (Fresh.of_append hfresh)
  rw [foldl_addState]
  apply (reads_globalRound_main q.main_nodup rfl).round (List.cons_ne_nil _ _)
  · have hrest : Fresh q.more ⟨true, q.main.foldl Script.MainEntry.addTo .empty,
        insertStates .empty q.states⟩ := ⟨hmore.1, hmore.2⟩
    apply reads_states hrest
    rw [foldl_addState]
    have hstates : insertStates (insertStates .empty q.states) q.more =
        insertStates .empty q.allStates := List.foldl_append.symm
    rw [hstates]
    exact loopConsumes_last (reads_globalRound_end rfl)
  · intro _ _
    trivial

end Parser

end ArenaServ.EOPlus
