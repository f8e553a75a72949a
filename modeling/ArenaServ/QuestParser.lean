import ArenaServ.QuestLexer
import ArenaServ.StreamLoops

/-!
# The parser of quest files

The parser asks for a token of some types. A token of another type is put back, and so are some that
are of the right type but not the right ones. Newlines are passed over and counted.
-/

namespace ArenaServ.EOPlus

/-- A token with the newlines that were passed over in front of it. -/
structure Token where
  data : TokenData
  newlines : ℕ
  deriving DecidableEq, Repr

structure ParserError where
  what : String
  line : ℤ
  deriving DecidableEq, Repr

/-- `Parser_Token_Server`: the tokens put back, the last one first, and those that come. -/
structure TokenServer where
  tokenBuffer : List Token
  tokens : List Token
  line : ℤ
  rejectToken : Token
  rejectLine : ℤ

namespace TokenServer

def start (tokens : List TokenData) : TokenServer :=
  ⟨[], tokens.map fun t => ⟨t, 0⟩, 1, ⟨.invalid, 0⟩, 1⟩

def putBack (t : Token) (s : TokenServer) : TokenServer where
  tokenBuffer := t :: List.replicate t.newlines ⟨.newLine, 0⟩ ++ s.tokenBuffer
  tokens := s.tokens
  line := s.line - t.newlines - if t.data = .newLine then 1 else 0
  rejectToken := t
  rejectLine := s.line

/-- The number of newlines in front, and what is behind them. -/
def skipNewLines (allow : ℕ) : List Token → ℕ × List Token
  | [] => (0, [])
  | t :: rest =>
      if t.data = .newLine ∧ TokenData.newLine.type &&& allow ≠ TokenData.newLine.type then
        ((skipNewLines allow rest).1 + 1, (skipNewLines allow rest).2)
      else (0, t :: rest)

/-- The next token was found behind so many newlines. A token of another type is put back. -/
def found (allow newlines : ℕ) (t : Token) (s : TokenServer) : Option Token × TokenServer :=
  let s' := { s with line := s.line + newlines + if t.data = .newLine then 1 else 0 }
  if t.data.type &&& allow ≠ t.data.type then (none, s'.putBack ⟨t.data, newlines⟩)
  else (if t.data = .invalid then none else some ⟨t.data, newlines⟩, s')

/-- `GetToken`. Behind the last token there are only invalid ones. -/
def getToken (allow : ℕ) (s : TokenServer) : Option Token × TokenServer :=
  let back := skipNewLines allow s.tokenBuffer
  match back.2 with
  | t :: tokenBuffer => found allow back.1 t { s with tokenBuffer := tokenBuffer }
  | [] =>
      let front := skipNewLines allow s.tokens
      match front.2 with
      | t :: tokens =>
          found allow (back.1 + front.1) t { s with tokenBuffer := [], tokens := tokens }
      | [] =>
          found allow (back.1 + front.1) ⟨.invalid, 0⟩ { s with tokenBuffer := [], tokens := [] }

/-- What is still to come, without the newlines. -/
def view (s : TokenServer) : List TokenData :=
  ((s.tokenBuffer ++ s.tokens).map Token.data).filter (· ≠ .newLine)

end TokenServer

/-! ## Tokens as text and as numbers -/

def TokenData.toInt : TokenData → Int32
  | integer value => value
  | operator op => Int32.ofNat op.toNat
  | boolean value => if value then 0 else -1
  | identifier name => Util.toInt name.toList
  | string text => Util.toInt text.toList
  | symbol c => Util.toInt [c]
  | _ => 0

def TokenData.toText : TokenData → String
  | identifier name => name
  | string text => text
  | symbol c => String.singleton c
  | integer value => toString value.toInt
  | operator op => toString op.toNat
  | boolean value => if value then "yes" else "no"
  | _ => "0"

/-- An argument of an expression. The parser takes numbers and strings only. -/
def TokenData.toVariant : TokenData → Variant
  | integer value => .int value
  | t => .text t.toText

def opToString (op : UInt8) : String :=
  if op = uop2 '(' '\x00' then "("
  else if op = uop2 ')' '\x00' then ")"
  else if op = uop2 '&' '\x00' then "&"
  else if op = uop2 '&' '&' then "&&"
  else if op = uop2 '|' '\x00' then "|"
  else if op = uop2 '|' '|' then "||"
  else if op = uop2 '=' '\x00' then "="
  else if op = uop2 '=' '=' then "=="
  else if op = uop2 '!' '=' then "!="
  else if op = uop2 '<' '\x00' then "<"
  else if op = uop2 '<' '=' then "<="
  else if op = uop2 '>' '\x00' then ">"
  else if op = uop2 '>' '=' then ">="
  else if op = uop2 '+' '\x00' then "+"
  else if op = uop2 '-' '\x00' then "-"
  else if op = uop2 '*' '\x00' then "*"
  else if op = uop2 '/' '\x00' then "/"
  else if op = uop2 '%' '\x00' then "%"
  else if op = uop2 '~' '\x00' then "~"
  else if op = uop2 '!' '\x00' then "!"
  else if op = uop2 '-' uopAlt then "-"
  else "(unknown)"

def cutString (s : String) : String :=
  if s.length > 16 then String.ofList (s.toList.take 13) ++ "..." else s

def tokenGotString : TokenData → String
  | .invalid => "invalid token"
  | .identifier name => "identifier '" ++ name ++ "'"
  | .string text => "string '" ++ cutString text ++ "'"
  | .integer value => "integer '" ++ (TokenData.integer value).toText ++ "'"
  | .boolean value => "boolean '" ++ (if value then "true" else "false") ++ "'"
  | .operator op => "operator '" ++ opToString op ++ "'"
  | .symbol c => "symbol '" ++ String.singleton c ++ "'"
  | .newLine => "new-line"
  | .endOfFile => "end of file"

/-! ## What the parser makes -/

namespace Parser

inductive Scope where
  | character
  | npc
  | map
  | world
  deriving DecidableEq, Repr

structure Expression where
  scopes : List Scope
  function : String
  args : List Variant
  deriving DecidableEq

def Expression.empty : Expression := ⟨[], "", []⟩

structure Action where
  cond : ConditionalType
  condExpr : Expression
  expr : Expression
  deriving DecidableEq

structure Rule where
  expr : Expression
  action : Action
  deriving DecidableEq

structure Info where
  name : String
  version : UInt32
  hidden : HiddenType
  disabled : Bool
  deriving DecidableEq

def Info.empty : Info := ⟨"", 0, .notHidden, false⟩

structure State where
  name : String
  hasDesc : Bool
  desc : String
  rules : List Rule
  actions : List Action
  goalRule : ℕ
  /-- The goal is one of the rules, if there are any. -/
  goalRule_le : goalRule ≤ rules.length - 1
  deriving DecidableEq

structure Quest where
  hasInfo : Bool
  info : Info
  states : SortedMap String State

def State.empty : State := ⟨"", false, "", [], [], 0, le_rfl⟩

def State.addRule (s : State) (rule : Rule) : State where
  name := s.name
  hasDesc := s.hasDesc
  desc := s.desc
  rules := s.rules ++ [rule]
  actions := s.actions
  goalRule := s.goalRule
  goalRule_le := by
    rw [List.length_append, List.length_singleton]
    exact s.goalRule_le.trans (by omega)

def State.addGoal (s : State) (rule : Rule) : State where
  name := s.name
  hasDesc := s.hasDesc
  desc := s.desc
  rules := s.rules ++ [rule]
  actions := s.actions
  goalRule := s.rules.length
  goalRule_le := by
    rw [List.length_append, List.length_singleton]
    omega

def State.addAction (s : State) (action : Action) : State :=
  { s with actions := s.actions ++ [action] }

/-! ## The parser -/

open Exec

/-- A run of the parser. A loop that goes on without tokens would be a fault. -/
abbrev Parse := Exec TokenServer ParserError Unit

variable {α β : Type}

def identifier : ℕ := 1
def string : ℕ := 2
def integer : ℕ := 4
def float : ℕ := 8
def operator : ℕ := 32
def symbol : ℕ := 64
def endOfFile : ℕ := 256

/-- `RejectLine`. -/
def rejectLine (s : TokenServer) : ℤ := max s.line s.rejectLine

/-- `PARSER_ERROR`. -/
def parserError (what : String) : Parse α := fun s => .raised ⟨what, rejectLine s⟩ s

/-- `PARSER_ERROR_GOT`. -/
def parserErrorGot (what : String) : Parse α := fun s =>
  .raised ⟨what ++ " Got: " ++ tokenGotString s.rejectToken.data, rejectLine s⟩ s

def getToken (allow : ℕ) : Parse (Option Token) := fun s =>
  .done (s.getToken allow).1 (s.getToken allow).2

def putBack (t : Token) : Parse Unit := modify (TokenServer.putBack t)

def getTokenIf (f : TokenData → Bool) (allow : ℕ) : Parse (Option Token) := do
  match ← getToken allow with
  | none => pure none
  | some t => if f t.data then pure (some t) else putBack t >>= fun _ => pure none

/-- A token of these types must come. -/
def expect (allow : ℕ) (what : String) (f : Token → Parse α) : Parse α := do
  match ← getToken allow with
  | none => parserErrorGot what
  | some t => f t

def tokenLoop (body : α → Parse (α ⊕ β)) (a : α) : Parse β := loop TokenServer.view () body a

/-- `int(t.data)` against an operator of one character. -/
def isOp (c : Char) (d : TokenData) : Bool := d.toInt = Int32.ofNat (uop2 c '\x00').toNat

def isSymbol (c : Char) (d : TokenData) : Bool := d.toText = String.singleton c

def parseVersion : Parse UInt32 :=
  expect integer "Expected number after 'version'" fun t => do
    match ← getTokenIf (isSymbol '.') symbol with
    | none => pure (t.data.toInt.toUInt32 <<< 16)
    | some _ =>
        expect integer "Expected number after '.' in version." fun t' =>
          pure (t.data.toInt.toUInt32 <<< 16 ||| t'.data.toInt.toUInt32 &&& 0xFFFF)

def scopeId (name : String) : Option Scope :=
  if name = "character" then some .character
  else if name = "npc" then some .npc
  else if name = "map" then some .map
  else if name = "world" then some .world
  else none

def scopeRound (scopes : List Scope) : Parse (List Scope ⊕ List Scope) := do
  match ← getToken identifier with
  | none => pure (.inr scopes)
  | some t =>
      match scopeId t.data.toText with
      | none => putBack t >>= fun _ => pure (.inr scopes)
      | some scope => do
          match ← getTokenIf (isSymbol '.') symbol with
          | none => parserErrorGot "Expected '.' after scope-identifier."
          | some _ => pure (.inl (scopes ++ [scope]))

def parseScopes : Parse (List Scope) := tokenLoop scopeRound []

def argRound (expression : Expression) : Parse (Expression ⊕ Expression) :=
  expect (string ||| float ||| integer) "Expected function-argument in function-argument-list."
    fun t => do
      match ← getTokenIf (fun d => d.type = symbol && isSymbol ',' d ||
          d.type = operator && isOp ')' d) (symbol ||| operator) with
      | none =>
          parserErrorGot "Expected ',' or ')' after function-argument in function-argument-list."
      | some t' =>
          let expression := { expression with args := expression.args ++ [t.data.toVariant] }
          if isOp ')' t'.data then pure (.inr expression) else pure (.inl expression)

/-- The arguments of a function, up to the closing parenthesis. -/
def parseArgs (expression : Expression) : Parse Expression := tokenLoop argRound expression

def parseExpression : Parse Expression := do
  match ← getToken identifier with
  | none => pure .empty
  | some t =>
      if t.data.toText = "goto" then
        expect identifier "Expected identifier after 'goto'." fun tt =>
          pure ⟨[], "setstate", [.text tt.data.toText]⟩
      else do
        let scopes ← parseScopes
        match ← getTokenIf (isOp '(') operator with
        | none => parserErrorGot "Expected '(' after function-name."
        | some _ => do
            match ← getTokenIf (isOp ')') operator with
            | some _ => pure ⟨scopes, t.data.toText, []⟩
            | none => parseArgs ⟨scopes, t.data.toText, []⟩

def parseQuestName : Parse String :=
  expect string "Expected string after 'questname'." fun t => pure t.data.toText

def parseDesc : Parse String :=
  expect string "Expected string after 'desc'." fun t => pure t.data.toText

def parseAction : Parse Action := do
  let expr ← parseExpression
  pure ⟨.condNone, .empty, expr⟩

def parseRule : Parse Rule := do
  let expr ← parseExpression
  let action ← parseAction
  pure ⟨expr, action⟩

/-- A rule as an action under a condition. -/
def conditional (cond : ConditionalType) (rule : Rule) : Action :=
  ⟨cond, rule.expr, rule.action.expr⟩

/-- An entry of a block of rules and actions, or one that the handler knows. `β` is what the handler
keeps beside the state. -/
def blockRound (customHandler : String → State × β → Parse (Option (State × β)))
    (errorHandler : String → Parse (State × β)) (block : State × β) :
    Parse (State × β ⊕ State × β) := do
  match ← getToken (identifier ||| symbol) with
  | none => Sum.inr <$> errorHandler "rule/action/if/elseif/else"
  | some t =>
      if t.data.type = identifier then
        if t.data.toText = "rule" then do
          let rule ← parseRule
          pure (.inl (block.1.addRule rule, block.2))
        else if t.data.toText = "action" then do
          let action ← parseAction
          pure (.inl (block.1.addAction action, block.2))
        else if t.data.toText = "if" then do
          let rule ← parseRule
          pure (.inl (block.1.addAction (conditional .condIf rule), block.2))
        else if t.data.toText = "elseif" ∨ t.data.toText = "elif" then do
          let rule ← parseRule
          pure (.inl (block.1.addAction (conditional .condElseIf rule), block.2))
        else if t.data.toText = "else" then do
          let action ← parseAction
          pure (.inl (block.1.addAction { action with cond := .condElse }, block.2))
        else do
          match ← customHandler t.data.toText block with
          | some block => pure (.inl block)
          | none => do
              putBack t
              Sum.inr <$> errorHandler "rule/action/if/elseif/else"
      else if t.data.toText = "\x7d" then pure (.inr block)
      else if t.data.toText = ";" then pure (.inl block)
      else do
        putBack t
        Sum.inr <$> errorHandler "rule/action/if/elseif/else"

def parseRuleActionBlock (customHandler : String → State × β → Parse (Option (State × β)))
    (errorHandler : String → Parse (State × β)) (block : State × β) : Parse (State × β) :=
  tokenLoop (blockRound customHandler errorHandler) block

/-- The variables of the loop of `ParseMain`. -/
structure MainLoop where
  hasQuestname : Bool
  hasVersion : Bool
  info : Info

def mainExpected : String := "Expected main-block entry " ++
  "(questname/version/hidden/hidden_end/disabled) or closing brace '\x7d'."

def mainRound (main : MainLoop) : Parse (MainLoop ⊕ Info) :=
  expect (identifier ||| symbol) mainExpected fun t =>
    if t.data.type = identifier then
      if t.data.toText = "questname" then
        if main.hasQuestname then parserError "Main-block can only contain one questname."
        else do
          let name ← parseQuestName
          pure (.inl { main with hasQuestname := true, info.name := name })
      else if t.data.toText = "version" then
        if main.hasVersion then parserError "Main-block can only contain one version."
        else do
          let version ← parseVersion
          pure (.inl { main with hasVersion := true, info.version := version })
      else if t.data.toText = "hidden" then
        if main.info.hidden ≠ .notHidden then
          parserError "Main-block can only contain one hidden attribute."
        else pure (.inl { main with info.hidden := .hidden })
      else if t.data.toText = "hidden_end" then
        if main.info.hidden ≠ .notHidden then
          parserError "Main-block can only contain one hidden attribute."
        else pure (.inl { main with info.hidden := .hiddenEnd })
      else if t.data.toText = "disabled" then
        if main.info.disabled then
          parserError "Main-block can only contain one disabled attribute."
        else pure (.inl { main with info.disabled := true })
      else parserErrorGot mainExpected
    else if t.data.toText = "\x7d" then pure (.inr main.info)
    else parserErrorGot mainExpected

def parseMain : Parse Info := tokenLoop mainRound ⟨false, false, .empty⟩

/-- The entries of a state that are neither rules nor actions. The flag says whether there has been
a description. -/
def stateEntry (entry : String) (block : State × Bool) : Parse (Option (State × Bool)) :=
  if entry = "desc" then
    if block.2 then parserError "State can only contain one description."
    else do
      let desc ← parseDesc
      pure (some ({ block.1 with desc := desc }, true))
  else if entry = "goal" then do
    let rule ← parseRule
    pure (some (block.1.addGoal rule, block.2))
  else pure none

def parseStateBlock : Parse (String × State) :=
  expect identifier "Expected state-name after 'state'." fun t => do
    match ← getToken symbol with
    | some brace =>
        if brace.data.toText = "\x7b" then do
          let block ← parseRuleActionBlock stateEntry
            (fun expected => parserErrorGot ("Expected state-block entry (" ++ expected ++
              "/goal/desc) or closing brace '\x7d' in state '" ++ t.data.toText ++ "'."))
            (.empty, false)
          pure (t.data.toText, { block.1 with name := t.data.toText })
        else parserErrorGot "Expected opening brace '\x7b' after state-name."
    | none => parserErrorGot "Expected opening brace '\x7b' after state-name."

def parseMainBlock : Parse Info :=
  expect symbol "Expected opening brace '\x7b' after 'main'." fun t =>
    if t.data.toText = "\x7b" then parseMain
    else parserErrorGot "Expected opening brace '\x7b' after 'main'."

def globalExpected : String := "Expected block-identifier (main/state) in global scope."

def globalRound (quest : Quest) : Parse (Quest ⊕ Quest) :=
  expect (identifier ||| endOfFile) globalExpected fun t =>
    if t.data.type = identifier then
      if t.data.toText = "main" then
        if quest.hasInfo then parserError "Quest can only contain one main-block."
        else do
          let info ← parseMainBlock
          pure (.inl { quest with info := info, hasInfo := true })
      else if t.data.toText = "state" then do
        let state ← parseStateBlock
        if (quest.states.find? state.1).isSome then
          parserError ("State '" ++ state.1 ++ "' already exists")
        else pure (.inl { quest with states := quest.states.insert state.1 state.2 })
      else parserErrorGot globalExpected
    else if quest.hasInfo then pure (.inr quest)
    else parserError "No main-block in quest file."

def parseGlobal (quest : Quest) : Parse Quest := tokenLoop globalRound quest

/-- Why a stream gives no quest. -/
inductive ReadFailure where
  | lexer (e : LexerError)
  | parser (e : ParserError)
  | hangs
  deriving DecidableEq, Repr

/-- The constructor of a quest from a stream. -/
def Quest.ofStream (is : List Char) : Except ReadFailure Quest :=
  match (Lexer.start is).lex with
  | .error (.error e) => .error (.lexer e)
  | .error .hangs => .error .hangs
  | .ok tokens =>
      match parseGlobal ⟨false, .empty, .empty⟩ (TokenServer.start tokens) with
      | .done quest _ => .ok quest
      | .raised e _ => .error (.parser e)
      | .fault _ => .error .hangs

end Parser

end ArenaServ.EOPlus
