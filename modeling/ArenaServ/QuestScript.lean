import ArenaServ.QuestParser
import Mathlib.Data.List.Induction

/-!
# Scripts of quests

A quest as one writes it: a main block with some entries and states with a sequence of entries. A
script is written as a sequence of tokens, with space and comments between them, and stands for what
the parser should make of it.
-/

namespace ArenaServ.EOPlus

/-- What the lexer takes for one identifier and leaves as it is. -/
def IsIdentifier : List Char → Prop
  | [] => False
  | c :: rest => ctypeIdentStart c = true ∧ (∀ d ∈ rest, ctypeIdent d = true) ∧
      ∀ d ∈ c :: rest, d.toLower = d

instance : ∀ l, Decidable (IsIdentifier l)
  | [] => inferInstanceAs (Decidable False)
  | _ :: _ => @instDecidableAnd _ _ inferInstance
      (@instDecidableAnd _ _ (List.decidableBAll _ _) (List.decidableBAll _ _))

/-- The words with a meaning of their own. -/
def keywords : List String :=
  ["main", "state", "questname", "version", "hidden", "hidden_end", "disabled", "desc", "rule",
    "action", "goal", "if", "elseif", "elif", "else", "goto", "true", "false"]

def scopeNames : List String := ["character", "npc", "map", "world"]

namespace Script

structure Name where
  text : String
  isIdentifier : IsIdentifier text.toList
  notReserved : text ∉ keywords ++ scopeNames

inductive Arg where
  | int (value : Int32) (nonneg : 0 ≤ value)
  | text (s : String)

inductive Expression where
  | goto (name : Name)
  | call (name : Name) (args : List Arg)

/-- An entry, or a semicolon, which stands for nothing. -/
inductive Entry where
  | semicolon
  | rule (expr action : Expression)
  | goal (expr action : Expression)
  | action (expr : Expression)
  | condIf (cond expr : Expression)
  | condElseIf (cond expr : Expression)
  | condElse (expr : Expression)

/-- A state, with its description between two of its entries. -/
structure State where
  name : Name
  entries : List Entry
  desc : Option String
  more : List Entry

inductive MainEntry where
  | questname (name : String)
  | version (major : UInt16) (minor : Option UInt16)
  | hidden
  | hiddenEnd
  | disabled

/-- What there can be one entry for. -/
inductive MainKey where
  | questname
  | version
  | hidden
  | disabled
  deriving DecidableEq

/-- Both ways to hide a quest count as one. -/
def MainEntry.key : MainEntry → MainKey
  | questname _ => .questname
  | version _ _ => .version
  | hidden => .hidden
  | hiddenEnd => .hidden
  | disabled => .disabled

/-- A quest, with its main block between two of its states. -/
structure Quest where
  states : List State
  main : List MainEntry
  main_nodup : (main.map MainEntry.key).Nodup
  more : List State
  states_nodup : ((states ++ more).map fun s => s.name.text).Nodup

def Quest.allStates (q : Quest) : List State := q.states ++ q.more

def State.allEntries (s : State) : List Entry := s.entries ++ s.more

/-! ## Its tokens -/

def leftParens : TokenData := .operator (uop2 '(' '\x00')

def rightParens : TokenData := .operator (uop2 ')' '\x00')

def Arg.token : Arg → TokenData
  | int value _ => .integer value
  | text s => .string s

/-- The arguments with commas between them, and the closing parenthesis. -/
def argTokens : List Arg → List TokenData
  | [] => [rightParens]
  | [a] => [a.token, rightParens]
  | a :: b :: rest => a.token :: .symbol ',' :: argTokens (b :: rest)

def Expression.tokens : Expression → List TokenData
  | goto name => [.identifier "goto", .identifier name.text]
  | call name args => .identifier name.text :: leftParens :: argTokens args

def Entry.tokens : Entry → List TokenData
  | semicolon => [.symbol ';']
  | rule expr act => .identifier "rule" :: (expr.tokens ++ act.tokens)
  | goal expr act => .identifier "goal" :: (expr.tokens ++ act.tokens)
  | action expr => .identifier "action" :: expr.tokens
  | condIf cond expr => .identifier "if" :: (cond.tokens ++ expr.tokens)
  | condElseIf cond expr => .identifier "elseif" :: (cond.tokens ++ expr.tokens)
  | condElse expr => .identifier "else" :: expr.tokens

def descTokens : Option String → List TokenData
  | none => []
  | some desc => [.identifier "desc", .string desc]

def State.tokens (s : State) : List TokenData :=
  [.identifier "state", .identifier s.name.text, .symbol '{'] ++ s.entries.flatMap Entry.tokens ++
    descTokens s.desc ++ s.more.flatMap Entry.tokens ++ [.symbol '}']

def MainEntry.tokens : MainEntry → List TokenData
  | questname name => [.identifier "questname", .string name]
  | version major none => [.identifier "version", .integer (Int32.ofNat major.toNat)]
  | version major (some minor) =>
      [.identifier "version", .integer (Int32.ofNat major.toNat), .symbol '.',
        .integer (Int32.ofNat minor.toNat)]
  | hidden => [.identifier "hidden"]
  | hiddenEnd => [.identifier "hidden_end"]
  | disabled => [.identifier "disabled"]

def mainTokens (main : List MainEntry) : List TokenData :=
  [.identifier "main", .symbol '{'] ++ main.flatMap MainEntry.tokens ++ [.symbol '}']

def Quest.tokens (q : Quest) : List TokenData :=
  q.states.flatMap State.tokens ++ mainTokens q.main ++ q.more.flatMap State.tokens

/-! ## What it stands for -/

def Arg.variant : Arg → Variant
  | int value _ => .int value
  | text s => .text s

/-- To go to a state is to call a function with its name. -/
def Expression.ast : Expression → Parser.Expression
  | goto name => ⟨[], "setstate", [.text name.text]⟩
  | call name args => ⟨[], name.text, args.map Arg.variant⟩

def Entry.rule? : Entry → Option Parser.Rule
  | rule expr act => some ⟨expr.ast, ⟨.condNone, .empty, act.ast⟩⟩
  | goal expr act => some ⟨expr.ast, ⟨.condNone, .empty, act.ast⟩⟩
  | _ => none

def Entry.action? : Entry → Option Parser.Action
  | action expr => some ⟨.condNone, .empty, expr.ast⟩
  | condIf cond expr => some ⟨.condIf, cond.ast, expr.ast⟩
  | condElseIf cond expr => some ⟨.condElseIf, cond.ast, expr.ast⟩
  | condElse expr => some ⟨.condElse, .empty, expr.ast⟩
  | _ => none

def Entry.isGoal : Entry → Bool
  | goal _ _ => true
  | _ => false

/-- How many rules there are before the last goal. -/
def goalIndex (entries : List Entry) : ℕ :=
  ((entries.reverse.dropWhile fun e => !e.isGoal).tail.filterMap Entry.rule?).length

theorem goalIndex_concat (entries : List Entry) (e : Entry) :
    goalIndex (entries ++ [e]) =
      if e.isGoal then (entries.filterMap Entry.rule?).length else goalIndex entries := by
  unfold goalIndex
  rw [List.reverse_concat, List.dropWhile_cons]
  cases e.isGoal with
  | true =>
      rw [Bool.not_true, if_neg Bool.false_ne_true, if_pos rfl, List.tail_cons,
        List.filterMap_reverse, List.length_reverse]
  | false => rw [Bool.not_false, if_pos rfl, if_neg Bool.false_ne_true]

theorem goalIndex_le (entries : List Entry) :
    goalIndex entries ≤ (entries.filterMap Entry.rule?).length - 1 := by
  induction entries using List.reverseRecOn with
  | nil => exact le_rfl
  | append_singleton entries e ih =>
      rw [goalIndex_concat, List.filterMap_append, List.length_append]
      cases e <;> simp [Entry.isGoal, Entry.rule?] <;> omega

/-- A state with these entries. -/
def stateOf (name : String) (hasDesc : Bool) (desc : String) (entries : List Entry) :
    Parser.State where
  name := name
  hasDesc := hasDesc
  desc := desc
  rules := entries.filterMap Entry.rule?
  actions := entries.filterMap Entry.action?
  goalRule := goalIndex entries
  goalRule_le := goalIndex_le entries

def State.ast (s : State) : Parser.State :=
  stateOf s.name.text s.desc.isSome (s.desc.getD "") s.allEntries

/-- The two halves of a version. -/
def versionOf (major : UInt16) (minor : Option UInt16) : UInt32 :=
  major.toUInt32 <<< 16 ||| (minor.getD 0).toUInt32

def MainEntry.addTo (info : Parser.Info) : MainEntry → Parser.Info
  | questname name => { info with name := name }
  | version major minor => { info with version := versionOf major minor }
  | hidden => { info with hidden := .hidden }
  | hiddenEnd => { info with hidden := .hiddenEnd }
  | disabled => { info with disabled := true }

def Quest.ast (q : Quest) : Parser.Quest where
  hasInfo := true
  info := q.main.foldl MainEntry.addTo .empty
  states := q.allStates.foldl (fun states s => states.insert s.name.text s.ast) .empty

end Script

/-! ## Written tokens -/

def escaped (s : List Char) : List Char :=
  s.flatMap fun c => if c = '"' ∨ c = '\\' ∨ c = '\n' then ['\\', c] else [c]

/-- How a token is written. -/
inductive Spelled : TokenData → List Char → Prop
  | identifier (name : String) (h : IsIdentifier name.toList) (htrue : name ≠ "true")
      (hfalse : name ≠ "false") : Spelled (.identifier name) name.toList
  | string (text : String) : Spelled (.string text) ('"' :: (escaped text.toList ++ ['"']))
  | integer (value : Int32) (h : 0 ≤ value) :
      Spelled (.integer value) (Nat.toDigits 10 value.toInt.toNat)
  | leftParens : Spelled Script.leftParens ['(']
  | rightParens : Spelled Script.rightParens [')']
  | symbol (c : Char) (h : ctypeSymbol c = true) : Spelled (.symbol c) [c]

/-- A token ends in front of this text. -/
def Ends : TokenData → List Char → Prop
  | .identifier _, text => ∀ c ∈ text.head?, ctypeIdent c = false
  | .integer _, text => ∀ c ∈ text.head?, ctypeDigit c = false
  | _, _ => True

/-- The text is the tokens with any space, newlines and comments in front of them, between them and
behind them. -/
inductive Written : List TokenData → List Char → Prop
  | done : Written [] []
  | space {tokens text} (c : Char) (hc : ctypeWhitespace c = true) (h : Written tokens text) :
      Written tokens (c :: text)
  | comment {tokens text} (body : List Char) (hbody : '\n' ∉ body) (h : Written tokens text) :
      Written tokens ('/' :: '/' :: (body ++ '\n' :: text))
  | token {tokens text} (t : TokenData) (piece : List Char) (ht : Spelled t piece)
      (hend : Ends t text) (h : Written tokens text) : Written (t :: tokens) (piece ++ text)

end ArenaServ.EOPlus
