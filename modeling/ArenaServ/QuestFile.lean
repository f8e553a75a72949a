import ArenaServ.SortedMap
import ArenaServ.TextUtil

/-!
# Quest files

What the parser makes of a quest file, and the check a quest passes before it is loaded:
every action and every rule must be known and have a number of arguments its table allows.
-/

namespace ArenaServ

namespace EOPlus

/-- An argument. The lexer makes integers and strings only. -/
inductive Variant where
  | int (value : Int32)
  | text (value : String)
  deriving DecidableEq

def Variant.toInt : Variant → Int32
  | int value => value
  | text value => Util.toInt value.toList

def Variant.toText : Variant → String
  | int value => toString value.toInt
  | text value => value

structure Expression where
  function : String
  args : List Variant
  deriving DecidableEq

inductive ConditionalType where
  | condNone
  | condIf
  | condElse
  | condElseIf
  deriving DecidableEq

structure Action where
  cond : ConditionalType
  condExpr : Expression
  expr : Expression
  deriving DecidableEq

structure Rule where
  expr : Expression
  action : Action
  deriving DecidableEq

structure State where
  desc : String
  rules : List Rule
  actions : List Action
  goalRule : ℕ
  /-- The goal is one of the rules. -/
  goalRule_lt : rules ≠ [] → goalRule < rules.length
  deriving DecidableEq

inductive HiddenType where
  | notHidden
  | hidden
  | hiddenEnd
  deriving DecidableEq

structure Info where
  hidden : HiddenType
  disabled : Bool
  deriving DecidableEq

structure Quest where
  info : Info
  states : SortedMap String State

/-- A state without rules has no goal that could be out of bounds. -/
theorem noRules_goal : ([] : List Rule) ≠ [] → 0 < ([] : List Rule).length := fun h => absurd rfl h

/-- A quest of one state. -/
def Quest.single (s : State) : Quest :=
  ⟨⟨.notHidden, false⟩, SortedMap.empty.insert "begin" s⟩

/-- A quest of one state with these actions, without conditions. -/
def Quest.acting (actions : List Expression) : Quest :=
  .single ⟨"", [], actions.map fun expr => ⟨.condNone, ⟨"", []⟩, expr⟩, 0, noRules_goal⟩

end EOPlus

open EOPlus

structure ValidationError where
  what : String
  state : String
  deriving DecidableEq

structure ArgumentInfo where
  minArgs : ℕ
  maxArgs : ℕ
  deriving DecidableEq

/-- A single number is both bounds. -/
def ArgumentInfo.of (minArgs : ℕ) (maxArgs : ℕ := 0) : ArgumentInfo :=
  ⟨minArgs, max minArgs maxArgs⟩

def actionArgumentInfo : String → Option ArgumentInfo
  | "setstate" => some (.of 1)
  | "reset" => some (.of 0)
  | "resetdaily" => some (.of 0)
  | "end" => some (.of 0)
  | "startquest" => some (.of 1 2)
  | "resetquest" => some (.of 1)
  | "setqueststate" => some (.of 2)
  | "addnpctext" => some (.of 2)
  | "addnpcinput" => some (.of 3)
  | "addnpcchat" => some (.of 2)
  | "showhint" => some (.of 1)
  | "quake" => some (.of 0 1)
  | "quakeworld" => some (.of 0 1)
  | "setmap" => some (.of 3)
  | "setcoord" => some (.of 3)
  | "playsound" => some (.of 1)
  | "giveexp" => some (.of 1)
  | "giveitem" => some (.of 1 2)
  | "removeitem" => some (.of 1 2)
  | "setclass" => some (.of 1)
  | "setrace" => some (.of 1)
  | "removekarma" => some (.of 1)
  | "givekarma" => some (.of 1)
  | "settitle" => some (.of 1)
  | "setfiance" => some (.of 1)
  | "setpartner" => some (.of 1)
  | "sethome" => some (.of 1)
  | "setstat" => some (.of 2)
  | "givestat" => some (.of 2)
  | "removestat" => some (.of 2)
  | "roll" => some (.of 1)
  | _ => none

def ruleArgumentInfo : String → Option ArgumentInfo
  | "inputnpc" => some (.of 1)
  | "talkedtonpc" => some (.of 1)
  | "always" => some (.of 0)
  | "donedaily" => some (.of 1)
  | "entermap" => some (.of 1)
  | "entercoord" => some (.of 3)
  | "leavemap" => some (.of 1)
  | "leavecoord" => some (.of 3)
  | "killednpcs" => some (.of 1 2)
  | "killedplayers" => some (.of 1)
  | "gotitems" => some (.of 1 2)
  | "lostitems" => some (.of 1 2)
  | "useditem" => some (.of 1 2)
  | "isgender" => some (.of 1)
  | "isclass" => some (.of 1)
  | "israce" => some (.of 1)
  | "iswearing" => some (.of 1)
  | "gotspell" => some (.of 1 2)
  | "lostspell" => some (.of 1)
  | "usedspell" => some (.of 1 2)
  | "citizenof" => some (.of 1)
  | "rolled" => some (.of 1 2)
  | "statis" => some (.of 2)
  | "statnot" => some (.of 2)
  | "statgreater" => some (.of 2)
  | "statless" => some (.of 2)
  | "statbetween" => some (.of 3)
  | "statrpn" => some (.of 1)
  | _ => none

/-- The state a `setstate` names must be there. -/
def checkTarget (quest : EOPlus.Quest) (name : String) (expr : Expression) :
    Except ValidationError Unit :=
  match expr.args.head? with
  | none => .ok ()
  | some target =>
      let state := Util.lowercase target.toText
      if (quest.states.find? state).isSome then .ok ()
      else .error ⟨"Unknown quest state: " ++ state, name⟩

def checkArguments (quest : EOPlus.Quest) (name type : String) (expr : Expression)
    (info : ArgumentInfo) : Except ValidationError Unit :=
  if expr.args.length < info.minArgs then
    .error ⟨type ++ " " ++ expr.function ++ " requires at least " ++ toString info.minArgs ++
      " argument(s)", name⟩
  else if info.maxArgs < expr.args.length then
    .error ⟨type ++ " " ++ expr.function ++ " requires at most " ++ toString info.maxArgs ++
      " argument(s)", name⟩
  else if expr.function = "setstate" then checkTarget quest name expr
  else .ok ()

def checkAction (quest : EOPlus.Quest) (name : String) (action : Action) :
    Except ValidationError Unit :=
  match actionArgumentInfo action.expr.function with
  | none => .error ⟨"Unknown action: " ++ action.expr.function, name⟩
  | some info => checkArguments quest name "Action" action.expr info

def checkRuleExpr (quest : EOPlus.Quest) (name : String) (rule : Rule) :
    Except ValidationError Unit :=
  match ruleArgumentInfo rule.expr.function with
  | none => .error ⟨"Unknown rule: " ++ rule.expr.function, name⟩
  | some info => checkArguments quest name "Rule" rule.expr info

def validateState (quest : EOPlus.Quest) (name : String) (state : State) :
    Except ValidationError Unit := do
  state.actions.forM fun action => checkAction quest name action
  state.rules.forM fun rule => checkAction quest name rule.action
  state.rules.forM fun rule => checkRuleExpr quest name rule

def validateQuest (quest : EOPlus.Quest) : Except ValidationError Unit :=
  quest.states.entries.forM fun (name, state) => validateState quest name state

/-- A quest that was loaded: its constructor throws unless the check passes. -/
structure Quest where
  id : Int16
  quest : EOPlus.Quest
  valid : validateQuest quest = .ok ()

def Quest.disabled (q : Quest) : Bool := q.quest.info.disabled

/-- A quest without states has nothing to check. -/
theorem validateQuest_stateless :
    validateQuest ⟨⟨.notHidden, false⟩, SortedMap.empty⟩ = .ok () := rfl

/-! ## What the check guarantees -/

theorem forM_eq_ok {α ε : Type} {l : List α} {f : α → Except ε Unit} :
    l.forM f = .ok () ↔ ∀ a ∈ l, f a = .ok () := by
  induction l with
  | nil =>
      constructor
      · intro _ a ha
        cases ha
      · intro _
        rfl
  | cons a rest ih =>
      rw [List.forall_mem_cons, ← ih]
      change (f a).bind (fun _ => rest.forM f) = .ok () ↔ _
      cases f a with
      | error e => exact ⟨fun h => (nomatch h), fun h => (nomatch h.1)⟩
      | ok _ => exact ⟨fun h => ⟨rfl, h⟩, And.right⟩

theorem bind_eq_ok {ε : Type} {m m' : Except ε Unit} :
    (m.bind fun _ => m') = .ok () ↔ m = .ok () ∧ m' = .ok () := by
  cases m with
  | error e => exact ⟨fun h => (nomatch h), fun h => (nomatch h.1)⟩
  | ok _ => exact ⟨fun h => ⟨rfl, h⟩, And.right⟩

/-- A function the table knows, with at least the arguments it asks for. -/
def Known (table : String → Option ArgumentInfo) (expr : Expression) : Prop :=
  ∃ info, table expr.function = some info ∧ info.minArgs ≤ expr.args.length

variable {quest : EOPlus.Quest} {name type : String} {expr : Expression} {state : State}

theorem length_of_checkArguments {info : ArgumentInfo}
    (h : checkArguments quest name type expr info = .ok ()) : info.minArgs ≤ expr.args.length := by
  unfold checkArguments at h
  split_ifs at h with hfew
  all_goals exact not_lt.mp hfew

theorem known_of_checkAction {action : Action} (h : checkAction quest name action = .ok ()) :
    Known actionArgumentInfo action.expr := by
  unfold checkAction at h
  cases hinfo : actionArgumentInfo action.expr.function with
  | none =>
      rw [hinfo] at h
      cases h
  | some info =>
      rw [hinfo] at h
      exact ⟨info, hinfo, length_of_checkArguments h⟩

theorem known_of_checkRuleExpr {rule : Rule} (h : checkRuleExpr quest name rule = .ok ()) :
    Known ruleArgumentInfo rule.expr := by
  unfold checkRuleExpr at h
  cases hinfo : ruleArgumentInfo rule.expr.function with
  | none =>
      rw [hinfo] at h
      cases h
  | some info =>
      rw [hinfo] at h
      exact ⟨info, hinfo, length_of_checkArguments h⟩

theorem validateState_eq_ok :
    validateState quest name state = .ok () ↔
      (∀ action ∈ state.actions, checkAction quest name action = .ok ()) ∧
      (∀ rule ∈ state.rules, checkAction quest name rule.action = .ok ()) ∧
      ∀ rule ∈ state.rules, checkRuleExpr quest name rule = .ok () := by
  rw [← forM_eq_ok, ← forM_eq_ok, ← forM_eq_ok, ← bind_eq_ok, ← bind_eq_ok]
  rfl

namespace Quest

variable (q : Quest)

theorem validateState_of_find? (h : q.quest.states.find? name = some state) :
    validateState q.quest name state = .ok () :=
  forM_eq_ok.mp q.valid (name, state) (SortedMap.mem_entries_iff.mpr h)

/-- What is checked of each state that a loaded quest has. -/
structure Checked (state : State) : Prop where
  action : ∀ action ∈ state.actions, Known actionArgumentInfo action.expr
  ruleAction : ∀ rule ∈ state.rules, Known actionArgumentInfo rule.action.expr
  rule : ∀ rule ∈ state.rules, Known ruleArgumentInfo rule.expr

theorem checked_of_find? (h : q.quest.states.find? name = some state) : Checked state := by
  obtain ⟨hactions, hruleActions, hrules⟩ := validateState_eq_ok.mp (q.validateState_of_find? h)
  exact {
    action := fun action ha => known_of_checkAction (hactions action ha)
    ruleAction := fun rule hr => known_of_checkAction (hruleActions rule hr)
    rule := fun rule hr => known_of_checkRuleExpr (hrules rule hr) }

end Quest

end ArenaServ
