import ArenaServ.Exec
import ArenaServ.QuestFile

/-!
# A quest and one character

The state of a character's quest: which state of the quest file it is in, the dialogs of
that state and the counters. Reading an argument that is not there is a fault.
-/

namespace ArenaServ

open EOPlus

inductive QuestError where
  /-- `EOPlus::Runtime_Error`. -/
  | runtimeError (what : String)
  | other (what : String)
  deriving DecidableEq

inductive QuestFault where
  | badArgument (function : String) (index : ℕ)
  /-- The stack of the interpreter is used up. -/
  | outOfFuel
  deriving DecidableEq

/-- An argument of an expression; indexing past the end is undefined. -/
def arg {σ : Type} (expr : Expression) (i : ℕ) : Exec σ QuestError QuestFault Variant :=
  match expr.args[i]? with
  | some value => pure value
  | none => Exec.fault (.badArgument expr.function i)

structure Dialog where
  pages : List String
  links : SortedMap Int32 String

namespace Dialog

def new : Dialog := ⟨[], SortedMap.empty⟩

def addPage (d : Dialog) (text : String) : Dialog := { d with pages := d.pages ++ [text] }

def addLink (d : Dialog) (id : Int32) (text : String) : Dialog :=
  { d with links := d.links.insertNew id text }

end Dialog

/-- What the text of the counters has between an opening brace and an equals sign; a semicolon
ends that text. -/
def IsProgressKey (key : String) : Prop :=
  '=' ∉ key.toList ∧ '\x7d' ∉ key.toList ∧ ';' ∉ key.toList

instance (key : String) : Decidable (IsProgressKey key) :=
  inferInstanceAs (Decidable (_ ∧ _))

/-- The name of a counter. -/
abbrev CounterKey := { key : String // IsProgressKey key }

namespace CounterKey

def d : CounterKey := ⟨"d", by decide⟩

def c : CounterKey := ⟨"c", by decide⟩

def r : CounterKey := ⟨"r", by decide⟩

def killedplayers : CounterKey := ⟨"killedplayers", by decide⟩

def useditem : CounterKey := ⟨"useditem", by decide⟩

def usedspell : CounterKey := ⟨"usedspell", by decide⟩

def killednpcs : CounterKey := ⟨"killednpcs", by decide⟩

theorem isProgressKey_thing (rule : CounterKey) (id : Int16) :
    IsProgressKey (rule.val ++ "/" ++ Util.toText id) := by
  have hnot (ch : Char) (hrule : ch ∉ rule.val.toList) (hslash : ch ≠ '/') (hminus : ch ≠ '-')
      (hdigit : ch.isDigit = false) : ch ∉ (rule.val ++ "/" ++ Util.toText id).toList := by
    rw [String.toList_append, String.toList_append, List.mem_append, List.mem_append]
    rintro ((h | h) | h)
    · exact hrule h
    · exact hslash (List.mem_singleton.mp h)
    · rcases Util.mem_toText h with h | h
      · exact hminus h
      · rw [hdigit] at h
        cases h
  exact ⟨hnot '=' rule.property.1 (by decide) (by decide) (by decide),
    hnot '\x7d' rule.property.2.1 (by decide) (by decide) (by decide),
    hnot ';' rule.property.2.2 (by decide) (by decide) (by decide)⟩

/-- The counter of a rule and one item, spell or NPC. -/
def thing (rule : CounterKey) (id : Int16) : CounterKey :=
  ⟨rule.val ++ "/" ++ Util.toText id, rule.isProgressKey_thing id⟩

end CounterKey

structure QuestContext where
  character : ℕ
  quest : Quest
  state : Option State
  /-- The state is one of the quest. -/
  state_mem : ∀ s ∈ state, ∃ name, quest.quest.states.find? name = some s
  stateName : String
  stateName_lower : Util.lowercase stateName = stateName
  finished : Bool
  stateDesc : String
  dialogs : SortedMap Int16 Dialog
  progress : SortedMap String Int16
  progress_keys : ∀ e ∈ progress.entries, IsProgressKey e.1

namespace QuestContext

def new (character : ℕ) (quest : Quest) : QuestContext where
  character := character
  quest := quest
  state := none
  state_mem := fun _ h => nomatch h
  stateName := ""
  stateName_lower := by decide +kernel
  finished := false
  stateDesc := ""
  dialogs := SortedMap.empty
  progress := SortedMap.empty
  progress_keys := fun _ h => nomatch h

/-! ## Counters -/

def setProgress (key : CounterKey) (value : Int16) (c : QuestContext) : QuestContext :=
  { c with
    progress := c.progress.insert key value
    progress_keys := by
      intro e he
      rcases SortedMap.eq_or_mem_of_mem_insert he with rfl | he
      · exact key.property
      · exact c.progress_keys e he }

/-- Only some of the counters are kept. -/
def filterProgress (p : String → Bool) (c : QuestContext) : QuestContext :=
  { c with
    progress := c.progress.filterKeys p
    progress_keys := fun e he => c.progress_keys e (SortedMap.mem_of_mem_filterKeys he) }

def eraseProgress (key : CounterKey) (c : QuestContext) : QuestContext :=
  c.filterProgress (· ≠ key)

/-- `progress[key]`, which makes a counter that is not there. -/
def readProgress (key : CounterKey) (c : QuestContext) : Int16 := (c.progress.find? key).getD 0

def touchProgress (key : CounterKey) (c : QuestContext) : QuestContext :=
  c.setProgress key (c.readProgress key)

def countUp (key : CounterKey) (c : QuestContext) : QuestContext :=
  c.setProgress key (c.readProgress key + 1)

/-! ## Entering a state -/

/-- The name of a state is set before the state is looked up. -/
def setName (state : String) (c : QuestContext) : QuestContext :=
  if Util.lowercase state = "end" ∨ Util.lowercase state = "done" then
    { c with
      stateName := Util.lowercase state
      stateName_lower := Util.lowercase_lowercase state
      state := none
      state_mem := fun _ h => nomatch h
      finished := true }
  else
    { c with
      stateName := Util.lowercase state
      stateName_lower := Util.lowercase_lowercase state }

/-- The state that the name stands for becomes the current one. -/
def select (stateId : String) (c : QuestContext) : QuestContext :=
  { c with
    state := c.quest.quest.states.find? stateId
    state_mem := fun _ h => ⟨stateId, h⟩
    finished := stateId = "end" }

/-- A new state has its own description, no dialogs yet, and the daily counters. -/
def clearState (desc : String) (c : QuestContext) : QuestContext :=
  { c.filterProgress fun key => key = "d" ∨ key = "c" with
    stateDesc := desc
    dialogs := SortedMap.empty }

def addDialog (vendor : Int16) (change : Dialog → Dialog) (c : QuestContext) : QuestContext :=
  { c with dialogs := c.dialogs.insert vendor (change ((c.dialogs.find? vendor).getD Dialog.new)) }

/-- The part of `BeginState` that an action of the state has. -/
def beginAction (expr : Expression) : Exec QuestContext QuestError QuestFault Unit :=
  match expr.function with
  | "addnpctext" => do
      let vendor ← arg expr 0
      let text ← arg expr 1
      Exec.modify (addDialog vendor.toInt.toInt16 (·.addPage text.toText))
  | "addnpcinput" => do
      let vendor ← arg expr 0
      let link ← arg expr 1
      let text ← arg expr 2
      Exec.modify (addDialog vendor.toInt.toInt16 (·.addLink link.toInt text.toText))
  | _ => pure ()

def beginState (state : State) : Exec QuestContext QuestError QuestFault Unit := do
  Exec.modify (clearState state.desc)
  let c ← Exec.get
  if c.quest.disabled then pure ()
  else Exec.forEach state.actions fun action => beginAction action.expr

/-- `SetState` as far as the actions; whether there is a state to act in. -/
def enterState (state : String) : Exec QuestContext QuestError QuestFault Bool := do
  let stateId := Util.lowercase state
  Exec.modify (setName state)
  let c ← Exec.get
  match c.quest.quest.states.find? stateId with
  | none =>
      if stateId = "end" ∨ stateId = "done" then pure false
      else Exec.throw (.runtimeError ("Unknown quest state: " ++ stateId))
  | some s => do
      Exec.modify (select stateId)
      beginState s
      pure true

/-! ## A context keeps its quest -/

section
variable (c : QuestContext)

theorem quest_setProgress (key : CounterKey) (value : Int16) :
    (c.setProgress key value).quest = c.quest := rfl

theorem quest_touchProgress (key : CounterKey) : (c.touchProgress key).quest = c.quest := rfl

theorem quest_countUp (key : CounterKey) : (c.countUp key).quest = c.quest := rfl

theorem quest_eraseProgress (key : CounterKey) : (c.eraseProgress key).quest = c.quest := rfl

theorem quest_select (stateId : String) : (c.select stateId).quest = c.quest := rfl

theorem progress_clearState (desc : String) :
    (c.clearState desc).progress = c.progress.filterKeys fun key => key = "d" ∨ key = "c" := rfl

theorem quest_setName (state : String) : (c.setName state).quest = c.quest := by
  unfold setName
  split_ifs <;> rfl

end

def getGoal (c : QuestContext) : Option Rule :=
  match c.state with
  | none => none
  | some s => if s.rules = [] then none else s.rules[s.goalRule]?

end QuestContext

end ArenaServ
