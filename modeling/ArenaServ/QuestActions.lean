import ArenaServ.QuestWorld

/-!
# The quest interpreter

Actions change the state of a quest and call the character; states run their actions and
then their rules. These call each other, through states, through other quests and through
the character. `Calls` closes the circle: each level is made of the one below it, and below
the last one the stack is used up.
-/

namespace ArenaServ

open EOPlus QuestExec

variable {σ : Type}

structure Calls (σ : Type) where
  setState : ℕ → String → QuestExec σ Unit
  checkQuestRules : ℕ → QuestExec σ Unit

/-! ## Calls of the character -/

def amount (expr : Expression) : Exec σ QuestError QuestFault Int32 :=
  if 2 ≤ expr.args.length then do return (← arg expr 1).toInt else pure 1

def strength (expr : Expression) : Exec σ QuestError QuestFault Int32 :=
  if 1 ≤ expr.args.length then do return max 1 (min 8 (← arg expr 0).toInt) else pure 5

/-- The stats that `modify_stat` knows. -/
def statNames : List String :=
  ["level", "exp", "str", "int", "wis", "agi", "con", "cha", "statpoints", "skillpoints", "admin",
    "gender", "hairstyle", "haircolor", "race", "guildrank", "karma", "class"]

def modifyStat (change : StatChange) (expr : Expression) :
    Exec σ QuestError QuestFault CharacterCall := do
  let stat ← arg expr 0
  let value ← arg expr 1
  if stat.toText ∈ statNames then pure (.modifyStat change stat.toText value.toInt)
  else Exec.throw (.runtimeError ("Unknown stat: " ++ stat.toText))

/-- `substr(0, n)`. -/
def cut (n : ℕ) (value : Variant) : String := String.ofList (value.toText.toList.take n)

/-- What an action asks of the character, if it is one that does. -/
def characterCall (expr : Expression) : Exec σ QuestError QuestFault (Option CharacterCall) :=
  match expr.function with
  | "showhint" => do return some (.statusMsg (← arg expr 0).toText)
  | "quake" => do return some (.quake (← strength expr))
  | "quakeworld" => do return some (.quakeWorld (← strength expr))
  | "setmap" | "setcoord" => do
      return some (.warp (← arg expr 0).toInt (← arg expr 1).toInt (← arg expr 2).toInt)
  | "playsound" => do return some (.playSound (← arg expr 0).toInt)
  | "giveexp" => do return some (.giveExp (← arg expr 0).toInt)
  | "giveitem" => do return some (.addItem (← arg expr 0).toInt (← amount expr))
  | "removeitem" => do return some (.delItem (← arg expr 0).toInt (← amount expr))
  | "setclass" => do return some (.setClass (← arg expr 0).toInt)
  | "setrace" => do return some (.setRace (← arg expr 0).toInt)
  | "removekarma" => do return some (.removeKarma (← arg expr 0).toInt)
  | "givekarma" => do return some (.giveKarma (← arg expr 0).toInt)
  | "settitle" => do return some (.setTitle (cut 32 (← arg expr 0)))
  | "setfiance" => do return some (.setFiance (cut 16 (← arg expr 0)))
  | "setpartner" => do return some (.setPartner (cut 16 (← arg expr 0)))
  | "sethome" => do return some (.setHome (cut 32 (← arg expr 0)))
  | "setstat" => do return some (← modifyStat .set expr)
  | "givestat" => do return some (← modifyStat .give expr)
  | "removestat" => do return some (← modifyStat .remove expr)
  | _ => pure none

/-- Carries out a call, checking quest rules where it does. -/
def runEffect (k : Calls σ) : CharacterEffect σ → QuestExec σ Unit
  | .done rest => Exec.modify fun w => { w with rest := rest }
  | .throws e rest => do
      Exec.modify fun w => { w with rest := rest }
      Exec.throw e
  | .checkQuestRules character rest next => do
      Exec.modify fun w => { w with rest := rest }
      k.checkQuestRules character
      let w ← Exec.get
      runEffect k (next w.rest)

namespace QuestHost

variable (host : QuestHost σ) (k : Calls σ)

def questDay (rest : σ) : Int16 := Int16.ofNat (host.time rest / 86400 % 2 ^ 15)

def callCharacter (x : ℕ) (call : CharacterCall) : QuestExec σ Unit := do
  let this ← context x
  let w ← Exec.get
  runEffect k (host.call w.rest this.character call)

/-! ## Actions -/

/-- The state a quest is started in. -/
def startState (expr : Expression) : Exec σ QuestError QuestFault String :=
  if 2 ≤ expr.args.length then do return (← arg expr 1).toText else pure "begin"

def startQuest (x : ℕ) (expr : Expression) : QuestExec σ Unit := do
  let id := (← arg expr 0).toInt.toInt16
  let this ← context x
  match ← getQuest this.character id with
  | none =>
      let w ← Exec.get
      match w.table.quests.find? id with
      | none => pure ()
      | some quest => do
          let y ← openQuest this.character id quest
          k.setState y (← startState expr)
  | some y =>
      let other ← context y
      if other.stateName = "done" then do k.setState y (← startState expr)
      else pure ()

/-- What `resetquest` does to the quest it names. -/
def resetOther (this : QuestContext) (id : Int16) : Option ℕ → QuestExec σ Unit
  | none => pure ()
  | some y =>
      if (this.progress.find? "c").isNone then k.setState y "done"
      else Exec.modify (QuestWorld.setQuest this.character id none)

/-- Whether the quest reset is the one that resets. -/
def resetQuest (x : ℕ) (expr : Expression) : QuestExec σ Bool := do
  let this ← context x
  let id := (← arg expr 0).toInt.toInt16
  let other ← getQuest this.character id
  resetOther k this id other
  pure (id = this.quest.id)

def setQuestState (x : ℕ) (expr : Expression) : QuestExec σ Bool := do
  let this ← context x
  let id := (← arg expr 0).toInt.toInt16
  let state ← arg expr 1
  match ← getQuest this.character id with
  | none => pure false
  | some y => do
      k.setState y state.toText
      pure (id = this.quest.id)

/-- What `reset` does to its own quest. -/
def resetThis (x : ℕ) : QuestExec σ Unit := do
  let this ← context x
  if (this.progress.find? "c").isNone then
    Exec.modify (QuestWorld.setQuest this.character this.quest.id none)
  else k.setState x "done"

def roll (x : ℕ) (expr : Expression) : QuestExec σ Unit := do
  let sides ← arg expr 0
  let w ← Exec.get
  let (roll, rest) := host.rand w.rest 1 sides.toInt
  Exec.modify fun w => { w with rest := rest }
  change x (·.setProgress .r roll.toInt16)

/-- What an action asks of the character is done. -/
def otherAction (x : ℕ) (expr : Expression) : QuestExec σ Unit := do
  match ← characterCall expr with
  | none => pure ()
  | some call => host.callCharacter k x call

/-- Whether the state of the quest has changed. -/
def performAction (x : ℕ) (expr : Expression) : QuestExec σ Bool :=
  match expr.function with
  | "setstate" => do
      k.setState x (Util.lowercase (← arg expr 0).toText)
      pure true
  | "reset" => do
      resetThis k x
      pure true
  | "resetdaily" => do
      let w ← Exec.get
      change x (·.setProgress .d (host.questDay w.rest))
      change x (·.countUp .c)
      k.setState x "done"
      pure true
  | "end" => do
      k.setState x "end"
      pure true
  | "startquest" => do
      startQuest k x expr
      pure false
  | "resetquest" => resetQuest k x expr
  | "setqueststate" => setQuestState k x expr
  | "roll" => do
      host.roll x expr
      pure false
  | _ => do
      host.otherAction k x expr
      pure false

def doAction (x : ℕ) (action : Action) : QuestExec σ Bool := do
  let this ← context x
  if this.quest.disabled then pure false else host.performAction k x action.expr

/-! ## Rules -/

/-- `rpn_char_eval`. -/
def rpnCharEval (view : CharacterView) (values : List Variant) : QuestExec σ Bool :=
  match view.rpnEval values with
  | .ok holds => pure holds
  | .error e => Exec.throw e

/-- The rules about the character alone. -/
def viewRule (view : CharacterView) (expr : Expression) : QuestExec σ Bool :=
  match expr.function with
  | "always" => pure true
  | "entermap" => do return view.mapId = (← arg expr 0).toInt
  | "entercoord" => do
      if view.mapId = (← arg expr 0).toInt then
        if view.x = (← arg expr 1).toInt then return view.y = (← arg expr 2).toInt
        else return false
      else return false
  | "leavemap" => do return view.mapId ≠ (← arg expr 0).toInt
  | "leavecoord" => do
      if view.mapId = (← arg expr 0).toInt then
        if view.x = (← arg expr 1).toInt then return view.y ≠ (← arg expr 2).toInt
        else return true
      else return true
  | "gotitems" => do
      return (← amount expr) ≤ view.hasItem (← arg expr 0).toInt.toInt16
  | "lostitems" => do
      return view.hasItem (← arg expr 0).toInt.toInt16 < (← amount expr)
  | "gotspell" => do
      let id := (← arg expr 0).toInt.toInt16
      if view.hasSpell id then
        if expr.args.length < 2 then return true
        else return (← arg expr 1).toInt ≤ view.spellLevel id
      else return false
  | "lostspell" => do return !view.hasSpell (← arg expr 0).toInt.toInt16
  | "isgender" => do return view.gender = (← arg expr 0).toInt
  | "isclass" => do return view.clas = (← arg expr 0).toInt
  | "israce" => do return view.race = (← arg expr 0).toInt
  | "iswearing" => do return (← arg expr 0).toInt ∈ view.paperdoll
  | "citizenof" => do return view.home = (← arg expr 0).toText
  | "statis" | "statnot" => do
      rpnCharEval view [← arg expr 1, ← arg expr 0, .text "="]
  | "statgreater" => do rpnCharEval view [← arg expr 1, ← arg expr 0, .text ">"]
  | "statless" => do rpnCharEval view [← arg expr 1, ← arg expr 0, .text "<"]
  | "statbetween" => do
      let low ← arg expr 1
      let stat ← arg expr 0
      let high ← arg expr 2
      rpnCharEval view [low, stat, .text "gte", high, stat, .text "lte", .text "&"]
  | "statrpn" => do rpnCharEval view (host.rpnParse (← arg expr 0).toText)
  | _ => pure false

def checkEnabledRule (x : ℕ) (expr : Expression) : QuestExec σ Bool :=
  match expr.function with
  | "donedaily" => do
      change x (·.touchProgress .d)
      let this ← context x
      let w ← Exec.get
      let today := host.questDay w.rest
      if this.readProgress .d = today then do
        change x (·.touchProgress .c)
        let done := this.readProgress .c
        return (← arg expr 0).toInt ≤ done.toInt32
      else do
        change x (·.setProgress .d today)
        change x (·.setProgress .c 0)
        pure false
  | "rolled" => do
      change x (·.touchProgress .r)
      let this ← context x
      let roll := (this.readProgress .r).toInt32
      if expr.args.length < 2 then return roll = (← arg expr 0).toInt
      else if (← arg expr 0).toInt ≤ roll then return roll ≤ (← arg expr 1).toInt
      else return false
  | _ => do
      let this ← context x
      let w ← Exec.get
      host.viewRule (host.view w.rest this.character) expr

def checkRule (x : ℕ) (expr : Expression) : QuestExec σ Bool := do
  let this ← context x
  if this.quest.disabled then pure false else host.checkEnabledRule x expr

/-! ## States -/

/-- The `do_action` of `DoActions`: its `return` leaves the lambda, not the loop. -/
def doStateAction (x : ℕ) (action : Action) : QuestExec σ Unit := do
  let changed ← host.doAction k x action
  Exec.onlyIf changed (Exec.modify QuestWorld.leaveRecursion)

def doActionList (x : ℕ) : List Action → Bool → QuestExec σ Unit
  | [], _ => pure ()
  | action :: rest, lastCond =>
      if (action.cond = .condElseIf ∨ action.cond = .condElse) ∧ lastCond = true then
        doActionList x rest lastCond
      else if action.cond = .condIf ∨ action.cond = .condElseIf then do
        let holds ← host.checkRule x action.condExpr
        Exec.onlyIf holds (host.doStateAction k x action)
        doActionList x rest holds
      else do
        host.doStateAction k x action
        doActionList x rest lastCond

/-- A context without a state is finished or was never started. -/
def noState (c : QuestContext) : QuestExec σ Bool :=
  if c.finished then pure false else Exec.throw (.other "No state selected")

def checkRules (x : ℕ) : QuestExec σ Bool := do
  let this ← context x
  match this.state with
  | none => noState this
  | some s => do
      enterRecursion
      let found ← Exec.onRaise
        (Exec.findM? s.rules fun rule => do
          if ← host.checkRule x rule.expr then host.doAction k x rule.action else pure false)
        QuestWorld.leaveRecursion
      Exec.modify QuestWorld.leaveRecursion
      return found.isSome

def doActions (x : ℕ) : QuestExec σ Unit := do
  let this ← context x
  match this.state with
  | none => do
      let _ ← noState this
  | some s => do
      enterRecursion
      Exec.onRaise (host.doActionList k x s.actions false) QuestWorld.leaveRecursion
      Exec.modify QuestWorld.leaveRecursion
      let _ ← host.checkRules k x

def setState (x : ℕ) (state : String) : QuestExec σ Unit := do
  let entered ← onContext x (QuestContext.enterState state)
  Exec.onlyIf entered (host.doActions k x)

def checkQuestRules (character : ℕ) : QuestExec σ Unit :=
  forQuests character (fun x => do let _ ← host.checkRules k x) (2 ^ 16) none

/-- The interpreter with a stack for that many nested calls. -/
def calls : ℕ → Calls σ
  | 0 => ⟨fun _ _ => Exec.fault .outOfFuel, fun _ => Exec.fault .outOfFuel⟩
  | n + 1 => ⟨host.setState (calls n), host.checkQuestRules (calls n)⟩

end QuestHost

end ArenaServ
