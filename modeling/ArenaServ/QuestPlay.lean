import ArenaServ.QuestActions

/-!
# Playing quests

What the rest of the server does to a character's quests: it talks, counts uses and kills,
checks rules, asks for the progress of a quest, loads and restores quests. A run is any
sequence of these; an exception ends the event it occurs in.
-/

namespace ArenaServ

open EOPlus QuestExec

variable {σ : Type}

namespace QuestContext

/-- `QueryRule`: whether a rule of the current state passes a check of its arguments. -/
def queryRule (rule : String)
    (argCheck : Expression → Exec QuestContext QuestError QuestFault Bool) :
    Exec QuestContext QuestError QuestFault (Option Rule) := do
  let c ← Exec.get
  match c.state with
  | none => pure none
  | some s =>
      Exec.findM? s.rules fun r =>
        if r.expr.function = rule then argCheck r.expr else pure false

/-- The first argument is the id. -/
def argIs (id : Int32) (expr : Expression) : Exec QuestContext QuestError QuestFault Bool := do
  return (← arg expr 0).toInt = id

/-- The first argument is the id and the second at most the amount. -/
def argReached (id : Int16) (amount : Int16) (expr : Expression) :
    Exec QuestContext QuestError QuestFault Bool := do
  if (← arg expr 0).toInt = id.toInt32 then return (← arg expr 1).toInt ≤ amount.toInt32
  else return false

inductive BookIcon where
  | talk
  | item
  | kill
  | step
  deriving DecidableEq

structure ProgressInfo where
  icon : BookIcon
  progress : Int16
  target : Int16
  deriving DecidableEq

/-- The target of a goal that counts, one unless it says otherwise. -/
def goalTarget (expr : Expression) : Exec QuestContext QuestError QuestFault Int16 :=
  if 2 ≤ expr.args.length then do return (← arg expr 1).toInt.toInt16 else pure 1

/-- A goal that counts uses or kills of one thing. -/
def countedProgress (icon : BookIcon) (expr : Expression) :
    Exec QuestContext QuestError QuestFault ProgressInfo := do
  let c ← Exec.get
  let id ← arg expr 0
  let target ← goalTarget expr
  return ⟨icon, (c.progress.find? (expr.function ++ "/" ++ id.toText)).getD 0, target⟩

def goalProgress (view : CharacterView) (expr : Expression) :
    Exec QuestContext QuestError QuestFault ProgressInfo :=
  match expr.function with
  | "gotitems" | "gotspell" => do
      let target ← arg expr 1
      let held := view.hasItem (← arg expr 0).toInt.toInt16
      return ⟨.item, (min target.toInt held).toInt16, ← goalTarget expr⟩
  | "useditem" | "usedspell" => countedProgress .item expr
  | "killednpcs" => countedProgress .kill expr
  | "killedplayers" => do
      let c ← Exec.get
      let target := (← arg expr 0).toInt.toInt16
      return ⟨.kill, (c.progress.find? expr.function).getD 0, target⟩
  | "entercoord" | "leavecoord" | "entermap" | "leavemap" => pure ⟨.step, 0, 0⟩
  | _ => pure ⟨.talk, 0, 0⟩

/-- `Progress`. -/
def progressInfo (view : CharacterView) : Exec QuestContext QuestError QuestFault ProgressInfo := do
  let c ← Exec.get
  match c.getGoal with
  | none => pure ⟨.talk, 0, 0⟩
  | some goal => goalProgress view goal.expr

end QuestContext

namespace QuestHost

variable (host : QuestHost σ) (k : Calls σ)

/-- `TriggerRule`: the first rule that passes takes its action. -/
def triggerRule (x : ℕ) (rule : String)
    (argCheck : Expression → Exec QuestContext QuestError QuestFault Bool) : QuestExec σ Bool := do
  match ← onContext x (QuestContext.queryRule rule argCheck) with
  | none => pure false
  | some r => do
      let _ ← host.doAction k x r.action
      pure true

/-- Counts, and drops the counter once a rule has had enough. -/
def countRule (x : ℕ) (rule : String) (key : CounterKey)
    (counts : Expression → Exec QuestContext QuestError QuestFault Bool)
    (reached : Int16 → Expression → Exec QuestContext QuestError QuestFault Bool) :
    QuestExec σ Unit := do
  let this ← context x
  if this.quest.disabled then pure ()
  else do
    let check ← onContext x (QuestContext.queryRule rule counts)
    Exec.onlyIf check.isSome (change x (·.countUp key))
    let counted ← context x
    let amount := if check.isSome then counted.readProgress key else 0
    let triggered ← host.triggerRule k x rule (reached amount)
    Exec.onlyIf triggered (change x (·.eraseProgress key))

def countThing (rule : CounterKey) (x : ℕ) (id : Int16) : QuestExec σ Unit :=
  host.countRule k x rule (rule.thing id) (QuestContext.argIs id.toInt32)
    (QuestContext.argReached id)

def usedItem (x : ℕ) (id : Int16) : QuestExec σ Unit := host.countThing k .useditem x id

def usedSpell (x : ℕ) (id : Int16) : QuestExec σ Unit := host.countThing k .usedspell x id

def killedNPC (x : ℕ) (id : Int16) : QuestExec σ Unit := host.countThing k .killednpcs x id

def killedPlayer (x : ℕ) : QuestExec σ Unit :=
  host.countRule k x "killedplayers" .killedplayers (fun _ => pure true)
    fun amount expr => do return (← arg expr 0).toInt ≤ amount.toInt32

/-- Talking and answering take the action of the first rule with that argument. -/
def answer (rule : String) (x : ℕ) (id : Int32) : QuestExec σ Unit := do
  let this ← context x
  if this.quest.disabled then pure ()
  else do
    let _ ← host.triggerRule k x rule (QuestContext.argIs id)

def dialogInput (x : ℕ) (link : Int8) : QuestExec σ Unit :=
  host.answer k "inputnpc" x link.toInt32

def talkedNPC (x : ℕ) (vendor : Int16) : QuestExec σ Unit :=
  host.answer k "talkedtonpc" x vendor.toInt32

def progress (x : ℕ) : QuestExec σ Unit := do
  let this ← context x
  let w ← Exec.get
  let _ ← onContext x (QuestContext.progressInfo (host.view w.rest this.character))

/-! ## Starting and loading quests -/

/-- The quest of an NPC that is talked to is started, or started again. -/
def questUse (character : ℕ) (vendor : Int16) : QuestExec σ Unit := do
  match ← getQuest character vendor with
  | none => do
      let w ← Exec.get
      match w.table.quests.find? vendor with
      | none => pure ()
      | some quest =>
          if quest.disabled ∨ vendor < 1 then pure ()
          else do
            let x ← openQuest character vendor quest
            k.setState x "begin"
  | some x => do
      let c ← context x
      if c.stateName = "done" ∧ 1 ≤ vendor then k.setState x "begin" else pure ()

/-- A state that is not there is only reported. -/
def setNamedState (x : ℕ) (state : String) : QuestExec σ Unit :=
  Exec.tryCatch (k.setState x state) fun
    | .runtimeError _ => pure ()
    | .other what => Exec.throw (.other what)

/-- The command `qstate`. -/
def questState (character : ℕ) (id : Int16) (state : String) : QuestExec σ Unit := do
  match ← getQuest character id with
  | some x => setNamedState k x state
  | none => do
      let w ← Exec.get
      match w.table.quests.find? id with
      | none => pure ()
      | some quest => do
          let x ← openQuest character id quest
          k.setState x "begin"
          setNamedState k x state

/-- A record becomes a context again; one that cannot stays inactive. -/
def restoreQuest (character : ℕ) (id : Int16) (r : CharacterQuestState) (quest : Quest) :
    QuestExec σ Unit := do
  let x ← newContext character quest
  Exec.tryCatch
    (do
      let _ ← onContext x (QuestContext.enterState r.questState)
      change x (·.unserialize r.questProgress)
      Exec.modify (QuestWorld.insertQuest character id x))
    fun
      | .runtimeError _ => Exec.modify (QuestWorld.insertInactive character id r)
      | .other what => Exec.throw (.other what)

def questUnserialize (character : ℕ) (serialized : String) : QuestExec σ Unit :=
  Exec.forEach (parseRecords serialized) fun e => do
    let w ← Exec.get
    match w.table.quests.find? e.1 with
    | none => Exec.modify (QuestWorld.insertInactive character e.1 e.2)
    | some quest => restoreQuest character e.1 e.2 quest

/-- The quest with id zero is started by itself. -/
def startDefault (character : ℕ) : QuestExec σ Unit := do
  match ← getQuest character 0 with
  | some _ => pure ()
  | none => do
      let w ← Exec.get
      match w.table.quests.find? 0 with
      | none => pure ()
      | some quest =>
          if quest.disabled then pure ()
          else do
            let x ← openQuest character 0 quest
            k.setState x "begin"

def login (character : ℕ) (serialized : String) : QuestExec σ Unit := do
  Exec.modify fun w => { w.putLog character QuestLog.new with
    characters := w.characters ++ [character] }
  questUnserialize character serialized
  startDefault k character
  host.checkQuestRules k character

end QuestHost

/-! ## Reloading -/

namespace QuestWorld

/-- The states of a character's quests become inactive records, unless there is one. -/
def backUp (character : ℕ) (w : QuestWorld σ) : QuestWorld σ :=
  (w.log character).quests.entries.foldl
    (fun w e =>
      match e.2 with
      | none => w
      | some x => w.insertInactive character e.1 (w.contexts x).record)
    w

def clearQuests (character : ℕ) (w : QuestWorld σ) : QuestWorld σ :=
  w.putLog character { w.log character with quests := SortedMap.empty }

end QuestWorld

namespace QuestHost

variable (host : QuestHost σ) (k : Calls σ)

def restoreRecord (character : ℕ) (table : QuestTable) (e : Int16 × CharacterQuestState) :
    QuestExec σ Unit :=
  match table.quests.find? e.1 with
  | none => pure ()
  | some quest => restoreQuest character e.1 e.2 quest

def restoreQuests (character : ℕ) : QuestExec σ Unit := do
  Exec.modify (QuestWorld.clearQuests character)
  let w ← Exec.get
  Exec.forEach (w.log character).inactive.entries (restoreRecord character w.table)

/-- `ReloadQuests` as far as the quest rules, given the quests that it loads. -/
def replaceQuests (table : QuestTable) : QuestExec σ Unit := do
  Exec.modify fun w => w.characters.foldl (fun w c => w.backUp c) w
  Exec.modify fun w => { w.characters.foldl (fun w c => w.clearQuests c) w with table := table }
  let w ← Exec.get
  Exec.forEach w.characters restoreQuests

def reloadQuests (table : QuestTable) : QuestExec σ Unit := do
  replaceQuests table
  let w ← Exec.get
  Exec.forEach w.characters fun c => host.checkQuestRules k c

end QuestHost

/-! ## Runs -/

/-- What happens to one quest of a character. -/
inductive Query where
  | talkedNPC (vendor : Int16)
  | dialogInput (link : Int8)
  | usedItem (id : Int16)
  | usedSpell (id : Int16)
  | killedNPC (id : Int16)
  | killedPlayer
  | checkRules
  | progress

inductive QuestEvent (σ : Type) where
  | query (character : ℕ) (id : Int16) (query : Query)
  | checkQuestRules (character : ℕ)
  | questUse (character : ℕ) (vendor : Int16)
  | questState (character : ℕ) (id : Int16) (state : String)
  | login (character : ℕ) (serialized : String)
  | logout (character : ℕ)
  | reloadQuests (table : QuestTable)
  /-- The rest of the world goes on. -/
  | play (rest : σ)

namespace QuestHost

variable (host : QuestHost σ)

def answerQuery (k : Calls σ) (x : ℕ) : Query → QuestExec σ Unit
  | .talkedNPC vendor => host.talkedNPC k x vendor
  | .dialogInput link => host.dialogInput k x link
  | .usedItem id => host.usedItem k x id
  | .usedSpell id => host.usedSpell k x id
  | .killedNPC id => host.killedNPC k x id
  | .killedPlayer => host.killedPlayer k x
  | .checkRules => do
      let _ ← host.checkRules k x
  | .progress => host.progress x

def event (k : Calls σ) : QuestEvent σ → QuestExec σ Unit
  | .query character id query => do
      match ← getQuest character id with
      | none => pure ()
      | some x => host.answerQuery k x query
  | .checkQuestRules character => host.checkQuestRules k character
  | .questUse character vendor => questUse k character vendor
  | .questState character id state => questState k character id state
  | .login character serialized => host.login k character serialized
  | .logout character => Exec.modify fun w => { w with characters := w.characters.erase character }
  | .reloadQuests table => host.reloadQuests k table
  | .play rest => Exec.modify fun w => { w with rest := rest }

/-- The world after an event that ends, whether or not by an exception. -/
def step (fuel : ℕ) (w : QuestWorld σ) (e : QuestEvent σ) : Option (QuestWorld σ) :=
  match host.event (host.calls fuel) e w with
  | .done _ w' => some w'
  | .raised _ w' => some w'
  | .fault _ => none

end QuestHost

instance : Inhabited QuestContext :=
  ⟨.new 0 ⟨0, ⟨⟨.notHidden, false⟩, SortedMap.empty⟩, rfl⟩⟩

/-- Nobody is there, and there are no contexts. -/
def QuestWorld.start (table : QuestTable) (rest : σ) : QuestWorld σ where
  table := table
  characters := []
  log _ := QuestLog.new
  contexts _ := default
  contextCount := 0
  recursiveDepth := 0
  rest := rest

/-- A world in which nothing happens besides quests. -/
def idleHost : QuestHost Unit where
  time _ := 0
  rand _ low _ := (low, ())
  view _ _ := ⟨0, 0, 0, fun _ => 0, fun _ => false, fun _ => 0, 0, 0, 0, [], "", fun _ => .ok false⟩
  call _ _ _ := .done ()
  rpnParse _ := []

end ArenaServ
