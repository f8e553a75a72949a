import ArenaServ.QuestRecords
import Mathlib.Logic.Function.Basic

/-!
# Characters and their quests

Contexts are shared pointers: they have addresses, a character's quests are pointers that
may be null, and a context that a character has no more may still be running. What a
character is besides its quests belongs to the rest of the world, of which quests ask a few
questions and which may check the quest rules of any character while it carries out a call.
-/

namespace ArenaServ

open EOPlus

structure QuestLog where
  quests : SortedMap Int16 (Option ℕ)
  inactive : SortedMap Int16 CharacterQuestState

def QuestLog.new : QuestLog := ⟨SortedMap.empty, SortedMap.empty⟩

/-- The loaded quests, each under its id. -/
structure QuestTable where
  quests : SortedMap Int16 Quest
  id_eq : ∀ i q, quests.find? i = some q → q.id = i

def QuestTable.single (q : ArenaServ.Quest) : QuestTable where
  quests := SortedMap.empty.insert q.id q
  id_eq i q' h := by
    rw [SortedMap.find?_insert] at h
    split_ifs at h with hi
    · rw [← Option.some.inj h, hi]
    · cases h

/-- Characters are named by numbers, and so are contexts. -/
structure QuestWorld (σ : Type) where
  table : QuestTable
  characters : List ℕ
  log : ℕ → QuestLog
  contexts : ℕ → QuestContext
  contextCount : ℕ
  recursiveDepth : ℤ
  rest : σ

/-! ## The rest of the world -/

/-- What quests read of a character. -/
structure CharacterView where
  mapId : Int32
  x : Int32
  y : Int32
  hasItem : Int16 → Int32
  hasSpell : Int16 → Bool
  spellLevel : Int16 → Int32
  gender : Int32
  clas : Int32
  race : Int32
  paperdoll : List Int32
  home : String
  /-- `rpn_eval` with the variables of the character; it may throw. -/
  rpnEval : List Variant → Except QuestError Bool

inductive StatChange where
  | set
  | give
  | remove
  deriving DecidableEq

/-- What actions do to a character. -/
inductive CharacterCall where
  | statusMsg (text : String)
  | quake (strength : Int32)
  | quakeWorld (strength : Int32)
  | warp (map x y : Int32)
  | playSound (id : Int32)
  | giveExp (amount : Int32)
  | addItem (id amount : Int32)
  | delItem (id amount : Int32)
  | setClass (value : Int32)
  | setRace (value : Int32)
  | removeKarma (amount : Int32)
  | giveKarma (amount : Int32)
  | setTitle (text : String)
  | setFiance (text : String)
  | setPartner (text : String)
  | setHome (text : String)
  | modifyStat (change : StatChange) (stat : String) (value : Int32)

/-- How a call goes on: it ends, throws, or checks the quest rules of a character. -/
inductive CharacterEffect (σ : Type) where
  | done (rest : σ)
  | throws (e : QuestError) (rest : σ)
  | checkQuestRules (character : ℕ) (rest : σ) (next : σ → CharacterEffect σ)

structure QuestHost (σ : Type) where
  /-- Seconds, as `std::time` gives them. -/
  time : σ → ℕ
  rand : σ → Int32 → Int32 → Int32 × σ
  view : σ → ℕ → CharacterView
  call : σ → ℕ → CharacterCall → CharacterEffect σ
  rpnParse : String → List Variant

/-! ## Steps on the world -/

abbrev QuestExec (σ α : Type) := Exec (QuestWorld σ) QuestError QuestFault α

variable {σ α : Type}

namespace QuestWorld

def putContext (x : ℕ) (c : QuestContext) (w : QuestWorld σ) : QuestWorld σ :=
  { w with contexts := Function.update w.contexts x c }

def putLog (character : ℕ) (log : QuestLog) (w : QuestWorld σ) : QuestWorld σ :=
  { w with log := Function.update w.log character log }

def setQuest (character : ℕ) (id : Int16) (x : Option ℕ) (w : QuestWorld σ) : QuestWorld σ :=
  w.putLog character { w.log character with quests := (w.log character).quests.insert id x }

/-- `insert`, which leaves a quest that is there as it is. -/
def insertQuest (character : ℕ) (id : Int16) (x : ℕ) (w : QuestWorld σ) : QuestWorld σ :=
  if ((w.log character).quests.find? id).isSome then w else w.setQuest character id (some x)

def insertInactive (character : ℕ) (id : Int16) (r : CharacterQuestState) (w : QuestWorld σ) :
    QuestWorld σ :=
  w.putLog character
    { w.log character with inactive := (w.log character).inactive.insertNew id r }

def newContext (c : QuestContext) (w : QuestWorld σ) : QuestWorld σ :=
  { w.putContext w.contextCount c with contextCount := w.contextCount + 1 }

def leaveRecursion (w : QuestWorld σ) : QuestWorld σ :=
  { w with recursiveDepth := w.recursiveDepth - 1 }

/-- The context of a quest, or null. -/
def getQuest (w : QuestWorld σ) (character : ℕ) (id : Int16) : Option ℕ :=
  ((w.log character).quests.find? id).join

theorem contexts_putContext (w : QuestWorld σ) (x : ℕ) (c : QuestContext) :
    (w.putContext x c).contexts x = c := Function.update_self ..

theorem contexts_putContext_of_ne (w : QuestWorld σ) {x y : ℕ} (c : QuestContext) (h : y ≠ x) :
    (w.putContext x c).contexts y = w.contexts y := Function.update_of_ne h ..

end QuestWorld

namespace QuestExec

def context (x : ℕ) : QuestExec σ QuestContext := do return (← Exec.get).contexts x

/-- A step of a context by itself. -/
def onContext (x : ℕ) (m : Exec QuestContext QuestError QuestFault α) : QuestExec σ α := fun w =>
  match m (w.contexts x) with
  | .done a c => .done a (w.putContext x c)
  | .raised e c => .raised e (w.putContext x c)
  | .fault f => .fault f

def change (x : ℕ) (f : QuestContext → QuestContext) : QuestExec σ Unit :=
  onContext x (Exec.modify f)

def getQuest (character : ℕ) (id : Int16) : QuestExec σ (Option ℕ) := do
  return (← Exec.get).getQuest character id

def newContext (character : ℕ) (quest : Quest) : QuestExec σ ℕ := do
  let w ← Exec.get
  Exec.modify (QuestWorld.newContext (.new character quest))
  return w.contextCount

/-- A new context, which the character has from now on. -/
def openQuest (character : ℕ) (id : Int16) (quest : Quest) : QuestExec σ ℕ := do
  let x ← newContext character quest
  Exec.modify (QuestWorld.setQuest character id (some x))
  pure x

/-- `++recursive_depth > max_recursion`. -/
def enterRecursion : QuestExec σ Unit := do
  let w ← Exec.get
  if 100 < w.recursiveDepth + 1 then Exec.throw (.other "Quest action recursion too deep")
  else Exec.modify fun w => { w with recursiveDepth := w.recursiveDepth + 1 }

/-- A quest that is there and not disabled. -/
def visitQuest (body : ℕ → QuestExec σ Unit) : Option ℕ → QuestExec σ Unit
  | none => pure ()
  | some x => do
      let c ← context x
      Exec.onlyIf (!c.quest.disabled) (body x)

/-- Goes through a character's quests in the order of their ids. A quest that is started on
the way is visited if its id is still to come, and a short has at most `2 ^ 16` values. -/
def forQuests (character : ℕ) (body : ℕ → QuestExec σ Unit) : ℕ → Option Int16 → QuestExec σ Unit
  | 0, _ => pure ()
  | n + 1, last => do
      let w ← Exec.get
      match (w.log character).quests.next? last with
      | none => pure ()
      | some (id, q) => do
          visitQuest body q
          forQuests character body n (some id)

end QuestExec

end ArenaServ
