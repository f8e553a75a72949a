import ArenaServ.MapTiles
import Mathlib.Algebra.Order.Ring.Rat

/-!
# Walking

The two `Map::Walk`: whether a character or an NPC can take a step, and who is told that
something has come into sight or is out of sight since. The objects to tell of are those on
the tiles of two frontiers of the see distance.
-/

namespace ArenaServ

inductive Direction where
  | down | left | up | right
  deriving DecidableEq, Repr

structure WalkingCharacter where
  id : ℕ
  x : UInt8
  y : UInt8
  level : UInt8
  lastWalk : ℚ
  canInteractCombat : Bool
  hideNpc : Bool

structure WalkingNpc where
  index : UInt8
  x : UInt8
  y : UInt8
  alive : Bool
  aggressive : Bool
  hasParent : Bool

structure LyingItem where
  uid : Int16
  x : UInt8
  y : UInt8

structure WalkWarp where
  levelreq : UInt8
  noDoor : Bool
  isOpen : Bool

structure WalkConfig where
  seeDistance : ℤ
  ghostTimer : ℚ
  ghostArena : Bool

structure WalkMap where
  width : UInt8
  height : UInt8
  tilespec : UInt8 → UInt8 → TileSpec
  warp : UInt8 → UInt8 → Option WalkWarp
  characters : List WalkingCharacter
  npcs : List WalkingNpc
  items : List LyingItem

/-- What a client is told to show or to remove. -/
inductive SightedObject where
  | character (id : ℕ)
  | npc (index : UInt8)
  | item (uid : Int16)
  deriving DecidableEq, Repr

inductive SightMessage where
  | appears (viewer : ℕ) (object : SightedObject)
  | gone (viewer : ℕ) (object : SightedObject)
  deriving DecidableEq, Repr

inductive WalkResult where
  | fail
  | warped
  | ok (x y : UInt8) (messages : List SightMessage)

/-! ## Whether a step can be taken -/

/-- `target_x` and `target_y`. The check of a step down compares the columns. -/
def walkTarget (x y : UInt8) : Direction → Option (UInt8 × UInt8)
  | .up => if y < y - 1 then none else some (x, y - 1)
  | .right => if x + 1 < x then none else some (x + 1, y)
  | .down => if x < x then none else some (x, y + 1)
  | .left => if x < x - 1 then none else some (x - 1, y)

namespace WalkMap

def inBounds (m : WalkMap) (x y : UInt8) : Bool := !(x ≥ m.width || y ≥ m.height)

/-- `Occupied`, with or without the NPCs. -/
def occupied (npcs adminghost : Bool) (m : WalkMap) (x y : UInt8) : Bool :=
  m.inBounds x y &&
    ((m.characters.any fun c =>
        c.x = x && c.y = y && !(adminghost && (!c.canInteractCombat || c.hideNpc))) ||
      (npcs && m.npcs.any fun n => n.alive && n.x = x && n.y = y))

def walkable (ghostArena npc : Bool) (m : WalkMap) (x y : UInt8) : Bool :=
  if !m.inBounds x y || (npc && (m.warp x y).isSome) || !(m.tilespec x y).walkable ||
      (npc && m.tilespec x y = .npcBoundary) then false
  else if ghostArena && m.tilespec x y = .arena && m.occupied true false x y then false
  else true

end WalkMap

/-! ## The frontiers -/

/-- The tiles at one place of the loop: one out of sight since the step, and one in sight. -/
structure FrontierTiles where
  oldx : ℤ
  oldy : ℤ
  newx : ℤ
  newy : ℤ

/-- The tiles for `i`, when the walker has come to `x` and `y`. -/
def frontierTiles (seedistance x y : ℤ) : Direction → ℤ → FrontierTiles
  | .up, i =>
      ⟨x + i, y + seedistance + 1 - i.natAbs, x + i, y - seedistance + i.natAbs⟩
  | .right, i =>
      ⟨x - seedistance - 1 + i.natAbs, y + i, x + seedistance - i.natAbs, y + i⟩
  | .down, i =>
      ⟨x + i, y - seedistance - 1 + i.natAbs, x + i, y + seedistance - i.natAbs⟩
  | .left, i =>
      ⟨x + seedistance + 1 - i.natAbs, y + i, x - seedistance + i.natAbs, y + i⟩

/-- `i` goes from `-seedistance` to `seedistance`. -/
def loopIndices (seedistance : ℤ) : List ℤ :=
  (List.range (2 * seedistance + 1).toNat).map fun (k : ℕ) => (k : ℤ) - seedistance

def frontier (seedistance : ℤ) (x y : UInt8) (direction : Direction) : List FrontierTiles :=
  (loopIndices seedistance).map (frontierTiles seedistance x.toNat y.toNat direction)

namespace FrontierTiles

def isOld (t : FrontierTiles) (x y : UInt8) : Bool := x.toNat = t.oldx && y.toNat = t.oldy

def isNew (t : FrontierTiles) (x y : UInt8) : Bool := x.toNat = t.newx && y.toNat = t.newy

end FrontierTiles

section Scan
variable {α : Type*} (x y : α → UInt8) (tiles : List FrontierTiles) (objects : List α)

/-- The loops that fill `oldchars` and `oldnpcs`. -/
def scanOld : List α :=
  objects.flatMap fun o => tiles.filterMap fun t => if t.isOld (x o) (y o) then some o else none

/-- The loops that fill `newchars` and `newnpcs`. -/
def scanNew : List α :=
  objects.flatMap fun o => tiles.filterMap fun t =>
    if t.isOld (x o) (y o) then none else if t.isNew (x o) (y o) then some o else none

/-- The loop that fills `newitems`. -/
def scanNewOnly : List α :=
  objects.flatMap fun o => tiles.filterMap fun t => if t.isNew (x o) (y o) then some o else none

end Scan

/-! ## Who is told what -/

/-- What is sent when a character has taken a step. -/
def characterMessages (walker : ℕ) (oldchars newchars : List WalkingCharacter)
    (newitems : List LyingItem) (newnpcs oldnpcs : List WalkingNpc) : List SightMessage :=
  (oldchars.flatMap fun c => [.gone c.id (.character walker), .gone walker (.character c.id)]) ++
  (newchars.flatMap fun c =>
    [.appears c.id (.character walker), .appears walker (.character c.id)]) ++
  (newitems.map fun it => .appears walker (.item it.uid)) ++
  (newnpcs.map fun n => .appears walker (.npc n.index)) ++
  oldnpcs.map fun n => .gone walker (.npc n.index)

/-- What is sent when an NPC has taken a step. -/
def npcMessages (walker : UInt8) (newchars oldchars : List WalkingCharacter) : List SightMessage :=
  (newchars.map fun c => .appears c.id (.npc walker)) ++
  oldchars.map fun c => .gone c.id (.npc walker)

namespace WalkMap

/-- `Walk` from where it moves a character. -/
def arrive (config : WalkConfig) (m : WalkMap) (walker : WalkingCharacter) (direction : Direction)
    (x y : UInt8) : WalkResult :=
  let tiles := frontier config.seeDistance x y direction
  let others := m.characters.filter (·.id ≠ walker.id)
  let living := m.npcs.filter (·.alive)
  .ok x y (characterMessages walker.id
    (scanOld (·.x) (·.y) tiles others) (scanNew (·.x) (·.y) tiles others)
    (scanNewOnly (·.x) (·.y) tiles m.items)
    (scanNew (·.x) (·.y) tiles living) (scanOld (·.x) (·.y) tiles living))

/-- `Walk` of a character. -/
def walk (config : WalkConfig) (m : WalkMap) (walker : WalkingCharacter) (direction : Direction)
    (admin : Bool) (time : ℚ) : WalkResult :=
  match walkTarget walker.x walker.y direction with
  | none => .fail
  | some (x, y) =>
      if !m.inBounds x y then .fail
      else if !admin && !m.walkable config.ghostArena false x y then .fail
      else if !admin && m.occupied false false x y &&
          decide (time < walker.lastWalk + config.ghostTimer) then .fail
      else
        match m.warp x y with
        | none => m.arrive config walker direction x y
        | some warp =>
            if warp.levelreq ≤ walker.level && (warp.noDoor || warp.isOpen) then .warped
            else if !admin then .fail
            else m.arrive config walker direction x y

/-- `Walk` from where it moves an NPC. -/
def arriveNpc (config : WalkConfig) (m : WalkMap) (walker : WalkingNpc) (direction : Direction)
    (x y : UInt8) : WalkResult :=
  let tiles := frontier config.seeDistance x y direction
  .ok x y (npcMessages walker.index (scanNew (·.x) (·.y) tiles m.characters)
    (scanOld (·.x) (·.y) tiles m.characters))

/-- `Walk` of an NPC. -/
def walkNpc (config : WalkConfig) (m : WalkMap) (walker : WalkingNpc) (direction : Direction) :
    WalkResult :=
  match walkTarget walker.x walker.y direction with
  | none => .fail
  | some (x, y) =>
      if !m.walkable config.ghostArena true x y ||
          m.occupied true (walker.aggressive || walker.hasParent) x y then .fail
      else m.arriveNpc config walker direction x y

end WalkMap

end ArenaServ
