import Mathlib.Algebra.Ring.Int.Defs
import ArenaServ.FirstMatch
import ArenaServ.MapTiles
import ArenaServ.PlayingCharacter
import ArenaServ.RunSteps

/-!
# Items on the ground

`Item_Drop` takes from an inventory what it has handed to `Map::AddItem`, and `Item_Get`
takes from the map what it has handed to `Character::AddItem`. Neither looks at how much
of it has arrived.
-/

namespace ArenaServ
open PacketProcessor

/-- `Map_Item`. -/
structure MapItem where
  uid : Int16
  id : Int16
  amount : Int32
  x : UInt8
  y : UInt8
  owner : UInt32
  unprotecttime : ℤ
  deriving DecidableEq, Repr

structure GroundConfig extends CarryConfig where
  ghostArena : Bool
  jailMap : ℤ
  maxDrop : Int32
  dropDistance : ℤ
  maxTile : ℤ
  maxMap : ℤ
  protectPlayerDrop : ℤ

/-- A map and the items on its ground. -/
structure GroundMap extends MapTiles where
  items : List MapItem

namespace GroundMap

/-- The loop of `GenerateItemID`, which starts over after each id it finds in use. -/
def lowestFreeId (items : List MapItem) : ℕ → ℕ → ℕ
  | 0, id => id
  | tries + 1, id =>
      if items.any (·.uid.toInt = id) then lowestFreeId items tries (id + 1) else id

def generateItemID (m : GroundMap) : ℕ := lowestFreeId m.items m.items.length 1

/-- `Map::AddItem` refuses to put a player's item on this tile. -/
def Full (config : GroundConfig) (m : GroundMap) (x y : UInt8) : Prop :=
  config.maxTile ≤ (m.items.countP fun item => item.x = x && item.y = y) ∨
    config.maxMap ≤ m.items.length

instance (config : GroundConfig) (m : GroundMap) (x y : UInt8) : Decidable (m.Full config x y) :=
  inferInstanceAs (Decidable (_ ∨ _))

/-- `Map::AddItem`, and what the caller does to the item it gets back. It gets one even
when the map has not taken it, so that nobody can tell. -/
def addItem (config : GroundConfig) (m : GroundMap) (id : Int16) (amount : Int32) (x y : UInt8)
    (byPlayer : Bool) (owner : UInt32) (unprotecttime : ℤ) : GroundMap :=
  if byPlayer ∧ m.Full config x y then m
  else
    let item : MapItem :=
      { uid := Int16.ofNat m.generateItemID, id := id, amount := amount, x := x, y := y
        owner := owner, unprotecttime := unprotecttime }
    { m with items := m.items ++ [item] }

def getItem (m : GroundMap) (uid : Int16) : Option MapItem := m.items.find? (·.uid = uid)

def delSomeItem (m : GroundMap) (uid : Int16) (amount : Int32) : GroundMap :=
  if amount < 0 then m
  else
    { m with
      items := FirstMatch.alterFirst (·.uid = uid)
        (fun it => if amount < it.amount then some { it with amount := it.amount - amount }
          else none) m.items }

end GroundMap

/-- What a drop hands to the map. -/
structure Drop where
  id : Int16
  amount : Int32
  x : UInt8
  y : UInt8
  deriving DecidableEq, Repr

namespace PlayingCharacter

/-- The amount is a three-byte number when five bytes remain. -/
def dropAmount (reader : PacketReader) : Option (ℕ × PacketReader) :=
  if reader.remaining = 5 then reader.getThree else reader.getInt

/-- The tile a drop names, or its own. -/
def dropTile (p : PlayingCharacter) (x y : ℕ) : UInt8 × UInt8 :=
  if x = 255 ∧ y = 255 then (p.x, p.y)
  else (UInt8.ofNat (number (UInt8.ofNat x) 254 254 254),
    UInt8.ofNat (number (UInt8.ofNat y) 254 254 254))

/-- The checks of `Item_Drop` on what it has read. -/
def MayDrop (config : GroundConfig) (p : PlayingCharacter) (m : GroundMap) (d : Drop) : Prop :=
  ¬ d.amount ≤ 0 ∧ ¬ config.dropDistance < pathLengthOf d.x d.y p.x p.y ∧
    m.walkable config.ghostArena d.x d.y ∧ d.amount ≤ p.hasItem d.id false ∧
    p.mapid ≠ config.jailMap

instance (config : GroundConfig) (p : PlayingCharacter) (m : GroundMap) (d : Drop) :
    Decidable (p.MayDrop config m d) :=
  inferInstanceAs (Decidable (_ ∧ _))

/-- `Item_Drop` up to `Map::AddItem`; the inner `none` when it returns early. -/
def itemDropped (config : GroundConfig) (p : PlayingCharacter) (m : GroundMap)
    (reader : PacketReader) : Option (Option Drop) := do
  if p.trading then return none
  else if !p.canInteractItems then return none
  else
    let (id, reader) ← reader.getShort
    let data ← config.items.get id
    if data.special = .lore then return none
    else
      let (amount, reader) ← dropAmount reader
      let (x, reader) ← reader.getByte
      let (y, _) ← reader.getByte
      let d : Drop :=
        { id := Int16.ofNat id, amount := min (Int32.ofNat amount) config.maxDrop
          x := (p.dropTile x y).1, y := (p.dropTile x y).2 }
      return if p.MayDrop config m d then some d else none

def itemDrop (config : GroundConfig) (p : PlayingCharacter) (m : GroundMap) (time : ℤ)
    (reader : PacketReader) : Option (PlayingCharacter × GroundMap) := do
  match ← p.itemDropped config m reader with
  | none => return (p, m)
  | some d =>
      let m := m.addItem config d.id d.amount d.x d.y true p.playerId
        (time + config.protectPlayerDrop)
      return (p.delItem config.toCarryConfig d.id d.amount, m)

/-- `Item_Get` up to `Character::AddItem`: the item and how much of it is taken. -/
def itemTaken (config : GroundConfig) (p : PlayingCharacter) (m : GroundMap) (time : ℤ)
    (reader : PacketReader) : Option (Option (MapItem × Int32)) := do
  let (uid, _) ← reader.getShort
  match m.getItem (Int16.ofNat uid) with
  | none => return none
  | some item =>
      if config.dropDistance < pathLengthOf item.x item.y p.x p.y then return none
      else if item.owner ≠ p.playerId ∧ time < item.unprotecttime then return none
      else
        let taken ← p.canHoldItem config.toCarryConfig item.id item.amount
        return if 0 < taken then some (item, taken) else none

def itemGet (config : GroundConfig) (p : PlayingCharacter) (m : GroundMap) (time : ℤ)
    (reader : PacketReader) : Option (PlayingCharacter × GroundMap) := do
  match ← p.itemTaken config m time reader with
  | none => return (p, m)
  | some (item, taken) =>
      return (p.addItem config.toCarryConfig item.id taken, m.delSomeItem item.uid taken)

end PlayingCharacter

/-! ## A map and its players -/

structure Ground where
  players : List PlayingCharacter
  map : GroundMap

inductive GroundStep where
  | drop (player : ℕ) (time : ℤ) (reader : PacketReader)
  | get (player : ℕ) (time : ℤ) (reader : PacketReader)

namespace Ground

def step (config : GroundConfig) (g : Ground) : GroundStep → Option Ground
  | .drop i time reader => do
      let p ← g.players[i]?
      let (p, m) ← p.itemDrop config g.map time reader
      return ⟨g.players.set i p, m⟩
  | .get i time reader => do
      let p ← g.players[i]?
      let (p, m) ← p.itemGet config g.map time reader
      return ⟨g.players.set i p, m⟩

end Ground

end ArenaServ
