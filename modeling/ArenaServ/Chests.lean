import ArenaServ.GroundItems

/-!
# Chests

`Chest_Add` takes from an inventory what `Map_Chest::AddItem` says it has accepted, and
`Chest_Take` gives what it has deleted from the chest to `Character::AddItem`, which may
cut it off.
-/

namespace ArenaServ

structure MapChestItem where
  id : Int16
  amount : Int32
  slot : Int32
  deriving DecidableEq, Repr

/-- An item spawn of a chest: its slot and when something was last taken from it. -/
structure MapChestSpawn where
  slot : Int32
  lastTaken : ℤ
  deriving DecidableEq, Repr

structure MapChest where
  x : UInt8
  y : UInt8
  items : List MapChestItem
  spawns : List MapChestSpawn
  slots : Int32
  maxchest : Int32
  chestslots : Int32
  deriving DecidableEq, Repr

structure ChestConfig extends CarryConfig where
  maxChest : Int32

structure ChestMap extends MapTiles where
  chests : List MapChest

namespace MapChest

/-- The first stack of an item. -/
def stack (chest : MapChest) (item : Int16) : Option MapChestItem :=
  chest.items.find? (·.id = item)

def hasItem (chest : MapChest) (item : Int16) : Int32 :=
  ((chest.stack item).map (·.amount)).getD 0

/-- `AddItem` where it puts a new stack: how much it takes, and the chest. -/
def pushItem (chest : MapChest) (item : Int16) (amount slot : Int32) : Int32 × MapChest :=
  let it : MapChestItem := ⟨item, amount, slot⟩
  let userItems := chest.items.countP (·.slot = 0)
  if chest.chestslots.toInt64.toUInt64.toNat ≤ chest.items.length ∨ chest.maxchest < amount then
    (0, chest)
  else if slot = 0 ∧ chest.chestslots ≤ Int32.ofNat userItems + chest.slots then (0, chest)
  else
    (amount, { chest with items := if slot = 0 then chest.items ++ [it] else it :: chest.items })

/-- `AddItem`: how much it takes, and the chest. -/
def addItem (chest : MapChest) (item : Int16) (amount slot : Int32) : Int32 × MapChest :=
  if amount ≤ 0 then (0, chest)
  else
    match (if slot = 0 then chest.stack item else none) with
    | some it =>
        if it.amount + amount < 0 ∨ chest.maxchest < it.amount + amount then (0, chest)
        else
          (amount, { chest with
            items := FirstMatch.alterFirst (·.id = item)
              (fun it => some { it with amount := it.amount + amount }) chest.items })
    | none => chest.pushItem item amount slot

/-- The spawns of a slot are told that something was taken from it. -/
def touchSpawns (chest : MapChest) (slot : Int32) (time : ℤ) : List MapChestSpawn :=
  if slot = 0 then chest.spawns
  else
    chest.spawns.map fun spawn =>
      if spawn.slot = slot then { spawn with lastTaken := time } else spawn

def delSomeItem (chest : MapChest) (time : ℤ) (item : Int16) (amount : Int32) : MapChest :=
  match chest.stack item with
  | none => chest
  | some it =>
      { chest with
        spawns := chest.touchSpawns it.slot time
        items := FirstMatch.alterFirst (·.id = item)
          (fun it =>
            if amount < it.amount then some { it with amount := it.amount - amount, slot := 0 }
            else none) chest.items }

/-- How much of an item a chest contains. -/
def total (chest : MapChest) (item : Int16) : ℤ :=
  (chest.items.map fun it => if it.id = item then it.amount.toInt else 0).sum

/-- The tile of a chest. -/
def IsAt (chest : MapChest) (x y : ℕ) : Bool := chest.x.toNat = x && chest.y.toNat = y

end MapChest

namespace PlayingCharacter

/-- A character may reach into the chests of a tile. -/
def Reaches (p : PlayingCharacter) (m : ChestMap) (x y : ℕ) : Prop :=
  pathLength p.x.toNat p.y.toNat x y ≤ 1 ∧ m.getSpec (UInt8.ofNat x) (UInt8.ofNat y) = .chest

instance (p : PlayingCharacter) (m : ChestMap) (x y : ℕ) : Decidable (p.Reaches m x y) :=
  inferInstanceAs (Decidable (_ ∧ _))

/-- What `Chest_Add` moves, and the chest then; `none` when it does not. -/
def addedToChest (config : ChestConfig) (p : PlayingCharacter) (chest : MapChest) (item : Int16)
    (amount : Int32) : Option (Int32 × MapChest) :=
  let amount := min amount (config.maxChest - chest.hasItem item)
  if amount ≤ p.hasItem item false ∧ (chest.addItem item amount 0).1 ≠ 0 then
    some (amount, (chest.addItem item amount 0).2)
  else none

/-- `Chest_Add` up to `Character::DelItem`: the item, the amount, and the chests then. -/
def chestAdded (config : ChestConfig) (p : PlayingCharacter) (m : ChestMap)
    (reader : PacketReader) : Option (Option (Int16 × Int32 × List MapChest)) := do
  if p.trading then return none
  else if !p.canInteractItems then return none
  else
    let (x, reader) ← reader.getChar
    let (y, reader) ← reader.getChar
    let (id, reader) ← reader.getShort
    let (amount, _) ← reader.getThree
    let data ← config.items.get id
    if data.special = .lore ∨ ¬ p.Reaches m x y then return none
    else
      match m.chests.find? (·.IsAt x y) with
      | none => return none
      | some chest =>
          let added := p.addedToChest config chest (Int16.ofNat id) (Int32.ofNat amount)
          return added.map fun added =>
            (Int16.ofNat id, added.1,
              FirstMatch.alterFirst (·.IsAt x y) (fun _ => some added.2) m.chests)

def chestAdd (config : ChestConfig) (p : PlayingCharacter) (m : ChestMap) (reader : PacketReader) :
    Option (PlayingCharacter × ChestMap) := do
  match ← p.chestAdded config m reader with
  | none => return (p, m)
  | some (item, amount, chests) =>
      return (p.delItem config.toCarryConfig item amount, { m with chests := chests })

/-- The loop of `Chest_Take`, which goes on after a chest that it takes nothing from. -/
def takeFromChests (config : ChestConfig) (p : PlayingCharacter) (time : ℤ) (x y : ℕ)
    (item : Int16) : List MapChest → Option (Option (Int32 × List MapChest))
  | [] => some none
  | chest :: rest =>
      let later := (takeFromChests config p time x y item rest).map
        (Option.map fun taken => (taken.1, chest :: taken.2))
      if chest.IsAt x y then
        (p.canHoldItem config.toCarryConfig item (chest.hasItem item)).bind fun taken =>
          if 0 < taken then some (some (taken, chest.delSomeItem time item taken :: rest))
          else later
      else later

/-- `Chest_Take` up to `Character::AddItem`. -/
def chestTaken (config : ChestConfig) (p : PlayingCharacter) (m : ChestMap) (time : ℤ)
    (reader : PacketReader) : Option (Option (Int16 × Int32 × List MapChest)) := do
  let (x, reader) ← reader.getChar
  let (y, reader) ← reader.getChar
  let (id, _) ← reader.getShort
  if ¬ p.Reaches m x y then return none
  else
    let taken ← p.takeFromChests config time x y (Int16.ofNat id) m.chests
    return taken.map fun taken => (Int16.ofNat id, taken)

def chestTake (config : ChestConfig) (p : PlayingCharacter) (m : ChestMap) (time : ℤ)
    (reader : PacketReader) : Option (PlayingCharacter × ChestMap) := do
  match ← p.chestTaken config m time reader with
  | none => return (p, m)
  | some (item, taken, chests) =>
      return (p.addItem config.toCarryConfig item taken, { m with chests := chests })

end PlayingCharacter

/-! ## The chests of a map and its players -/

structure ChestRoom where
  players : List PlayingCharacter
  map : ChestMap

inductive ChestStep where
  | add (player : ℕ) (reader : PacketReader)
  | take (player : ℕ) (time : ℤ) (reader : PacketReader)

def ChestRoom.step (config : ChestConfig) (r : ChestRoom) : ChestStep → Option ChestRoom
  | .add i reader => do
      let p ← r.players[i]?
      let (p, m) ← p.chestAdd config r.map reader
      return ⟨r.players.set i p, m⟩
  | .take i time reader => do
      let p ← r.players[i]?
      let (p, m) ← p.chestTake config r.map time reader
      return ⟨r.players.set i p, m⟩

end ArenaServ
