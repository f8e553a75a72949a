import ArenaServ.GroundConservation
import ArenaServ.ItemHandlers
import ArenaServ.TradeConservation

/-!
# Trades among everything else

The world of the trades together with what else characters have. Between two trade steps
any character may act, die, or change in other ways; quests add and remove items in steps
of their own.
-/

namespace ArenaServ

/-- What changes the items of one character. -/
inductive Act where
  | itemDrop (m : GroundMap) (time : ℤ) (reader : PacketReader)
  | itemGet (m : GroundMap) (time : ℤ) (reader : PacketReader)
  | itemJunk (reader : PacketReader)
  | itemUse (reader : PacketReader) (scroll : Bool) (spawn : ℤ × UInt8 × UInt8)
  | chestAdd (m : ChestMap) (reader : PacketReader)
  | chestTake (m : ChestMap) (time : ℤ) (reader : PacketReader)
  | bank (m : MapTiles) (s : BankStep)
  | lockerBuy
  | shopCreate (reader : PacketReader)
  | shopBuy (reader : PacketReader)
  | shopSell (reader : PacketReader)
  | statSkillTake (reader : PacketReader)
  | citizenAccept
  | jukeboxMsg (reader : PacketReader) (playing : Bool)
  | marriageRequest (reader : PacketReader)
  | guildCreate (reader : PacketReader) (members : Option ℕ) (validDescription : Bytes → Bool)
  | guildBuy (reader : PacketReader) (bank : Int32)
  | barberBuy (reader : PacketReader)
  | paperdollAdd (reader : PacketReader)
  | paperdollRemove (reader : PacketReader)
  | spawnItem (id : Int16) (amount : Int32)
  | commandDropItem (id : Int16) (amount : Int32)
  | weddingRing
  | questGiveItem (id : Int16) (amount : Int32)
  | questRemoveItem (id : Int16) (amount : Int32)

def PlayingCharacter.act (config : PlayConfig) (p : PlayingCharacter) :
    Act → Option PlayingCharacter
  | .itemDrop m time reader => (p.itemDrop config.toGroundConfig m time reader).map (·.1)
  | .itemGet m time reader => (p.itemGet config.toGroundConfig m time reader).map (·.1)
  | .itemJunk reader => p.itemJunk config reader
  | .itemUse reader scroll spawn => p.itemUse config reader scroll spawn
  | .chestAdd m reader => (p.chestAdd config.toChestConfig m reader).map (·.1)
  | .chestTake m time reader => (p.chestTake config.toChestConfig m time reader).map (·.1)
  | .bank m s => p.bankStep config.toBankConfig m s
  | .lockerBuy => some (p.lockerBuy config)
  | .shopCreate reader => p.shopCreate config reader
  | .shopBuy reader => p.shopBuy config reader
  | .shopSell reader => p.shopSell config reader
  | .statSkillTake reader => p.statSkillTake config reader
  | .citizenAccept => some (p.citizenAccept config)
  | .jukeboxMsg reader playing => p.jukeboxMsg config reader playing
  | .marriageRequest reader => p.marriageRequest config reader
  | .guildCreate reader members validDescription =>
      p.guildCreate config reader members validDescription
  | .guildBuy reader bank => p.guildBuy config reader bank
  | .barberBuy reader => p.barberBuy config reader
  | .paperdollAdd reader => p.paperdollAdd config reader
  | .paperdollRemove reader => p.paperdollRemove config reader
  | .spawnItem id amount => some (p.addItem config.carry id amount)
  | .commandDropItem id amount => some (p.commandDropItem config id amount)
  | .weddingRing => some (if config.weddingRing.toInt16 = 0 then p
      else p.addItem config.carry config.weddingRing.toInt16 1)
  | .questGiveItem id amount => some (p.addItem config.carry id amount)
  | .questRemoveItem id amount => some (p.delItem config.carry id amount)

structure PlayWorld where
  trade : World
  rest : Addr → CharacterRest

inductive PlayStep where
  | trade (t : TradeStep)
  | act (c : Addr) (a : Act)
  /-- `DeathRespawn`, with the map the character respawns on. -/
  | death (c : Addr) (spawnMap : ℕ)
  /-- Something else about a character changes. -/
  | become (c : Addr) (canInteractItems : Bool) (rest : CharacterRest)

namespace PlayWorld

def player (w : PlayWorld) (c : Addr) : Option PlayingCharacter :=
  (w.trade.characters c).map fun x => ⟨x, w.rest c⟩

def put (w : PlayWorld) (c : Addr) (p : PlayingCharacter) : PlayWorld :=
  ⟨w.trade.modify c fun _ => p.toCharacter, Function.update w.rest c p.toCharacterRest⟩

/-- `World::GetMap`: map 1 stands in for a map that does not exist. -/
def getMap (config : PlayConfig) (id : ℕ) : Option ℕ :=
  if 1 ≤ id ∧ id ≤ config.maps.length then some id
  else if config.maps = [] then none
  else some 1

/-- The part of `DeathRespawn` that concerns maps and items; it leaves a trade open. -/
def deathRespawn (config : PlayConfig) (w : PlayWorld) (c : Addr) (spawnMap : ℕ) :
    Option PlayWorld := do
  let p ← w.player c
  let m ← p.map
  let m' ← getMap config spawnMap
  let p := if config.deadly then p.dropAll config else p
  let w := w.put c { p with map := some m', mapid := spawnMap }
  return { w with trade := w.trade.leaveMap m c }

def step (config : PlayConfig) (w : PlayWorld) : PlayStep → Option PlayWorld
  | .trade t => (w.trade.step noQuests config.trade t).map fun trade => { w with trade := trade }
  | .act c a => do
      let p ← w.player c
      let p ← p.act config a
      return w.put c p
  | .death c spawnMap => w.deathRespawn config c spawnMap
  | .become c canInteractItems rest => do
      let p ← w.player c
      return w.put c ⟨{ p.toCharacter with canInteractItems := canInteractItems }, rest⟩

def empty (rest : Addr → CharacterRest) : PlayWorld := ⟨World.empty, rest⟩

end PlayWorld

/-! ## A small fair -/

theorem square_maxItem_nonneg : 0 ≤ Ground.square.items.maxItem :=
  Int32.le_iff_toInt_le.mpr (Int.natCast_nonneg _)

theorem two_hundred_nonneg : (0 : Int32) ≤ 200 := Int32.le_iff_toInt_le.mpr (Int.natCast_nonneg _)

/-- A map where the dying drop what they have, with a lawyer on it. -/
def fair : PlayConfig where
  toGroundConfig := Ground.square
  maxChest := 10
  maxBankGold := 1000
  baseBankSize := 20
  bankSizeStep := 5
  maxBank := 200
  maxItem_nonneg := square_maxItem_nonneg
  maxBank_nonneg := two_hundred_nonneg
  maps := [true]
  deadly := true
  limitDamage := false
  ecfBase := id
  maxShopBuy := 4
  innSleepCostBase := 1
  innSleepCostPerHP := 1
  innSleepCostPerTP := 1
  jukeboxSongs := 20
  jukeboxPrice := 25
  marriagePrice := 6
  divorcePrice := 10
  guildPrice := 50
  guildCreateMembers := 9
  guildMaxNameLength := 24
  guildBankMax := 100
  guildMinDeposit := 1
  barberBase := 1
  barberStep := 2
  maxHairStyle := 20
  maxHairColor := 9
  bankUpgradeBase := 10
  bankUpgradeStep := 10
  maxBankUpgrades := 7
  weddingRing := 0

/-- Everybody has talked to the lawyer. -/
def atLawyer (_ : Addr) : CharacterRest :=
  { (Ground.walker 0 []).toCharacterRest with npcType := .law }

end ArenaServ
