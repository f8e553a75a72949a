import ArenaServ.BankLocker
import ArenaServ.Chests
import ArenaServ.Login

/-!
# Everything else that adds or removes items

The handlers, commands and scripts that change an inventory outside trades, as far as items
go. What does not belong to the character comes in as it is at the time; other fields that
a handler sets are changed by steps of their own.
-/

namespace ArenaServ

structure PlayConfig extends GroundConfig, ChestConfig, BankConfig where
  /-- Which maps exist; the first is map 1. -/
  maps : List Bool
  deadly : Bool
  limitDamage : Bool
  ecfBase : UInt8 → UInt8
  maxShopBuy : Int32
  innSleepCostBase : Int32
  innSleepCostPerHP : Int32
  innSleepCostPerTP : Int32
  jukeboxSongs : Int32
  jukeboxPrice : Int32
  marriagePrice : Int32
  divorcePrice : Int32
  guildPrice : Int32
  guildCreateMembers : Int32
  guildMaxNameLength : Int32
  guildBankMax : Int32
  guildMinDeposit : Int32
  barberBase : Int32
  barberStep : Int32
  maxHairStyle : Int32
  maxHairColor : Int32
  bankUpgradeBase : Int32
  bankUpgradeStep : Int32
  maxBankUpgrades : Int32
  weddingRing : Int32

namespace PlayConfig

def carry (config : PlayConfig) : CarryConfig := config.toCarryConfig

/-- The configuration that the trade handlers read. -/
def trade (config : PlayConfig) : TradeConfig := ⟨config.items, config.jailMap, config.maps⟩

end PlayConfig

namespace PlayingCharacter

variable (config : PlayConfig)

/-! ## Using, junking and equipping -/

def itemJunk (p : PlayingCharacter) (reader : PacketReader) : Option PlayingCharacter := do
  if p.trading then return p
  else
    let (id, reader) ← reader.getShort
    let (amount, _) ← reader.getInt
    let amount := Int32.ofNat amount
    return if 0 < amount ∧ amount ≤ p.hasItem (Int16.ofNat id) false then
      p.delItem config.carry (Int16.ofNat id) amount else p

/-- What a potion restores of one value. -/
def gain (amount current limit : Int16) : Int32 :=
  let gain := amount.toInt32
  let gain := if config.limitDamage then min gain (limit.toInt32 - current.toInt32) else gain
  max gain 0

/-- `Item_Use` gets to `DelItem`. `spawn` is where the character respawns. -/
def UsesUp (p : PlayingCharacter) (info : ItemInfo) (scroll : Bool) (spawn : ℤ × UInt8 × UInt8) :
    Bool :=
  match info.type with
  | .teleport => scroll && !(if info.param = 0 then (p.mapid, p.x, p.y) = spawn
      else p.mapid = info.param.toInt ∧ p.x = info.param2 ∧ p.y = info.param3)
  | .heal => !(gain config info.hp p.hp p.maxhp = 0 ∧ gain config info.tp p.tp p.maxtp = 0)
  | .hairDye => p.haircolor.toUInt32.toInt32 ≠ info.param
  | .beer | .effectPotion | .expReward => true
  | .cureCurse => p.paperdoll.any fun i =>
      (config.items.get i.toUInt32.toNat).any (·.special = .cursed)
  | _ => false

def itemUse (p : PlayingCharacter) (reader : PacketReader) (scroll : Bool)
    (spawn : ℤ × UInt8 × UInt8) : Option PlayingCharacter := do
  if p.trading then return p
  else
    let (id, _) ← reader.getShort
    let info ← config.get id
    return if p.hasItem (Int16.ofNat id) false ≠ 0 ∧ p.UsesUp config info scroll spawn then
      p.delItem config.carry (Int16.ofNat id) 1 else p

/-- The slot of a second ring, armlet or bracer. -/
def secondSlot (slot : ℕ) : Bool := slot = 10 || slot = 12 || slot = 14

def unequip (p : PlayingCharacter) (item : Int16) (subloc : ℕ) : PlayingCharacter :=
  if item = 0 then p
  else
    match (List.range p.paperdoll.length).find? fun i =>
        p.paperdoll[i]? = some item.toInt32 && (secondSlot i).toNat = subloc with
    | none => p
    | some i =>
        calculateStats config.carry
          ({ p with paperdoll := p.paperdoll.set i 0 }.addItem config.carry item 1)

def paperdollRemove (p : PlayingCharacter) (reader : PacketReader) : Option PlayingCharacter := do
  let (itemid, reader) ← reader.getShort
  let (subloc, _) ← reader.getChar
  let data ← config.items.get itemid
  return if data.special = .cursed then p else p.unequip config (Int16.ofNat itemid) subloc

/-- The slots an item can be put into, the second for `subloc` other than 0. -/
def equipSlots : ItemType → Option (ℕ × ℕ)
  | .boots => some (0, 0)
  | .accessory => some (1, 1)
  | .gloves => some (2, 2)
  | .belt => some (3, 3)
  | .armor => some (4, 4)
  | .necklace => some (5, 5)
  | .hat => some (6, 6)
  | .shield => some (7, 7)
  | .weapon => some (8, 8)
  | .ring => some (9, 10)
  | .armlet => some (11, 12)
  | .bracer => some (13, 14)
  | _ => none

/-- A two-handed weapon and a shield that cannot be worn with it. -/
def handsFull (weapon shield : ItemInfo) : Bool :=
  weapon.subtype = .twoHanded &&
    (weapon.param3 ≠ 0 || (shield.subtype ≠ .arrows && shield.subtype ≠ .wings))

/-- What `Equip` requires of a character for an item. -/
def MayEquip (p : PlayingCharacter) (info : ItemInfo) : Bool :=
  let worn (slot : ℕ) : Option ItemInfo :=
    (p.paperdoll[slot]?.filter (· ≠ 0)).bind fun i => config.get i.toUInt32.toNat
  !(info.type = .armor && info.param2 ≠ p.gender) &&
    !(info.type = .weapon && (worn 7).any (handsFull info ·)) &&
    !(info.type = .shield && (worn 8).any (handsFull · info)) &&
    !(p.level.toNat < info.levelreq.toInt || (p.clas.toNat ≠ info.classreq.toInt &&
      (config.ecfBase p.clas).toNat ≠ info.classreq.toInt) || p.display.below info.required)

def equip (p : PlayingCharacter) (item : Int16) (subloc : ℕ) : Option PlayingCharacter := do
  if p.hasItem item false = 0 then return p
  else
    let info ← config.getShort item
    if !p.MayEquip config info then return p
    else
      match equipSlots info.type with
      | none => return p
      | some (slot1, slot2) =>
          let slot := if subloc = 0 then slot1 else slot2
          if p.paperdoll[slot]? ≠ some 0 then return p
          else
            let q := { p with paperdoll := p.paperdoll.set slot item.toInt32 }
            return calculateStats config.carry (q.delItem config.carry item 1)

def paperdollAdd (p : PlayingCharacter) (reader : PacketReader) : Option PlayingCharacter := do
  if p.trading then return p
  else
    let (itemid, reader) ← reader.getShort
    let (subloc, _) ← reader.getChar
    p.equip config (Int16.ofNat itemid) subloc

/-! ## Shops and services -/

/-- One recipe of `Shop_Create`: all ingredients are looked at, then all are taken. -/
def craft (p : PlayingCharacter) (recipe : ShopCraftItem) : PlayingCharacter :=
  if recipe.ingredients.all fun i => i.2.toUInt32.toInt32 ≤ p.hasItem i.1.toInt16 false then
    (recipe.ingredients.foldl (fun p i => p.delItem config.carry i.1.toInt16 i.2.toUInt32.toInt32)
      p).addItem config.carry recipe.id.toInt16 1
  else p

def shopCreate (p : PlayingCharacter) (reader : PacketReader) : Option PlayingCharacter := do
  if p.trading then return p
  else
    let (item, _) ← reader.getShort
    if p.npcType ≠ .shop then return p
    else
      let recipes := p.npc.shopCraft.filter (·.id.toNat = (Int16.ofNat item).toInt)
      return recipes.foldl (fun p recipe => p.craft config recipe) p

def shopBuy (p : PlayingCharacter) (reader : PacketReader) : Option PlayingCharacter := do
  if p.trading then return p
  else
    let (item, reader) ← reader.getShort
    let (amount, _) ← reader.getInt
    let item := Int16.ofNat item
    let amount := Int32.ofNat amount
    if amount ≤ 0 ∨ config.maxShopBuy < amount ∨ p.maxweight ≤ p.weight ∨ p.npcType ≠ .shop then
      return p
    else
      match p.npc.shopTrade.find? fun check => check.id.toNat = item.toInt && check.buy ≠ 0 with
      | none => return p
      | some check =>
          let cost64 := amount.toInt * check.buy.toInt
          let cost := Int32.ofInt cost64
          if cost64 < 0 ∨ config.items.maxItem.toInt < cost64 ∨ p.hasItem 1 false < cost then
            return p
          else return (p.delItem config.carry 1 cost).addItem config.carry item amount

def shopSell (p : PlayingCharacter) (reader : PacketReader) : Option PlayingCharacter := do
  if p.trading then return p
  else
    let (item, reader) ← reader.getShort
    let (amount, _) ← reader.getInt
    let item := Int16.ofNat item
    let amount := Int32.ofNat amount
    if amount ≤ 0 ∨ config.items.maxItem < amount ∨ p.npcType ≠ .shop then return p
    else
      match p.npc.shopTrade.find? fun check => check.id.toNat = item.toInt && check.sell ≠ 0 with
      | none => return p
      | some check =>
          let owed64 := amount.toInt * check.sell.toInt
          if owed64 < 0 ∨ (config.items.maxItem - p.hasItem 1 false).toInt < owed64 ∨
              p.hasItem item false < amount then return p
          else
            return (p.delItem config.carry item amount).addItem config.carry 1 (Int32.ofInt owed64)

/-- `StatSkill_Take`, which does not ask whether the character trades. -/
def statSkillTake (p : PlayingCharacter) (reader : PacketReader) : Option PlayingCharacter := do
  let (_, reader) ← reader.getInt
  let (spell, _) ← reader.getShort
  let spell := Int16.ofNat spell
  if p.spells.contains spell ∨ p.npcType ≠ .skills then return p
  else
    match p.npc.skillLearn.find? (·.id.toNat = spell.toInt) with
    | none => return p
    | some skill =>
        if p.level < skill.levelreq ∨ p.hasItem 1 false < skill.cost ∨
            p.display.below skill.required ∨ (skill.classreq ≠ 0 ∧ p.clas ≠ skill.classreq) ∨
            skill.skillreq.any (fun req => req ≠ 0 && !p.spells.contains req) then return p
        else return p.delItem config.carry 1 skill.cost

/-- What a night at an inn costs, an `unsigned int`. -/
def sleepCost (p : PlayingCharacter) : UInt32 :=
  config.innSleepCostBase.toUInt32 +
    (p.maxhp.toInt32 - p.hp.toInt32).toUInt32 * config.innSleepCostPerHP.toUInt32 +
    (p.maxtp.toInt32 - p.tp.toInt32).toUInt32 * config.innSleepCostPerTP.toUInt32

/-- `Citizen_Accept`, which does not ask whether the character trades. -/
def citizenAccept (p : PlayingCharacter) : PlayingCharacter :=
  if p.npcType = .inn ∧ p.sleepCost config ≤ (p.hasItem 1 false).toUInt32 then
    p.delItem config.carry 1 (p.sleepCost config).toInt32
  else p

/-- `Jukebox_Msg`; `playing` when a song is protected. -/
def jukeboxMsg (p : PlayingCharacter) (reader : PacketReader) (playing : Bool) :
    Option PlayingCharacter := do
  if p.trading then return p
  else
    let (_, reader) ← reader.getChar
    let (_, reader) ← reader.getChar
    let (track, _) ← reader.getShort
    let track := (Int16.ofNat track).toInt32
    return if !p.jukeboxOpen ∨ playing ∨ track < 0 ∨ config.jukeboxSongs < track ∨
      p.hasItem 1 false < config.jukeboxPrice then p
      else p.delItem config.carry 1 config.jukeboxPrice

/-- `Character::ValidName`. -/
def validCharacterName (name : Bytes) : Bool :=
  4 ≤ name.length && name.length ≤ 12 && name.all (fun c => 97 ≤ c && c ≤ 122) &&
    name ≠ [115, 101, 114, 118, 101, 114]

/-- What `Marriage_Request` takes: the price of an approval or a divorce. -/
def marriagePaid (p : PlayingCharacter) (reader : PacketReader) : Option (Option Int32) := do
  let (request, reader) ← reader.getChar
  let (_, reader) ← reader.getInt
  let (_, reader) ← reader.getByte
  let (name, _) ← reader.getEndString
  let name := lowercase name
  if p.npcType ≠ .law then return none
  -- the price stands where `HasItem` takes `include_trade`
  else if request = 1 then
    return if p.partner ≠ [] ∨ p.hasItem 1 (config.marriagePrice ≠ 0) = 0 ∨
      !validCharacterName name then none else some config.marriagePrice
  else if request = 2 then
    return if p.partner = [] ∨ p.hasItem 1 (config.divorcePrice ≠ 0) = 0 ∨ p.partner ≠ name then
      none else some config.divorcePrice
  else return none

def marriageRequest (p : PlayingCharacter) (reader : PacketReader) : Option PlayingCharacter := do
  match ← p.marriagePaid config reader with
  | none => return p
  | some price => return p.delItem config.carry 1 price

/-- `Guild_Create`, which does not ask whether the character trades; `members` is how many
have joined the creation under that tag, if it is led by the character. -/
def guildCreate (p : PlayingCharacter) (reader : PacketReader) (members : Option ℕ)
    (validDescription : Bytes → Bool) : Option PlayingCharacter := do
  let (_, reader) ← reader.getInt
  let (_, reader) ← reader.getByte
  let (tag, reader) ← reader.getBreakString 0xFF
  let (name, reader) ← reader.getBreakString 0xFF
  let (description, _) ← reader.getBreakString 0xFF
  return if 3 < tag.length ∨ config.guildMaxNameLength.toInt64.toUInt64.toNat < name.length ∨
      !validDescription description ∨ p.npcType ≠ .guild ∨ p.hasGuild ∨
      p.hasItem 1 false < config.guildPrice ∨
      !members.any (config.guildCreateMembers.toInt64.toUInt64.toNat ≤ ·) then p
    else p.delItem config.carry 1 config.guildPrice

/-- `Guild_Buy`, with what the guild has in its bank. -/
def guildBuy (p : PlayingCharacter) (reader : PacketReader) (bank : Int32) :
    Option PlayingCharacter := do
  if p.trading then return p
  else if !p.canInteractItems then return p
  else
    let (_, reader) ← reader.getInt
    let (gold, _) ← reader.getInt
    let gold := Int32.ofNat gold
    let maxDeposit := config.guildBankMax - bank
    let paid := min gold maxDeposit
    return if gold < 0 ∨ p.npcType ≠ .guild ∨ !p.hasGuild ∨ maxDeposit ≤ 0 ∨
      paid < config.guildMinDeposit ∨ p.hasItem 1 false < paid then p
      else p.delItem config.carry 1 paid

def barberBuy (p : PlayingCharacter) (reader : PacketReader) : Option PlayingCharacter := do
  if p.trading then return p
  else
    let (style, reader) ← reader.getChar
    let (color, _) ← reader.getChar
    let price := config.barberBase + max 1 p.level.toUInt32.toInt32 * config.barberStep
    return if config.maxHairStyle.toInt < style ∨ config.maxHairColor.toInt < color ∨
      p.hasItem 1 false < price ∨ p.npcType ≠ .barber then p
      else p.delItem config.carry 1 price

def lockerBuy (p : PlayingCharacter) : PlayingCharacter :=
  let cost := config.bankUpgradeBase + p.bankmax * config.bankUpgradeStep
  if p.trading then p
  else if p.npcType ≠ .bank ∨ config.maxBankUpgrades ≤ p.bankmax ∨ p.hasItem 1 false < cost then p
  else { p with bankmax := p.bankmax + 1 }.delItem config.carry 1 cost

/-! ## Commands, scripts and death -/

/-- The command `DropItem`. -/
def commandDropItem (p : PlayingCharacter) (id : Int16) (amount : Int32) : PlayingCharacter :=
  if p.trading then p
  else if 0 < amount ∧ amount ≤ p.hasItem id false then p.delItem config.carry id amount
  else p

/-- The first loop of `DropAll`. -/
def dropInventory (p : PlayingCharacter) : PlayingCharacter :=
  calculateStats config.carry { p with
    inventory := p.inventory.filter fun it =>
      (config.items.get it.id.toInt32.toUInt32.toNat).any (·.special = .lore) }

/-- One round of the second loop of `DropAll`. -/
def dropEquipped (p : PlayingCharacter) (slot : ℕ) : PlayingCharacter :=
  let id := (p.paperdoll[slot]?).getD 0
  if id = 0 ∨ (config.items.get id.toUInt32.toNat).any
      (fun data => data.special = .lore ∨ data.special = .cursed) then p
  else (p.unequip config id.toInt16 (secondSlot slot).toNat).delItem config.carry id.toInt16 1

def dropAll (p : PlayingCharacter) : PlayingCharacter :=
  if !p.canInteractItems then p
  else (List.range p.paperdoll.length).foldl (fun p slot => p.dropEquipped config slot)
    (p.dropInventory config)

end PlayingCharacter

end ArenaServ
