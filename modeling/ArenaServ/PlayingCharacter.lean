import ArenaServ.Trade

/-!
# Playing characters

What the item handlers read of a character besides its trade: where it stands, what it
carries, its bank and its equipment. Adding and deleting items recalculates the weight.
-/

namespace ArenaServ

/-- `EIF::Type`. -/
inductive ItemType where
  | «static» | unknownType1 | money | heal | teleport | spell | expReward | statReward
  | skillReward | key | weapon | shield | armor | hat | boots | gloves | accessory | belt
  | necklace | ring | armlet | bracer | beer | effectPotion | hairDye | cureCurse
  deriving DecidableEq, Repr

/-- `EIF::SubType`. -/
inductive ItemSubType where
  | none | ranged | arrows | wings | twoHanded
  deriving DecidableEq, Repr

/-- The six attributes, those of a character or those that something requires. -/
structure Attributes where
  str : Int16
  intl : Int16
  wis : Int16
  agi : Int16
  con : Int16
  cha : Int16
  deriving DecidableEq, Repr

/-- Some attribute is below what is required. -/
def Attributes.below (x req : Attributes) : Bool :=
  x.str < req.str || x.intl < req.intl || x.wis < req.wis || x.agi < req.agi ||
    x.con < req.con || x.cha < req.cha

/-- What else an entry of the item file says; `special` is in `EIFData`. The `int` of the
first union is `param`, the bytes of the others are `param2` and `param3`. -/
structure ItemInfo where
  id : ℕ
  type : ItemType
  subtype : ItemSubType
  weight : UInt8
  hp : Int16
  tp : Int16
  param : Int32
  param2 : UInt8
  param3 : UInt8
  levelreq : Int16
  classreq : Int16
  required : Attributes
  deriving DecidableEq, Repr

/-- `ENF::Type`. -/
inductive NpcType where
  | npc | passive | aggressive | unknown1 | unknown2 | unknown3 | shop | inn | unknown4 | bank
  | barber | guild | priest | law | skills | quest
  deriving DecidableEq, Repr

/-- `NPC_Shop_Trade_Item`. -/
structure ShopTradeItem where
  id : UInt16
  buy : Int32
  sell : Int32
  deriving DecidableEq, Repr

/-- `NPC_Shop_Craft_Item`, its ingredients as ids and amounts. -/
structure ShopCraftItem where
  id : UInt16
  ingredients : List (UInt16 × UInt8)
  deriving DecidableEq, Repr

/-- `NPC_Learn_Skill`. -/
structure LearnSkill where
  id : UInt16
  cost : Int32
  levelreq : UInt8
  classreq : UInt8
  skillreq : List Int16
  required : Attributes
  deriving DecidableEq, Repr

/-- `NPC_Data`, of the NPC a character has talked to last. -/
structure NpcData where
  shopTrade : List ShopTradeItem
  shopCraft : List ShopCraftItem
  skillLearn : List LearnSkill
  deriving DecidableEq, Repr

/-- A character without its trade fields. -/
structure CharacterRest where
  x : UInt8
  y : UInt8
  admin : Int32
  level : UInt8
  clas : UInt8
  gender : UInt8
  haircolor : UInt8
  hp : Int16
  tp : Int16
  maxhp : Int16
  maxtp : Int16
  display : Attributes
  weight : Int16
  maxweight : Int16
  paperdoll : List Int32
  spells : List Int16
  npcType : NpcType
  npc : NpcData
  jukeboxOpen : Bool
  hasGuild : Bool
  fiance : Bytes
  partner : Bytes
  goldbank : Int32
  bankmax : Int32
  bank : List CharacterItem
  deriving DecidableEq, Repr

structure PlayingCharacter extends Character, CharacterRest
  deriving DecidableEq, Repr

/-- The item file and what bounds the weight a character carries. The formula for the
maximum is evaluated in floating point; it is a parameter. -/
structure CarryConfig where
  items : ItemRules
  info : List ItemInfo
  info_length : info.length = items.eif.length
  enforceWeight : Int32
  unlimitedweight : Int32
  weightFormula : PlayingCharacter → Int16

namespace CarryConfig

/-- `EIF::Get`. -/
def get (config : CarryConfig) (id : ℕ) : Option ItemInfo := config.info[id]?.or config.info[0]?

/-- `EIF::Get` of a `short`, which becomes an `unsigned int`. -/
def getShort (config : CarryConfig) (id : Int16) : Option ItemInfo :=
  config.get id.toInt32.toUInt32.toNat

def weightOf (config : CarryConfig) (id : ℕ) : Int32 :=
  ((config.get id).map (·.weight.toUInt32.toInt32)).getD 0

end CarryConfig

namespace PlayingCharacter

variable (config : CarryConfig)

/-- The first loop of `CalculateStats`, which stops at 250. -/
def weigh : List CharacterItem → Int16 → Int16
  | [], weight => weight
  | it :: rest, weight =>
      let weight := (weight.toInt32 +
        config.weightOf it.id.toInt32.toUInt32.toNat * it.amount).toInt16
      if 250 ≤ weight then weight else weigh rest weight

/-- The second loop. -/
def weighPaperdoll (paperdoll : List Int32) (weight : Int16) : Int16 :=
  paperdoll.foldl (fun weight i =>
    if i = 0 then weight else (weight.toInt32 + config.weightOf i.toUInt32.toNat).toInt16) weight

/-- The weights as the end of `CalculateStats` leaves them. -/
def newWeights (p : PlayingCharacter) : Int16 × Int16 :=
  let weight := weighPaperdoll config p.paperdoll (weigh config p.inventory 0)
  let weight := if weight < 0 ∨ 250 < weight then 250 else weight
  let maxweight := config.weightFormula { p with weight := weight, maxweight := 70 }
  if config.unlimitedweight ≤ p.admin then (0, 251)
  else (weight, if maxweight < 70 ∨ 250 < maxweight then 250 else maxweight)

/-- The part of `CalculateStats` that concerns weights. -/
def calculateStats (p : PlayingCharacter) : PlayingCharacter :=
  { p with weight := (newWeights config p).1, maxweight := (newWeights config p).2 }

/-- `HasItem`. -/
def hasItem (p : PlayingCharacter) (item : Int16) (includeTrade : Bool) : Int32 :=
  Inventory.hasItem p.inventory p.trading p.tradeInventory item includeTrade

/-- `AddItem`; nothing happens when it returns false. -/
def addItem (p : PlayingCharacter) (item : Int16) (amount : Int32) : PlayingCharacter :=
  match Inventory.addItem config.items p.inventory item amount with
  | none => p
  | some inventory => calculateStats config { p with inventory := inventory }

/-- `DelItem`; nothing happens when it returns false. -/
def delItem (p : PlayingCharacter) (item : Int16) (amount : Int32) : PlayingCharacter :=
  match Inventory.delItem p.inventory item amount with
  | none => p
  | some inventory => calculateStats config { p with inventory := inventory }

/-- How much of an item `CanHoldItem` finds the weight to allow. -/
def weightAllows (p : PlayingCharacter) (itemid : Int16) (maxAmount : Int32) : Option Int32 :=
  if 2 ≤ config.enforceWeight ∧ p.admin < config.unlimitedweight then
    (config.getShort itemid).map fun item =>
      if p.maxweight < p.weight then 0
      else if item.id = 0 ∨ item.weight = 0 then maxAmount
      else min ((p.maxweight.toInt32 - p.weight.toInt32) / item.weight.toUInt32.toInt32) maxAmount
  else some maxAmount

def canHoldItem (p : PlayingCharacter) (itemid : Int16) (maxAmount : Int32) : Option Int32 :=
  (p.weightAllows config itemid maxAmount).map fun amount => min amount config.items.maxItem

/-! ## What these change -/

variable {config} {p : PlayingCharacter} {item other : Int16} {amount : Int32}

theorem addItem_inventory : (p.addItem config item amount).inventory =
    (Inventory.addItem config.items p.inventory item amount).getD p.inventory := by
  unfold addItem
  cases Inventory.addItem config.items p.inventory item amount with
  | none => rfl
  | some inventory => rfl

theorem delItem_inventory : (p.delItem config item amount).inventory =
    (Inventory.delItem p.inventory item amount).getD p.inventory := by
  unfold delItem
  cases Inventory.delItem p.inventory item amount with
  | none => rfl
  | some inventory => rfl

/-- There is room for an addition: the id is valid, and the stack it goes to, if there is
one, neither overflows nor passes `MaxItem`. -/
def HasRoom (config : CarryConfig) (p : PlayingCharacter) (item : Int16) (amount : Int32) : Prop :=
  config.items.ValidId item ∧ Inventory.FitsIn config.items p.inventory ⟨item, amount⟩

instance (config : CarryConfig) (p : PlayingCharacter) (item : Int16) (amount : Int32) :
    Decidable (HasRoom config p item amount) :=
  inferInstanceAs (Decidable (_ ∧ _))

/-- The amount held of an item. -/
def total (p : PlayingCharacter) (item : Int16) : ℤ := Inventory.total p.inventory item

theorem total_addItem_of_ne (hne : item ≠ other) :
    (p.addItem config item amount).total other = p.total other := by
  rw [total, total, addItem_inventory, Inventory.addItem]
  by_cases ha : amount ≤ 0
  · rw [if_pos ha, Option.getD_none]
  · by_cases hvalid : config.items.ValidId item
    · rw [if_neg ha, if_neg (not_not.mpr hvalid), Inventory.total,
        Inventory.held_addStack_of_ne _ hne, Inventory.total]
    · rw [if_neg ha, if_pos hvalid, Option.getD_none]

theorem total_delItem_of_ne (hne : item ≠ other) :
    (p.delItem config item amount).total other = p.total other := by
  rw [total, total, delItem_inventory, Inventory.delItem]
  by_cases ha : amount ≤ 0
  · rw [if_pos ha, Option.getD_none]
  · rw [if_neg ha, Inventory.total, Inventory.held_delStack_of_ne hne, Inventory.total]

theorem not_le_zero (ha : 0 < amount.toInt) : ¬ amount ≤ 0 := by
  rw [Int32.le_iff_toInt_le, Int32.toInt_zero]
  omega

/-- All of an addition arrives exactly when there is room. -/
theorem total_addItem_iff (ha : 0 < amount.toInt) :
    (p.addItem config item amount).total item = p.total item + amount.toInt ↔
      p.HasRoom config item amount := by
  rw [total, total, addItem_inventory, Inventory.addItem, if_neg (not_le_zero ha), HasRoom]
  by_cases hvalid : config.items.ValidId item
  · have hall := (Inventory.sum_addHeld config.items.maxItem ha
      (Inventory.held p.inventory item)).2
    rw [if_neg (not_not.mpr hvalid), Inventory.total, Inventory.held_addStack,
      Inventory.fitsIn_iff, Inventory.total, hall]
    exact (and_iff_right hvalid).symm
  · rw [if_pos hvalid, Option.getD_none]
    constructor
    · intro h
      omega
    · intro h
      exact absurd h.1 hvalid

/-- What the first stack covers is deleted whole. -/
theorem total_delItem (ha : 0 < amount.toInt)
    (hcov : Inventory.Covers (Inventory.held p.inventory item) amount) :
    (p.delItem config item amount).total item = p.total item - amount.toInt := by
  rw [total, delItem_inventory, Inventory.delItem, if_neg (not_le_zero ha), Inventory.total,
    Inventory.held_delStack, Inventory.sum_delHeld ha hcov]
  rfl

/-- The weight allows at most the amount asked for, or nothing. -/
theorem weightAllows_le {n : Int32} (h : p.weightAllows config item amount = some n) :
    n.toInt ≤ amount.toInt ∨ n.toInt = 0 := by
  rw [weightAllows] at h
  by_cases henforce : 2 ≤ config.enforceWeight ∧ p.admin < config.unlimitedweight
  · rw [if_pos henforce, Option.map_eq_some_iff] at h
    obtain ⟨info, -, rfl⟩ := h
    split_ifs
    · exact Or.inr Int32.toInt_zero
    · exact Or.inl le_rfl
    · rw [Inventory.toInt_min]
      omega
  · rw [if_neg henforce, Option.some.injEq] at h
    rw [h]
    exact Or.inl le_rfl

theorem canHoldItem_le {taken : Int32} (h : p.canHoldItem config item amount = some taken)
    (htaken : 0 < taken.toInt) : taken.toInt ≤ amount.toInt := by
  rw [canHoldItem, Option.map_eq_some_iff] at h
  obtain ⟨n, hn, rfl⟩ := h
  have hle := weightAllows_le hn
  rw [Inventory.toInt_min] at htaken ⊢
  omega

/-- What a character who does not trade has at least as much of is in the first stack. -/
theorem covers_of_le_hasItem (htrading : p.trading = false) (ha : 0 < amount.toInt)
    (hle : amount ≤ p.hasItem item false) :
    Inventory.Covers (Inventory.held p.inventory item) amount := by
  rw [hasItem, Inventory.hasItem, htrading] at hle
  cases hstack : Inventory.stack p.inventory item with
  | none =>
      rw [hstack, Int32.le_iff_toInt_le, Int32.toInt_zero] at hle
      omega
  | some it =>
      rw [hstack] at hle
      exact Inventory.covers_of_stack hstack (by simpa using hle)

end PlayingCharacter

end ArenaServ
