import ArenaServ.PacketStream
import ArenaServ.TradeOffer

/-!
# Trading between characters

Characters refer to each other by address, as the source does; `none` is an access
through a null or dangling pointer, or an exception. Quests run in the middle of many
operations: `CheckQuestRules` is a parameter here that may change the world.
-/

namespace ArenaServ
open PacketProcessor

abbrev Addr := ℕ

structure Character where
  playerId : UInt32
  sourceName : Bytes
  online : Bool
  canInteractItems : Bool
  map : Option ℕ
  mapid : ℤ
  inventory : List CharacterItem
  trading : Bool
  tradePartner : Option Addr
  tradeAgree : Bool
  tradeInventory : List CharacterItem
  deriving DecidableEq, Repr

namespace Character

def stopTrading (x : Character) : Character := { x with trading := false, tradeInventory := [] }

def disagree (x : Character) : Character := { x with tradeAgree := false }

def forgetPartner (x : Character) : Character := { x with tradePartner := none }

end Character

/-- What the handlers do to clients, in order. -/
inductive Effect where
  | send (character : Addr) (packet : PacketBuilder)
  | emoteTrade (character : Addr)
  | setPlaying (character : Addr)
  deriving DecidableEq, Repr

/-- The live characters, the characters on each map, the effects so far, and how often
quest rules have been checked. -/
structure World where
  characters : Addr → Option Character
  mapCharacters : ℕ → List Addr
  outbox : List Effect
  questChecks : ℕ

structure TradeConfig where
  items : ItemRules
  jailMap : ℤ
  /-- Which maps exist; the first is map 1. -/
  maps : List Bool

abbrev QuestRules := Addr → World → Option World

namespace World

def empty : World := ⟨fun _ => none, fun _ => [], [], 0⟩

def modify (w : World) (c : Addr) (f : Character → Character) : World :=
  { w with characters := fun b => if b = c then (w.characters b).map f else w.characters b }

def effect (w : World) (e : Effect) : World := { w with outbox := w.outbox ++ [e] }

def send (w : World) (c : Addr) (packet : PacketBuilder) : World := w.effect (.send c packet)

/-- `character->trade_partner`, to be dereferenced. -/
def partner (w : World) (c : Addr) : Option (Addr × Character) := do
  let x ← w.characters c
  let p ← x.tradePartner
  let y ← w.characters p
  return (p, y)

/-- `Map::GetCharacterPID`. -/
def getCharacterPID (w : World) (id : ℕ) : List Addr → Option (Option Addr)
  | [] => some none
  | c :: rest => do
      let x ← w.characters c
      if x.playerId.toNat = id then return some c else w.getCharacterPID id rest

def leaveMap (w : World) (m : ℕ) (c : Addr) : World :=
  { w with mapCharacters := fun n =>
      if n = m then (w.mapCharacters n).filter (· ≠ c) else w.mapCharacters n }

/-- `Map::Leave`, unless there is no such map. -/
def leaveMapOf (w : World) (config : TradeConfig) (map : Option ℕ) (c : Addr) : World :=
  match map with
  | some m => if config.maps[m - 1]? = some true then w.leaveMap m c else w
  | none => w

def enterMap (w : World) (m : ℕ) (c : Addr) : World :=
  { w with mapCharacters := fun n =>
      if n = m then w.mapCharacters n ++ [c] else w.mapCharacters n }

/-! ## Items -/

section Items
variable (quests : QuestRules)

/-- `AddItem`, which recalculates the stats and with them checks the quests. -/
def addItem (rules : ItemRules) (w : World) (c : Addr) (item : Int16) (amount : Int32) :
    Option World := do
  let x ← w.characters c
  match Inventory.addItem rules x.inventory item amount with
  | none => return w
  | some inventory => quests c (w.modify c fun x => { x with inventory := inventory })

def delItem (w : World) (c : Addr) (item : Int16) (amount : Int32) : Option World := do
  let x ← w.characters c
  match Inventory.delItem x.inventory item amount with
  | none => return w
  | some inventory => quests c (w.modify c fun x => { x with inventory := inventory })

/-- The first loop of a completed trade: the partner's offer comes over. -/
def takeOffer (rules : ItemRules) (c : Addr) : List CharacterItem → World → Option World
  | [], w => some w
  | t :: rest, w => do
      let (p, _) ← w.partner c
      let w ← w.delItem quests p t.id t.amount
      let w ← w.addItem quests rules c t.id t.amount
      takeOffer rules c rest w

/-- The second loop: the own offer goes over. -/
def giveOffer (rules : ItemRules) (c : Addr) : List CharacterItem → World → Option World
  | [], w => some w
  | t :: rest, w => do
      let w ← w.delItem quests c t.id t.amount
      let (p, _) ← w.partner c
      let w ← w.addItem quests rules p t.id t.amount
      giveOffer rules c rest w

end Items

/-! ## The trade handlers -/

/-- A character's id and a list of items, as all trade packets have them. -/
def addOffer (b : PacketBuilder) (x : Character) (offer : List CharacterItem) : PacketBuilder :=
  let b := b.addShort x.playerId.toUInt16
  let b := offer.foldl (fun b t => (b.addShort t.id.toUInt16).addInt t.amount.toUInt32) b
  b.addByte 255

def tradeRequest (config : TradeConfig) (w : World) (c : Addr) (reader : PacketReader) :
    Option World := do
  let x ← w.characters c
  if x.trading then return w
  else if !x.canInteractItems then return w
  else if x.mapid = config.jailMap then return w
  else
    let (something, reader) ← reader.getChar
    let (victimid, _) ← reader.getShort
    let m ← x.map
    match ← w.getCharacterPID victimid (w.mapCharacters m) with
    | none => return w
    | some v =>
        if v = c then return w
        else
          let y ← w.characters v
          if !y.trading && y.canInteractItems then
            let b := PacketBuilder.new .trade .request
            let b := ((b.addChar (UInt8.ofNat something)).addShort x.playerId.toUInt16).addString
              x.sourceName
            return (w.send v b).modify c fun x => { x with tradePartner := some v }
          else return w

/-- The packet that opens the trade window, the other side first. -/
def openPacket (other self : Character) : PacketBuilder :=
  let b := (PacketBuilder.new .trade .open).addShort other.playerId.toUInt16
  let b := (b.addBreakString other.sourceName 0xFF).addShort self.playerId.toUInt16
  b.addBreakString self.sourceName 0xFF

def tradeAccept (config : TradeConfig) (w : World) (c : Addr) (reader : PacketReader) :
    Option World := do
  let x ← w.characters c
  if x.trading then return w
  else if !x.canInteractItems then return w
  else if x.mapid = config.jailMap then return w
  else
    let (_, reader) ← reader.getChar
    let (victimid, _) ← reader.getShort
    let m ← x.map
    match ← w.getCharacterPID victimid (w.mapCharacters m) with
    | none => return w
    | some v =>
        let y ← w.characters v
        if y.mapid = x.mapid ∧ y.tradePartner = some c ∧ !y.trading ∧ y.canInteractItems then
          let w := (w.send c (openPacket y x)).send v (openPacket x y)
          let w := w.modify c fun x =>
            { x with tradePartner := some v, trading := true, tradeAgree := false }
          return w.modify v fun y => { y with trading := true, tradeAgree := false }
        else return w

/-- The end of `Trade_Add` and `Trade_Remove`: both sides see both offers, and nobody
agrees any more. -/
def offerChanged (w : World) (c : Addr) : Option World := do
  let x ← w.characters c
  let (p, y) ← w.partner c
  let b := addOffer (addOffer (PacketBuilder.new .trade .reply) x x.tradeInventory) y
    y.tradeInventory
  let w := w.send c (b.setID (pid .trade (if x.tradeAgree then .admin else .reply)))
  let w := w.send p (b.setID (pid .trade (if y.tradeAgree then .admin else .reply)))
  return (w.modify c Character.disagree).modify p Character.disagree

def tradeRemove (quests : QuestRules) (w : World) (c : Addr) (reader : PacketReader) :
    Option World := do
  let x ← w.characters c
  if !x.trading then return w
  else
    let (itemid, _) ← reader.getShort
    if x.tradeInventory.length > 5 then return w
    else
      match Inventory.delTradeItem x.tradeInventory (Int16.ofNat itemid) with
      | none => return w
      | some offer =>
          let w ← quests c (w.modify c fun x => { x with tradeInventory := offer })
          w.offerChanged c

def tradeAdd (quests : QuestRules) (rules : ItemRules) (w : World) (c : Addr)
    (reader : PacketReader) : Option World := do
  let x ← w.characters c
  if !x.trading then return w
  else
    let (itemid, reader) ← reader.getShort
    let (amount, _) ← reader.getInt
    let data ← rules.get itemid
    if data.special = .lore then return w
    else if !x.tradeInventory.any (·.id.toInt = itemid) && x.tradeInventory.length ≥ 10 then
      return w
    else
      match Inventory.addTradeItem rules x.inventory x.trading x.tradeInventory
        (Int16.ofNat itemid) (Int32.ofNat amount) with
      | none => return w
      | some (offer, pushed) =>
          let w := w.modify c fun x => { x with tradeInventory := offer }
          let w ← if pushed then quests c w else some w
          w.offerChanged c

/-- Tell both sides that `c` agrees or does not. -/
def agreeReply (w : World) (c : Addr) (agree : ℕ) : Option World := do
  let (p, y) ← w.partner c
  let w := w.send c ((PacketBuilder.new .trade .spec).addChar (UInt8.ofNat agree))
  return w.send p (((PacketBuilder.new .trade .agree).addShort y.playerId.toUInt16).addChar
    (UInt8.ofNat agree))

/-- The branch of `Trade_Agree` where both sides agree. -/
def completeTrade (quests : QuestRules) (rules : ItemRules) (w : World) (c : Addr) :
    Option World := do
  let (_, y) ← w.partner c
  let b := addOffer (PacketBuilder.new .trade .use) y y.tradeInventory
  let w ← takeOffer quests rules c y.tradeInventory w
  let x ← w.characters c
  let b := addOffer b x x.tradeInventory
  let w ← giveOffer quests rules c x.tradeInventory w
  let (p, _) ← w.partner c
  let w := (((w.send c b).send p b).effect (.emoteTrade c)).effect (.emoteTrade p)
  let w := w.modify c fun x => x.stopTrading.disagree
  let w ← quests c w
  let (p, _) ← w.partner c
  let w ← quests p w
  let (p, _) ← w.partner c
  let w := (w.modify p Character.stopTrading).modify c Character.disagree
  return (w.modify p Character.forgetPartner).modify c Character.forgetPartner

def tradeAgree (quests : QuestRules) (rules : ItemRules) (w : World) (c : Addr)
    (reader : PacketReader) : Option World := do
  let x ← w.characters c
  if !x.trading then return w
  else
    let (agree, _) ← reader.getChar
    let w := w.modify c fun x => { x with tradeAgree := agree ≠ 0 }
    if agree ≠ 0 then
      if x.tradeInventory = [] then return w
      else
        let (_, y) ← w.partner c
        if y.tradeAgree then w.completeTrade quests rules c else w.agreeReply c agree
    else w.agreeReply c agree

/-- Ending a trade without an exchange: the same lines in `Trade_Close`, `Warp`, `Logout`
and `walk_common`. The own flag is cleared twice, the partner's not at all. -/
def stopTrade (quests : QuestRules) (w : World) (c : Addr) : Option World := do
  let x ← w.characters c
  let (p, _) ← w.partner c
  let w := w.send p ((PacketBuilder.new .trade .close).addShort x.playerId.toUInt16)
  let w := w.modify c fun x => x.stopTrading.disagree
  let w := (w.modify p Character.stopTrading).modify c Character.disagree
  let w ← quests c w
  let (p, _) ← w.partner c
  let w ← quests p w
  let (p, _) ← w.partner c
  return (w.modify p Character.forgetPartner).modify c Character.forgetPartner

def tradeClose (quests : QuestRules) (w : World) (c : Addr) (reader : PacketReader) :
    Option World := do
  let x ← w.characters c
  if !x.trading then return w
  else
    let _ ← reader.getChar
    w.stopTrade quests c

/-! ## Other ways out of a trade -/

/-- The part of `walk_common` before the step. -/
def walkCommon (quests : QuestRules) (w : World) (c : Addr) (direction : ℕ) : Option World := do
  let x ← w.characters c
  if direction ≤ 3 ∧ x.trading then w.stopTrade quests c else return w

/-- The part of `Warp` that concerns maps and trades. -/
def warp (quests : QuestRules) (config : TradeConfig) (w : World) (c : Addr) (map : ℕ) :
    Option World := do
  let x ← w.characters c
  if map = 0 ∨ config.maps[map - 1]? ≠ some true then return w
  else
    let w := w.leaveMapOf config x.map c
    let w := w.modify c fun x => { x with map := some map, mapid := map }
    let w ← if x.trading then w.stopTrade quests c else some w
    quests c (w.enterMap map c)

/-- `Logout`; the character is deleted with its player. -/
def logout (quests : QuestRules) (config : TradeConfig) (w : World) (c : Addr) : Option World := do
  let x ← w.characters c
  if !x.online then return w
  else
    let w ← if x.trading then do
        let (p, _) ← w.partner c
        ((w.effect (.setPlaying c)).effect (.setPlaying p)).stopTrade quests c
      else some w
    let w := w.leaveMapOf config (some x.mapid.toNat) c
    return { w with characters := fun b => if b = c then none else w.characters b }

/-- A character comes in at a free address, its trade fields as the constructor sets them. -/
def login (quests : QuestRules) (w : World) (c : Addr) (x : Character) : Option World :=
  if (w.characters c).isSome then none
  else
    let x := { x with
      online := true, map := some x.mapid.toNat
      trading := false, tradePartner := none, tradeAgree := false, tradeInventory := [] }
    let w := { w with characters := fun b => if b = c then some x else w.characters b }
    quests c (w.enterMap x.mapid.toNat c)

end World

/-! ## Runs -/

inductive TradeStep where
  | request (c : Addr) (reader : PacketReader)
  | accept (c : Addr) (reader : PacketReader)
  | remove (c : Addr) (reader : PacketReader)
  | agree (c : Addr) (reader : PacketReader)
  | add (c : Addr) (reader : PacketReader)
  | close (c : Addr) (reader : PacketReader)
  | walk (c : Addr) (direction : ℕ)
  | warp (c : Addr) (map : ℕ)
  | logout (c : Addr)
  | login (c : Addr) (x : Character)

def World.step (quests : QuestRules) (config : TradeConfig) (w : World) :
    TradeStep → Option World
  | .request c reader => w.tradeRequest config c reader
  | .accept c reader => w.tradeAccept config c reader
  | .remove c reader => w.tradeRemove quests c reader
  | .agree c reader => w.tradeAgree quests config.items c reader
  | .add c reader => w.tradeAdd quests config.items c reader
  | .close c reader => w.tradeClose quests c reader
  | .walk c direction => w.walkCommon quests c direction
  | .warp c map => w.warp quests config c map
  | .logout c => w.logout quests config c
  | .login c x => w.login quests c x

def World.run (quests : QuestRules) (config : TradeConfig) (w : World) :
    List TradeStep → Option World
  | [] => some w
  | s :: steps => (w.step quests config s).bind fun w => w.run quests config steps

/-- `Trade_Agree` gets to the exchange: the sender trades, agrees and offers something,
and the partner has agreed. -/
def World.Completes (w : World) (c : Addr) (reader : PacketReader) : Prop :=
  ∃ x agree rest p y, w.characters c = some x ∧ x.trading = true ∧
    reader.getChar = some (agree, rest) ∧ agree ≠ 0 ∧ x.tradeInventory ≠ [] ∧
    (w.modify c fun x => { x with tradeAgree := true }).partner c = some (p, y) ∧
    y.tradeAgree = true

/-! ## A small server -/

def hall : TradeConfig where
  items :=
    { eif := [⟨.normal⟩, ⟨.normal⟩, ⟨.normal⟩]
      maxItem := 10
      maxTrade := 10
      tradeAddQuantity := false }
  jailMap := 0
  maps := [true]

def visitor (playerId : UInt32) (inventory : List CharacterItem) : Character where
  playerId := playerId
  sourceName := []
  online := true
  canInteractItems := true
  map := some 1
  mapid := 1
  inventory := inventory
  trading := false
  tradePartner := none
  tradeAgree := false
  tradeInventory := []

def tradePacket (data : Bytes) : PacketReader := .ofData ([1, 32] ++ data)

/-- Two visitors begin to trade, and the second offers five of item 1. -/
def oneOffer : List TradeStep :=
  [.login 1 (visitor 1 [⟨1, 8⟩, ⟨2, 3⟩]), .login 2 (visitor 2 [⟨1, 5⟩]),
    .request 1 (tradePacket [2, 3, 254]), .accept 2 (tradePacket [2, 2, 254]),
    .add 2 (tradePacket [2, 254, 6, 254, 254, 254])]

/-- The first then offers three of item 2. -/
def twoOffers : List TradeStep := oneOffer ++ [.add 1 (tradePacket [3, 254, 4, 254, 254, 254])]

end ArenaServ
