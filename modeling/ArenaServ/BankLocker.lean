import Mathlib.Algebra.Ring.Int.Defs
import ArenaServ.FirstMatch
import ArenaServ.MapTiles
import ArenaServ.PlayingCharacter

/-!
# Bank and locker

A character's gold account is a counter, its locker a second list of stacks. Each request
caps the amount by what one side allows and moves it with `AddItem` or `DelItem`, whose
results nobody looks at.
-/

namespace ArenaServ

structure BankConfig extends CarryConfig where
  maxBankGold : Int32
  baseBankSize : Int32
  bankSizeStep : Int32
  maxBank : Int32
  maxItem_nonneg : 0 ≤ items.maxItem
  maxBank_nonneg : 0 ≤ maxBank

namespace PlayingCharacter

/-! ## The gold account -/

/-- `Bank_Add` up to `DelItem`: how much is paid in; the inner `none` when it returns early. -/
def bankAdded (config : BankConfig) (p : PlayingCharacter) (reader : PacketReader) :
    Option (Option Int32) := do
  if p.trading then return none
  else
    let (amount, _) ← reader.getInt
    let asked := Int32.ofNat amount
    let amount := min asked (p.hasItem 1 false)
    let newgold := p.goldbank + amount
    return if asked ≤ 0 ∨ p.npcType ≠ .bank ∨ newgold < p.goldbank ∨ config.maxBankGold < newgold
      then none else some amount

def bankAdd (config : BankConfig) (p : PlayingCharacter) (reader : PacketReader) :
    Option PlayingCharacter := do
  match ← p.bankAdded config reader with
  | none => return p
  | some amount =>
      return { p.delItem config.toCarryConfig 1 amount with goldbank := p.goldbank + amount }

/-- `Bank_Take` up to the new balance: how much is paid out. -/
def bankTaken (p : PlayingCharacter) (reader : PacketReader) : Option (Option Int32) := do
  let (amount, _) ← reader.getInt
  let amount := Int32.ofNat amount
  let newgold := p.goldbank - amount
  return if amount ≤ 0 ∨ p.npcType ≠ .bank ∨ p.goldbank < newgold ∨ newgold < 0 then none
    else some amount

def bankTake (config : BankConfig) (p : PlayingCharacter) (reader : PacketReader) :
    Option PlayingCharacter := do
  match ← p.bankTaken reader with
  | none => return p
  | some amount =>
      return { p with goldbank := p.goldbank - amount }.addItem config.toCarryConfig 1 amount

/-! ## The locker -/

/-- A character may open the locker on a tile. -/
def AtVault (p : PlayingCharacter) (m : MapTiles) (x y : ℕ) : Prop :=
  pathLength p.x.toNat p.y.toNat x y ≤ 1 ∧ m.getSpec (UInt8.ofNat x) (UInt8.ofNat y) = .bankVault

instance (p : PlayingCharacter) (m : MapTiles) (x y : ℕ) : Decidable (p.AtVault m x y) :=
  inferInstanceAs (Decidable (_ ∧ _))

/-- The number of stacks a locker has room for, a `std::size_t`. -/
def lockermax (config : BankConfig) (p : PlayingCharacter) : ℕ :=
  (config.baseBankSize + p.bankmax * config.bankSizeStep).toInt64.toUInt64.toNat

/-- The end of `Locker_Add`: how much is put into the locker, and the locker then. -/
def stored (config : BankConfig) (p : PlayingCharacter) (item : Int16) (amount : Int32) :
    Option (Int32 × List CharacterItem) :=
  match Inventory.stack p.bank item with
  | some it =>
      if it.amount + amount < 0 then none
      else
        let amount := min amount (config.maxBank - it.amount)
        some (amount, FirstMatch.alterFirst (·.id = item)
          (fun it => some { it with amount := it.amount + amount }) p.bank)
  | none =>
      if p.lockermax config ≤ p.bank.length then none
      else
        let amount := min amount config.maxBank
        some (amount, p.bank ++ [⟨item, amount⟩])

/-- `Locker_Add` up to `add_common`. -/
def lockerAdded (config : BankConfig) (p : PlayingCharacter) (m : MapTiles)
    (reader : PacketReader) : Option (Option (Int16 × Int32 × List CharacterItem)) := do
  if p.trading then return none
  else
    let (x, reader) ← reader.getChar
    let (y, reader) ← reader.getChar
    let (item, reader) ← reader.getShort
    let (amount, _) ← reader.getThree
    let item := Int16.ofNat item
    let amount := Int32.ofNat amount
    if item = 1 ∨ amount ≤ 0 ∨ p.hasItem item false < amount ∨ ¬ p.AtVault m x y then return none
    else return (p.stored config item amount).map fun stored => (item, stored)

def lockerAdd (config : BankConfig) (p : PlayingCharacter) (m : MapTiles) (reader : PacketReader) :
    Option PlayingCharacter := do
  match ← p.lockerAdded config m reader with
  | none => return p
  | some (item, amount, bank) =>
      return calculateStats config.toCarryConfig
        ({ p with bank := bank }.delItem config.toCarryConfig item amount)

/-- `Locker_Take` up to `AddItem`. -/
def lockerTaken (config : BankConfig) (p : PlayingCharacter) (m : MapTiles)
    (reader : PacketReader) : Option (Option (Int16 × Int32)) := do
  if p.trading then return none
  else
    let (x, reader) ← reader.getChar
    let (y, reader) ← reader.getChar
    let (item, _) ← reader.getShort
    let item := Int16.ofNat item
    if ¬ p.AtVault m x y then return none
    else
      match Inventory.stack p.bank item with
      | none => return none
      | some it =>
          let taken ← p.canHoldItem config.toCarryConfig it.id it.amount
          return some (item, taken)

/-- The locker after `Locker_Take` has taken something out. -/
def withdrawn (p : PlayingCharacter) (item : Int16) (taken : Int32) : List CharacterItem :=
  FirstMatch.alterFirst (·.id = item)
    (fun it => if it.amount - taken ≤ 0 then none
      else some { it with amount := it.amount - taken }) p.bank

def lockerTake (config : BankConfig) (p : PlayingCharacter) (m : MapTiles) (reader : PacketReader) :
    Option PlayingCharacter := do
  match ← p.lockerTaken config m reader with
  | none => return p
  | some (item, taken) =>
      let p := calculateStats config.toCarryConfig (p.addItem config.toCarryConfig item taken)
      return { p with bank := p.withdrawn item taken }

end PlayingCharacter

inductive BankStep where
  | bankAdd (reader : PacketReader)
  | bankTake (reader : PacketReader)
  | lockerAdd (reader : PacketReader)
  | lockerTake (reader : PacketReader)

def PlayingCharacter.bankStep (config : BankConfig) (m : MapTiles) (p : PlayingCharacter) :
    BankStep → Option PlayingCharacter
  | .bankAdd reader => p.bankAdd config reader
  | .bankTake reader => p.bankTake config reader
  | .lockerAdd reader => p.lockerAdd config m reader
  | .lockerTake reader => p.lockerTake config m reader

end ArenaServ
