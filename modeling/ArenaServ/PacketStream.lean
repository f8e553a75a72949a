import ArenaServ.PacketIds
import ArenaServ.PacketNumber

/-!
# Reading and building packets

`PacketReader` walks over the bytes behind the length prefix, `PacketBuilder`
collects them and puts the prefix and the id in front. A reader call is `none`
where the source throws or reads outside the packet. Sizes are `std::size_t`,
so that the subtractions of the source wrap.
-/

namespace ArenaServ

/-- Subtraction of two `std::size_t`. -/
def sizeSub (a b : ℕ) : ℕ := if b ≤ a then a - b else a + 2 ^ 64 - b

/-- `std::string::npos`. -/
def npos : ℕ := 2 ^ 64 - 1

theorem sizeSub_of_le {a b : ℕ} (h : b ≤ a) : sizeSub a b = a - b := if_pos h

/-- `s.find_first_of(c, pos)` for a single character. -/
def findFirstOf (s : Bytes) (c : UInt8) (pos : ℕ) : ℕ :=
  match (s.drop pos).findIdx? (· == c) with
  | some i => pos + i
  | none => npos

structure PacketReader where
  data : Bytes
  pos : ℕ
  deriving DecidableEq, Repr

namespace PacketReader
open PacketProcessor

def ofData (data : Bytes) : PacketReader := ⟨data, 2⟩

def length (r : PacketReader) : ℕ := r.data.length

def remaining (r : PacketReader) : ℕ := sizeSub r.length r.pos

def action (r : PacketReader) : UInt8 := if r.length < 1 then 0 else byteAt r.data 0

def family (r : PacketReader) : UInt8 := if r.length < 2 then 0 else byteAt r.data 1

/-- The bytes that are not read stay 254. -/
def getNumber (r : PacketReader) (length : ℕ) : Option (ℕ × PacketReader) :=
  let readLen := min length r.remaining
  if r.pos + readLen ≤ r.length ∧ readLen ≤ 4 then
    let bytes := (r.data.drop r.pos).take readLen ++ List.replicate (4 - readLen) 254
    some (number (byteAt bytes 0) (byteAt bytes 1) (byteAt bytes 2) (byteAt bytes 3),
      { r with pos := r.pos + readLen })
  else none

def getByte (r : PacketReader) : Option (ℕ × PacketReader) :=
  if r.remaining < 1 then some (0, r)
  else if r.pos < r.length then some ((byteAt r.data r.pos).toNat, { r with pos := r.pos + 1 })
  else none

/-- Converted to `unsigned char`. -/
def getChar (r : PacketReader) : Option (ℕ × PacketReader) :=
  (r.getNumber 1).map fun (n, r) => (n % 2 ^ 8, r)

/-- Converted to `unsigned short`. -/
def getShort (r : PacketReader) : Option (ℕ × PacketReader) :=
  (r.getNumber 2).map fun (n, r) => (n % 2 ^ 16, r)

def getThree (r : PacketReader) : Option (ℕ × PacketReader) := r.getNumber 3

def getInt (r : PacketReader) : Option (ℕ × PacketReader) := r.getNumber 4

/-- `substr` throws when the position is behind the end. -/
def getFixedString (r : PacketReader) (length : ℕ) : Option (Bytes × PacketReader) :=
  if r.remaining < length then some ([], r)
  else if r.pos ≤ r.length then
    let ret := (r.data.drop r.pos).take length
    some (ret, { r with pos := r.pos + ret.length })
  else none

def getBreakString (r : PacketReader) (breakchar : UInt8) : Option (Bytes × PacketReader) :=
  (r.getFixedString (sizeSub (findFirstOf r.data breakchar r.pos) r.pos)).map
    fun (ret, r) => (ret, { r with pos := r.pos + 1 })

def getEndString (r : PacketReader) : Option (Bytes × PacketReader) :=
  r.getFixedString r.remaining

end PacketReader

structure PacketBuilder where
  id : ℕ
  data : Bytes
  addSize : ℕ
  deriving DecidableEq, Repr

namespace PacketBuilder
open PacketProcessor

/-- `SetID`, which puts the init packet's id for 0. -/
def setID (b : PacketBuilder) (id : ℕ) : PacketBuilder :=
  { b with id := if id = 0 then pid .fInit .aInit else id }

/-- The constructor; the size guess only reserves memory. -/
def new (family : PacketFamily) (action : PacketAction) : PacketBuilder :=
  setID ⟨0, [], 0⟩ (pid family action)

def addByte (b : PacketBuilder) (byte : UInt8) : PacketBuilder :=
  { b with data := b.data ++ [byte] }

def addChar (b : PacketBuilder) (num : UInt8) : PacketBuilder :=
  { b with data := b.data ++ (eNumber num.toNat).take 1 }

def addShort (b : PacketBuilder) (num : UInt16) : PacketBuilder :=
  { b with data := b.data ++ (eNumber num.toNat).take 2 }

def addThree (b : PacketBuilder) (num : UInt32) : PacketBuilder :=
  { b with data := b.data ++ (eNumber num.toNat).take 3 }

def addInt (b : PacketBuilder) (num : UInt32) : PacketBuilder :=
  { b with data := b.data ++ (eNumber num.toNat).take 4 }

def addString (b : PacketBuilder) (str : Bytes) : PacketBuilder :=
  { b with data := b.data ++ str }

/-- The loop of `AddBreakString`: every break character becomes `'y'`. -/
def replaceBreaks (str : Bytes) (breakchar : UInt8) : Bytes :=
  str.map fun c => if c = breakchar then 121 else c

def addBreakString (b : PacketBuilder) (str : Bytes) (breakchar : UInt8) : PacketBuilder :=
  { b with data := b.data ++ replaceBreaks str breakchar ++ [breakchar] }

def addSizeOf (b : PacketBuilder) (size : ℕ) : PacketBuilder :=
  { b with addSize := b.addSize + size }

/-- `Reset`; the id and the added size stay. -/
def reset (b : PacketBuilder) : PacketBuilder := { b with data := [] }

/-- `Get`; the length is converted to `unsigned int`. -/
def get (b : PacketBuilder) : Bytes :=
  let length := eNumber ((b.data.length + 2 + b.addSize) % 2 ^ 32)
  [byteAt length 0, byteAt length 1, (epid b.id).1, (epid b.id).2] ++ b.data

@[simp] theorem new_data (family : PacketFamily) (action : PacketAction) :
    (new family action).data = [] := rfl

end PacketBuilder

end ArenaServ
