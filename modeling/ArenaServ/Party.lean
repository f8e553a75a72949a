import ArenaServ.PacketStream
import ArenaServ.RunSteps
import Mathlib.Logic.Function.Basic

/-!
# Parties

A character has a pointer to its party, and a party has a list of its members. Both are
changed by requests that are accepted, by `Party_Remove`, with which a leader may name any
player, and when a character logs out. A party is deleted when its leader leaves it, or one
of its last two members.
-/

namespace ArenaServ

inductive PartyRequestType where
  | join
  | invite
  deriving DecidableEq

def PartyRequestType.ofNumber : ℕ → Option PartyRequestType
  | 0 => some .join
  | 1 => some .invite
  | _ => none

structure PartyCharacter where
  playerId : ℕ
  party : Option ℕ
  trustSend : Option ℕ
  trustRecv : Option ℕ
  sendType : Option PartyRequestType
  deriving DecidableEq

structure Party where
  leader : ℕ
  members : List ℕ
  deriving DecidableEq

/-- The characters that are online, and what there is at the addresses of characters and of
parties. Addresses are not used again. -/
structure PartyWorld where
  characters : List ℕ
  character : ℕ → PartyCharacter
  party : ℕ → Option Party
  nextCharacter : ℕ
  nextParty : ℕ

/-- Which characters are on the map of a character, and which are in its range. -/
structure Sight where
  onMap : ℕ → Bool
  inRange : ℕ → Bool

namespace PartyWorld

variable (w : PartyWorld)

def setCharacter (c : ℕ) (f : PartyCharacter → PartyCharacter) : PartyWorld :=
  { w with character := Function.update w.character c (f (w.character c)) }

def setParty (c : ℕ) (p : Option ℕ) : PartyWorld := w.setCharacter c ({ · with party := p })

/-! ## Parties -/

def newParty (leader other : ℕ) : PartyWorld :=
  let w' := { w with
    party := Function.update w.party w.nextParty (some ⟨leader, [leader, other]⟩)
    nextParty := w.nextParty + 1 }
  (w'.setParty leader w.nextParty).setParty other w.nextParty

def joinParty (p : ℕ) (party : Party) (c : ℕ) : PartyWorld :=
  let w' := w.setParty c p
  { w' with
    party := Function.update w.party p (some { party with members := party.members ++ [c] }) }

/-- `Party::~Party`. -/
def deleteParty (p : ℕ) (party : Party) : PartyWorld :=
  { w with
    character := fun c =>
      if c ∈ party.members then { w.character c with party := none } else w.character c
    party := Function.update w.party p none }

/-- `Party::Leave`. -/
def leaveParty (p : ℕ) (party : Party) (c : ℕ) : PartyWorld :=
  if 2 < party.members.length ∧ c ≠ party.leader then
    let w' := w.setParty c none
    { w' with
      party := Function.update w.party p (some { party with members := party.members.erase c }) }
  else w.deleteParty p party

/-- A character leaves the party that it points to. -/
def leave (c : ℕ) : PartyWorld :=
  match (w.character c).party with
  | none => w
  | some p =>
      match w.party p with
      | none => w
      | some party => w.leaveParty p party c

/-- A character without a party joins that of another, or founds one with it as the leader. -/
def joinOther (leader c : ℕ) : PartyWorld :=
  match (w.character leader).party with
  | none => w.newParty leader c
  | some p =>
      match w.party p with
      | none => w
      | some party => w.joinParty p party c

/-! ## Handlers -/

/-- `GetCharacterPID` among some characters. -/
def getCharacterPID (id : ℕ) (among : ℕ → Bool) : Option ℕ :=
  w.characters.find? fun c => among c && (w.character c).playerId = id

def request (c : ℕ) (sight : Sight) (reader : PacketReader) : Option PartyWorld := do
  let (type, reader) ← reader.getChar
  let (id, _) ← reader.getShort
  match PartyRequestType.ofNumber type with
  | none => return w
  | some type =>
      match w.getCharacterPID id sight.onMap with
      | none => return w
      | some invitee =>
          if c = invitee ∨ sight.inRange invitee = false then return w
          else
            let w := w.setCharacter c ({ · with trustSend := invitee })
            let w := w.setCharacter invitee ({ · with trustRecv := c })
            return w.setCharacter c ({ · with sendType := type })

def accept (c : ℕ) (sight : Sight) (reader : PacketReader) : Option PartyWorld := do
  let (_, reader) ← reader.getChar
  let (id, _) ← reader.getShort
  match w.getCharacterPID id sight.onMap with
  | none => return w
  | some inviter =>
      if sight.inRange inviter = false ∨ (w.character inviter).trustSend ≠ some c ∨
          (w.character c).trustRecv ≠ some inviter then return w
      else
        let w :=
          match (w.character inviter).sendType with
          | some .join => (w.leave inviter).joinOther c inviter
          | some .invite => (w.leave c).joinOther inviter c
          | none => w
        let w := w.setCharacter c ({ · with trustRecv := none })
        return w.setCharacter inviter ({ · with trustSend := none })

/-- The party and the character that `Packet_Remove` calls `Leave` with. -/
def removed (c : ℕ) (reader : PacketReader) : Option (Option (ℕ × Party × ℕ)) :=
  match (w.character c).party with
  | none => some none
  | some p => do
      let (id, _) ← reader.getShort
      match w.party p with
      | none => return none
      | some party =>
          if id = (w.character c).playerId ∨ c = party.leader then
            return (w.getCharacterPID id fun _ => true).map fun leaver => (p, party, leaver)
          else return none

def remove (c : ℕ) (reader : PacketReader) : Option PartyWorld :=
  (w.removed c reader).map fun
    | none => w
    | some (p, party, leaver) => w.leaveParty p party leaver

def login (playerId : ℕ) : PartyWorld :=
  { w with
    characters := w.characters ++ [w.nextCharacter]
    character := Function.update w.character w.nextCharacter ⟨playerId, none, none, none, none⟩
    nextCharacter := w.nextCharacter + 1 }

def logout (c : ℕ) : PartyWorld :=
  let w := w.leave c
  { w with characters := w.characters.filter (· ≠ c) }

end PartyWorld

/-! ## Steps -/

inductive PartyStep where
  | login (playerId : ℕ)
  | request (c : ℕ) (sight : Sight) (reader : PacketReader)
  | accept (c : ℕ) (sight : Sight) (reader : PacketReader)
  | remove (c : ℕ) (reader : PacketReader)
  | logout (c : ℕ)

namespace PartyWorld

def next (w : PartyWorld) : PartyStep → Option PartyWorld
  | .login playerId =>
      -- `GenerateOperationID` goes on until no one has the id
      if ∃ c ∈ w.characters, (w.character c).playerId = playerId then none
      else some (w.login playerId)
  | .request c sight reader => if c ∈ w.characters then w.request c sight reader else none
  | .accept c sight reader => if c ∈ w.characters then w.accept c sight reader else none
  | .remove c reader => if c ∈ w.characters then w.remove c reader else none
  | .logout c => if c ∈ w.characters then some (w.logout c) else none

def start : PartyWorld := ⟨[], fun _ => ⟨0, none, none, none, none⟩, fun _ => none, 0, 0⟩

end PartyWorld

end ArenaServ
