import ArenaServ.Guild
import ArenaServ.Pairing
import ArenaServ.Weddings

/-!
# Marriages

The partner of a character is a name that is kept with it: in the database, and in the object that
is made from its row when its player logs in and written back while it is online. It is set by a
ceremony, and cleared by a divorce and by the deletion of the partner, which look for the partner
among the characters that are online and otherwise change its row.
-/

namespace ArenaServ
open Function

/-- What the database keeps of a character. -/
structure SpouseRow where
  partner : RealName
  fiance : RealName
  deriving DecidableEq

/-- The type of the NPC that a character is talking to. -/
inductive TalksTo where
  | npc
  | law
  | priest
  deriving DecidableEq, Repr

/-- A character of a player that is logged in. -/
structure Spouse extends SpouseRow where
  online : Bool
  map : ℕ
  npcType : TalksTo
  deriving DecidableEq

structure MarriageWorld where
  rows : RealName → Option SpouseRow
  loaded : RealName → Option Spouse
  /-- The wedding of a map that has a priest. -/
  weddings : ℕ → Option Ceremony
  /-- Whether the priest of a map is there. -/
  priests : ℕ → Bool

inductive MarriageEvent where
  | load (name : RealName) (map : ℕ)
  | enter (name : RealName)
  | save (name : RealName)
  | unload (name : RealName)
  | warp (name : RealName) (map : ℕ)
  | priest (map : ℕ) (there : Bool)
  | openLaw (name : RealName)
  | openPriest (name : RealName)
  /-- With whether the gold is enough. -/
  | approve (name : RealName) (text : List Char) (affords : Bool)
  | divorce (name : RealName) (text : List Char) (affords : Bool)
  /-- With whether the level is enough, and both are dressed. -/
  | request (name : RealName) (text : List Char) (dressed partnerDressed level : Bool)
  | accept (name : RealName)
  | iDo (name : RealName)
  | tick (map : ℕ)
  | create (text : List Char) (map : ℕ)
  | delete (name : RealName)

namespace RealName

/-- The name that is not one. -/
def empty : RealName := ⟨[], rfl⟩

/-- `Character::ValidName`. -/
def valid (name : RealName) : Bool :=
  4 ≤ name.val.length && name.val.length ≤ 12 && (name.val.all fun c => 'a' ≤ c && c ≤ 'z') &&
    name.val ≠ ['s', 'e', 'r', 'v', 'e', 'r']

end RealName

namespace MarriageWorld

variable (w : MarriageWorld)

def getCharacter (name : RealName) : Option Spouse := (w.loaded name).filter (·.online)

/-- What `GetPartner1` and `GetPartner2` find on a map, and `GetPriest`. -/
def scene (map : ℕ) : WeddingScene where
  onMap name := match w.getCharacter (RealName.of name) with
    | some character => character.map = map
    | none => false
  priest := w.priests map

/-- A member of a character is written. -/
def modify (name : RealName) (f : Spouse → Spouse) : MarriageWorld :=
  { w with loaded := update w.loaded name ((w.loaded name).map f) }

def setPartner (partner : RealName) (character : Spouse) : Spouse :=
  { character with partner := partner }

/-- A couple is recorded as married. -/
def marry (partners : List Char × List Char) : MarriageWorld :=
  let p1 := RealName.of partners.1
  let p2 := RealName.of partners.2
  (w.modify p1 fun c => { c with partner := p2, fiance := RealName.empty }).modify p2
    fun c => { c with partner := p1, fiance := RealName.empty }

def setWedding (map : ℕ) (wedding : Ceremony) : MarriageWorld :=
  { w with weddings := update w.weddings map (some wedding) }

/-- Something that the wedding of a map does, with the marriages that it records. -/
def onWedding (map : ℕ) (act : Ceremony → Ceremony) : MarriageWorld :=
  match w.weddings map with
  | none => w
  | some wedding =>
      let acted := act wedding
      acted.married.foldl marry (w.setWedding map { acted with married := [] })

/-- `Leave`, as far as it is about weddings. -/
def cancelWeddingRequest (name : RealName) (map : ℕ) : MarriageWorld :=
  w.onWedding map fun wedding =>
    { wedding with requests := wedding.requests.filter (· ≠ name.val) }

/-- What `Save` writes. -/
def save (name : RealName) (character : Spouse) : MarriageWorld :=
  { w with rows := update w.rows name ((w.rows name).map fun _ => character.toSpouseRow) }

/-- The query that clears the partner of a character that is not online. -/
def clearRow (name partner : RealName) : MarriageWorld :=
  { w with
    rows := update w.rows name ((w.rows name).map fun row =>
      if row.partner = partner then { row with partner := RealName.empty } else row) }

/-- The partner of a character that is divorced or deleted is told, or its row is changed. -/
def leavePartner (name partner : RealName) : MarriageWorld :=
  if (w.getCharacter partner).isSome then w.modify partner (setPartner RealName.empty)
  else w.clearRow partner name

/-- `Character_Create`. -/
def characterCreate (name : RealName) (map : ℕ) : MarriageWorld :=
  if name.valid = false ∨ (w.rows name).isSome then w
  else
    { w with
      rows := update w.rows name (some ⟨RealName.empty, RealName.empty⟩)
      loaded := update w.loaded name
        (some ⟨⟨RealName.empty, RealName.empty⟩, false, map, TalksTo.npc⟩) }

/-- `Character_Remove`. -/
def characterRemove (name : RealName) (character : Spouse) : MarriageWorld :=
  let left := w.leavePartner name character.partner
  { left with rows := update left.rows name none, loaded := update left.loaded name none }

/-- `Marriage_Request`, of an approval. -/
def marriageApproval (name : RealName) (character : Spouse) (text : List Char) (affords : Bool) :
    MarriageWorld :=
  let fiance := RealName.of text
  if character.npcType ≠ TalksTo.law ∨ character.partner ≠ RealName.empty ∨ affords = false then w
  else if fiance.valid then w.modify name fun c => { c with fiance := fiance }
  else w

/-- `Marriage_Request`, of a divorce. -/
def divorce (name : RealName) (character : Spouse) (text : List Char) (affords : Bool) :
    MarriageWorld :=
  let partner := RealName.of text
  if character.npcType ≠ TalksTo.law ∨ character.partner = RealName.empty ∨ affords = false ∨
      character.partner ≠ partner then w
  else (w.leavePartner name partner).modify name (setPartner RealName.empty)

/-- `Priest_Open`. -/
def priestOpen (name : RealName) (character : Spouse) : MarriageWorld :=
  if character.partner ≠ RealName.empty then w
  else
    match w.weddings character.map with
    | none => w
    | some wedding =>
        if wedding.state ≠ 0 then w else w.modify name fun c => { c with npcType := TalksTo.priest }

/-- `Priest_Request`. That the wedding is busy is said, and nothing else comes of it. -/
def priestRequest (name : RealName) (character : Spouse) (text : List Char)
    (dressed partnerDressed level : Bool) : MarriageWorld :=
  let asked := RealName.of text
  if character.npcType ≠ TalksTo.priest ∨ asked ≠ character.fiance ∨ asked = name then w
  else
    match w.getCharacter character.fiance with
    | none => w
    | some partner =>
        if partner.map ≠ character.map ∨ partner.fiance ≠ name ∨ partner.partner ≠ RealName.empty ∨
            dressed = false ∨ partnerDressed = false ∨ level = false then w
        else
          w.onWedding character.map fun wedding =>
            { wedding with requests := name.val :: wedding.requests }

/-- `Priest_Accept`. That the wedding is busy is said, and nothing else comes of it. -/
def priestAccept (character : Spouse) (name : RealName) : MarriageWorld :=
  if character.partner ≠ RealName.empty then w
  else
    match w.weddings character.map with
    | none => w
    | some wedding =>
        match w.getCharacter character.fiance with
        | none => w
        | some partner =>
            if partner.map ≠ character.map ∨ wedding.requests.all (· ≠ character.fiance.val) then w
            else
              w.onWedding character.map
                (Ceremony.startWedding (w.scene character.map) character.fiance.val name.val)

/-- A character that is online. -/
def whenOnline (name : RealName) (act : Spouse → MarriageWorld) : Option MarriageWorld :=
  (w.getCharacter name).map act

def step : MarriageEvent → Option MarriageWorld
  | .load name map =>
      match w.loaded name, w.rows name with
      | none, some row =>
          some { w with loaded := update w.loaded name (some ⟨row, false, map, TalksTo.npc⟩) }
      | _, _ => none
  | .enter name =>
      match w.loaded name with
      | some character =>
          if character.online then none else some (w.modify name fun c => { c with online := true })
      | none => none
  | .save name => w.whenOnline name (w.save name)
  | .unload name =>
      match w.loaded name with
      | some character =>
          let left := if character.online then
              (w.save name character).cancelWeddingRequest name character.map else w
          some { left with loaded := update left.loaded name none }
      | none => none
  | .warp name map => w.whenOnline name fun character =>
      (w.cancelWeddingRequest name character.map).modify name
        fun c => { c with map := map, npcType := TalksTo.npc }
  | .priest map there => some { w with priests := update w.priests map there }
  | .openLaw name => w.whenOnline name fun _ => w.modify name fun c => { c with npcType := .law }
  | .openPriest name => w.whenOnline name (w.priestOpen name)
  | .approve name text affords =>
      w.whenOnline name fun character => w.marriageApproval name character text affords
  | .divorce name text affords =>
      w.whenOnline name fun character => w.divorce name character text affords
  | .request name text dressed partnerDressed level =>
      w.whenOnline name fun character =>
        w.priestRequest name character text dressed partnerDressed level
  | .accept name => w.whenOnline name fun character => w.priestAccept character name
  | .iDo name => w.whenOnline name fun character =>
      w.onWedding character.map (Ceremony.iDo (w.scene character.map) name.val true)
  | .tick map => some (w.onWedding map (Ceremony.tickOnce (w.scene map)))
  | .create text map => some (w.characterCreate (RealName.of text) map)
  | .delete name =>
      match w.loaded name with
      | some character => if character.online then none else some (w.characterRemove name character)
      | none => none

/-- The partner of a character, as its object has it, or else its row. -/
def partnerOf (name : RealName) : RealName :=
  match w.loaded name, w.rows name with
  | some character, _ => character.partner
  | none, some row => row.partner
  | none, none => RealName.empty

end MarriageWorld

end ArenaServ
