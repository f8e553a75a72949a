import ArenaServ.RunSteps
import Mathlib.Data.Int.Notation
import Mathlib.Data.Nat.Notation
import Mathlib.Logic.Function.Basic

/-!
# Where characters are

A character has a pointer to its map and the number of it, the map has a list of its characters,
and a dead character is nowhere until a packet that its death has queued warps it. A map that is
reloaded is unloaded first, and does not exist when its file cannot be read then.
-/

namespace ArenaServ
open Function

/-- Whether a character has been loaded and has entered the game. One that has left it for another
character of its player is off duty. -/
inductive Presence where
  | away
  | selected
  | online
  | offDuty
  deriving DecidableEq, Repr

structure PlacedCharacter where
  presence : Presence
  nowhere : Bool
  map : Option ℕ
  mapid : ℤ
  /-- How many `Internal_Warp` are in the queue of its client. -/
  queued : ℕ
  deriving DecidableEq, Repr

structure PlacedMap where
  existing : Bool
  characters : List ℕ
  deriving DecidableEq, Repr

structure MapPlaces where
  size : ℕ
  positive : 0 < size
  maps : ℕ → PlacedMap
  characters : ℕ → PlacedCharacter

/-- Where a character is spawned comes from its home, which may change. -/
inductive PlaceStep where
  | load (c : ℕ) (rowMap : ℤ)
  | welcome (c : ℕ) (spawnMap : ℤ)
  | duty (c swap : ℕ) (here : Bool)
  | warp (c : ℕ) (map : ℤ)
  | deathRespawn (c : ℕ) (spawnMap : ℤ)
  | internalWarp (c : ℕ) (spawnMap : ℤ)
  | logout (c : ℕ)
  /-- A map whose file has changed is reloaded, with success or not. -/
  | reload (map : ℕ) (success : Bool)
  | addMap (existing : Bool)

namespace MapPlaces

variable (w : MapPlaces)

/-- The maps are numbered from 1, and the first one stands in for those that there are not. -/
def getMap (id : ℤ) : ℕ := if 0 < id ∧ id ≤ w.size then id.toNat else 1

def setCharacter (c : ℕ) (character : PlacedCharacter) : MapPlaces :=
  { w with characters := update w.characters c character }

def setMap (m : ℕ) (map : PlacedMap) : MapPlaces := { w with maps := update w.maps m map }

/-- `Map::Leave`. -/
def leave (m c : ℕ) : MapPlaces :=
  (w.setMap m { w.maps m with characters := (w.maps m).characters.filter (· ≠ c) }).setCharacter c
    { w.characters c with map := none }

/-- `Map::Enter`. -/
def enter (m c : ℕ) : MapPlaces :=
  (w.setMap m { w.maps m with characters := (w.maps m).characters ++ [c] }).setCharacter c
    { w.characters c with map := some m }

/-- What `Warp` leaves a character on is its map, unless that does not exist any more. -/
def leaveOld (c : ℕ) : MapPlaces :=
  match (w.characters c).map with
  | none => w
  | some m => if (w.maps m).existing then w.leave m c else w

def canWarp (map : ℤ) : Bool := 0 < map && map ≤ w.size && (w.maps (w.getMap map)).existing

/-- `Character::Warp`. -/
def warp (c : ℕ) (map : ℤ) : MapPlaces :=
  if w.canWarp map then
    let left := w.leaveOld c
    let m := w.getMap map
    (left.setCharacter c
      { left.characters c with map := some m, mapid := m, nowhere := false }).enter m c
  else w

/-- `Character::DeathRespawn`, of a character whose map pointer is one. -/
def deathRespawn (c m : ℕ) (spawnMap : ℤ) : MapPlaces :=
  let left := w.leave m c
  left.setCharacter c
    { left.characters c with
      nowhere := true, map := some (w.getMap spawnMap), mapid := spawnMap
      queued := (left.characters c).queued + 1 }

/-- `Internal_Warp`, which the queue of the client runs. -/
def internalWarp (c : ℕ) (spawnMap : ℤ) : MapPlaces :=
  (w.setCharacter c
    { w.characters c with map := none, queued := (w.characters c).queued - 1 }).warp c spawnMap

/-- `Logout`, of a character and then by the world. -/
def logout (c : ℕ) : MapPlaces :=
  let offline := w.setCharacter c { w.characters c with presence := .away, queued := 0 }
  let m := w.getMap (w.characters c).mapid
  if (w.maps m).existing then offline.leave m c else offline

/-- `World::Login`. -/
def login (c : ℕ) : MapPlaces :=
  let entered := w.enter (w.getMap (w.characters c).mapid) c
  entered.setCharacter c { entered.characters c with presence := .online }

/-- `Welcome_Msg`. A character whose map does not exist is put where it is spawned, or its client
is closed. -/
def welcomeMsg (c : ℕ) (spawnMap : ℤ) : MapPlaces :=
  if (w.maps (w.getMap (w.characters c).mapid)).existing then w.login c
  else if (w.maps (w.getMap spawnMap)).existing then (w.warp c spawnMap).login c
  else w.setCharacter c { w.characters c with presence := .away }

/-- The map on which a character goes on duty or off it. -/
def dutyMap (c swap : ℕ) (here : Bool) : ℤ :=
  if here then (w.characters c).mapid else (w.characters swap).mapid

/-- A character leaves the game for another one of its player. The queue is that of the client. -/
def swapOut (c swap : ℕ) (here : Bool) : MapPlaces :=
  let left := w.logout c
  let off := left.setCharacter c { left.characters c with presence := .offDuty }
  off.setCharacter swap
    { off.characters swap with
      mapid := w.dutyMap c swap here, queued := (w.characters c).queued }

/-- `Duty`. -/
def duty (c swap : ℕ) (here : Bool) : MapPlaces :=
  ((w.swapOut c swap here).login swap).warp swap (w.dutyMap c swap here)

/-- A `Character` is made from its row. -/
def load (c : ℕ) (rowMap : ℤ) : MapPlaces :=
  w.setCharacter c ⟨.selected, false, some (w.getMap rowMap), w.getMap rowMap, 0⟩

/-- `Map::Reload`, once the map has been unloaded. -/
def reload (m : ℕ) (success : Bool) : MapPlaces :=
  w.setMap m { w.maps m with existing := success }

def addMap (existing : Bool) : MapPlaces :=
  { w with
    size := w.size + 1, positive := Nat.succ_pos _
    maps := update w.maps (w.size + 1) ⟨existing, []⟩ }

/-- A dead character that is nowhere has no map to die on once a warp of it has failed. -/
def step : PlaceStep → Option MapPlaces
  | .load c rowMap => if (w.characters c).presence = .away then some (w.load c rowMap) else none
  | .welcome c spawnMap =>
      if (w.characters c).presence = .selected then some (w.welcomeMsg c spawnMap) else none
  | .duty c swap here =>
      if (w.characters c).presence = .online ∧ ((w.characters swap).presence = .selected ∨
          (w.characters swap).presence = .offDuty) then
        some (w.duty c swap here)
      else none
  | .warp c map => if (w.characters c).presence = .online then some (w.warp c map) else none
  | .deathRespawn c spawnMap =>
      if (w.characters c).presence = .online then
        (w.characters c).map.map fun m => w.deathRespawn c m spawnMap
      else none
  | .internalWarp c spawnMap =>
      if (w.characters c).presence = .online ∧ 0 < (w.characters c).queued then
        some (w.internalWarp c spawnMap)
      else none
  | .logout c => if (w.characters c).presence = .online then some (w.logout c) else none
  | .reload m success => if 0 < m ∧ m ≤ w.size then some (w.reload m success) else none
  | .addMap existing => some (w.addMap existing)

end MapPlaces

end ArenaServ
