import ArenaServ.MapPlaces
import ArenaServ.Walking

/-!
# Arenas

A map may have an arena, which counts those in it. A round of it warps who stands on its spawns,
and an attack in it warps who is hit out of it; every warp and every logout takes a character out of
the arena that it is in. A map that is reloaded gets a new arena, and a rehash replaces all of them.
-/

namespace ArenaServ
open Function

structure ArenaSpawn where
  sx : UInt8
  sy : UInt8
  dx : UInt8
  dy : UInt8
  deriving DecidableEq, Repr

structure Arena where
  occupants : ℤ
  block : ℤ
  map : ℕ
  spawns : List ArenaSpawn
  deriving DecidableEq, Repr

/-- What `arenas.ini` has for a map, with the numbers between the commas of its spawns. -/
structure ArenaConfig where
  enabled : Bool
  block : ℤ
  spawns : List ℤ
  deriving DecidableEq, Repr

structure Combatant where
  x : UInt8
  y : UInt8
  direction : Direction
  arena : Option ℕ
  nextArena : Option ℕ
  arenaKills : ℕ
  deriving DecidableEq, Repr

/-- Arenas are at addresses, and a deleted one is at none. -/
structure ArenaWorld where
  places : MapPlaces
  combatants : ℕ → Combatant
  relog : ℕ → UInt8 × UInt8
  mapArena : ℕ → Option ℕ
  arenas : ℕ → Option Arena

/-- What becomes of a round. -/
inductive SpawnRound where
  | nobody
  | blocked
  | started (newplayers : ℕ)
  deriving DecidableEq, Repr

/-- A new arena is at an address that the allocator finds. -/
inductive ArenaEvent where
  | load (c : ℕ) (rowMap : ℤ) (x y : UInt8) (direction : Direction)
  | welcome (c : ℕ) (spawnMap : ℤ) (x y : UInt8)
  | duty (c swap : ℕ) (here : Bool)
  | move (c : ℕ) (x y : UInt8) (direction : Direction)
  | warp (c : ℕ) (map : ℤ) (x y : UInt8)
  | deathRespawn (c : ℕ) (spawnMap : ℤ) (x y : UInt8)
  | internalWarp (c : ℕ) (spawnMap : ℤ) (x y : UInt8)
  | logout (c : ℕ)
  | spawn (a : ℕ) (force : Bool)
  | attack (c : ℕ) (direction : Direction)
  /-- What a rehash does for each map. -/
  | loadArena (m : ℕ) (config : ArenaConfig) (address : ℕ)
  | reload (m : ℕ) (success : Bool) (relog : UInt8 × UInt8) (config : ArenaConfig) (address : ℕ)
  | addMap (existing : Bool) (relog : UInt8 × UInt8) (config : ArenaConfig) (address : ℕ)

/-- Four numbers a spawn. -/
def ArenaConfig.spawnsOf : List ℤ → List ArenaSpawn
  | sx :: sy :: dx :: dy :: rest =>
      ⟨UInt8.ofInt sx, UInt8.ofInt sy, UInt8.ofInt dx, UInt8.ofInt dy⟩ :: spawnsOf rest
  | _ => []

namespace ArenaWorld

variable (w : ArenaWorld)

def setPlaces (places : MapPlaces) : ArenaWorld := { w with places := places }

def setCombatant (c : ℕ) (combatant : Combatant) : ArenaWorld :=
  { w with combatants := update w.combatants c combatant }

def moveTo (c : ℕ) (x y : UInt8) : ArenaWorld :=
  w.setCombatant c { w.combatants c with x := x, y := y }

def setArena (c : ℕ) (arena : Option ℕ) : ArenaWorld :=
  w.setCombatant c { w.combatants c with arena := arena }

def setNextArena (c : ℕ) (arena : Option ℕ) : ArenaWorld :=
  w.setCombatant c { w.combatants c with nextArena := arena }

def addOccupants (a : ℕ) (d : ℤ) : ArenaWorld :=
  { w with
    arenas := update w.arenas a
      ((w.arenas a).map fun arena => { arena with occupants := arena.occupants + d }) }

/-! ## Warps -/

/-- What a warp and a logout do to the arena of a character. -/
def releaseArena (c : ℕ) : ArenaWorld :=
  (w.combatants c).arena.elim w fun a => w.addOccupants a (-1)

def enterNextArena (c : ℕ) : ArenaWorld :=
  (w.combatants c).nextArena.elim w fun a =>
    ((w.setArena c (some a)).addOccupants a 1).setNextArena c none

/-- `Character::Warp`. -/
def warp (c : ℕ) (map : ℤ) (x y : UInt8) : ArenaWorld :=
  if w.places.canWarp map then
    ((((w.setPlaces (w.places.warp c map)).moveTo c x y).releaseArena c).setArena c
      none).enterNextArena c
  else w

/-! ## Rounds and attacks -/

def standsOn (spawn : ArenaSpawn) (c : ℕ) : Bool :=
  (w.combatants c).x == spawn.sx && (w.combatants c).y == spawn.sy

/-- The characters that are listed on the map of an arena. -/
def listed (arena : Arena) : List ℕ := (w.places.maps arena.map).characters

def newplayers (arena : Arena) : ℕ :=
  arena.spawns.foldl (fun n spawn => n + (w.listed arena).countP (w.standsOn spawn)) 0

def spawnRound (arena : Arena) (force : Bool) : SpawnRound :=
  if w.newplayers arena = 0 then .nobody
  else if arena.block ≤ arena.occupants ∧ force = false then .blocked
  else .started (w.newplayers arena)

/-- The first one on each spawn, with where it is warped to. -/
def spawnActions (arena : Arena) : List (ℕ × UInt8 × UInt8) :=
  arena.spawns.filterMap fun spawn =>
    ((w.listed arena).find? (w.standsOn spawn)).map fun c => (c, spawn.dx, spawn.dy)

def nextRound (a : ℕ) (c : ℕ) : ArenaWorld :=
  w.setCombatant c { w.combatants c with nextArena := some a, arenaKills := 0 }

def warpAll (map : ℕ) (actions : List (ℕ × UInt8 × UInt8)) : ArenaWorld :=
  actions.foldl (fun w action => w.warp action.1 map action.2.1 action.2.2) w

/-- `Arena::Spawn`. -/
def spawn (a : ℕ) (arena : Arena) (force : Bool) : ArenaWorld :=
  match w.spawnRound arena force with
  | .started _ =>
      let actions := w.spawnActions arena
      ((actions.map Prod.fst).foldl (fun w c => w.nextRound a c) w).warpAll arena.map actions
  | _ => w

/-- Where an attack of a character goes to. -/
def target (c : ℕ) (direction : Direction) : ℤ × ℤ :=
  let x : ℤ := (w.combatants c).x.toNat
  let y : ℤ := (w.combatants c).y.toNat
  match direction with
  | .up => (x, y - 1)
  | .right => (x + 1, y)
  | .down => (x, y + 1)
  | .left => (x - 1, y)

/-- The first one in the arena where the attack goes to. -/
def victim (a : ℕ) (arena : Arena) (c : ℕ) (direction : Direction) : Option ℕ :=
  (w.listed arena).find? fun v =>
    (w.combatants v).arena == some a &&
      (((w.combatants v).x.toNat : ℤ), ((w.combatants v).y.toNat : ℤ)) == w.target c direction

/-- Who is hit, and who hit it where nobody else is left. -/
def attackActions (arena : Arena) (c v : ℕ) : List (ℕ × UInt8 × UInt8) :=
  (v, w.relog arena.map) :: if arena.occupants = 2 then [(c, w.relog arena.map)] else []

/-- `Map::Attack` by a character in an arena, whose `Arena::Attack` follows. -/
def attack (a : ℕ) (arena : Arena) (c : ℕ) (direction : Direction) : ArenaWorld :=
  let turned := w.setCombatant c { w.combatants c with direction := direction }
  (w.victim a arena c direction).elim turned fun v =>
    (turned.setCombatant c
      { turned.combatants c with
        arenaKills := (turned.combatants c).arenaKills + 1 }).warpAll arena.map
      (w.attackActions arena c v)

/-! ## Arenas that are replaced -/

/-- The characters that a new arena takes over. -/
def updateCharacters (m : ℕ) : List ℕ :=
  (w.mapArena m).elim [] fun a =>
    (w.arenas a).elim [] fun arena =>
      (w.listed arena).filter fun c => (w.combatants c).arena == some a

def deleteArena (m : ℕ) : ArenaWorld :=
  { w with
    arenas := (w.mapArena m).elim w.arenas fun a => update w.arenas a none
    mapArena := update w.mapArena m none }

def newArena (m : ℕ) (config : ArenaConfig) (address occupants : ℕ) : ArenaWorld :=
  { w with
    arenas := update w.arenas address
      (some ⟨occupants, config.block, m, ArenaConfig.spawnsOf config.spawns⟩)
    mapArena := update w.mapArena m (some address) }

/-- A character that has lost its arena is warped to where it logs in on its map. -/
def evict (c : ℕ) : ArenaWorld :=
  ((w.places.characters c).map).elim (w.setArena c none) fun m =>
    (w.setArena c none).warp c m (w.relog m).1 (w.relog m).2

def usable (config : ArenaConfig) : Bool := config.enabled && config.spawns.length % 4 == 0

/-- `Map::LoadArena`. -/
def loadArena (m : ℕ) (config : ArenaConfig) (address : ℕ) : ArenaWorld :=
  let characters := w.updateCharacters m
  if usable config then
    characters.foldl (fun w c => w.setArena c (some address))
      ((w.deleteArena m).newArena m config address characters.length)
  else characters.foldl (fun w c => w.evict c) (w.deleteArena m)

/-- `Map::Reload`, of a map whose file has changed. -/
def reload (m : ℕ) (success : Bool) (relog : UInt8 × UInt8) (config : ArenaConfig)
    (address : ℕ) : ArenaWorld :=
  let unloaded := (w.deleteArena m).setPlaces (w.places.reload m false)
  if success then
    ({ unloaded with
        places := unloaded.places.reload m true
        relog := update unloaded.relog m relog }).loadArena m config address
  else unloaded

def addMap (existing : Bool) (relog : UInt8 × UInt8) (config : ArenaConfig) (address : ℕ) :
    ArenaWorld :=
  let m := w.places.size + 1
  ({ w with
      places := w.places.addMap existing
      relog := update w.relog m relog
      mapArena := update w.mapArena m none }).loadArena m config address

/-! ## Logins and logouts -/

/-- `World::Login`. -/
def login (c : ℕ) : ArenaWorld :=
  let relog := w.relog (w.places.getMap (w.places.characters c).mapid)
  let entered := w.setPlaces (w.places.login c)
  if relog.1 ≠ 0 ∨ relog.2 ≠ 0 then entered.moveTo c relog.1 relog.2 else entered

def load (c : ℕ) (rowMap : ℤ) (x y : UInt8) (direction : Direction) : ArenaWorld :=
  (w.setPlaces (w.places.load c rowMap)).setCombatant c ⟨x, y, direction, none, none, 0⟩

def welcomeMsg (c : ℕ) (spawnMap : ℤ) (x y : UInt8) : ArenaWorld :=
  if (w.places.maps (w.places.getMap (w.places.characters c).mapid)).existing then w.login c
  else if (w.places.maps (w.places.getMap spawnMap)).existing then
    (w.warp c spawnMap x y).login c
  else w.setPlaces (w.places.welcomeMsg c spawnMap)

/-- The arena pointer of who is logged out stays as it is. -/
def logout (c : ℕ) : ArenaWorld := (w.releaseArena c).setPlaces (w.places.logout c)

def duty (c swap : ℕ) (here : Bool) : ArenaWorld :=
  let off := (w.releaseArena c).setPlaces (w.places.swapOut c swap here)
  let moved :=
    if here then
      off.setCombatant swap
        { off.combatants swap with
          x := (w.combatants c).x, y := (w.combatants c).y
          direction := (w.combatants c).direction }
    else off
  let entered := moved.login swap
  entered.warp swap (w.places.dutyMap c swap here) (entered.combatants swap).x
    (entered.combatants swap).y

def deathRespawn (c m : ℕ) (spawnMap : ℤ) (x y : UInt8) : ArenaWorld :=
  (w.setPlaces (w.places.deathRespawn c m spawnMap)).moveTo c x y

def internalWarp (c : ℕ) (spawnMap : ℤ) (x y : UInt8) : ArenaWorld :=
  (w.setPlaces (w.places.setCharacter c
    { w.places.characters c with
      map := none, queued := (w.places.characters c).queued - 1 })).warp c spawnMap x y

def presence (c : ℕ) : Presence := (w.places.characters c).presence

/-- Nothing is said of what a pointer to a deleted arena does, and a new arena is where there is
none. -/
def step : ArenaEvent → Option ArenaWorld
  | .load c rowMap x y direction =>
      if w.presence c = .away then some (w.load c rowMap x y direction) else none
  | .welcome c spawnMap x y =>
      if w.presence c = .selected then some (w.welcomeMsg c spawnMap x y) else none
  | .duty c swap here =>
      if w.presence c = .online ∧ (w.presence swap = .selected ∨ w.presence swap = .offDuty) then
        some (w.duty c swap here)
      else none
  | .move c x y direction =>
      if w.presence c = .online then
        some (w.setCombatant c
          { w.combatants c with x := x, y := y, direction := direction })
      else none
  | .warp c map x y => if w.presence c = .online then some (w.warp c map x y) else none
  | .deathRespawn c spawnMap x y =>
      if w.presence c = .online then
        (w.places.characters c).map.map fun m => w.deathRespawn c m spawnMap x y
      else none
  | .internalWarp c spawnMap x y =>
      if w.presence c = .online ∧ 0 < (w.places.characters c).queued then
        some (w.internalWarp c spawnMap x y)
      else none
  | .logout c => if w.presence c = .online then some (w.logout c) else none
  | .spawn a force => (w.arenas a).map fun arena => w.spawn a arena force
  | .attack c direction =>
      if w.presence c = .online then
        (w.combatants c).arena.bind fun a =>
          (w.arenas a).map fun arena => w.attack a arena c direction
      else none
  | .loadArena m config address =>
      if 0 < m ∧ m ≤ w.places.size ∧ (w.deleteArena m).arenas address = none then
        some (w.loadArena m config address)
      else none
  | .reload m success relog config address =>
      if 0 < m ∧ m ≤ w.places.size ∧ (w.deleteArena m).arenas address = none then
        some (w.reload m success relog config address)
      else none
  | .addMap existing relog config address =>
      if w.arenas address = none then some (w.addMap existing relog config address) else none

end ArenaWorld

end ArenaServ
