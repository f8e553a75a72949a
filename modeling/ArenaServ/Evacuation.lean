import ArenaServ.TimerTicks

/-!
# The evacuation of a map

`Map::Evacuate` locks its map and puts a count of steps into a record, which `map_evacuate` takes
down: once at once, and then whenever the timer calls an event that has as many times to live. The
call that finds no step left jails who is still there, unlocks the map and deletes the record.
-/

namespace ArenaServ
open Function

structure EvacuateConfig where
  length : ℕ
  tick : ℕ
  step : ℕ
  tick_pos : 0 < tick
  tick_le_step : tick ≤ step
  /-- The map of the jail, if it exists. -/
  jailMap : Option ℕ

/-- `map_evacuate_struct`. The number is that of its event, and tells it from those that are made at
its address later. -/
structure EvacuateRecord where
  number : ℕ
  map : ℕ
  step : ℕ
  deriving DecidableEq, Repr

inductive EvacuateEntry where
  | accepted (number map : ℕ)
  /-- By the timer. -/
  | fired (number : ℕ)
  /-- The sound is played to those on the map, some times with a message of the seconds left. -/
  | announced (number : ℕ) (listeners : List ℕ) (seconds : Option ℕ)
  | jailed (number map : ℕ) (victims : List ℕ)
  | released (number map : ℕ)
  deriving DecidableEq, Repr

/-- The records are at addresses, and `params` has those of the events that were made for them. -/
structure EvacuateWorld where
  timer : TimerWorld
  characters : ℕ → List ℕ
  /-- Who is a guide at least. -/
  guide : ℕ → Bool
  lock : ℕ → Bool
  records : ℕ → Option EvacuateRecord
  params : ℕ → Option ℕ
  log : List EvacuateEntry
  /-- Whether a record has been used after it was deleted, or a count divided by zero. -/
  fault : Bool

/-- The other events of the timer, and what becomes of the characters, are up to the rest of the
server. -/
inductive EvacuateStep where
  | evacuate (map record event : ℕ) (ticks : UInt32)
  | timer (op : TimerStep)
  | place (map : ℕ) (characters : List ℕ)
  | rank (c : ℕ) (guide : Bool)

namespace EvacuateConfig
variable (config : EvacuateConfig)

def ticks : ℕ := config.length / config.tick

def ticksPerStep : ℕ := config.step / config.tick

end EvacuateConfig

namespace EvacuateWorld

def start (clock : Clock) (characters : ℕ → List ℕ) (guide : ℕ → Bool) : EvacuateWorld where
  timer := TimerWorld.start clock
  characters := characters
  guide := guide
  lock _ := false
  records _ := none
  params _ := none
  log := []
  fault := false

variable (config : EvacuateConfig) (w : EvacuateWorld)

def write (entry : EvacuateEntry) : EvacuateWorld := { w with log := entry :: w.log }

/-! ## `map_evacuate` -/

def announce (record : ℕ) (evac : EvacuateRecord) : EvacuateWorld :=
  if config.ticksPerStep = 0 then { w with fault := true }
  else
    { w with
      records := update w.records record (some { evac with step := evac.step - 1 })
      log :=
        .announced evac.number (w.characters evac.map)
          (if evac.step % config.ticksPerStep = 0 then
            some (evac.step / config.ticksPerStep * config.step) else none) :: w.log }

def remaining (m : ℕ) : List ℕ := (w.characters m).filter fun c => !w.guide c

/-- `World::Jail`, which warps to the map of the jail. -/
def jail (m : ℕ) (characters : ℕ → List ℕ) (c : ℕ) : ℕ → List ℕ :=
  config.jailMap.elim characters fun j =>
    let left := update characters m ((characters m).filter (· ≠ c))
    update left j (left j ++ [c])

def release (record : ℕ) (evac : EvacuateRecord) : EvacuateWorld :=
  { w with
    characters := (w.remaining evac.map).foldl (jail config evac.map) w.characters
    lock := update w.lock evac.map false
    records := update w.records record none
    log :=
      .released evac.number evac.map ::
        .jailed evac.number evac.map (w.remaining evac.map) :: w.log }

def mapEvacuate (record : ℕ) : EvacuateWorld :=
  (w.records record).elim { w with fault := true } fun evac =>
    if 0 < evac.step then w.announce config record evac else w.release config record evac

/-! ## Steps -/

def event : TimeEvent := ⟨w.timer.nextId, config.tick, config.ticks, 0, false⟩

/-- `Map::Evacuate` of a map that is not locked, up to its call of `map_evacuate`. -/
def accept (m record addr : ℕ) (ticks : UInt32) : EvacuateWorld :=
  { w with
    timer :=
      (w.timer.create addr config.tick config.ticks).register addr (w.event config) ticks
    lock := update w.lock m true
    records := update w.records record (some ⟨w.timer.nextId, m, config.ticks⟩)
    params := update w.params w.timer.nextId (some record)
    log := .accepted w.timer.nextId m :: w.log }

/-- Whether an event is that of an evacuation. -/
def owns (addr : ℕ) : Bool := (w.timer.heap addr).any fun e => (w.params e.id).isSome

/-- The evacuation that a step of the timer has called, and its record. -/
def calledRecord (op : TimerStep) (timer : TimerWorld) : Option (ℕ × ℕ) :=
  (TimerWorld.calls op timer).bind fun addr =>
    (timer.heap addr).bind fun e => (w.params e.id).map fun record => (e.id, record)

/-- Nobody else has a pointer to the event of an evacuation. -/
def step : EvacuateStep → Option EvacuateWorld
  | .evacuate m record addr ticks =>
      if w.lock m then some w
      else if (w.records record).isSome ∨ (w.timer.heap addr).isSome then none
      else some ((w.accept config m record addr ticks).mapEvacuate config record)
  | .timer op =>
      if (TimerWorld.target op).any w.owns then none
      else
        (w.timer.step op).map fun timer =>
          (w.calledRecord op timer).elim { w with timer := timer } fun call =>
            ({ w with timer := timer }.write (.fired call.1)).mapEvacuate config call.2
  | .place m characters => some { w with characters := update w.characters m characters }
  | .rank c guide => some { w with guide := update w.guide c guide }

end EvacuateWorld

/-! ## What an evacuation has to be -/

namespace EvacuateEntry

/-- The evacuation that an entry is about. -/
def number : EvacuateEntry → ℕ
  | .accepted n _ => n
  | .fired n => n
  | .announced n _ _ => n
  | .jailed n _ _ => n
  | .released n _ => n

def accepting : EvacuateEntry → Option ℕ
  | .accepted n _ => some n
  | _ => none

def jailing : EvacuateEntry → Option ℕ
  | .jailed n _ _ => some n
  | _ => none

end EvacuateEntry

namespace EvacuateLog

def fires (log : List EvacuateEntry) (number : ℕ) : ℕ := log.countP (· == .fired number)

def jailings (log : List EvacuateEntry) (number : ℕ) : ℕ :=
  log.countP (·.jailing == some number)

/-- Each evacuation of so many steps is called no more often, and jails once, in its last call, or
at once if it has no steps; its map is released then. -/
structure Orderly (steps : ℕ) (log : List EvacuateEntry) : Prop where
  apart : (log.filterMap EvacuateEntry.accepting).Nodup
  fires : ∀ number m, .accepted number m ∈ log → fires log number ≤ steps
  once : ∀ number m, .accepted number m ∈ log →
    jailings log number = if EvacuateLog.fires log number = steps then 1 else 0
  last : ∀ after before number m victims, log = after ++ .jailed number m victims :: before →
    EvacuateLog.fires before number = steps ∧
      before.head? = some (if steps = 0 then .accepted number m else .fired number) ∧
      after.getLast? = some (.released number m)
  released : ∀ after before number m, log = after ++ .released number m :: before →
    ∃ victims, before.head? = some (.jailed number m victims)

end EvacuateLog

namespace EvacuateWorld
open EvacuateLog

/-- An evacuation that has begun and has not jailed. -/
def Pending (w : EvacuateWorld) (number m : ℕ) : Prop :=
  .accepted number m ∈ w.log ∧ jailings w.log number = 0

end EvacuateWorld

end ArenaServ
