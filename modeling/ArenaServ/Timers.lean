import ArenaServ.ActionQueue
import Mathlib.Data.List.Sort
import Mathlib.Logic.Function.Basic

/-!
# Timers

A `Timer` keeps a set of pointers to its events. `Tick` goes through a copy of it, and calls the
events that are due and still in the set; the callback of one may register, unregister and delete
other events, and events that are made then may be where deleted ones have been. What happens to
each event is kept in a log, the latest first.
-/

namespace ArenaServ
open Function

structure TimeEvent where
  /-- Tells an event from those that are made at its address later. -/
  id : ℕ
  speed : ℚ
  lifetime : ℤ
  lasttime : ℚ
  manager : Bool
  deriving DecidableEq, Repr

inductive TimerEntry where
  | registered (id : ℕ) (time speed : ℚ) (lifetime : ℤ)
  | unregistered (id : ℕ)
  | deleted (id : ℕ)
  /-- In a tick, which has read the clock. -/
  | fired (id tick : ℕ) (time speed : ℚ)
  deriving DecidableEq, Repr

/-- A tick that is going on: the events that it has not come to yet, and the one whose callback
runs. -/
structure TimerTick where
  currenttime : ℚ
  todo : List ℕ
  running : Option ℕ
  deriving DecidableEq, Repr

structure TimerWorld where
  clock : Clock
  /-- The events by their addresses. -/
  heap : ℕ → Option TimeEvent
  timers : List ℕ
  execlist : List ℕ
  changed : Bool
  ticking : Option TimerTick
  ticks : ℕ
  nextId : ℕ
  log : List TimerEntry
  /-- Whether an event has been used after it was deleted. -/
  fault : Bool

inductive TimerStep where
  | create (addr : ℕ) (speed : ℚ) (lifetime : ℤ)
  | register (addr : ℕ) (ticks : UInt32)
  | unregister (addr : ℕ)
  | delete (addr : ℕ)
  | getTime (ticks : UInt32)
  | setMaxDelta (maxDelta : ℤ)
  | beginTick (ticks : UInt32)
  /-- `Tick` comes to its next event, and calls it if it is due. -/
  | visit
  /-- The callback of an event returns. -/
  | returned
  | endTick

namespace TimerWorld

def forever : ℤ := -1

/-- A timer without events. -/
def start (clock : Clock) : TimerWorld where
  clock := clock
  heap _ := none
  timers := []
  execlist := []
  changed := true
  ticking := none
  ticks := 0
  nextId := 0
  log := []
  fault := false

/-- A set of pointers is in the order of the addresses. -/
def insertTimer (addr : ℕ) (timers : List ℕ) : List ℕ :=
  if addr ∈ timers then timers else timers.orderedInsert (· ≤ ·) addr

variable (w : TimerWorld) (addr : ℕ) (e : TimeEvent)

def create (speed : ℚ) (lifetime : ℤ) : TimerWorld :=
  { w with
    heap := update w.heap addr (some ⟨w.nextId, speed, lifetime, 0, false⟩)
    nextId := w.nextId + 1 }

def register (ticks : UInt32) : TimerWorld :=
  if e.lifetime = 0 then w
  else
    let clock := w.clock.getTime ticks
    { w with
      clock := clock
      changed := true
      timers := insertTimer addr w.timers
      heap := update w.heap addr (some { e with lasttime := clock.offset, manager := true })
      log := .registered e.id clock.offset e.speed e.lifetime :: w.log }

def unregister : TimerWorld :=
  { w with
    changed := true
    timers := w.timers.erase addr
    heap := update w.heap addr (some { e with manager := false })
    log := .unregistered e.id :: w.log }

def free : TimerWorld :=
  { w with heap := update w.heap addr none, log := .deleted e.id :: w.log }

/-- An event that is deleted unregisters itself. -/
def delete : TimerWorld :=
  if e.manager then (w.unregister addr e).free addr e else w.free addr e

def beginTick (ticks : UInt32) : TimerWorld :=
  let clock := w.clock.getTime ticks
  let execlist := if w.changed then w.timers else w.execlist
  { w with
    clock := clock
    execlist := execlist
    changed := false
    ticks := w.ticks + 1
    ticking := some ⟨clock.offset, execlist, none⟩ }

/-- An event that is due, once it counts as called. -/
def due : TimeEvent :=
  { e with
    lasttime := e.lasttime + e.speed
    lifetime := if e.lifetime ≠ forever then e.lifetime - 1 else e.lifetime }

/-- The next time of an event has come. One that has no more is unregistered before its call. -/
def fire (currenttime : ℚ) (rest : List ℕ) : TimerWorld :=
  let called :=
    { w with
      heap := update w.heap addr (some (due e))
      log := .fired e.id w.ticks currenttime e.speed :: w.log
      ticking := some ⟨currenttime, rest, some addr⟩ }
  if e.lifetime ≠ forever ∧ (due e).lifetime = 0 then called.unregister addr (due e) else called

def visit (currenttime : ℚ) (rest : List ℕ) : TimerWorld :=
  if addr ∉ w.timers then { w with ticking := some ⟨currenttime, rest, none⟩ }
  else
    match w.heap addr with
    | none => { w with fault := true }
    | some e =>
        if e.lasttime + e.speed < currenttime then w.fire addr e currenttime rest
        else { w with ticking := some ⟨currenttime, rest, none⟩ }

/-- An event that is no longer registered is deleted after its call. -/
def returned (currenttime : ℚ) (rest : List ℕ) : TimerWorld :=
  match w.heap addr with
  | none => { w with fault := true }
  | some e =>
      let left := { w with ticking := some ⟨currenttime, rest, none⟩ }
      if e.manager then left else left.delete addr e

/-- The address of the event whose callback runs. -/
def running : Option ℕ := w.ticking.bind (·.running)

/-- A callback deletes other events only. -/
def step : TimerStep → Option TimerWorld
  | .create addr speed lifetime =>
      if (w.heap addr).isSome then none else some (w.create addr speed lifetime)
  | .register addr ticks => (w.heap addr).map fun e => w.register addr e ticks
  | .unregister addr => (w.heap addr).map fun e => w.unregister addr e
  | .delete addr => if w.running = some addr then none else (w.heap addr).map (w.delete addr)
  | .getTime ticks => some { w with clock := w.clock.getTime ticks }
  | .setMaxDelta maxDelta => some { w with clock := w.clock.setMaxDelta maxDelta }
  | .beginTick ticks => if w.ticking.isSome then none else some (w.beginTick ticks)
  | .visit =>
      match w.ticking with
      | some ⟨currenttime, addr :: rest, none⟩ => some (w.visit addr currenttime rest)
      | _ => none
  | .returned =>
      match w.ticking with
      | some ⟨currenttime, rest, some addr⟩ => some (w.returned addr currenttime rest)
      | _ => none
  | .endTick =>
      match w.ticking with
      | some ⟨_, [], none⟩ => some { w with ticking := none }
      | _ => none

end TimerWorld

/-! ## What a timer has to honour -/

namespace TimerLog

/-- Whether an event was registered last, and not unregistered or deleted. -/
def registered : List TimerEntry → ℕ → Bool
  | [], _ => false
  | .registered i _ _ _ :: before, id => i = id || registered before id
  | .unregistered i :: before, id => i ≠ id && registered before id
  | .deleted i :: before, id => i ≠ id && registered before id
  | .fired _ _ _ _ :: before, id => registered before id

/-- When an event is due: its speed after it was registered, or was due before. -/
def due : List TimerEntry → ℕ → ℚ
  | [], _ => 0
  | .registered i time speed _ :: before, id => if i = id then time + speed else due before id
  | .unregistered _ :: before, id => due before id
  | .deleted _ :: before, id => due before id
  | .fired i _ _ speed :: before, id => if i = id then due before id + speed else due before id

/-- How often an event has been called. -/
def fires : List TimerEntry → ℕ → ℕ
  | [], _ => 0
  | .fired i _ _ _ :: before, id => if i = id then fires before id + 1 else fires before id
  | .registered _ _ _ _ :: before, id => fires before id
  | .unregistered _ :: before, id => fires before id
  | .deleted _ :: before, id => fires before id

def firedIn : List TimerEntry → ℕ → ℕ → Bool
  | [], _, _ => false
  | .fired i k _ _ :: before, id, tick => (i = id && k = tick) || firedIn before id tick
  | .registered _ _ _ _ :: before, id, tick => firedIn before id tick
  | .unregistered _ :: before, id, tick => firedIn before id tick
  | .deleted _ :: before, id, tick => firedIn before id tick

/-- An event is called while it is registered, after it was due, once in a tick, and from its
registration on no more often than its lifetime was then. -/
structure Honoured (log : List TimerEntry) : Prop where
  calls : ∀ after before id tick time speed,
    log = after ++ .fired id tick time speed :: before →
      registered before id = true ∧ due before id < time ∧ firedIn before id tick = false
  lifetimes : ∀ after before id time speed n,
    log = after ++ .registered id time speed n :: before → 0 ≤ n → (fires after id : ℤ) ≤ n

end TimerLog

end ArenaServ
