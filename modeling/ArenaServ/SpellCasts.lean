import ArenaServ.Timers

/-!
# Casting spells

A request starts a timed event; a target may be chosen before or after the event has fired, and
the later of the two lets the spell act. Whatever moves a character cancels its spell. The cooldown
is added to the time of the next request. What a spell does to whom it affects is left out, and
what happens to the spell of a character is kept in a log, the latest first.
-/

namespace ArenaServ

inductive SpellTarget where
  | invalid
  | self
  | npc
  | player
  | group
  deriving DecidableEq, Repr

inductive SpellTargetRestrict where
  | npcOnly
  | friendly
  | opponent
  deriving DecidableEq, Repr

inductive SpellTargetType where
  | normal
  | self
  | unknown
  | group
  deriving DecidableEq, Repr

/-- What a cast reads of the data of a spell. -/
structure CastData where
  id : ℕ
  castTime : ℕ
  bard : Bool
  targetRestrict : SpellTargetRestrict
  target : SpellTargetType
  deriving DecidableEq, Repr

structure SpellConfig where
  enforceTimestamps : Bool
  spellCastCooldown : ℚ

inductive SpellEntry where
  /-- With the time when the event was registered, and its speed. -/
  | requested (time speed : ℚ)
  | targeted
  /-- With the time that the tick has read. -/
  | elapsed (currenttime : ℚ)
  | acted
  | cancelled
  | affected (time : ℚ)
  deriving DecidableEq, Repr

structure SpellCaster where
  clock : Clock
  /-- The time that a tick of the timer has read. -/
  ticking : Option ℚ
  esf : ℕ → CastData
  playerId : ℕ
  spells : List ℕ
  spellTarget : SpellTarget
  spellTargetId : ℕ
  spellEvent : Option TimeEvent
  spellReady : Bool
  spellId : ℕ
  spellFiredTime : ℚ
  timestamp : ℤ
  log : List SpellEntry

inductive SpellStep where
  | request (spellId : ℕ) (timestamp : ℤ) (ticks ticks' : UInt32)
  | targetSelf (timestamp : ℤ) (ticks : UInt32) (found : Bool)
  | targetOther (targetType victimId : ℕ) (timestamp : ℤ) (ticks : UInt32) (found : Bool)
  | targetGroup (timestamp : ℤ) (ticks : UInt32) (found : Bool)
  /-- A walk, a warp, an attack, a turn, and so on, or a logout. -/
  | cancel
  | stamp (timestamp : ℤ)
  | getTime (ticks : UInt32)
  | beginTick (ticks : UInt32)
  /-- The tick comes to the event of the spell. -/
  | visit (ticks : UInt32) (found : Bool)
  | endTick
  | setSpells (spells : List ℕ)
  | setEsf (esf : ℕ → CastData)

namespace Timestamp

def maxTs : ℤ := 8640000

def of (ts : ℤ) : ℤ := ts.tmod maxTs

/-- The difference of two times of a day. -/
def sub (a b : ℤ) : ℤ :=
  if a = -1 then b else if b = -1 then a else if a < b then a - b + maxTs else a - b

end Timestamp

namespace SpellCaster

variable (config : SpellConfig) (c : SpellCaster)

def hasSpell (spellId : ℕ) : Bool := spellId ∈ c.spells

def cancelSpell : SpellCaster :=
  { c with
    spellTarget := .invalid, spellEvent := none, spellReady := false
    log := .cancelled :: c.log }

/-- Whether a spell affects its target, which may have been found on the map. -/
def affects (spell : CastData) (spellTarget : SpellTarget) (spellTargetId : ℕ) (found : Bool) :
    Bool :=
  match spellTarget with
  | .self => spell.targetRestrict = .friendly && spell.target = .self
  | .npc => spell.targetRestrict ≠ .friendly && spell.target = .normal && found
  | .player =>
      spell.targetRestrict ≠ .npcOnly && spell.target = .normal &&
        !(spell.targetRestrict ≠ .friendly && spellTargetId = c.playerId) && found
  | .group => spell.targetRestrict = .friendly && spell.target = .group
  | .invalid => false

def spellAct (ticks : UInt32) (found : Bool) : SpellCaster :=
  let spell := c.esf c.spellId
  let acting := { c with log := .acted :: c.log }
  if spell.id = 0 ∨ spell.bard then acting.cancelSpell
  else
    let clock := c.clock.getTime ticks
    let cancelled := acting.cancelSpell
    { cancelled with
      clock := clock
      spellFiredTime := clock.offset
      log :=
        if c.affects spell c.spellTarget c.spellTargetId found then
          .affected clock.offset :: cancelled.log
        else cancelled.log }

/-- What is left of the cooldown, with the clock that has been read for it. -/
def spellCooldownTime (ticks : UInt32) : Clock × ℚ :=
  let clock := c.clock.getTime ticks
  let cooldown := c.spellFiredTime + config.spellCastCooldown - clock.offset
  (clock, if cooldown < 0 then 0 else cooldown)

/-- `Spell_Request`. -/
def spellRequest (spellId : ℕ) (timestamp : ℤ) (ticks ticks' : UInt32) : SpellCaster :=
  let cancelled := { c with timestamp := Timestamp.of timestamp }.cancelSpell
  if c.hasSpell spellId then
    let spell := c.esf spellId
    if spell.id = 0 then cancelled
    else
      let (clock, cooldown) := c.spellCooldownTime config ticks
      let speed := 47 / 100 * (spell.castTime : ℚ) + cooldown
      let registered := clock.getTime ticks'
      { cancelled with
        clock := registered
        spellId := spellId
        spellEvent := some ⟨0, speed, 1, registered.offset, true⟩
        log := .requested registered.offset speed :: cancelled.log }
  else cancelled

/-- Whether the client says that it has cast the spell too fast or too slowly. -/
def mistimed (timestamp : ℤ) : Bool :=
  let castTime : ℤ := (c.esf c.spellId).castTime
  let elapsed := Timestamp.sub (Timestamp.of timestamp) c.timestamp
  elapsed < (castTime - 1) * 47 + 35 || elapsed > max castTime 1 * 50

/-- What the handlers of the three targets do. -/
def chooseTarget (spellTarget : SpellTarget) (spellTargetId : ℕ) (timestamp : ℤ) (ticks : UInt32)
    (found : Bool) : SpellCaster :=
  if c.spellEvent.isNone && !c.spellReady then c
  else
    let chosen :=
      { c with
        spellTarget := spellTarget, spellTargetId := spellTargetId
        log := .targeted :: c.log }
    if config.enforceTimestamps && c.mistimed timestamp then chosen.cancelSpell
    else
      let stamped := { chosen with timestamp := Timestamp.of timestamp }
      if c.spellReady then stamped.spellAct ticks found else stamped

/-- `Spell_Target_Self`. -/
def spellTargetSelf (timestamp : ℤ) (ticks : UInt32) (found : Bool) : SpellCaster :=
  c.chooseTarget config .self 0 timestamp ticks found

/-- `Spell_Target_Other`. -/
def spellTargetOther (targetType victimId : ℕ) (timestamp : ℤ) (ticks : UInt32) (found : Bool) :
    SpellCaster :=
  if c.spellEvent.isNone && !c.spellReady then c
  else if targetType = 1 then c.chooseTarget config .player victimId timestamp ticks found
  else if targetType = 2 then c.chooseTarget config .npc victimId timestamp ticks found
  else c.cancelSpell

/-- `Spell_Target_Group`. -/
def spellTargetGroup (timestamp : ℤ) (ticks : UInt32) (found : Bool) : SpellCaster :=
  c.chooseTarget config .group 0 timestamp ticks found

/-- `character_cast_spell`, which the timer calls. -/
def castSpell (currenttime : ℚ) (ticks : UInt32) (found : Bool) : SpellCaster :=
  let elapsed := { c with spellEvent := none, log := .elapsed currenttime :: c.log }
  if (c.esf c.spellId).id = 0 then elapsed
  else if c.spellTarget ≠ .invalid then elapsed.spellAct ticks found
  else { elapsed with spellReady := true }

/-- The event of a spell is called when it is due by the time that the tick has read. -/
def visit (currenttime : ℚ) (ticks : UInt32) (found : Bool) : SpellCaster :=
  match c.spellEvent with
  | none => c
  | some e =>
      if e.lasttime + e.speed < currenttime then c.castSpell currenttime ticks found else c

def step : SpellStep → Option SpellCaster
  | .request spellId timestamp ticks ticks' =>
      some (c.spellRequest config spellId timestamp ticks ticks')
  | .targetSelf timestamp ticks found => some (c.spellTargetSelf config timestamp ticks found)
  | .targetOther targetType victimId timestamp ticks found =>
      some (c.spellTargetOther config targetType victimId timestamp ticks found)
  | .targetGroup timestamp ticks found => some (c.spellTargetGroup config timestamp ticks found)
  | .cancel => some c.cancelSpell
  | .stamp timestamp => some { c with timestamp := Timestamp.of timestamp }
  | .getTime ticks => some { c with clock := c.clock.getTime ticks }
  | .beginTick ticks =>
      if c.ticking.isSome then none
      else
        let clock := c.clock.getTime ticks
        some { c with clock := clock, ticking := some clock.offset }
  | .visit ticks found => c.ticking.map fun currenttime => c.visit currenttime ticks found
  | .endTick => some { c with ticking := none }
  | .setSpells spells => some { c with spells := spells }
  | .setEsf esf => some { c with esf := esf }

/-- A character that has just been loaded. -/
def loaded (clock : Clock) (esf : ℕ → CastData) (playerId : ℕ) (spells : List ℕ) :
    SpellCaster where
  clock := clock
  ticking := none
  esf := esf
  playerId := playerId
  spells := spells
  spellTarget := .invalid
  spellTargetId := 0
  spellEvent := none
  spellReady := false
  spellId := 0
  spellFiredTime := 0
  timestamp := -1
  log := []

end SpellCaster

end ArenaServ
