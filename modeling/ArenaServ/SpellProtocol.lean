import ArenaServ.SpellCasts
import Mathlib.Tactic.Linarith

/-!
# The protocol of a spell

Since the last request nothing but a target and the timer comes before a spell acts, and no
request is due before the cooldown of the last spell is over.
-/

namespace ArenaServ

namespace SpellLog

/-- What leaves a request as it is. -/
def quiet : SpellEntry → Bool
  | .targeted => true
  | .elapsed _ => true
  | .requested _ _ => false
  | .acted => false
  | .cancelled => false
  | .affected _ => false

def sinceRequest (log : List SpellEntry) : List SpellEntry := log.takeWhile quiet

/-- What came before the targets and the timer. -/
def lastOther (log : List SpellEntry) : Option SpellEntry := (log.dropWhile quiet).head?

/-- A request whose time is over and that has a target, with nothing else since. -/
def Castable (log : List SpellEntry) : Prop :=
  ∃ time speed currenttime, lastOther log = some (.requested time speed) ∧
    .targeted ∈ sinceRequest log ∧ .elapsed currenttime ∈ sinceRequest log ∧
    time + speed < currenttime

/-- A spell acts only for a request that is castable, which it uses up, it affects something only
when it acts, and then not before the cooldown is over. -/
structure Protocol (cooldown : ℚ) (log : List SpellEntry) : Prop where
  acts : ∀ after before, log = after ++ .acted :: before → Castable before
  affects : ∀ after before time, log = after ++ .affected time :: before →
    ∃ rest, before = .cancelled :: .acted :: rest
  cooldown : ∀ after before time time', log = after ++ .affected time' :: before →
    .affected time ∈ before → time + cooldown ≤ time'

variable {entry : SpellEntry} {log before : List SpellEntry} {cooldown : ℚ}

theorem lastOther_cons_of_quiet (h : quiet entry = true) :
    lastOther (entry :: log) = lastOther log := by
  unfold lastOther
  rw [List.dropWhile_cons_of_pos h]

theorem sinceRequest_cons_of_quiet (h : quiet entry = true) :
    sinceRequest (entry :: log) = entry :: sinceRequest log := by
  unfold sinceRequest
  rw [List.takeWhile_cons_of_pos h]

theorem lastOther_cons (h : quiet entry = false) : lastOther (entry :: log) = some entry := by
  unfold lastOther
  rw [List.dropWhile_cons_of_neg (by simp [h])]
  rfl

theorem mem_sinceRequest_cons {x : SpellEntry} (hentry : quiet entry = true)
    (hx : x ∈ sinceRequest log) : x ∈ sinceRequest (entry :: log) := by
  rw [sinceRequest_cons_of_quiet hentry]
  exact List.mem_cons_of_mem entry hx

/-- A rule about each entry and what came before it. -/
theorem forall_split_cons {P : SpellEntry → List SpellEntry → Prop}
    (h : ∀ after x before, log = after ++ x :: before → P x before) (hentry : P entry log) :
    ∀ after x before, entry :: log = after ++ x :: before → P x before := by
  intro after x before hsplit
  cases after with
  | nil =>
      obtain ⟨hx, hlog⟩ := List.cons.inj hsplit
      rw [← hx, ← hlog]
      exact hentry
  | cons y after =>
      obtain ⟨-, hlog⟩ := List.cons.inj hsplit
      exact h after x before hlog

/-- What the protocol says of an entry and what came before it. -/
structure Follows (cooldown : ℚ) (entry : SpellEntry) (before : List SpellEntry) : Prop where
  acts : entry = .acted → Castable before
  affects : ∀ time, entry = .affected time → ∃ rest, before = .cancelled :: .acted :: rest
  cooldown : ∀ time time', entry = .affected time' → .affected time ∈ before →
    time + cooldown ≤ time'

theorem protocol_iff : Protocol cooldown log ↔
    ∀ after x before, log = after ++ x :: before → Follows cooldown x before := by
  constructor
  · intro h after x before hsplit
    refine ⟨?_, ?_, ?_⟩
    · rintro rfl
      exact h.acts after before hsplit
    · rintro time rfl
      exact h.affects after before time hsplit
    · rintro time time' rfl hmem
      exact h.cooldown after before time time' hsplit hmem
  · intro h
    refine ⟨?_, ?_, ?_⟩
    · exact fun after before hsplit => (h after .acted before hsplit).acts rfl
    · exact fun after before time hsplit => (h after _ before hsplit).affects time rfl
    · exact fun after before time time' hsplit hmem =>
        (h after _ before hsplit).cooldown time time' rfl hmem

theorem Protocol.cons (h : Protocol cooldown log) (hentry : Follows cooldown entry log) :
    Protocol cooldown (entry :: log) :=
  protocol_iff.mpr (forall_split_cons (protocol_iff.mp h) hentry)

theorem protocol_nil : Protocol cooldown [] := by
  rw [protocol_iff]
  intro after x before hsplit
  exact absurd hsplit.symm (List.append_ne_nil_of_right_ne_nil after (List.cons_ne_nil _ _))

/-- What is neither an act nor an effect follows anything. -/
theorem follows_of_plain (hact : entry ≠ .acted) (haffect : ∀ time, entry ≠ .affected time) :
    Follows cooldown entry log where
  acts := fun h => absurd h hact
  affects := fun time h => absurd h (haffect time)
  cooldown := fun _ time' h => absurd h (haffect time')

end SpellLog

namespace SpellCaster
open SpellLog

/-- The state of a spell is what the log says of it. -/
structure Keeps (config : SpellConfig) (c : SpellCaster) : Prop where
  protocol : Protocol config.spellCastCooldown c.log
  ticking : ∀ currenttime, c.ticking = some currenttime → currenttime ≤ c.clock.offset
  affected : ∀ time, .affected time ∈ c.log →
    time ≤ c.spellFiredTime ∧ c.spellFiredTime ≤ c.clock.offset
  event : ∀ e, c.spellEvent = some e → lastOther c.log = some (.requested e.lasttime e.speed) ∧
    c.spellFiredTime + config.spellCastCooldown ≤ e.lasttime + e.speed
  ready : c.spellReady = true → ∃ time speed currenttime,
    lastOther c.log = some (.requested time speed) ∧ .elapsed currenttime ∈ sinceRequest c.log ∧
      time + speed < currenttime ∧
      c.spellFiredTime + config.spellCastCooldown ≤ c.clock.offset
  target : c.spellTarget ≠ .invalid → c.spellEvent.isSome ∨ c.spellReady = true →
    .targeted ∈ sinceRequest c.log
  apart : c.spellEvent.isSome → c.spellReady = false

variable {config : SpellConfig} {c c' : SpellCaster}

theorem keeps_loaded (clock : Clock) (esf : ℕ → CastData) (playerId : ℕ) (spells : List ℕ) :
    (loaded clock esf playerId spells).Keeps config where
  protocol := protocol_nil
  ticking := fun _ h => by cases h
  affected := fun _ h => absurd h List.not_mem_nil
  event := fun _ h => by cases h
  ready := fun h => by cases h
  target := fun h => absurd rfl h
  apart := fun _ => rfl

/-- No spell is asked for any more. -/
theorem Keeps.of_idle (h : c.Keeps config) (hevent : c'.spellEvent = none)
    (hready : c'.spellReady = false) (hprotocol : Protocol config.spellCastCooldown c'.log)
    (hticking : c'.ticking = c.ticking) (hclock : c.clock.offset ≤ c'.clock.offset)
    (haffected : ∀ time, .affected time ∈ c'.log →
      time ≤ c'.spellFiredTime ∧ c'.spellFiredTime ≤ c'.clock.offset) : c'.Keeps config where
  protocol := hprotocol
  ticking := by
    intro currenttime htick
    rw [hticking] at htick
    exact le_trans (h.ticking currenttime htick) hclock
  affected := haffected
  event := by
    intro e he
    rw [hevent] at he
    cases he
  ready := by
    intro hr
    rw [hready] at hr
    cases hr
  target := by
    rintro - (he | hr)
    · rw [hevent] at he
      cases he
    · rw [hready] at hr
      cases hr
  apart := fun _ => hready

theorem Keeps.cancelSpell (h : c.Keeps config) : c.cancelSpell.Keeps config := by
  apply h.of_idle rfl rfl
  · exact h.protocol.cons (follows_of_plain (fun heq => by cases heq) (fun _ heq => by cases heq))
  · rfl
  · exact le_refl _
  · intro time hmem
    rcases List.mem_cons.mp hmem with heq | hmem
    · cases heq
    · exact h.affected time hmem

/-- A spell that acts has its request cancelled. -/
theorem protocol_acted {log : List SpellEntry} {cooldown : ℚ} (h : Protocol cooldown log)
    (hcastable : Castable log) : Protocol cooldown (.cancelled :: .acted :: log) := by
  apply Protocol.cons
  · apply h.cons
    exact ⟨fun _ => hcastable, (fun _ heq => by cases heq), (fun _ _ heq => by cases heq)⟩
  · exact follows_of_plain (fun heq => by cases heq) (fun _ heq => by cases heq)

/-- A spell acts, once its request is castable and the cooldown is over. -/
theorem Keeps.spellAct (h : c.Keeps config) (hcastable : Castable c.log)
    (hover : c.spellFiredTime + config.spellCastCooldown ≤ c.clock.offset) (ticks : UInt32)
    (found : Bool) : (c.spellAct ticks found).Keeps config := by
  have hprotocol := protocol_acted h.protocol hcastable
  have hmem : ∀ time, .affected time ∈ SpellEntry.cancelled :: .acted :: c.log →
      .affected time ∈ c.log := by
    intro time htime
    simpa using htime
  unfold SpellCaster.spellAct
  dsimp only
  by_cases hnothing : (c.esf c.spellId).id = 0 ∨ (c.esf c.spellId).bard = true
  · rw [if_pos hnothing]
    apply h.of_idle
    · rfl
    · rfl
    · exact hprotocol
    · rfl
    · exact le_refl _
    · exact fun time htime => h.affected time (hmem time htime)
  rw [if_neg hnothing]
  have hclock : c.clock.offset ≤ (c.clock.getTime ticks).offset :=
    c.clock.offset_le_getTime ticks
  have hold : ∀ time, .affected time ∈ c.log → time ≤ (c.clock.getTime ticks).offset := by
    intro time htime
    obtain ⟨hfired, hoffset⟩ := h.affected time htime
    exact le_trans (le_trans hfired hoffset) hclock
  by_cases haffects : c.affects (c.esf c.spellId) c.spellTarget c.spellTargetId found = true
  · rw [if_pos haffects]
    apply h.of_idle
    · rfl
    · rfl
    · apply hprotocol.cons
      refine ⟨(fun heq => by cases heq), (fun _ _ => ⟨c.log, rfl⟩), ?_⟩
      intro time time' heq htime
      cases heq
      have hfired := (h.affected time (hmem time htime)).1
      linarith
    · rfl
    · exact hclock
    · intro time htime
      rcases List.mem_cons.mp htime with heq | htime
      · cases heq
        exact ⟨le_refl _, le_refl _⟩
      · exact ⟨hold time (hmem time htime), le_refl _⟩
  · rw [if_neg haffects]
    apply h.of_idle
    · rfl
    · rfl
    · exact hprotocol
    · rfl
    · exact hclock
    · exact fun time htime => ⟨hold time (hmem time htime), le_refl _⟩

theorem Keeps.of_clock (h : c.Keeps config) {clock : Clock}
    (hclock : c.clock.offset ≤ clock.offset) : Keeps config { c with clock := clock } where
  protocol := h.protocol
  ticking := fun currenttime ht => le_trans (h.ticking currenttime ht) hclock
  affected := fun time ht => ⟨(h.affected time ht).1, le_trans (h.affected time ht).2 hclock⟩
  event := h.event
  ready := by
    intro hready
    obtain ⟨time, speed, currenttime, hlast, hmem, hdue, hover⟩ := h.ready hready
    exact ⟨time, speed, currenttime, hlast, hmem, hdue, le_trans hover hclock⟩
  target := h.target
  apart := h.apart

theorem Keeps.spellRequest (h : c.Keeps config) (spellId : ℕ) (timestamp : ℤ)
    (ticks ticks' : UInt32) :
    (c.spellRequest config spellId timestamp ticks ticks').Keeps config := by
  have hcancelled : Keeps config { c with timestamp := Timestamp.of timestamp }.cancelSpell :=
    Keeps.cancelSpell ⟨h.protocol, h.ticking, h.affected, h.event, h.ready, h.target, h.apart⟩
  unfold SpellCaster.spellRequest
  dsimp only
  split_ifs
  · exact hcancelled
  · have hfirst : c.clock.offset ≤ (c.clock.getTime ticks).offset :=
      c.clock.offset_le_getTime ticks
    have hsecond : (c.clock.getTime ticks).offset ≤
        ((c.clock.getTime ticks).getTime ticks').offset :=
      (c.clock.getTime ticks).offset_le_getTime ticks'
    have hclock := le_trans hfirst hsecond
    -- the cooldown that is left goes into the speed of the event
    have hover : c.spellFiredTime + config.spellCastCooldown ≤
        (c.clock.getTime ticks).offset + (c.spellCooldownTime config ticks).2 := by
      unfold spellCooldownTime
      dsimp only
      split_ifs with hless
      · linarith
      · linarith
    have hcast : 0 ≤ 47 / 100 * ((c.esf spellId).castTime : ℚ) :=
      mul_nonneg (by norm_num) (Nat.cast_nonneg _)
    change Keeps config
      { { c with timestamp := Timestamp.of timestamp }.cancelSpell with
        clock := (c.clock.getTime ticks).getTime ticks'
        spellId := spellId
        spellEvent := some ⟨0, 47 / 100 * ((c.esf spellId).castTime : ℚ) +
          (c.spellCooldownTime config ticks).2, 1, ((c.clock.getTime ticks).getTime ticks').offset,
          true⟩
        log := .requested ((c.clock.getTime ticks).getTime ticks').offset
          (47 / 100 * ((c.esf spellId).castTime : ℚ) + (c.spellCooldownTime config ticks).2) ::
            .cancelled :: c.log }
    refine ⟨?_, ?_, ?_, ?_, ?_, ?_, fun _ => rfl⟩
    · apply hcancelled.protocol.cons
      exact follows_of_plain (fun heq => by cases heq) (fun _ heq => by cases heq)
    · exact fun currenttime ht => le_trans (h.ticking currenttime ht) hclock
    · intro time htime
      have hmem : .affected time ∈ c.log := by simpa using htime
      exact ⟨(h.affected time hmem).1, le_trans (h.affected time hmem).2 hclock⟩
    · intro e he
      cases he
      refine ⟨lastOther_cons rfl, ?_⟩
      change c.spellFiredTime + config.spellCastCooldown ≤ _
      dsimp only
      linarith
    · intro hready
      cases hready
    · exact fun hvalid => absurd rfl hvalid
  · exact hcancelled

/-- A target that is chosen before the timer has fired, or after it. -/
theorem Keeps.chooseTarget (h : c.Keeps config) (spellTarget : SpellTarget) (spellTargetId : ℕ)
    (timestamp : ℤ) (ticks : UInt32) (found : Bool) :
    (c.chooseTarget config spellTarget spellTargetId timestamp ticks found).Keeps config := by
  unfold SpellCaster.chooseTarget
  dsimp only
  by_cases hidle : (c.spellEvent.isNone && !c.spellReady) = true
  · rw [if_pos hidle]
    exact h
  rw [if_neg hidle]
  have hmem : ∀ {x : SpellEntry}, x ∈ sinceRequest c.log → x ∈ sinceRequest (.targeted :: c.log) :=
    fun hx => mem_sinceRequest_cons rfl hx
  have hnew : .targeted ∈ sinceRequest (.targeted :: c.log) := by
    rw [sinceRequest_cons_of_quiet rfl]
    exact List.mem_cons_self
  have hchosen : ∀ timestamp, Keeps config
      { c with
        timestamp := timestamp
        spellTarget := spellTarget, spellTargetId := spellTargetId
        log := .targeted :: c.log } := by
    intro timestamp
    refine ⟨?_, h.ticking, ?_, ?_, ?_, (fun _ _ => hnew), h.apart⟩
    · apply h.protocol.cons
      exact follows_of_plain (fun heq => by cases heq) (fun _ heq => by cases heq)
    · intro time htime
      exact h.affected time (by simpa using htime)
    · intro e he
      rw [lastOther_cons_of_quiet rfl]
      exact h.event e he
    · intro hready
      obtain ⟨time, speed, currenttime, hlast, hin, hdue, hover⟩ := h.ready hready
      exact ⟨time, speed, currenttime, (lastOther_cons_of_quiet rfl).trans hlast, hmem hin, hdue,
        hover⟩
  split_ifs with henforced hready
  · exact (hchosen c.timestamp).cancelSpell
  · obtain ⟨time, speed, currenttime, hlast, hin, hdue, hover⟩ := h.ready hready
    apply (hchosen (Timestamp.of timestamp)).spellAct
    · exact ⟨time, speed, currenttime, (lastOther_cons_of_quiet rfl).trans hlast, hnew, hmem hin,
        hdue⟩
    · exact hover
  · exact hchosen (Timestamp.of timestamp)

/-- The timer fires before a target is chosen, or after it. -/
theorem Keeps.visit (h : c.Keeps config) {currenttime : ℚ} (ht : c.ticking = some currenttime)
    (ticks : UInt32) (found : Bool) : (c.visit currenttime ticks found).Keeps config := by
  unfold SpellCaster.visit
  cases he : c.spellEvent with
  | none => exact h
  | some e =>
      dsimp only
      by_cases hdue : e.lasttime + e.speed < currenttime
      swap
      · rw [if_neg hdue]
        exact h
      rw [if_pos hdue]
      obtain ⟨hlast, hcool⟩ := h.event e he
      have hoffset := h.ticking currenttime ht
      have hover : c.spellFiredTime + config.spellCastCooldown ≤ c.clock.offset := by linarith
      have hin : .elapsed currenttime ∈ sinceRequest (.elapsed currenttime :: c.log) := by
        rw [sinceRequest_cons_of_quiet rfl]
        exact List.mem_cons_self
      have hprotocol : Protocol config.spellCastCooldown (.elapsed currenttime :: c.log) := by
        apply h.protocol.cons
        exact follows_of_plain (fun heq => by cases heq) (fun _ heq => by cases heq)
      have haffected : ∀ time, .affected time ∈ SpellEntry.elapsed currenttime :: c.log →
          time ≤ c.spellFiredTime ∧ c.spellFiredTime ≤ c.clock.offset :=
        fun time htime => h.affected time (by simpa using htime)
      have hsome : c.spellEvent.isSome := by
        rw [he]
        rfl
      have helapsed : Keeps config
          { c with spellEvent := none, log := .elapsed currenttime :: c.log } := by
        apply h.of_idle
        · rfl
        · exact h.apart hsome
        · exact hprotocol
        · rfl
        · exact le_refl _
        · exact haffected
      have hrequest : lastOther (.elapsed currenttime :: c.log) =
          some (.requested e.lasttime e.speed) := (lastOther_cons_of_quiet rfl).trans hlast
      unfold castSpell
      dsimp only
      split_ifs with hnothing hvalid
      · exact helapsed
      · apply helapsed.spellAct
        · exact ⟨e.lasttime, e.speed, currenttime, hrequest,
            mem_sinceRequest_cons rfl (h.target hvalid (Or.inl hsome)), hin, hdue⟩
        · exact hover
      · refine ⟨hprotocol, h.ticking, haffected, (fun _ he => by cases he), ?_, ?_,
          (fun he => by cases he)⟩
        · exact fun _ => ⟨e.lasttime, e.speed, currenttime, hrequest, hin, hdue, hover⟩
        · exact fun hvalid' => absurd hvalid' hvalid

theorem Keeps.step {op : SpellStep} (h : c.Keeps config) (hs : c.step config op = some c') :
    c'.Keeps config := by
  cases op with
  | request spellId timestamp ticks ticks' =>
      cases hs
      exact h.spellRequest spellId timestamp ticks ticks'
  | targetSelf timestamp ticks found =>
      cases hs
      exact h.chooseTarget .self 0 timestamp ticks found
  | targetOther targetType victimId timestamp ticks found =>
      cases hs
      unfold spellTargetOther
      split_ifs
      · exact h
      · exact h.chooseTarget .player victimId timestamp ticks found
      · exact h.chooseTarget .npc victimId timestamp ticks found
      · exact h.cancelSpell
  | targetGroup timestamp ticks found =>
      cases hs
      exact h.chooseTarget .group 0 timestamp ticks found
  | cancel =>
      cases hs
      exact h.cancelSpell
  | stamp timestamp =>
      cases hs
      exact ⟨h.protocol, h.ticking, h.affected, h.event, h.ready, h.target, h.apart⟩
  | getTime ticks =>
      cases hs
      exact h.of_clock (c.clock.offset_le_getTime ticks)
  | beginTick ticks =>
      unfold SpellCaster.step at hs
      dsimp only at hs
      split_ifs at hs
      cases hs
      have hread := h.of_clock (c.clock.offset_le_getTime ticks)
      refine ⟨hread.protocol, ?_, hread.affected, hread.event, hread.ready, hread.target,
        hread.apart⟩
      intro currenttime ht
      cases ht
      exact le_refl _
  | visit ticks found =>
      obtain ⟨currenttime, ht, rfl⟩ := Option.map_eq_some_iff.mp hs
      exact h.visit ht ticks found
  | endTick =>
      cases hs
      exact ⟨h.protocol, (fun _ ht => by cases ht), h.affected, h.event, h.ready, h.target, h.apart⟩
  | setSpells spells =>
      cases hs
      exact ⟨h.protocol, h.ticking, h.affected, h.event, h.ready, h.target, h.apart⟩
  | setEsf esf =>
      cases hs
      exact ⟨h.protocol, h.ticking, h.affected, h.event, h.ready, h.target, h.apart⟩

/-- In every run of requests, targets, cancellations and ticks, a spell acts at most once for a
request, after its time is over and a target has been chosen, with no cancellation since, and what
spells affect is at least the cooldown apart. -/
theorem protocol_of_reaches (config : SpellConfig) (clock : Clock) (esf : ℕ → CastData)
    (playerId : ℕ) (spells : List ℕ) (steps : List SpellStep) (t : SpellCaster)
    (ht : RunSteps.Reaches (step config) (loaded clock esf playerId spells) steps t) :
    Protocol config.spellCastCooldown t.log := by
  have hany : RunSteps.Every (step config) (fun _ _ => True)
      (loaded clock esf playerId spells) steps :=
    RunSteps.every_of_forall (fun _ _ => trivial) _ steps
  have hkeeps : t.Keeps config := RunSteps.invariant_of_every (Keeps config)
    (fun c op c' h _ hs => h.step hs) (keeps_loaded clock esf playerId spells) hany ht
  exact hkeeps.protocol

/-- A healing spell that takes 0.47 seconds. -/
def heal (_ : ℕ) : CastData := ⟨1, 1, false, .friendly, .self⟩

/-- It is cast twice: with the target before the timer, and with the timer before the target. -/
def healing : List SpellStep :=
  [.request 1 0 0 0, .targetSelf 47 0 true, .beginTick 1100, .visit 1100 true, .endTick,
    .request 1 100 1100 1100, .beginTick 2200, .visit 2200 true, .endTick,
    .targetSelf 200 2200 true]

theorem protocol_of_reaches_heal :
    ∃ t, RunSteps.Reaches (step ⟨false, 3 / 5⟩) (loaded ⟨0, 0, 2000⟩ heal 1 [1]) healing t ∧
      t.log.filter (· = .affected (11 / 5)) = [.affected (11 / 5)] ∧ Protocol (3 / 5) t.log := by
  have hend : (RunSteps.run (step ⟨false, 3 / 5⟩) (loaded ⟨0, 0, 2000⟩ heal 1 [1]) healing).map
      (fun t => t.log.filter (· = .affected (11 / 5))) = some [.affected (11 / 5)] := by
    decide +kernel
  obtain ⟨t, ht, hlog⟩ := Option.map_eq_some_iff.mp hend
  have hreaches := RunSteps.reaches_of_run ht
  exact ⟨t, hreaches, hlog, protocol_of_reaches ⟨false, 3 / 5⟩ ⟨0, 0, 2000⟩ heal 1 [1] healing t
    hreaches⟩

end SpellCaster

end ArenaServ
