import ArenaServ.Evacuation

/-!
# Evacuations run to their end

The record of an evacuation has one step less than its event has times to live, except in a call of
`map_evacuate`, where both are the same.
-/

namespace ArenaServ
open Function

namespace EvacuateLog

variable {entry : EvacuateEntry} {log : List EvacuateEntry} {n number : ℕ}

theorem fires_cons (entry : EvacuateEntry) (log : List EvacuateEntry) (number : ℕ) :
    fires (entry :: log) number = fires log number + if entry = .fired number then 1 else 0 := by
  unfold fires
  rw [List.countP_cons]
  simp only [beq_iff_eq]

theorem jailings_cons (entry : EvacuateEntry) (log : List EvacuateEntry) (number : ℕ) :
    jailings (entry :: log) number =
      jailings log number + if entry.jailing = some number then 1 else 0 := by
  unfold jailings
  rw [List.countP_cons]
  simp only [beq_iff_eq]

theorem jailing_eq_none (h : entry.number ≠ number) : entry.jailing ≠ some number := by
  intro heq
  cases entry with
  | jailed k m victims => exact h (Option.some.inj heq)
  | _ => cases heq

/-- What the log says about one evacuation does not depend on the other ones. -/
theorem fires_cons_of_ne (h : entry.number ≠ number) :
    fires (entry :: log) number = fires log number := by
  rw [fires_cons, if_neg, Nat.add_zero]
  rintro rfl
  exact h rfl

theorem fires_fired_of_ne {k : ℕ} (h : k ≠ number) :
    fires (.fired k :: log) number = fires log number := fires_cons_of_ne h

theorem jailings_cons_of_ne (h : entry.number ≠ number) :
    jailings (entry :: log) number = jailings log number := by
  rw [jailings_cons, if_neg (jailing_eq_none h), Nat.add_zero]

theorem jailings_cons_of_none (h : entry.jailing = none) (number : ℕ) :
    jailings (entry :: log) number = jailings log number := by
  rw [jailings_cons, h, if_neg (fun heq => by cases heq), Nat.add_zero]

theorem unmentioned (h : ∀ entry ∈ log, entry.number ≠ number) :
    fires log number = 0 ∧ jailings log number = 0 ∧ number ∉ log.filterMap (·.accepting) := by
  refine ⟨?_, ?_, ?_⟩
  · apply List.countP_eq_zero.mpr
    intro entry hentry heq
    rw [beq_iff_eq] at heq
    exact h entry hentry (by rw [heq]; rfl)
  · apply List.countP_eq_zero.mpr
    intro entry hentry heq
    rw [beq_iff_eq] at heq
    exact jailing_eq_none (h entry hentry) heq
  · intro hmem
    obtain ⟨entry, hentry, haccept⟩ := List.mem_filterMap.mp hmem
    apply h entry hentry
    cases entry with
    | accepted k m => exact Option.some.inj haccept
    | _ => cases haccept

/-! ## What a log keeps when it grows -/

/-- What an evacuation that jails has come to. -/
def Jails (steps : ℕ) (before after : List EvacuateEntry) (number m : ℕ) : Prop :=
  fires before number = steps ∧
    before.head? = some (if steps = 0 then .accepted number m else .fired number) ∧
    after.getLast? = some (.released number m)

structure Shaped (steps : ℕ) (log : List EvacuateEntry) : Prop where
  apart : (log.filterMap EvacuateEntry.accepting).Nodup
  last : ∀ after before number m victims, log = after ++ .jailed number m victims :: before →
    Jails steps before after number m
  released : ∀ after before number m, log = after ++ .released number m :: before →
    ∃ victims, before.head? = some (.jailed number m victims)

theorem shaped_nil : Shaped n [] where
  apart := List.nodup_nil
  last := by
    intro after before number m victims h
    exact absurd h.symm (List.append_ne_nil_of_right_ne_nil after (List.cons_ne_nil _ _))
  released := by
    intro after before number m h
    exact absurd h.symm (List.append_ne_nil_of_right_ne_nil after (List.cons_ne_nil _ _))

theorem split_cons {x : EvacuateEntry} {after before : List EvacuateEntry}
    (h : entry :: log = after ++ x :: before) :
    (after = [] ∧ entry = x ∧ log = before) ∨
      ∃ after', after = entry :: after' ∧ log = after' ++ x :: before := by
  cases after with
  | nil =>
      obtain ⟨hentry, hlog⟩ := List.cons.inj h
      exact Or.inl ⟨rfl, hentry, hlog⟩
  | cons y after' =>
      obtain ⟨hentry, hlog⟩ := List.cons.inj h
      rw [hentry]
      exact Or.inr ⟨after', rfl, hlog⟩

theorem Jails.cons {before after : List EvacuateEntry} {m : ℕ} (h : Jails n before after number m) :
    Jails n before (entry :: after) number m := by
  obtain ⟨hfires, hhead, hlast⟩ := h
  refine ⟨hfires, hhead, ?_⟩
  rw [List.getLast?_cons, hlast]
  rfl

/-- An entry that is neither a jailing nor a release. -/
theorem Shaped.cons (h : Shaped n log) (hjail : entry.jailing = none)
    (hrelease : ∀ number m, entry ≠ .released number m)
    (hfresh : ∀ number, entry.accepting = some number →
      number ∉ log.filterMap EvacuateEntry.accepting) : Shaped n (entry :: log) where
  apart := by
    rw [List.filterMap_cons]
    cases haccept : entry.accepting with
    | none => exact h.apart
    | some number => exact List.nodup_cons.mpr ⟨hfresh number haccept, h.apart⟩
  last := by
    intro after before number m victims hsplit
    obtain ⟨-, rfl, -⟩ | ⟨after', rfl, hlog⟩ := split_cons hsplit
    · cases hjail
    · exact (h.last after' before number m victims hlog).cons
  released := by
    intro after before number m hsplit
    obtain ⟨-, heq, -⟩ | ⟨after', rfl, hlog⟩ := split_cons hsplit
    · exact absurd heq (hrelease number m)
    · exact h.released after' before number m hlog

/-- The end of an evacuation. -/
theorem Shaped.release {m : ℕ} {victims : List ℕ} (h : Shaped n log)
    (hfires : fires log number = n)
    (hhead : log.head? = some (if n = 0 then .accepted number m else .fired number)) :
    Shaped n (.released number m :: .jailed number m victims :: log) where
  apart := h.apart
  last := by
    intro after before number' m' victims' hsplit
    obtain ⟨-, heq, -⟩ | ⟨after', rfl, hlog⟩ := split_cons hsplit
    · cases heq
    · obtain ⟨rfl, heq, rfl⟩ | ⟨after'', rfl, hlog'⟩ := split_cons hlog
      · cases heq
        exact ⟨hfires, hhead, rfl⟩
      · exact ((h.last after'' before number' m' victims' hlog').cons).cons
  released := by
    intro after before number' m' hsplit
    obtain ⟨-, heq, rfl⟩ | ⟨after', rfl, hlog⟩ := split_cons hsplit
    · cases heq
      exact ⟨victims, rfl⟩
    · obtain ⟨-, heq, -⟩ | ⟨after'', rfl, hlog'⟩ := split_cons hlog
      · cases heq
      · exact h.released after'' before number' m' hlog'

end EvacuateLog

namespace EvacuateWorld
open EvacuateLog

variable {config : EvacuateConfig} {w w' : EvacuateWorld} {record : ℕ} {evac : EvacuateRecord}

/-! ## The invariant -/

/-- A record and its event, which has so many times more to live than the record has steps. -/
structure Held (config : EvacuateConfig) (w : EvacuateWorld) (record : ℕ) (evac : EvacuateRecord)
    (more : ℕ) : Prop where
  event : ∃ addr e, w.timer.heap addr = some e ∧ e.id = evac.number ∧
    e.manager = decide (0 < evac.step + more) ∧ e.lifetime = (evac.step + more : ℕ) ∧
      e.speed = config.tick
  params : w.params evac.number = some record
  lock : w.lock evac.map = true
  accepted : .accepted evac.number evac.map ∈ w.log
  counted : fires w.log evac.number + (evac.step + more) = config.ticks
  unjailed : jailings w.log evac.number = 0

/-- A record in a call has as many steps as its event has times to live. -/
def ahead (called : Option ℕ) (record : ℕ) : ℕ := if called = some record then 0 else 1

theorem ahead_none : ahead none record = 1 := if_neg fun heq => by cases heq

theorem ahead_self : ahead (some record) record = 0 := if_pos rfl

theorem ahead_of_ne {r : ℕ} (h : r ≠ record) : ahead (some record) r = 1 :=
  if_neg fun heq => h (Option.some.inj heq).symm

/-- One record may be in a call. -/
structure Sound (config : EvacuateConfig) (called : Option ℕ) (w : EvacuateWorld) : Prop where
  timer : w.timer.Sound
  lasting : w.timer.Lasting
  attentive : w.timer.Attentive
  params : ∀ id, (w.params id).isSome → id < w.timer.nextId
  logged : ∀ entry ∈ w.log, entry.number < w.timer.nextId
  managed : ∀ addr e record, w.timer.heap addr = some e → e.manager = true →
    w.params e.id = some record → ∃ evac, w.records record = some evac ∧ evac.number = e.id
  held : ∀ record evac, w.records record = some evac →
    Held config w record evac (ahead called record)
  alone : ∀ r r' evac evac', w.records r = some evac → w.records r' = some evac' →
    evac.map = evac'.map → r = r'
  locked : ∀ m, w.lock m = true → ∃ record evac, w.records record = some evac ∧ evac.map = m
  finished : ∀ number m, .accepted number m ∈ w.log →
    (∃ record evac, w.records record = some evac ∧ evac.number = number ∧ evac.map = m) ∨
      (fires w.log number = config.ticks ∧ jailings w.log number = 1)
  shaped : Shaped config.ticks w.log
  fault : w.fault = false

theorem ticksPerStep_ne_zero (config : EvacuateConfig) : config.ticksPerStep ≠ 0 :=
  Nat.ne_of_gt (Nat.div_pos config.tick_le_step config.tick_pos)

theorem sound_start (clock : Clock) (characters : ℕ → List ℕ) (guide : ℕ → Bool) :
    Sound config none (start clock characters guide) where
  timer := TimerWorld.sound_start clock
  lasting := fun _ _ h => by cases h
  attentive := TimerWorld.attentive_start clock
  params := fun _ h => by cases h
  logged := fun _ h => absurd h List.not_mem_nil
  managed := fun _ _ _ h => by cases h
  held := fun _ _ h => by cases h
  alone := fun _ _ _ _ h => by cases h
  locked := fun _ h => by cases h
  finished := fun _ _ h => absurd h List.not_mem_nil
  shaped := shaped_nil
  fault := rfl

/-- A number stands for one record. -/
theorem Sound.number_inj {called : Option ℕ} (h : Sound config called w) {r r' : ℕ}
    {evac evac' : EvacuateRecord} (hr : w.records r = some evac) (hr' : w.records r' = some evac')
    (heq : evac.number = evac'.number) : r = r' := by
  have hparams := (h.held r evac hr).params
  rw [heq, (h.held r' evac' hr').params] at hparams
  exact (Option.some.inj hparams).symm

theorem Held.number_lt {called : Option ℕ} (h : Sound config called w)
    (hr : w.records record = some evac) : evac.number < w.timer.nextId := by
  apply h.params
  rw [(h.held record evac hr).params]
  rfl

/-! ## The calls of `map_evacuate` -/

/-- Another record is not touched by an entry about this one. -/
theorem Held.other {more : ℕ} {log : List EvacuateEntry} {lock : ℕ → Bool}
    (h : Held config w record evac more) (records : ℕ → Option EvacuateRecord)
    (characters : ℕ → List ℕ)
    (hlock : lock evac.map = true) (hlog : ∀ entry ∈ w.log, entry ∈ log)
    (hfires : fires log evac.number = fires w.log evac.number)
    (hjail : jailings log evac.number = jailings w.log evac.number) :
    Held config { w with records := records, log := log, characters := characters, lock := lock }
      record evac more where
  event := h.event
  params := h.params
  lock := hlock
  accepted := hlog _ h.accepted
  counted := by
    change fires log evac.number + _ = _
    rw [hfires]
    exact h.counted
  unjailed := by
    change jailings log evac.number = 0
    rw [hjail]
    exact h.unjailed

theorem Sound.announce (h : Sound config (some record) w) (hr : w.records record = some evac)
    (hstep : 0 < evac.step) : Sound config none (w.announce config record evac) := by
  have hself := h.held record evac hr
  rw [ahead_self] at hself
  have hnumber := Held.number_lt h hr
  have hrecord : ∀ {r evac'}, update w.records record (some { evac with step := evac.step - 1 }) r =
      some evac' → ∃ old, w.records r = some old ∧ old.number = evac'.number ∧
        old.map = evac'.map := by
    intro r evac' hevac
    by_cases hne : r = record
    · subst hne
      cases (update_self r _ _).symm.trans hevac
      exact ⟨evac, hr, rfl, rfl⟩
    · exact ⟨evac', (update_of_ne hne _ _).symm.trans hevac, rfl, rfl⟩
  have hback : ∀ {r old}, w.records r = some old →
      ∃ evac', update w.records record (some { evac with step := evac.step - 1 }) r = some evac' ∧
        evac'.number = old.number ∧ evac'.map = old.map := by
    intro r old hold
    by_cases hne : r = record
    · subst hne
      cases hr.symm.trans hold
      exact ⟨_, update_self r _ _, rfl, rfl⟩
    · exact ⟨old, (update_of_ne hne _ _).trans hold, rfl, rfl⟩
  unfold EvacuateWorld.announce
  rw [if_neg (ticksPerStep_ne_zero config)]
  refine ⟨h.timer, h.lasting, h.attentive, h.params, ?_, ?_, ?_, ?_, ?_, ?_, ?_, h.fault⟩
  · intro entry hentry
    rcases List.mem_cons.mp hentry with rfl | hentry
    · exact hnumber
    · exact h.logged entry hentry
  · intro addr e r he hmanager hparams
    obtain ⟨old, hold, hid⟩ := h.managed addr e r he hmanager hparams
    obtain ⟨evac', hevac, hnumber, -⟩ := hback hold
    exact ⟨evac', hevac, hnumber.trans hid⟩
  · intro r evac' hevac
    rw [ahead_none]
    have hfires : ∀ number, fires (.announced evac.number (w.characters evac.map)
        (if evac.step % config.ticksPerStep = 0 then
          some (evac.step / config.ticksPerStep * config.step) else none) :: w.log) number =
        fires w.log number := by
      intro number
      rw [fires_cons, if_neg EvacuateEntry.noConfusion, Nat.add_zero]
    have hjail : ∀ number, jailings (.announced evac.number (w.characters evac.map)
        (if evac.step % config.ticksPerStep = 0 then
          some (evac.step / config.ticksPerStep * config.step) else none) :: w.log) number =
        jailings w.log number := by
      exact jailings_cons_of_none rfl
    by_cases hne : r = record
    · subst hne
      cases (update_self r _ _).symm.trans hevac
      have hcount : evac.step - 1 + 1 = evac.step + 0 := Nat.sub_add_cancel hstep
      have hmoved := hself.other (update w.records r (some { evac with step := evac.step - 1 }))
        w.characters hself.lock (fun _ => List.mem_cons_of_mem _) (hfires _) (hjail _)
      refine ⟨?_, hmoved.params, hmoved.lock, hmoved.accepted, ?_, hmoved.unjailed⟩
      · dsimp only
        rw [hcount]
        exact hmoved.event
      · dsimp only
        rw [hcount]
        exact hmoved.counted
    · have hold := (update_of_ne hne _ _).symm.trans hevac
      have hheld := h.held r evac' hold
      rw [ahead_of_ne hne] at hheld
      exact hheld.other _ _ hheld.lock (fun _ => List.mem_cons_of_mem _) (hfires _) (hjail _)
  · intro r r' e e' he he' hmap
    obtain ⟨old, hold, -, hm⟩ := hrecord he
    obtain ⟨old', hold', -, hm'⟩ := hrecord he'
    exact h.alone r r' old old' hold hold' (hm.trans (hmap.trans hm'.symm))
  · intro m hm
    obtain ⟨r, old, hold, hmap⟩ := h.locked m hm
    obtain ⟨evac', hevac, -, hmap'⟩ := hback hold
    exact ⟨r, evac', hevac, hmap'.trans hmap⟩
  · intro number m hmem
    rcases List.mem_cons.mp hmem with heq | hmem
    · cases heq
    rcases h.finished number m hmem with ⟨r, old, hold, hnumber, hmap⟩ | ⟨hfires, hjail⟩
    · obtain ⟨evac', hevac, hnumber', hmap'⟩ := hback hold
      exact Or.inl ⟨r, evac', hevac, hnumber'.trans hnumber, hmap'.trans hmap⟩
    · right
      constructor
      · rw [fires_cons, if_neg EvacuateEntry.noConfusion, Nat.add_zero]
        exact hfires
      · rw [jailings_cons_of_none rfl]
        exact hjail
  · apply h.shaped.cons
    · rfl
    · exact fun _ _ heq => by cases heq
    · exact fun _ heq => by cases heq

/-- The last call: the event of the record has no time to live any more. -/
theorem Sound.release (h : Sound config (some record) w) (hr : w.records record = some evac)
    (hstep : evac.step = 0)
    (hhead : w.log.head? = some
      (if config.ticks = 0 then .accepted evac.number evac.map else .fired evac.number)) :
    Sound config none (w.release config record evac) := by
  have hself := h.held record evac hr
  rw [ahead_self] at hself
  have hnumber := Held.number_lt h hr
  have hcounted : fires w.log evac.number = config.ticks := by
    have hsum := hself.counted
    omega
  have hold : ∀ {r evac'}, update w.records record none r = some evac' →
      r ≠ record ∧ w.records r = some evac' := by
    intro r evac' hevac
    by_cases hne : r = record
    · subst hne
      cases (update_self r _ _).symm.trans hevac
    · exact ⟨hne, (update_of_ne hne _ _).symm.trans hevac⟩
  have hfires : ∀ number, fires (.released evac.number evac.map ::
      .jailed evac.number evac.map (w.remaining evac.map) :: w.log) number =
      fires w.log number := by
    intro number
    rw [fires_cons, if_neg EvacuateEntry.noConfusion, fires_cons,
      if_neg EvacuateEntry.noConfusion]
    rfl
  have hjail : ∀ number, jailings (.released evac.number evac.map ::
      .jailed evac.number evac.map (w.remaining evac.map) :: w.log) number =
      jailings w.log number + if evac.number = number then 1 else 0 := by
    intro number
    rw [jailings_cons_of_none rfl, jailings_cons]
    simp only [EvacuateEntry.jailing, Option.some.injEq]
  have hmem : ∀ entry ∈ w.log, entry ∈ EvacuateEntry.released evac.number evac.map ::
      .jailed evac.number evac.map (w.remaining evac.map) :: w.log :=
    fun _ hentry => List.mem_cons_of_mem _ (List.mem_cons_of_mem _ hentry)
  unfold EvacuateWorld.release
  refine ⟨h.timer, h.lasting, h.attentive, h.params, ?_, ?_, ?_, ?_, ?_, ?_, ?_, h.fault⟩
  · intro entry hentry
    rcases List.mem_cons.mp hentry with rfl | hentry
    · exact hnumber
    rcases List.mem_cons.mp hentry with rfl | hentry
    · exact hnumber
    · exact h.logged entry hentry
  · intro addr e r he hmanager hparams
    obtain ⟨evac', hevac, hid⟩ := h.managed addr e r he hmanager hparams
    by_cases hne : r = record
    · subst hne
      cases hr.symm.trans hevac
      obtain ⟨addr', e', he', hid', hmanager', -⟩ := hself.event
      have hsame := h.timer.apart addr addr' e e' he he' (hid.symm.trans hid'.symm)
      subst hsame
      cases he.symm.trans he'
      rw [hmanager', hstep] at hmanager
      exact absurd hmanager (by decide)
    · exact ⟨evac', (update_of_ne hne _ _).trans hevac, hid⟩
  · intro r evac' hevac
    obtain ⟨hne, hevac⟩ := hold hevac
    have hheld := h.held r evac' hevac
    rw [ahead_of_ne hne] at hheld
    have hmap : evac'.map ≠ evac.map := fun heq => hne (h.alone r record evac' evac hevac hr heq)
    have hother : evac.number ≠ evac'.number := fun heq => hne (h.number_inj hr hevac heq).symm
    rw [ahead_none]
    apply hheld.other _ _
    · exact (update_of_ne hmap _ _).trans hheld.lock
    · exact hmem
    · exact hfires _
    · rw [hjail, if_neg hother, Nat.add_zero]
  · intro r r' e e' he he' hmap
    exact h.alone r r' e e' (hold he).2 (hold he').2 hmap
  · intro m hm
    have hne : m ≠ evac.map := by
      rintro rfl
      cases (update_self evac.map _ _).symm.trans hm
    obtain ⟨r, evac', hevac, hmap⟩ := h.locked m ((update_of_ne hne _ _).symm.trans hm)
    have hrne : r ≠ record := by
      rintro rfl
      cases hr.symm.trans hevac
      exact hne hmap.symm
    exact ⟨r, evac', (update_of_ne hrne _ _).trans hevac, hmap⟩
  · intro number m haccepted
    have hbefore : .accepted number m ∈ w.log := by
      rcases List.mem_cons.mp haccepted with heq | haccepted
      · cases heq
      rcases List.mem_cons.mp haccepted with heq | haccepted
      · cases heq
      · exact haccepted
    rw [hfires, hjail]
    rcases h.finished number m hbefore with ⟨r, evac', hevac, hnum, hmap⟩ | ⟨hdone, hjailed⟩
    · by_cases hne : r = record
      · subst hne
        cases hr.symm.trans hevac
        right
        rw [← hnum, if_pos rfl, hself.unjailed]
        exact ⟨hcounted, rfl⟩
      · exact Or.inl ⟨r, evac', (update_of_ne hne _ _).trans hevac, hnum, hmap⟩
    · have hother : evac.number ≠ number := by
        rintro rfl
        rw [hself.unjailed] at hjailed
        cases hjailed
      rw [if_neg hother]
      exact Or.inr ⟨hdone, hjailed⟩
  · exact h.shaped.release hcounted hhead

theorem Sound.mapEvacuate (h : Sound config (some record) w) (hr : w.records record = some evac)
    (hhead : evac.step = 0 → w.log.head? = some
      (if config.ticks = 0 then .accepted evac.number evac.map else .fired evac.number)) :
    Sound config none (w.mapEvacuate config record) := by
  unfold EvacuateWorld.mapEvacuate
  rw [hr, Option.elim_some]
  split_ifs with hstep
  · exact h.announce hr hstep
  · have hzero := Nat.eq_zero_of_not_pos hstep
    exact h.release hr hzero (hhead hzero)

/-! ## Evacuations that begin -/

section Accept
variable {m addr : ℕ} {ticks : UInt32}

theorem heap_accept_of_ne {a : ℕ} (ha : a ≠ addr) :
    (w.accept config m record addr ticks).timer.heap a = w.timer.heap a :=
  (TimerWorld.heap_register_of_ne ha).trans (update_of_ne ha _ _)

theorem heap_accept_self (config : EvacuateConfig) (w : EvacuateWorld) (m record addr : ℕ)
    (ticks : UInt32) : ∃ e, (w.accept config m record addr ticks).timer.heap addr = some e ∧
    e.id = w.timer.nextId ∧ e.manager = decide (0 < config.ticks) ∧
      e.lifetime = (config.ticks : ℤ) ∧ e.speed = config.tick := by
  unfold accept TimerWorld.register
  dsimp only
  split_ifs with hzero
  · have hticks : config.ticks = 0 := Int.ofNat_eq_zero.mp hzero
    refine ⟨w.event config, update_self addr _ _, rfl, ?_, rfl, rfl⟩
    rw [hticks]
    rfl
  · have hticks : 0 < config.ticks :=
      Nat.pos_of_ne_zero fun heq => hzero (Int.ofNat_eq_zero.mpr heq)
    refine ⟨_, update_self addr _ _, rfl, ?_, rfl, rfl⟩
    rw [decide_eq_true hticks]

theorem nextId_accept :
    (w.accept config m record addr ticks).timer.nextId = w.timer.nextId + 1 := by
  unfold accept TimerWorld.register
  dsimp only
  split_ifs
  · rfl
  · rfl

/-- The timer of an evacuation that begins has made two steps. -/
theorem Sound.timer_accept {called : Option ℕ} (h : Sound config called w)
    (hfree : w.timer.heap addr = none) (m record : ℕ) (ticks : UInt32) :
    (w.accept config m record addr ticks).timer.Sound ∧
      (w.accept config m record addr ticks).timer.Lasting ∧
        (w.accept config m record addr ticks).timer.Attentive := by
  have hcreate : w.timer.step (.create addr config.tick config.ticks) =
      some (w.timer.create addr config.tick config.ticks) := by
    apply if_neg
    rw [hfree]
    exact Bool.false_ne_true
  have hregister : (w.timer.create addr config.tick config.ticks).step (.register addr ticks) =
      some (w.accept config m record addr ticks).timer := by
    change Option.map _ (update w.timer.heap addr _ addr) = _
    rw [update_self]
    rfl
  obtain ⟨hsound, hlasting⟩ := h.timer.step h.lasting hcreate
  have hattentive := h.attentive.step h.timer hcreate
  obtain ⟨hsound', hlasting'⟩ := hsound.step hlasting hregister
  exact ⟨hsound', hlasting', hattentive.step hsound hregister⟩

theorem Sound.accept (h : Sound config none w) (hlock : w.lock m = false)
    (hrecord : w.records record = none) (hfree : w.timer.heap addr = none) (ticks : UInt32) :
    Sound config (some record) (w.accept config m record addr ticks) := by
  obtain ⟨htimer, hlasting, hattentive⟩ := h.timer_accept hfree m record ticks
  have hfresh : ∀ entry ∈ w.log, entry.number ≠ w.timer.nextId :=
    fun entry hentry => Nat.ne_of_lt (h.logged entry hentry)
  obtain ⟨hunfired, hunjailed, hunaccepted⟩ := unmentioned hfresh
  have hrecords : ∀ {r evac'}, update w.records record (some ⟨w.timer.nextId, m, config.ticks⟩) r =
      some evac' → (r = record ∧ evac' = ⟨w.timer.nextId, m, config.ticks⟩) ∨
        (r ≠ record ∧ w.records r = some evac') := by
    intro r evac' hevac
    by_cases hne : r = record
    · subst hne
      exact Or.inl ⟨rfl, (Option.some.inj ((update_self r _ _).symm.trans hevac)).symm⟩
    · exact Or.inr ⟨hne, (update_of_ne hne _ _).symm.trans hevac⟩
  have hkept : ∀ {r evac'}, w.records r = some evac' →
      update w.records record (some ⟨w.timer.nextId, m, config.ticks⟩) r = some evac' := by
    intro r evac' hevac
    have hne : r ≠ record := by
      rintro rfl
      cases hrecord.symm.trans hevac
    exact (update_of_ne hne _ _).trans hevac
  have hmap : ∀ {r evac'}, w.records r = some evac' → evac'.map ≠ m := by
    rintro r evac' hevac rfl
    have hlocked := (h.held r evac' hevac).lock
    rw [hlock] at hlocked
    cases hlocked
  have hother : ∀ number, number ≠ w.timer.nextId →
      fires (.accepted w.timer.nextId m :: w.log) number = fires w.log number ∧
        jailings (.accepted w.timer.nextId m :: w.log) number = jailings w.log number :=
    fun number hne => ⟨fires_cons_of_ne (Ne.symm hne), jailings_cons_of_ne (Ne.symm hne)⟩
  refine ⟨htimer, hlasting, hattentive, ?_, ?_, ?_, ?_, ?_, ?_, ?_, ?_, h.fault⟩
  · intro id hid
    rw [nextId_accept]
    by_cases hne : id = w.timer.nextId
    · omega
    · have hlt := h.params id (by
        change (update w.params w.timer.nextId (some record) id).isSome at hid
        rwa [update_of_ne hne] at hid)
      omega
  · intro entry hentry
    rw [nextId_accept]
    rcases List.mem_cons.mp hentry with rfl | hentry
    · exact Nat.lt_succ_self _
    · exact Nat.lt_succ_of_lt (h.logged entry hentry)
  · intro a e r he hmanager hparams
    by_cases ha : a = addr
    · subst ha
      obtain ⟨e', he', hid, -⟩ := heap_accept_self config w m record a ticks
      cases he.symm.trans he'
      change update w.params w.timer.nextId (some record) e.id = some r at hparams
      rw [hid, update_self, Option.some.injEq] at hparams
      subst hparams
      exact ⟨_, update_self record _ _, hid.symm⟩
    · rw [heap_accept_of_ne ha] at he
      have hne : e.id ≠ w.timer.nextId := Nat.ne_of_lt (h.timer.ids a e he)
      change update w.params w.timer.nextId (some record) e.id = some r at hparams
      rw [update_of_ne hne] at hparams
      obtain ⟨evac', hevac, hid⟩ := h.managed a e r he hmanager hparams
      exact ⟨evac', hkept hevac, hid⟩
  · intro r evac' hevac
    rcases hrecords hevac with ⟨rfl, rfl⟩ | ⟨hne, hevac⟩
    · rw [ahead_self]
      refine ⟨?_, update_self _ _ _, update_self _ _ _, List.mem_cons_self, ?_, ?_⟩
      · obtain ⟨e, he, hid, hmanager, hlifetime, hspeed⟩ := heap_accept_self config w m r addr ticks
        exact ⟨addr, e, he, hid, hmanager, hlifetime, hspeed⟩
      · change fires (.accepted w.timer.nextId m :: w.log) w.timer.nextId + _ = _
        rw [fires_cons, if_neg EvacuateEntry.noConfusion, hunfired]
        exact Nat.zero_add _
      · change jailings (.accepted w.timer.nextId m :: w.log) w.timer.nextId = 0
        rw [jailings_cons_of_none rfl, hunjailed]
    · have hheld := h.held r evac' hevac
      rw [ahead_none] at hheld
      rw [ahead_of_ne hne]
      have hnumber := Nat.ne_of_lt (Held.number_lt h hevac)
      obtain ⟨hfires, hjail⟩ := hother evac'.number hnumber
      obtain ⟨a, e, he, hevent⟩ := hheld.event
      have ha : a ≠ addr := by
        rintro rfl
        cases hfree.symm.trans he
      refine ⟨⟨a, e, (heap_accept_of_ne ha).trans he, hevent⟩, ?_, ?_, ?_, ?_, ?_⟩
      · exact (update_of_ne hnumber _ _).trans hheld.params
      · exact (update_of_ne (hmap hevac) _ _).trans hheld.lock
      · exact List.mem_cons_of_mem _ hheld.accepted
      · change fires (.accepted w.timer.nextId m :: w.log) evac'.number + _ = _
        rw [hfires]
        exact hheld.counted
      · change jailings (.accepted w.timer.nextId m :: w.log) evac'.number = 0
        rw [hjail]
        exact hheld.unjailed
  · intro r r' e e' he he' heq
    rcases hrecords he with ⟨rfl, rfl⟩ | ⟨-, hold⟩
    · rcases hrecords he' with ⟨rfl, rfl⟩ | ⟨-, hold'⟩
      · rfl
      · exact absurd heq.symm (hmap hold')
    · rcases hrecords he' with ⟨rfl, rfl⟩ | ⟨-, hold'⟩
      · exact absurd heq (hmap hold)
      · exact h.alone r r' e e' hold hold' heq
  · intro m' hm'
    by_cases hne : m' = m
    · subst hne
      exact ⟨record, _, update_self record _ _, rfl⟩
    · obtain ⟨r, evac', hevac, hmap'⟩ := h.locked m' ((update_of_ne hne _ _).symm.trans hm')
      exact ⟨r, evac', hkept hevac, hmap'⟩
  · intro number m' hmem
    rcases List.mem_cons.mp hmem with heq | hmem
    · cases heq
      exact Or.inl ⟨record, _, update_self record _ _, rfl, rfl⟩
    · rcases h.finished number m' hmem with ⟨r, evac', hevac, hnum⟩ | hdone
      · exact Or.inl ⟨r, evac', hkept hevac, hnum⟩
      · obtain ⟨hfires, hjail⟩ := hother number (hfresh _ hmem)
        right
        change fires (.accepted w.timer.nextId m :: w.log) number = _ ∧
          jailings (.accepted w.timer.nextId m :: w.log) number = _
        rw [hfires, hjail]
        exact hdone
  · apply h.shaped.cons
    · rfl
    · exact fun _ _ heq => by cases heq
    · rintro number heq
      cases heq
      exact hunaccepted

end Accept

/-! ## Steps of the timer -/

section Timer
variable {op : TimerStep} {timer : TimerWorld} {addr : ℕ} {e : TimeEvent}

theorem target_ne (htarget : ¬ (TimerWorld.target op).any w.owns = true)
    (he : w.timer.heap addr = some e) (hparams : (w.params e.id).isSome) :
    TimerWorld.target op ≠ some addr := by
  intro heq
  apply htarget
  rw [heq]
  change (w.timer.heap addr).any (fun e => (w.params e.id).isSome) = true
  rw [he]
  exact hparams

/-- The event of an evacuation stays as it is while the timer does not call it. -/
theorem heap_kept (hs : w.timer.step op = some timer)
    (htarget : ¬ (TimerWorld.target op).any w.owns = true) (he : w.timer.heap addr = some e)
    (hmanager : e.manager = true) (hparams : (w.params e.id).isSome)
    (hcalls : TimerWorld.calls op timer ≠ some addr) : timer.heap addr = some e :=
  TimerWorld.heap_step_of_some hs (target_ne htarget he hparams) hcalls hmanager he

theorem Sound.heap_back {called : Option ℕ} (h : Sound config called w)
    (hs : w.timer.step op = some timer) (htarget : ¬ (TimerWorld.target op).any w.owns = true)
    (he : timer.heap addr = some e) (hparams : (w.params e.id).isSome)
    (hcalls : TimerWorld.calls op timer ≠ some addr) : w.timer.heap addr = some e := by
  rcases TimerWorld.heap_step_back hs hcalls he with ⟨d, hd, hid, hsame⟩ | hnew
  · have hne := target_ne htarget hd (by rwa [hid])
    rw [← hsame hne]
    exact hd
  · have hlt := h.params e.id hparams
    omega

/-- A step that does not call an evacuation. -/
theorem Sound.timer_quiet (h : Sound config none w) (hs : w.timer.step op = some timer)
    (htarget : ¬ (TimerWorld.target op).any w.owns = true)
    (hnone : w.calledRecord op timer = none) : Sound config none { w with timer := timer } := by
  obtain ⟨htimer, hlasting⟩ := h.timer.step h.lasting hs
  have hmono := TimerWorld.nextId_le_step hs
  have hcalls : ∀ {addr e}, timer.heap addr = some e → (w.params e.id).isSome →
      TimerWorld.calls op timer ≠ some addr := by
    intro addr e he hparams heq
    obtain ⟨r, hr⟩ := Option.isSome_iff_exists.mp hparams
    unfold calledRecord at hnone
    rw [heq, Option.bind_some, he, Option.bind_some, hr] at hnone
    cases hnone
  have hcalls' : ∀ {addr e}, w.timer.heap addr = some e → (w.params e.id).isSome →
      TimerWorld.calls op timer ≠ some addr := by
    intro addr e he hparams heq
    obtain ⟨d, currenttime, rest, -, -, -, hd, rfl⟩ := TimerWorld.calls_spec hs heq
    cases he.symm.trans hd
    refine hcalls (TimerWorld.heap_fire_self (w := w.timer) (e := e)) ?_ heq
    rwa [TimerWorld.id_calledOnce]
  refine ⟨htimer, hlasting, h.attentive.step h.timer hs, ?_, ?_, ?_, ?_, h.alone, h.locked,
    h.finished, h.shaped, h.fault⟩
  · exact fun id hid => Nat.lt_of_lt_of_le (h.params id hid) hmono
  · exact fun entry hentry => Nat.lt_of_lt_of_le (h.logged entry hentry) hmono
  · intro a e r he hmanager hparams
    have hsome : (w.params e.id).isSome := by
      rw [hparams]
      rfl
    exact h.managed a e r (h.heap_back hs htarget he hsome (hcalls he hsome)) hmanager hparams
  · intro r evac' hevac
    have hheld := h.held r evac' hevac
    rw [ahead_none] at hheld ⊢
    obtain ⟨a, e, he, hid, hmanager, hrest⟩ := hheld.event
    have hmanaged : e.manager = true := hmanager.trans (decide_eq_true (Nat.succ_pos _))
    have hsome : (w.params e.id).isSome := by
      rw [hid, hheld.params]
      rfl
    have hkept := heap_kept hs htarget he hmanaged hsome (hcalls' he hsome)
    exact ⟨⟨a, e, hkept, hid, hmanager, hrest⟩, hheld.params, hheld.lock, hheld.accepted,
      hheld.counted, hheld.unjailed⟩

/-- What the timer has called, up to the call of `map_evacuate`. -/
theorem Sound.timer_call {number : ℕ} (h : Sound config none w)
    (hs : w.timer.step op = some timer) (htarget : ¬ (TimerWorld.target op).any w.owns = true)
    (hcall : w.calledRecord op timer = some (number, record)) :
    ∃ evac, w.records record = some evac ∧ evac.number = number ∧ config.ticks ≠ 0 ∧
      Sound config (some record) (({ w with timer := timer } : EvacuateWorld).write
        (.fired number)) := by
  obtain ⟨htimer, hlasting⟩ := h.timer.step h.lasting hs
  have hmono := TimerWorld.nextId_le_step hs
  obtain ⟨addr, hcalls, hrest⟩ := Option.bind_eq_some_iff.mp hcall
  obtain ⟨e', he', hmap⟩ := Option.bind_eq_some_iff.mp hrest
  obtain ⟨r, hparams', hpair⟩ := Option.map_eq_some_iff.mp hmap
  cases hpair
  obtain ⟨e, currenttime, rest, -, -, hmem, he, htimereq⟩ := TimerWorld.calls_spec hs hcalls
  have hself : timer.heap addr = some (TimerWorld.calledOnce e) := by
    rw [htimereq]
    exact TimerWorld.heap_fire_self
  cases he'.symm.trans hself
  rw [TimerWorld.id_calledOnce] at hparams' ⊢
  have hmanager : e.manager = true := by
    obtain ⟨d, hd, hmanager⟩ := (h.timer.members addr).mp hmem
    cases he.symm.trans hd
    exact hmanager
  obtain ⟨evac, hevac, hnumber⟩ := h.managed addr e record he hmanager hparams'
  have hheld := h.held record evac hevac
  rw [ahead_none] at hheld
  obtain ⟨addr', d, hd, hid, -, hlifetime, hspeed⟩ := hheld.event
  have hsame := h.timer.apart addr addr' e d he hd (hnumber.symm.trans hid.symm)
  subst hsame
  cases he.symm.trans hd
  have hfires : fires (.fired e.id :: w.log) e.id = fires w.log e.id + 1 := by
    rw [fires_cons, if_pos rfl]
  refine ⟨evac, hevac, hnumber, ?_, htimer, hlasting, h.attentive.step h.timer hs, ?_, ?_, ?_, ?_,
    h.alone, h.locked, ?_, ?_, h.fault⟩
  · have hcounted := hheld.counted
    omega
  · exact fun id hid => Nat.lt_of_lt_of_le (h.params id hid) hmono
  · intro entry hentry
    rcases List.mem_cons.mp hentry with rfl | hentry
    · exact Nat.lt_of_lt_of_le (h.timer.ids addr e he) hmono
    · exact Nat.lt_of_lt_of_le (h.logged entry hentry) hmono
  · intro a d r hd' hmanager' hparams
    have hsome : (w.params d.id).isSome := by
      rw [show w.params d.id = some r from hparams]
      rfl
    by_cases ha : a = addr
    · subst ha
      cases hd'.symm.trans hself
      rw [TimerWorld.id_calledOnce] at hparams ⊢
      exact h.managed a e r he hmanager hparams
    · have hne : TimerWorld.calls op timer ≠ some a := by
        rw [hcalls]
        exact fun heq => ha (Option.some.inj heq).symm
      exact h.managed a d r (h.heap_back hs htarget hd' hsome hne) hmanager' hparams
  · intro r evac' hevac'
    by_cases hne : r = record
    · subst hne
      cases hevac.symm.trans hevac'
      rw [ahead_self]
      refine ⟨⟨addr, _, hself, ?_, ?_, ?_, ?_⟩, hheld.params, hheld.lock,
        List.mem_cons_of_mem _ hheld.accepted, ?_, ?_⟩
      · rw [TimerWorld.id_calledOnce, hnumber]
      · exact (TimerWorld.calledOnce_of_counts hlifetime).2 hmanager
      · exact (TimerWorld.calledOnce_of_counts hlifetime).1
      · rw [TimerWorld.speed_calledOnce, hspeed]
      · have hcounted := hheld.counted
        change fires (.fired e.id :: w.log) evac.number + _ = _
        rw [hnumber] at hcounted ⊢
        rw [hfires]
        omega
      · change jailings (.fired e.id :: w.log) evac.number = 0
        rw [jailings_cons_of_none rfl]
        exact hheld.unjailed
    · have hother := h.held r evac' hevac'
      rw [ahead_none] at hother
      rw [ahead_of_ne hne]
      obtain ⟨a, d, hd', hid', hmanager', hrest'⟩ := hother.event
      have hnumbers : e.id ≠ evac'.number := by
        intro heq
        exact hne (h.number_inj hevac' hevac (heq.symm.trans hnumber.symm))
      have hsome : (w.params d.id).isSome := by
        rw [hid', hother.params]
        rfl
      have hcallsne : TimerWorld.calls op timer ≠ some a := by
        rw [hcalls]
        intro heq
        cases heq
        cases he.symm.trans hd'
        exact hnumbers hid'
      have hkept := heap_kept hs htarget hd' (hmanager'.trans (decide_eq_true (Nat.succ_pos _)))
        hsome hcallsne
      refine ⟨⟨a, d, hkept, hid', hmanager', hrest'⟩, hother.params, hother.lock,
        List.mem_cons_of_mem _ hother.accepted, ?_, ?_⟩
      · change fires (.fired e.id :: w.log) evac'.number + _ = _
        rw [fires_fired_of_ne hnumbers]
        exact hother.counted
      · change jailings (.fired e.id :: w.log) evac'.number = 0
        rw [jailings_cons_of_none rfl]
        exact hother.unjailed
  · intro n m hmem'
    rcases List.mem_cons.mp hmem' with heq | hmem'
    · cases heq
    rcases h.finished n m hmem' with hleft | ⟨hdone, hjailed⟩
    · exact Or.inl hleft
    · have hne : e.id ≠ n := by
        rintro rfl
        rw [← hnumber, hheld.unjailed] at hjailed
        cases hjailed
      right
      change fires (.fired e.id :: w.log) n = _ ∧ jailings (.fired e.id :: w.log) n = _
      rw [fires_fired_of_ne hne, jailings_cons_of_none rfl]
      exact ⟨hdone, hjailed⟩
  · apply h.shaped.cons
    · rfl
    · exact fun _ _ heq => by cases heq
    · exact fun _ heq => by cases heq

end Timer

/-! ## Whole runs -/

/-- Where the characters are does not matter to the records. -/
theorem Sound.elsewhere {called : Option ℕ} (h : Sound config called w)
    (characters : ℕ → List ℕ) (guide : ℕ → Bool) :
    Sound config called { w with characters := characters, guide := guide } := by
  refine ⟨h.timer, h.lasting, h.attentive, h.params, h.logged, h.managed, ?_, h.alone, h.locked,
    h.finished, h.shaped, h.fault⟩
  intro record evac hevac
  have hheld := h.held record evac hevac
  exact ⟨hheld.event, hheld.params, hheld.lock, hheld.accepted, hheld.counted, hheld.unjailed⟩

theorem Sound.step {op : EvacuateStep} (h : Sound config none w)
    (hs : w.step config op = some w') : Sound config none w' := by
  cases op with
  | evacuate m record addr ticks =>
      unfold EvacuateWorld.step at hs
      dsimp only at hs
      split_ifs at hs with hlock hfree
      · cases hs
        exact h
      · cases hs
        rw [not_or, Option.not_isSome_iff_eq_none, Option.not_isSome_iff_eq_none] at hfree
        obtain ⟨hrecord, haddr⟩ := hfree
        have haccept := h.accept (Bool.eq_false_iff.mpr hlock) hrecord haddr ticks
        refine haccept.mapEvacuate (update_self record _ _) fun hzero => ?_
        rw [if_pos hzero]
        rfl
  | timer op =>
      unfold EvacuateWorld.step at hs
      dsimp only at hs
      split_ifs at hs with htarget
      obtain ⟨timer, htimer, heq⟩ := Option.map_eq_some_iff.mp hs
      cases hcall : w.calledRecord op timer with
      | none =>
          rw [hcall, Option.elim_none] at heq
          rw [← heq]
          exact h.timer_quiet htimer htarget hcall
      | some call =>
          rw [hcall, Option.elim_some] at heq
          obtain ⟨evac, hevac, hnumber, hticks, hsound⟩ := h.timer_call htimer htarget hcall
          rw [← heq]
          refine hsound.mapEvacuate hevac fun _ => ?_
          rw [if_neg hticks, hnumber]
          rfl
  | place m characters =>
      cases hs
      exact h.elsewhere _ _
  | rank c guide =>
      cases hs
      exact h.elsewhere _ _

end EvacuateWorld

end ArenaServ
