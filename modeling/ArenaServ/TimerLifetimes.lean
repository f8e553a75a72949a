import ArenaServ.Timers

/-!
# The lifetimes of timed events

A timer keeps what it has to honour: an event that is in its set has been registered, its last
time is known from the log, and what is left of its lifetime is what its calls have not used.
-/

namespace ArenaServ

/-! ## The log -/

namespace TimerEntry

/-- The event that an entry is about. -/
def id : TimerEntry → ℕ
  | .registered i _ _ _ => i
  | .unregistered i => i
  | .deleted i => i
  | .fired i _ _ _ => i

end TimerEntry

namespace TimerLog

variable {entry : TimerEntry} {log after before : List TimerEntry} {id tick : ℕ}

theorem registered_cons_of_ne (h : entry.id ≠ id) :
    registered (entry :: log) id = registered log id := by
  cases entry with
  | registered i time speed n => simp_all [registered, TimerEntry.id]
  | unregistered i => simp_all [registered, TimerEntry.id]
  | deleted i => simp_all [registered, TimerEntry.id]
  | fired i k time speed => rfl

theorem due_cons_of_ne (h : entry.id ≠ id) : due (entry :: log) id = due log id := by
  cases entry with
  | registered i time speed n => exact if_neg h
  | unregistered i => rfl
  | deleted i => rfl
  | fired i k time speed => exact if_neg h

theorem fires_cons_of_ne (h : entry.id ≠ id) : fires (entry :: log) id = fires log id := by
  cases entry with
  | registered i time speed n => rfl
  | unregistered i => rfl
  | deleted i => rfl
  | fired i k time speed => exact if_neg h

theorem firedIn_cons_of_ne (h : entry.id ≠ id) :
    firedIn (entry :: log) id tick = firedIn log id tick := by
  cases entry with
  | registered i time speed n => rfl
  | unregistered i => rfl
  | deleted i => rfl
  | fired i k time speed => simp_all [firedIn, TimerEntry.id]

/-- Nothing is known of an event that the log does not mention. -/
theorem of_unmentioned (h : ∀ entry ∈ log, entry.id ≠ id) :
    registered log id = false ∧ ∀ tick, firedIn log id tick = false := by
  induction log with
  | nil => exact ⟨rfl, fun _ => rfl⟩
  | cons entry log ih =>
      obtain ⟨hregistered, hfired⟩ := ih fun entry hentry => h entry (List.mem_cons_of_mem _ hentry)
      have hne := h entry List.mem_cons_self
      rw [registered_cons_of_ne hne]
      refine ⟨hregistered, fun tick => ?_⟩
      rw [firedIn_cons_of_ne hne]
      exact hfired tick

/-- Only the latest entry of a longer log is new. -/
theorem split_cons {x : TimerEntry} (h : entry :: log = after ++ x :: before) :
    (after = [] ∧ entry = x ∧ log = before) ∨
      ∃ after', after = entry :: after' ∧ log = after' ++ x :: before := by
  cases after with
  | nil =>
      obtain ⟨hentry, hlog⟩ := List.cons.inj h
      exact Or.inl ⟨rfl, hentry, hlog⟩
  | cons y after' =>
      obtain ⟨hentry, hlog⟩ := List.cons.inj h
      rw [hentry]
      exact Or.inr ⟨after', rfl, hlog⟩

theorem honoured_nil : Honoured [] where
  calls := by
    intro after before id tick time speed h
    exact absurd h.symm (List.append_ne_nil_of_right_ne_nil after (List.cons_ne_nil _ _))
  lifetimes := by
    intro after before id time speed n h
    exact absurd h.symm (List.append_ne_nil_of_right_ne_nil after (List.cons_ne_nil _ _))

/-- A call that is due, of an event that has one left. -/
structure Allowed (log : List TimerEntry) (id tick : ℕ) (time : ℚ) : Prop where
  registered : registered log id = true
  due : due log id < time
  once : firedIn log id tick = false
  left : ∀ after before time' speed' n,
    log = after ++ .registered id time' speed' n :: before → 0 ≤ n → (fires after id : ℤ) < n

theorem Honoured.cons (h : Honoured log)
    (hcall : ∀ id tick time speed, entry = .fired id tick time speed → Allowed log id tick time) :
    Honoured (entry :: log) where
  calls := by
    intro after before id tick time speed hsplit
    obtain ⟨-, rfl, rfl⟩ | ⟨after', -, hlog⟩ := split_cons hsplit
    · have hallowed := hcall id tick time speed rfl
      exact ⟨hallowed.registered, hallowed.due, hallowed.once⟩
    · exact h.calls after' before id tick time speed hlog
  lifetimes := by
    intro after before id time speed n hsplit hn
    obtain ⟨rfl, -, -⟩ | ⟨after', rfl, hlog⟩ := split_cons hsplit
    · exact hn
    have hbefore := h.lifetimes after' before id time speed n hlog hn
    cases entry with
    | fired i tick time' speed' =>
        unfold fires
        split_ifs with hid
        · subst hid
          have hleft := (hcall i tick time' speed' rfl).left after' before time speed n hlog hn
          push_cast
          omega
        · exact hbefore
    | registered i time' speed' n' => exact hbefore
    | unregistered i => exact hbefore
    | deleted i => exact hbefore

end TimerLog

namespace TimerWorld
open Function TimerLog

/-- What the log says about an event. -/
structure Traced (log : List TimerEntry) (e : TimeEvent) : Prop where
  status : registered log e.id = e.manager
  due : e.manager = true → TimerLog.due log e.id = e.lasttime + e.speed
  left : ∀ after before time speed n,
    log = after ++ .registered e.id time speed n :: before → 0 ≤ n →
      (fires after e.id : ℤ) + e.lifetime = n ∧ 0 ≤ e.lifetime

variable {entry : TimerEntry} {log : List TimerEntry} {e : TimeEvent}

theorem Traced.cons_of_ne (h : Traced log e) (hne : entry.id ≠ e.id) :
    Traced (entry :: log) e where
  status := by
    rw [registered_cons_of_ne hne]
    exact h.status
  due := by
    rw [due_cons_of_ne hne]
    exact h.due
  left := by
    intro after before time speed n hsplit hn
    obtain ⟨-, rfl, -⟩ | ⟨after', rfl, hlog⟩ := split_cons hsplit
    · exact absurd rfl hne
    · rw [fires_cons_of_ne hne]
      exact h.left after' before time speed n hlog hn

theorem Traced.registered (h : Traced log e) (time : ℚ) :
    Traced (.registered e.id time e.speed e.lifetime :: log)
      { e with lasttime := time, manager := true } where
  status := by
    unfold TimerLog.registered
    simp
  due := fun _ => if_pos rfl
  left := by
    intro after before time' speed n hsplit hn
    obtain ⟨rfl, heq, -⟩ | ⟨after', rfl, hlog⟩ := split_cons hsplit
    · cases heq
      exact ⟨Int.zero_add _, hn⟩
    · exact h.left after' before time' speed n hlog hn

theorem Traced.unregistered (h : Traced log e) :
    Traced (.unregistered e.id :: log) { e with manager := false } where
  status := by
    unfold TimerLog.registered
    simp
  due := fun hmanager => by cases hmanager
  left := by
    intro after before time speed n hsplit hn
    obtain ⟨-, heq, -⟩ | ⟨after', rfl, hlog⟩ := split_cons hsplit
    · cases heq
    · exact h.left after' before time speed n hlog hn

/-- A call takes one of what is left, unless there is no end of it. -/
theorem Traced.fired (h : Traced log e) (hmanager : e.manager = true) (hleft : e.lifetime ≠ 0)
    (tick : ℕ) (time : ℚ) : Traced (.fired e.id tick time e.speed :: log) (TimerWorld.due e) where
  status := h.status
  due := by
    intro _
    have hbefore := h.due hmanager
    unfold TimerLog.due TimerWorld.due
    dsimp only
    rw [if_pos rfl, hbefore]
  left := by
    intro after before time' speed n hsplit hn
    obtain ⟨-, heq, -⟩ | ⟨after', rfl, hlog⟩ := split_cons hsplit
    · cases heq
    · obtain ⟨hsum, hpos⟩ := h.left after' before time' speed n hlog hn
      have hforever : e.lifetime ≠ forever := by
        intro heq
        rw [heq] at hpos
        exact absurd hpos (by decide)
      unfold fires TimerWorld.due
      dsimp only
      rw [if_pos rfl, if_pos hforever]
      push_cast
      omega

theorem Traced.allowed {tick : ℕ} {time : ℚ} (h : Traced log e) (hmanager : e.manager = true)
    (hleft : e.lifetime ≠ 0) (hdue : e.lasttime + e.speed < time)
    (honce : firedIn log e.id tick = false) : Allowed log e.id tick time where
  registered := h.status.trans hmanager
  due := by
    rw [h.due hmanager]
    exact hdue
  once := honce
  left := by
    intro after before time' speed n hlog hn
    obtain ⟨hsum, hpos⟩ := h.left after before time' speed n hlog hn
    omega

/-! ## The invariant -/

/-- A tick comes to each of its events once, and the one that it calls stays. -/
structure Orderly (w : TimerWorld) (t : TimerTick) : Prop where
  nodup : t.todo.Nodup
  fresh : ∀ addr ∈ t.todo, ∀ e, w.heap addr = some e → firedIn w.log e.id w.ticks = false
  running : ∀ addr, t.running = some addr → addr ∉ t.todo ∧ (w.heap addr).isSome

structure Sound (w : TimerWorld) : Prop where
  ids : ∀ addr e, w.heap addr = some e → e.id < w.nextId
  apart : ∀ a b d e, w.heap a = some d → w.heap b = some e → d.id = e.id → a = b
  members : ∀ addr, addr ∈ w.timers ↔ ∃ e, w.heap addr = some e ∧ e.manager = true
  timers : w.timers.Nodup
  execlist : w.execlist.Nodup
  traced : ∀ addr e, w.heap addr = some e → Traced w.log e
  logged : ∀ entry ∈ w.log, entry.id < w.nextId
  later : ∀ id tick, w.ticks < tick → firedIn w.log id tick = false
  honoured : Honoured w.log
  tick : ∀ t, w.ticking = some t → Orderly w t
  fault : w.fault = false

/-- What is registered has some of its lifetime left. -/
def Lasting (w : TimerWorld) : Prop :=
  ∀ addr e, w.heap addr = some e → e.manager = true → e.lifetime ≠ 0

variable {w w' : TimerWorld} {addr : ℕ}

theorem sound_start (clock : Clock) : (start clock).Sound where
  ids := fun _ _ h => by cases h
  apart := fun _ _ _ _ h => by cases h
  members := by
    intro addr
    constructor
    · exact fun h => absurd h List.not_mem_nil
    · rintro ⟨e, h, -⟩
      cases h
  timers := List.nodup_nil
  execlist := List.nodup_nil
  traced := fun _ _ h => by cases h
  logged := fun _ h => absurd h List.not_mem_nil
  later := fun _ _ _ => rfl
  honoured := honoured_nil
  tick := fun _ h => by cases h
  fault := rfl

/-- What changes when an event is registered, unregistered or called. -/
structure Touches (w w' : TimerWorld) (addr : ℕ) (e e' : TimeEvent) (entry : TimerEntry) :
    Prop where
  heap : w'.heap = update w.heap addr (some e')
  log : w'.log = entry :: w.log
  same : e'.id = e.id
  about : entry.id = e.id
  execlist : w'.execlist = w.execlist
  ticks : w'.ticks = w.ticks
  nextId : w'.nextId = w.nextId
  fault : w'.fault = w.fault

theorem Sound.touch {e' : TimeEvent} (h : w.Sound) (he : w.heap addr = some e)
    (ht : Touches w w' addr e e' entry)
    (hothers : ∀ a, a ≠ addr → (a ∈ w'.timers ↔ a ∈ w.timers))
    (hmember : addr ∈ w'.timers ↔ e'.manager = true) (hnodup : w'.timers.Nodup)
    (htraced : Traced (entry :: w.log) e') (hhonoured : Honoured (entry :: w.log))
    (hlater : ∀ tick, w.ticks < tick → firedIn (entry :: w.log) e.id tick = false)
    (hticking : ∀ t, w'.ticking = some t → t.todo.Nodup ∧
      (addr ∈ t.todo → firedIn (entry :: w.log) e.id w.ticks = false) ∧
      (∀ a ∈ t.todo, a ≠ addr → ∀ d, w.heap a = some d → firedIn w.log d.id w.ticks = false) ∧
      ∀ a, t.running = some a → a ∉ t.todo ∧ (a = addr ∨ (w.heap a).isSome)) : w'.Sound := by
  have hsome : w'.heap addr = some e' := by
    rw [ht.heap, update_self]
  have hother : ∀ a, a ≠ addr → w'.heap a = w.heap a := by
    intro a ha
    rw [ht.heap, update_of_ne ha]
  have hdiffer : ∀ a d, a ≠ addr → w.heap a = some d → entry.id ≠ d.id := by
    intro a d ha hd heq
    exact ha (h.apart a addr d e hd he (heq.symm.trans ht.about))
  constructor
  · intro a d hd
    rw [ht.nextId]
    by_cases ha : a = addr
    · subst ha
      cases hsome.symm.trans hd
      rw [ht.same]
      exact h.ids a e he
    · rw [hother a ha] at hd
      exact h.ids a d hd
  · have hown : ∀ a d, w'.heap a = some d → d.id = e.id → a = addr := by
      intro a d hd hid
      by_contra ha
      rw [hother a ha] at hd
      exact ha (h.apart a addr d e hd he hid)
    intro a b c d hc hd hid
    by_cases ha : a = addr
    · subst ha
      cases hsome.symm.trans hc
      exact (hown b d hd (hid.symm.trans ht.same)).symm
    · by_cases hb : b = addr
      · subst hb
        cases hsome.symm.trans hd
        exact hown a c hc (hid.trans ht.same)
      · rw [hother a ha] at hc
        rw [hother b hb] at hd
        exact h.apart a b c d hc hd hid
  · intro a
    by_cases ha : a = addr
    · subst ha
      rw [hmember, hsome]
      simp
    · rw [hothers a ha, hother a ha]
      exact h.members a
  · exact hnodup
  · rw [ht.execlist]
    exact h.execlist
  · intro a d hd
    rw [ht.log]
    by_cases ha : a = addr
    · subst ha
      cases hsome.symm.trans hd
      exact htraced
    · rw [hother a ha] at hd
      exact (h.traced a d hd).cons_of_ne (hdiffer a d ha hd)
  · intro x hx
    rw [ht.log] at hx
    rw [ht.nextId]
    rcases List.mem_cons.mp hx with rfl | hx
    · rw [ht.about]
      exact h.ids addr e he
    · exact h.logged x hx
  · intro id tick htick
    rw [ht.ticks] at htick
    rw [ht.log]
    by_cases hid : entry.id = id
    · rw [← hid, ht.about]
      exact hlater tick htick
    · rw [firedIn_cons_of_ne hid]
      exact h.later id tick htick
  · rw [ht.log]
    exact hhonoured
  · intro t htick
    obtain ⟨htodo, hown, hrest, hrunning⟩ := hticking t htick
    refine ⟨htodo, ?_, ?_⟩
    · intro a ha d hd
      rw [ht.log, ht.ticks]
      by_cases heq : a = addr
      · subst heq
        cases hsome.symm.trans hd
        rw [ht.same]
        exact hown ha
      · rw [hother a heq] at hd
        rw [firedIn_cons_of_ne (hdiffer a d heq hd)]
        exact hrest a ha heq d hd
    · intro a ha
      obtain ⟨hnot, hlive⟩ := hrunning a ha
      refine ⟨hnot, ?_⟩
      by_cases heq : a = addr
      · rw [heq, hsome]
        rfl
      · rw [hother a heq]
        exact hlive.resolve_left heq
  · rw [ht.fault]
    exact h.fault

/-- What is no call leaves the tick as it is. -/
theorem Sound.touch_quiet {e' : TimeEvent} (h : w.Sound) (he : w.heap addr = some e)
    (ht : Touches w w' addr e e' entry)
    (hquiet : ∀ id tick, firedIn (entry :: w.log) id tick = firedIn w.log id tick)
    (hnot : ∀ id tick time speed, entry ≠ .fired id tick time speed)
    (hothers : ∀ a, a ≠ addr → (a ∈ w'.timers ↔ a ∈ w.timers))
    (hmember : addr ∈ w'.timers ↔ e'.manager = true) (hnodup : w'.timers.Nodup)
    (htraced : Traced (entry :: w.log) e') (hticking : w'.ticking = w.ticking) : w'.Sound := by
  apply h.touch he ht hothers hmember hnodup htraced
  · exact h.honoured.cons fun id tick time speed heq => absurd heq (hnot id tick time speed)
  · intro tick htick
    rw [hquiet]
    exact h.later e.id tick htick
  · intro t htick
    rw [hticking] at htick
    have horderly := h.tick t htick
    refine ⟨horderly.nodup, ?_, ?_, ?_⟩
    · intro haddr
      rw [hquiet]
      exact horderly.fresh addr haddr e he
    · exact fun a ha _ d hd => horderly.fresh a ha d hd
    · exact fun a ha => ⟨(horderly.running a ha).1, Or.inr (horderly.running a ha).2⟩

theorem Sound.unregister (h : w.Sound) (he : w.heap addr = some e) :
    (w.unregister addr e).Sound := by
  have ht : Touches w (w.unregister addr e) addr e { e with manager := false }
      (.unregistered e.id) := ⟨rfl, rfl, rfl, rfl, rfl, rfl, rfl, rfl⟩
  apply h.touch_quiet he ht
  · exact fun _ _ => rfl
  · exact fun _ _ _ _ heq => by cases heq
  · exact fun a ha => List.mem_erase_of_ne ha
  · constructor
    · exact fun hmem => absurd hmem (h.timers.not_mem_erase)
    · exact fun hmanager => by cases hmanager
  · exact h.timers.erase addr
  · exact (h.traced addr e he).unregistered
  · rfl

theorem mem_insertTimer {a b : ℕ} {timers : List ℕ} :
    a ∈ insertTimer b timers ↔ a = b ∨ a ∈ timers := by
  unfold insertTimer
  split_ifs with hmem
  · constructor
    · exact Or.inr
    · rintro (rfl | ha)
      · exact hmem
      · exact ha
  · exact List.mem_orderedInsert _

theorem nodup_insertTimer {b : ℕ} {timers : List ℕ} (h : timers.Nodup) :
    (insertTimer b timers).Nodup := by
  unfold insertTimer
  split_ifs with hmem
  · exact h
  · exact (List.perm_orderedInsert _ b timers).nodup_iff.mpr (List.nodup_cons.mpr ⟨hmem, h⟩)

theorem sound_of_clock (h : w.Sound) (clock : Clock) : Sound { w with clock := clock } :=
  ⟨h.ids, h.apart, h.members, h.timers, h.execlist, h.traced, h.logged, h.later, h.honoured,
    fun t ht => ⟨(h.tick t ht).nodup, (h.tick t ht).fresh, (h.tick t ht).running⟩, h.fault⟩

theorem Sound.register (h : w.Sound) (he : w.heap addr = some e) (ticks : UInt32) :
    (w.register addr e ticks).Sound := by
  by_cases hleft : e.lifetime = 0
  · unfold TimerWorld.register
    rw [if_pos hleft]
    exact h
  have ht : Touches w (w.register addr e ticks) addr e
      { e with lasttime := (w.clock.getTime ticks).offset, manager := true }
      (.registered e.id (w.clock.getTime ticks).offset e.speed e.lifetime) := by
    unfold TimerWorld.register
    rw [if_neg hleft]
    exact ⟨rfl, rfl, rfl, rfl, rfl, rfl, rfl, rfl⟩
  have htimers : (w.register addr e ticks).timers = insertTimer addr w.timers := by
    unfold TimerWorld.register
    rw [if_neg hleft]
  apply h.touch_quiet he ht
  · exact fun _ _ => rfl
  · exact fun _ _ _ _ heq => by cases heq
  · intro a ha
    rw [htimers, mem_insertTimer]
    exact or_iff_right ha
  · rw [htimers]
    exact iff_of_true (mem_insertTimer.mpr (Or.inl rfl)) rfl
  · rw [htimers]
    exact nodup_insertTimer h.timers
  · exact (h.traced addr e he).registered _
  · unfold TimerWorld.register
    rw [if_neg hleft]

/-- An event that is not registered and not called is freed. -/
theorem Sound.free {d : TimeEvent} (h : w.Sound) (hd : w.heap addr = some d) (hid : e.id = d.id)
    (hmanager : d.manager = false) (hrunning : w.running ≠ some addr) : (w.free addr e).Sound := by
  have hother : ∀ a c, (w.free addr e).heap a = some c → a ≠ addr ∧ w.heap a = some c := by
    intro a c hc
    unfold TimerWorld.free at hc
    dsimp only at hc
    by_cases ha : a = addr
    · rw [ha, update_self] at hc
      cases hc
    · rw [update_of_ne ha] at hc
      exact ⟨ha, hc⟩
  have hdiffer : ∀ a c, a ≠ addr → w.heap a = some c → (TimerEntry.deleted e.id).id ≠ c.id :=
    fun a c ha hc heq => ha (h.apart a addr c d hc hd (heq.symm.trans hid))
  constructor
  · exact fun a c hc => h.ids a c (hother a c hc).2
  · exact fun a b c c' hc hc' => h.apart a b c c' (hother a c hc).2 (hother b c' hc').2
  · intro a
    change a ∈ w.timers ↔ ∃ c, update w.heap addr none a = some c ∧ c.manager = true
    rw [h.members a]
    by_cases ha : a = addr
    · subst ha
      rw [update_self]
      constructor
      · rintro ⟨c, hc, hregistered⟩
        cases hd.symm.trans hc
        rw [hmanager] at hregistered
        cases hregistered
      · rintro ⟨c, hc, -⟩
        cases hc
    · rw [update_of_ne ha]
  · exact h.timers
  · exact h.execlist
  · intro a c hc
    obtain ⟨ha, hc⟩ := hother a c hc
    exact (h.traced a c hc).cons_of_ne (hdiffer a c ha hc)
  · intro x hx
    rcases List.mem_cons.mp hx with rfl | hx
    · exact hid ▸ h.ids addr d hd
    · exact h.logged x hx
  · exact h.later
  · exact h.honoured.cons fun _ _ _ _ heq => by cases heq
  · intro t ht
    have horderly := h.tick t ht
    refine ⟨horderly.nodup, ?_, ?_⟩
    · intro a ha c hc
      exact horderly.fresh a ha c (hother a c hc).2
    · intro a ha
      obtain ⟨hnot, hlive⟩ := horderly.running a ha
      refine ⟨hnot, ?_⟩
      have hne : a ≠ addr := by
        rintro rfl
        apply hrunning
        unfold TimerWorld.running
        rw [show w.ticking = some t from ht]
        exact ha
      change (update w.heap addr none a).isSome
      rw [update_of_ne hne]
      exact hlive
  · exact h.fault

theorem Sound.delete (h : w.Sound) (he : w.heap addr = some e) (hrunning : w.running ≠ some addr) :
    (w.delete addr e).Sound := by
  unfold TimerWorld.delete
  split_ifs with hmanager
  · have hsome : (w.unregister addr e).heap addr = some { e with manager := false } :=
      update_self addr _ w.heap
    exact (h.unregister he).free hsome rfl rfl hrunning
  · exact h.free he rfl (Bool.not_eq_true _ ▸ hmanager) hrunning

theorem Sound.create (h : w.Sound) (he : w.heap addr = none) (speed : ℚ) (lifetime : ℤ) :
    (w.create addr speed lifetime).Sound := by
  have hcases : ∀ a d, (w.create addr speed lifetime).heap a = some d →
      a = addr ∧ d = ⟨w.nextId, speed, lifetime, 0, false⟩ ∨ a ≠ addr ∧ w.heap a = some d := by
    intro a d hd
    unfold TimerWorld.create at hd
    dsimp only at hd
    by_cases ha : a = addr
    · rw [ha, update_self] at hd
      cases hd
      exact Or.inl ⟨ha, rfl⟩
    · rw [update_of_ne ha] at hd
      exact Or.inr ⟨ha, hd⟩
  have hnew : ∀ entry ∈ w.log, entry.id ≠ w.nextId :=
    fun entry hentry => Nat.ne_of_lt (h.logged entry hentry)
  obtain ⟨hregistered, hfired⟩ := of_unmentioned hnew
  constructor
  · intro a d hd
    obtain ⟨-, rfl⟩ | ⟨-, hd⟩ := hcases a d hd
    · exact Nat.lt_succ_self _
    · exact Nat.lt_succ_of_lt (h.ids a d hd)
  · intro a b c d hc hd hid
    obtain ⟨rfl, rfl⟩ | ⟨-, hc⟩ := hcases a c hc
    · obtain ⟨rfl, -⟩ | ⟨-, hd⟩ := hcases b d hd
      · rfl
      · exact absurd hid (Nat.ne_of_gt (h.ids b d hd))
    · obtain ⟨-, rfl⟩ | ⟨-, hd⟩ := hcases b d hd
      · exact absurd hid (Nat.ne_of_lt (h.ids a c hc))
      · exact h.apart a b c d hc hd hid
  · intro a
    change a ∈ w.timers ↔ ∃ d, update w.heap addr _ a = some d ∧ d.manager = true
    rw [h.members a]
    by_cases ha : a = addr
    · subst ha
      rw [update_self, he]
      simp
    · rw [update_of_ne ha]
  · exact h.timers
  · exact h.execlist
  · intro a d hd
    obtain ⟨-, rfl⟩ | ⟨-, hd⟩ := hcases a d hd
    · refine ⟨hregistered, (fun hmanager => by cases hmanager), ?_⟩
      intro after before time speed n hlog hn
      have hmem : TimerEntry.registered w.nextId time speed n ∈ w.log := by
        change w.log = _ at hlog
        rw [hlog]
        exact List.mem_append_right _ List.mem_cons_self
      exact absurd rfl (hnew _ hmem)
    · exact h.traced a d hd
  · exact fun x hx => Nat.lt_succ_of_lt (h.logged x hx)
  · exact h.later
  · exact h.honoured
  · intro t ht
    have horderly := h.tick t ht
    refine ⟨horderly.nodup, ?_, ?_⟩
    · intro a ha d hd
      obtain ⟨-, rfl⟩ | ⟨-, hd⟩ := hcases a d hd
      · exact hfired w.ticks
      · exact horderly.fresh a ha d hd
    · intro a ha
      obtain ⟨hnot, hlive⟩ := horderly.running a ha
      refine ⟨hnot, ?_⟩
      change (update w.heap addr _ a).isSome
      by_cases heq : a = addr
      · rw [heq, update_self]
        rfl
      · rw [update_of_ne heq]
        exact hlive
  · exact h.fault

/-! ## Ticks -/

theorem Lasting.of_update {x : Option TimeEvent} (h : w.Lasting)
    (hheap : w'.heap = update w.heap addr x)
    (hx : ∀ e', x = some e' → e'.manager = true → e'.lifetime ≠ 0) : w'.Lasting := by
  intro a e' he'
  rw [hheap] at he'
  by_cases ha : a = addr
  · rw [ha, update_self] at he'
    exact hx e' he'
  · rw [update_of_ne ha] at he'
    exact h a e' he'

theorem Lasting.unregister (h : w.Lasting) : (w.unregister addr e).Lasting := by
  refine h.of_update rfl ?_
  intro e' he' hmanager
  cases he'
  cases hmanager

theorem Lasting.delete (h : w.Lasting) : (w.delete addr e).Lasting := by
  have hnone : ∀ e' : TimeEvent, none = some e' → e'.manager = true → e'.lifetime ≠ 0 :=
    fun e' he' => by cases he'
  unfold TimerWorld.delete
  split_ifs
  · exact (Lasting.unregister h).of_update rfl hnone
  · exact h.of_update rfl hnone

theorem Lasting.register (h : w.Lasting) (ticks : UInt32) : (w.register addr e ticks).Lasting := by
  unfold TimerWorld.register
  split_ifs with hleft
  · exact h
  · refine h.of_update rfl ?_
    intro e' he' _
    cases he'
    exact hleft

/-- The call of an event that is due and registered. -/
theorem Sound.fire {currenttime : ℚ} {rest : List ℕ} (h : w.Sound) (hlasting : w.Lasting)
    (ht : w.ticking = some ⟨currenttime, addr :: rest, none⟩) (hmem : addr ∈ w.timers)
    (he : w.heap addr = some e) (hdue : e.lasttime + e.speed < currenttime) :
    (w.fire addr e currenttime rest).Sound ∧ (w.fire addr e currenttime rest).Lasting := by
  obtain ⟨d, hd, hmanager⟩ := (h.members addr).mp hmem
  cases he.symm.trans hd
  have hleft : e.lifetime ≠ 0 := hlasting addr e he hmanager
  have horderly := h.tick _ ht
  obtain ⟨hout, hrest⟩ := List.nodup_cons.mp horderly.nodup
  have honce : firedIn w.log e.id w.ticks = false :=
    horderly.fresh addr List.mem_cons_self e he
  have htraced := h.traced addr e he
  let called : TimerWorld :=
    { w with
      heap := update w.heap addr (some (TimerWorld.due e))
      log := .fired e.id w.ticks currenttime e.speed :: w.log
      ticking := some ⟨currenttime, rest, some addr⟩ }
  have hcalled : called.Sound := by
    have ht : Touches w called addr e (TimerWorld.due e)
        (.fired e.id w.ticks currenttime e.speed) := ⟨rfl, rfl, rfl, rfl, rfl, rfl, rfl, rfl⟩
    apply h.touch he ht
    · exact fun _ _ => Iff.rfl
    · exact iff_of_true hmem hmanager
    · exact h.timers
    · exact htraced.fired hmanager hleft w.ticks currenttime
    · apply h.honoured.cons
      intro id tick time speed heq
      cases heq
      exact htraced.allowed hmanager hleft hdue honce
    · intro tick htick
      unfold firedIn
      rw [h.later e.id tick htick, Bool.or_false, Bool.and_eq_false_iff]
      right
      exact decide_eq_false (Nat.ne_of_lt htick)
    · intro t htick
      cases htick
      refine ⟨hrest, fun hin => absurd hin hout, ?_, ?_⟩
      · exact fun a ha _ c hc => horderly.fresh a (List.mem_cons_of_mem addr ha) c hc
      · rintro a heq
        cases heq
        exact ⟨hout, Or.inl rfl⟩
  have hsome : called.heap addr = some (TimerWorld.due e) := update_self addr _ w.heap
  change (if e.lifetime ≠ forever ∧ (TimerWorld.due e).lifetime = 0 then
      called.unregister addr (TimerWorld.due e) else called).Sound ∧
    (if e.lifetime ≠ forever ∧ (TimerWorld.due e).lifetime = 0 then
      called.unregister addr (TimerWorld.due e) else called).Lasting
  split_ifs with hlast
  · refine ⟨hcalled.unregister hsome, ?_⟩
    -- the last call has unregistered the event, so it may have nothing left
    intro a c hc
    by_cases ha : a = addr
    · subst ha
      cases (update_self a _ called.heap).symm.trans hc
      exact fun hmanager => by cases hmanager
    · have hbefore : w.heap a = some c := by
        change update (update w.heap addr _) addr _ a = some c at hc
        rw [update_of_ne ha, update_of_ne ha] at hc
        exact hc
      exact hlasting a c hbefore
  · refine ⟨hcalled, ?_⟩
    have hheap : called.heap = update w.heap addr (some (TimerWorld.due e)) := rfl
    apply hlasting.of_update hheap
    intro c hc _ hzero
    cases hc
    by_cases hforever : e.lifetime = forever
    · unfold TimerWorld.due at hzero
      dsimp only at hzero
      rw [if_neg (not_not.mpr hforever)] at hzero
      exact hleft hzero
    · exact hlast ⟨hforever, hzero⟩

/-- A tick goes on to what is left of it. -/
theorem Sound.goOn {t : TimerTick} {currenttime : ℚ} {rest : List ℕ} (h : w.Sound)
    (ht : w.ticking = some t) (hrest : rest.Sublist t.todo) :
    Sound { w with ticking := some ⟨currenttime, rest, none⟩ } := by
  have horderly := h.tick t ht
  refine ⟨h.ids, h.apart, h.members, h.timers, h.execlist, h.traced, h.logged, h.later, h.honoured,
    ?_, h.fault⟩
  intro t' ht'
  cases ht'
  exact ⟨horderly.nodup.sublist hrest, fun a ha => horderly.fresh a (hrest.subset ha),
    fun a ha => by cases ha⟩

theorem Sound.visit {currenttime : ℚ} {rest : List ℕ} (h : w.Sound) (hlasting : w.Lasting)
    (ht : w.ticking = some ⟨currenttime, addr :: rest, none⟩) :
    (w.visit addr currenttime rest).Sound ∧ (w.visit addr currenttime rest).Lasting := by
  have hskip : Sound { w with ticking := some ⟨currenttime, rest, none⟩ } :=
    h.goOn ht (List.sublist_cons_self addr rest)
  unfold TimerWorld.visit
  by_cases hmem : addr ∈ w.timers
  · rw [if_neg (not_not.mpr hmem)]
    obtain ⟨e, he, -⟩ := (h.members addr).mp hmem
    rw [he]
    dsimp only
    split_ifs with hdue
    · exact h.fire hlasting ht hmem he hdue
    · exact ⟨hskip, hlasting⟩
  · rw [if_pos hmem]
    exact ⟨hskip, hlasting⟩

theorem Sound.returned {currenttime : ℚ} {rest : List ℕ} (h : w.Sound) (hlasting : w.Lasting)
    (ht : w.ticking = some ⟨currenttime, rest, some addr⟩) :
    (w.returned addr currenttime rest).Sound ∧ (w.returned addr currenttime rest).Lasting := by
  obtain ⟨-, hlive⟩ := (h.tick _ ht).running addr rfl
  obtain ⟨e, he⟩ := Option.isSome_iff_exists.mp hlive
  have hleft : Sound { w with ticking := some ⟨currenttime, rest, none⟩ } :=
    h.goOn ht (List.Sublist.refl rest)
  unfold TimerWorld.returned
  rw [he]
  dsimp only
  split_ifs
  · exact ⟨hleft, hlasting⟩
  · exact ⟨hleft.delete he (fun hrunning => by cases hrunning), Lasting.delete hlasting⟩

theorem Sound.beginTick (h : w.Sound) (ticks : UInt32) : (w.beginTick ticks).Sound := by
  have hexec : (if w.changed then w.timers else w.execlist).Nodup := by
    split_ifs
    · exact h.timers
    · exact h.execlist
  refine ⟨h.ids, h.apart, h.members, h.timers, hexec, h.traced, h.logged, ?_, h.honoured, ?_,
    h.fault⟩
  · exact fun id tick htick => h.later id tick (Nat.lt_of_succ_lt htick)
  · intro t ht
    cases ht
    exact ⟨hexec, fun a _ e _ => h.later e.id (w.ticks + 1) (Nat.lt_succ_self _),
      fun a ha => by cases ha⟩

theorem Sound.step {op : TimerStep} (h : w.Sound) (hlasting : w.Lasting)
    (hs : w.step op = some w') : w'.Sound ∧ w'.Lasting := by
  cases op with
  | create addr speed lifetime =>
      unfold TimerWorld.step at hs
      dsimp only at hs
      split_ifs at hs with hfree
      cases hs
      refine ⟨h.create (Option.not_isSome_iff_eq_none.mp hfree) speed lifetime, ?_⟩
      refine hlasting.of_update rfl ?_
      intro e' he' hmanager
      cases he'
      cases hmanager
  | register addr ticks =>
      obtain ⟨e, he, rfl⟩ := Option.map_eq_some_iff.mp hs
      exact ⟨h.register he ticks, hlasting.register ticks⟩
  | unregister addr =>
      obtain ⟨e, he, rfl⟩ := Option.map_eq_some_iff.mp hs
      exact ⟨h.unregister he, hlasting.unregister⟩
  | delete addr =>
      unfold TimerWorld.step at hs
      dsimp only at hs
      split_ifs at hs with hrunning
      obtain ⟨e, he, rfl⟩ := Option.map_eq_some_iff.mp hs
      exact ⟨h.delete he hrunning, hlasting.delete⟩
  | getTime ticks =>
      cases hs
      exact ⟨sound_of_clock h _, hlasting⟩
  | setMaxDelta maxDelta =>
      cases hs
      exact ⟨sound_of_clock h _, hlasting⟩
  | beginTick ticks =>
      unfold TimerWorld.step at hs
      dsimp only at hs
      split_ifs at hs
      cases hs
      exact ⟨h.beginTick ticks, hlasting⟩
  | visit =>
      unfold TimerWorld.step at hs
      dsimp only at hs
      split at hs
      case h_1 currenttime addr rest ht =>
        cases hs
        exact h.visit hlasting ht
      case h_2 => cases hs
  | returned =>
      unfold TimerWorld.step at hs
      dsimp only at hs
      split at hs
      case h_1 currenttime rest addr ht =>
        cases hs
        exact h.returned hlasting ht
      case h_2 => cases hs
  | endTick =>
      unfold TimerWorld.step at hs
      dsimp only at hs
      split at hs
      case h_1 currenttime ht =>
        cases hs
        refine ⟨⟨h.ids, h.apart, h.members, h.timers, h.execlist, h.traced, h.logged, h.later,
          h.honoured, ?_, h.fault⟩, hlasting⟩
        exact fun t ht => by cases ht
      case h_2 => cases hs

/-! ## Whole runs -/

theorem clock_delete : (w.delete addr e).clock = w.clock := by
  unfold TimerWorld.delete
  split_ifs
  · rfl
  · rfl

theorem clock_visit (currenttime : ℚ) (rest : List ℕ) :
    (w.visit addr currenttime rest).clock = w.clock := by
  unfold TimerWorld.visit
  by_cases hmem : addr ∈ w.timers
  case neg =>
    rw [if_pos hmem]
  rw [if_neg (not_not.mpr hmem)]
  cases w.heap addr with
  | none => rfl
  | some e =>
      dsimp only
      split_ifs
      · unfold TimerWorld.fire
        dsimp only
        split_ifs
        · rfl
        · rfl
      · rfl

theorem clock_returned (currenttime : ℚ) (rest : List ℕ) :
    (w.returned addr currenttime rest).clock = w.clock := by
  unfold TimerWorld.returned
  cases w.heap addr with
  | none => rfl
  | some e =>
      dsimp only
      split_ifs
      · rfl
      · exact clock_delete

theorem offset_le_register (ticks : UInt32) :
    w.clock.offset ≤ (w.register addr e ticks).clock.offset := by
  unfold TimerWorld.register
  split_ifs
  · exact le_refl _
  · exact w.clock.offset_le_getTime ticks

/-- The time never goes back. -/
theorem offset_le_step {op : TimerStep} (hs : w.step op = some w') :
    w.clock.offset ≤ w'.clock.offset := by
  cases op with
  | create addr speed lifetime =>
      unfold TimerWorld.step at hs
      dsimp only at hs
      split_ifs at hs
      cases hs
      exact le_refl _
  | register addr ticks =>
      obtain ⟨e, -, rfl⟩ := Option.map_eq_some_iff.mp hs
      exact offset_le_register ticks
  | unregister addr =>
      obtain ⟨e, -, rfl⟩ := Option.map_eq_some_iff.mp hs
      exact le_refl _
  | delete addr =>
      unfold TimerWorld.step at hs
      dsimp only at hs
      split_ifs at hs
      obtain ⟨e, -, rfl⟩ := Option.map_eq_some_iff.mp hs
      rw [clock_delete]
  | getTime ticks =>
      cases hs
      exact w.clock.offset_le_getTime ticks
  | setMaxDelta maxDelta =>
      cases hs
      exact le_refl _
  | beginTick ticks =>
      unfold TimerWorld.step at hs
      dsimp only at hs
      split_ifs at hs
      cases hs
      exact w.clock.offset_le_getTime ticks
  | visit =>
      unfold TimerWorld.step at hs
      dsimp only at hs
      split at hs
      case h_1 currenttime addr rest ht =>
        cases hs
        rw [clock_visit]
      case h_2 => cases hs
  | returned =>
      unfold TimerWorld.step at hs
      dsimp only at hs
      split at hs
      case h_1 currenttime rest addr ht =>
        cases hs
        rw [clock_returned]
      case h_2 => cases hs
  | endTick =>
      unfold TimerWorld.step at hs
      dsimp only at hs
      split at hs
      case h_1 currenttime ht =>
        cases hs
        exact le_refl _
      case h_2 => cases hs

/-- In every run of a timer, whatever the clock reads, an event is called while it is registered,
after its speed since it was registered or due before, once in a tick, and not more often than its
lifetime; no event is used after it was deleted, and the time never goes back. -/
theorem honoured_of_reaches (clock : Clock) (steps : List TimerStep) :
    (∀ t, RunSteps.Reaches step (start clock) steps t → Honoured t.log ∧ t.fault = false) ∧
      RunSteps.Every step (fun w op => ∀ w' ∈ w.step op, w.clock.offset ≤ w'.clock.offset)
        (start clock) steps := by
  constructor
  · intro t ht
    have hany : RunSteps.Every step (fun _ _ => True) (start clock) steps :=
      RunSteps.every_of_forall (fun _ _ => trivial) (start clock) steps
    have hinv : t.Sound ∧ t.Lasting := by
      apply RunSteps.invariant_of_every (fun w => w.Sound ∧ w.Lasting)
        (fun w op w' h _ hs => h.1.step h.2 hs) _ hany ht
      exact ⟨sound_start clock, fun addr e he => by cases he⟩
    exact ⟨hinv.1.honoured, hinv.1.fault⟩
  · exact RunSteps.every_of_forall (fun _ _ _ hs => offset_le_step hs) (start clock) steps

/-- An event with one call left that is deleted by itself after it, and another one at its address
that is not due in the same tick. -/
example :
    (RunSteps.run step (start ⟨0, 0, 1000⟩)
      [.create 7 (1 / 2) 1, .register 7 0, .beginTick 600, .visit, .create 8 0 1, .register 8 600,
        .returned, .create 7 0 1, .register 7 600, .endTick]).map (fun w => (w.log, w.timers)) =
      some
        ([.registered 2 (3 / 5) 0 1, .deleted 0, .registered 1 (3 / 5) 0 1, .unregistered 0,
          .fired 0 1 (3 / 5) (1 / 2), .registered 0 0 (1 / 2) 1], [7, 8]) := by
  decide +kernel

end TimerWorld

end ArenaServ
