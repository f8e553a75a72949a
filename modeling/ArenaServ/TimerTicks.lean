import ArenaServ.TimerLifetimes

/-!
# What a tick comes to

A step of a timer changes the event at one address at most, and a tick that ends has called every
event that was due when it began and has stayed registered.
-/

namespace ArenaServ.TimerWorld
open Function TimerLog

variable {w w' : TimerWorld} {addr : ℕ} {e : TimeEvent}

/-- The event that others than the timer itself name. -/
def target : TimerStep → Option ℕ
  | .register addr _ => some addr
  | .unregister addr => some addr
  | .delete addr => some addr
  | _ => none

/-- The event that a step has called. -/
def calls : TimerStep → TimerWorld → Option ℕ
  | .visit, w' => w'.running
  | _, _ => none

/-! ## Addresses that a step leaves alone -/

theorem heap_delete_of_ne {a : ℕ} (ha : a ≠ addr) : (w.delete addr e).heap a = w.heap a := by
  unfold TimerWorld.delete
  split_ifs
  · change update (update w.heap addr _) addr none a = w.heap a
    rw [update_of_ne ha, update_of_ne ha]
  · exact update_of_ne ha _ _

theorem heap_register_of_ne {a : ℕ} {ticks : UInt32} (ha : a ≠ addr) :
    (w.register addr e ticks).heap a = w.heap a := by
  unfold TimerWorld.register
  split_ifs
  · rfl
  · exact update_of_ne ha _ _

theorem heap_fire_of_ne {a : ℕ} {currenttime : ℚ} {rest : List ℕ} (ha : a ≠ addr) :
    (w.fire addr e currenttime rest).heap a = w.heap a := by
  unfold TimerWorld.fire
  dsimp only
  split_ifs
  · change update (update w.heap addr _) addr _ a = w.heap a
    rw [update_of_ne ha, update_of_ne ha]
  · exact update_of_ne ha _ _

/-- An event that is called has one time less, and is not registered any more after its last one. -/
def calledOnce (e : TimeEvent) : TimeEvent :=
  if e.lifetime ≠ forever ∧ (due e).lifetime = 0 then { due e with manager := false } else due e

theorem id_calledOnce : (calledOnce e).id = e.id := by
  unfold calledOnce
  split_ifs
  · rfl
  · rfl

theorem speed_calledOnce : (calledOnce e).speed = e.speed := by
  unfold calledOnce
  split_ifs
  · rfl
  · rfl

/-- An event that counts its calls. -/
theorem calledOnce_of_counts {n : ℕ} (hlifetime : e.lifetime = (n + 1 : ℕ)) :
    (calledOnce e).lifetime = n ∧
      (e.manager = true → (calledOnce e).manager = decide (0 < n)) := by
  have hforever : e.lifetime ≠ forever := by
    unfold forever
    omega
  have hleft : (due e).lifetime = n := by
    unfold due
    dsimp only
    rw [if_pos hforever, hlifetime]
    omega
  unfold calledOnce
  by_cases hzero : n = 0
  · subst hzero
    rw [if_pos ⟨hforever, hleft⟩]
    exact ⟨hleft, fun _ => rfl⟩
  · have hne : (due e).lifetime ≠ 0 := by
      rw [hleft]
      omega
    rw [if_neg fun h => hne h.2]
    refine ⟨hleft, fun hmanager => ?_⟩
    rw [decide_eq_true (Nat.pos_of_ne_zero hzero)]
    exact hmanager

theorem heap_fire_self {currenttime : ℚ} {rest : List ℕ} :
    (w.fire addr e currenttime rest).heap addr = some (calledOnce e) := by
  unfold TimerWorld.fire calledOnce
  dsimp only
  split_ifs
  · exact update_self addr _ _
  · exact update_self addr _ _

/-- What a visit does: it calls the next event of the tick, or passes it by. -/
theorem visit_cases (hs : w.step .visit = some w') :
    ∃ currenttime addr rest, w.ticking = some ⟨currenttime, addr :: rest, none⟩ ∧
      ((∃ e, addr ∈ w.timers ∧ w.heap addr = some e ∧ e.lasttime + e.speed < currenttime ∧
          w' = w.fire addr e currenttime rest) ∨
        (w'.running = none ∧ w'.heap = w.heap ∧ w'.log = w.log ∧ w'.timers = w.timers ∧
          w'.execlist = w.execlist ∧ w'.changed = w.changed ∧ w'.ticks = w.ticks ∧
          w'.clock = w.clock ∧ w'.nextId = w.nextId ∧
          ((w.heap addr = none ∧ addr ∈ w.timers) ∨
            (w'.ticking = some ⟨currenttime, rest, none⟩ ∧ (addr ∉ w.timers ∨
              ∃ e, w.heap addr = some e ∧ ¬ e.lasttime + e.speed < currenttime))))) := by
  unfold TimerWorld.step at hs
  dsimp only at hs
  split at hs
  case h_2 => cases hs
  case h_1 currenttime addr rest ht =>
    cases hs
    refine ⟨currenttime, addr, rest, ht, ?_⟩
    unfold TimerWorld.visit
    by_cases hmem : addr ∈ w.timers
    case neg =>
      rw [if_pos hmem]
      exact Or.inr ⟨rfl, rfl, rfl, rfl, rfl, rfl, rfl, rfl, rfl, Or.inr ⟨rfl, Or.inl hmem⟩⟩
    rw [if_neg (not_not.mpr hmem)]
    cases he : w.heap addr with
    | none =>
        right
        refine ⟨?_, rfl, rfl, rfl, rfl, rfl, rfl, rfl, rfl, Or.inl ⟨rfl, hmem⟩⟩
        unfold running
        rw [ht]
        rfl
    | some e =>
        dsimp only
        by_cases hdue : e.lasttime + e.speed < currenttime
        · rw [if_pos hdue]
          exact Or.inl ⟨e, hmem, rfl, hdue, rfl⟩
        · rw [if_neg hdue]
          exact Or.inr ⟨rfl, rfl, rfl, rfl, rfl, rfl, rfl, rfl, rfl,
            Or.inr ⟨rfl, Or.inr ⟨e, rfl, hdue⟩⟩⟩

theorem running_fire {currenttime : ℚ} {rest : List ℕ} :
    (w.fire addr e currenttime rest).running = some addr := by
  unfold TimerWorld.fire running
  dsimp only
  split_ifs
  · rfl
  · rfl

/-- An event stays as it is while nobody names it, calls it or comes back from it. -/
theorem heap_step_of_some {op : TimerStep} (hs : w.step op = some w')
    (htarget : target op ≠ some addr) (hcalls : calls op w' ≠ some addr)
    (hmanager : e.manager = true) (he : w.heap addr = some e) : w'.heap addr = some e := by
  cases op with
  | create a speed lifetime =>
      unfold TimerWorld.step at hs
      dsimp only at hs
      split_ifs at hs with hfree
      cases hs
      have hne : addr ≠ a := by
        rintro rfl
        rw [he] at hfree
        exact hfree rfl
      exact (update_of_ne hne _ _).trans he
  | register a ticks =>
      obtain ⟨d, -, rfl⟩ := Option.map_eq_some_iff.mp hs
      have hne : addr ≠ a := fun heq => htarget (congrArg some heq.symm)
      rw [heap_register_of_ne hne, he]
  | unregister a =>
      obtain ⟨d, -, rfl⟩ := Option.map_eq_some_iff.mp hs
      have hne : addr ≠ a := fun heq => htarget (congrArg some heq.symm)
      exact (update_of_ne hne _ _).trans he
  | delete a =>
      unfold TimerWorld.step at hs
      dsimp only at hs
      split_ifs at hs
      obtain ⟨d, -, rfl⟩ := Option.map_eq_some_iff.mp hs
      have hne : addr ≠ a := fun heq => htarget (congrArg some heq.symm)
      rw [heap_delete_of_ne hne, he]
  | getTime ticks =>
      cases hs
      exact he
  | setMaxDelta maxDelta =>
      cases hs
      exact he
  | beginTick ticks =>
      unfold TimerWorld.step at hs
      dsimp only at hs
      split_ifs at hs
      cases hs
      exact he
  | visit =>
      obtain ⟨currenttime, a, rest, ht, ⟨d, -, -, -, rfl⟩ | ⟨-, hheap, -⟩⟩ := visit_cases hs
      · have hne : addr ≠ a := fun heq => hcalls (running_fire.trans (congrArg some heq.symm))
        rw [heap_fire_of_ne hne, he]
      · rw [hheap, he]
  | returned =>
      unfold TimerWorld.step at hs
      dsimp only at hs
      split at hs
      case h_2 => cases hs
      case h_1 currenttime rest a ht =>
        cases hs
        unfold TimerWorld.returned
        by_cases hne : addr = a
        · rw [← hne, he]
          dsimp only
          rw [if_pos hmanager]
          exact he
        · cases w.heap a with
          | none => exact he
          | some d =>
              dsimp only
              split_ifs
              · exact he
              · rw [heap_delete_of_ne hne]
                exact he
  | endTick =>
      unfold TimerWorld.step at hs
      dsimp only at hs
      split at hs
      case h_1 currenttime ht =>
        cases hs
        exact he
      case h_2 => cases hs

theorem heap_delete_self : (w.delete addr e).heap addr = none := by
  unfold TimerWorld.delete
  split_ifs
  · exact update_self addr _ _
  · exact update_self addr _ _

theorem nextId_delete : (w.delete addr e).nextId = w.nextId := by
  unfold TimerWorld.delete
  split_ifs
  · rfl
  · rfl

theorem nextId_fire {currenttime : ℚ} {rest : List ℕ} :
    (w.fire addr e currenttime rest).nextId = w.nextId := by
  unfold TimerWorld.fire
  dsimp only
  split_ifs
  · rfl
  · rfl

/-- A step that calls an event. -/
theorem calls_spec {op : TimerStep} (hs : w.step op = some w') (h : calls op w' = some addr) :
    ∃ e currenttime rest, op = .visit ∧ w.ticking = some ⟨currenttime, addr :: rest, none⟩ ∧
      addr ∈ w.timers ∧ w.heap addr = some e ∧ w' = w.fire addr e currenttime rest := by
  cases op with
  | visit =>
      obtain ⟨currenttime, a, rest, ht, ⟨e, hmem, he, -, rfl⟩ | ⟨hnone, -⟩⟩ := visit_cases hs
      · have heq : a = addr := Option.some.inj (running_fire.symm.trans h)
        rw [heq] at ht hmem he
        exact ⟨e, currenttime, rest, rfl, ht, hmem, he, by rw [heq]⟩
      · rw [calls, hnone] at h
        cases h
  | _ => cases h

/-- An event that is there after a step was there before, or is new. -/
theorem heap_step_back {op : TimerStep} (hs : w.step op = some w')
    (hcalls : calls op w' ≠ some addr) (he : w'.heap addr = some e) :
    (∃ d, w.heap addr = some d ∧ d.id = e.id ∧ (target op ≠ some addr → d = e)) ∨
      e.id = w.nextId := by
  have hsame : w'.heap addr = w.heap addr → (∃ d, w.heap addr = some d ∧ d.id = e.id ∧
      (target op ≠ some addr → d = e)) ∨ e.id = w.nextId :=
    fun hheap => Or.inl ⟨e, hheap.symm.trans he, rfl, fun _ => rfl⟩
  cases op with
  | create a speed lifetime =>
      unfold TimerWorld.step at hs
      dsimp only at hs
      split_ifs at hs with hfree
      cases hs
      by_cases hne : addr = a
      · subst hne
        cases (update_self addr _ _).symm.trans he
        exact Or.inr rfl
      · exact hsame (update_of_ne hne _ _)
  | register a ticks =>
      obtain ⟨d, hd, rfl⟩ := Option.map_eq_some_iff.mp hs
      by_cases hne : addr = a
      · subst hne
        refine Or.inl ⟨d, hd, ?_, fun h => absurd rfl h⟩
        unfold TimerWorld.register at he
        split_ifs at he
        · cases hd.symm.trans he
          rfl
        · cases (update_self addr _ _).symm.trans he
          rfl
      · exact hsame (heap_register_of_ne hne)
  | unregister a =>
      obtain ⟨d, hd, rfl⟩ := Option.map_eq_some_iff.mp hs
      by_cases hne : addr = a
      · subst hne
        cases (update_self addr _ _).symm.trans he
        exact Or.inl ⟨d, hd, rfl, fun h => absurd rfl h⟩
      · exact hsame (update_of_ne hne _ _)
  | delete a =>
      unfold TimerWorld.step at hs
      dsimp only at hs
      split_ifs at hs
      obtain ⟨d, hd, rfl⟩ := Option.map_eq_some_iff.mp hs
      by_cases hne : addr = a
      · subst hne
        cases heap_delete_self.symm.trans he
      · exact hsame (heap_delete_of_ne hne)
  | getTime ticks =>
      cases hs
      exact hsame rfl
  | setMaxDelta maxDelta =>
      cases hs
      exact hsame rfl
  | beginTick ticks =>
      unfold TimerWorld.step at hs
      dsimp only at hs
      split_ifs at hs
      cases hs
      exact hsame rfl
  | visit =>
      obtain ⟨currenttime, a, rest, ht, ⟨d, -, -, -, rfl⟩ | ⟨-, hheap, -⟩⟩ := visit_cases hs
      · have hne : addr ≠ a := fun heq => hcalls (running_fire.trans (congrArg some heq.symm))
        exact hsame (heap_fire_of_ne hne)
      · exact hsame (congrFun hheap addr)
  | returned =>
      unfold TimerWorld.step at hs
      dsimp only at hs
      split at hs
      case h_2 => cases hs
      case h_1 currenttime rest a ht =>
        cases hs
        unfold TimerWorld.returned at he hsame
        cases hd : w.heap a with
        | none =>
            rw [hd] at hsame
            exact hsame rfl
        | some d =>
            rw [hd] at he hsame
            dsimp only at he hsame
            split_ifs at he hsame
            · exact hsame rfl
            · by_cases hne : addr = a
              · subst hne
                cases heap_delete_self.symm.trans he
              · exact hsame (heap_delete_of_ne hne)
  | endTick =>
      unfold TimerWorld.step at hs
      dsimp only at hs
      split at hs
      case h_1 currenttime ht =>
        cases hs
        exact hsame rfl
      case h_2 => cases hs

theorem nextId_le_step {op : TimerStep} (hs : w.step op = some w') : w.nextId ≤ w'.nextId := by
  cases op with
  | create a speed lifetime =>
      unfold TimerWorld.step at hs
      dsimp only at hs
      split_ifs at hs
      cases hs
      exact Nat.le_succ _
  | register a ticks =>
      obtain ⟨d, -, rfl⟩ := Option.map_eq_some_iff.mp hs
      unfold TimerWorld.register
      split_ifs
      · exact Nat.le_refl _
      · exact Nat.le_refl _
  | unregister a =>
      obtain ⟨d, -, rfl⟩ := Option.map_eq_some_iff.mp hs
      exact Nat.le_refl _
  | delete a =>
      unfold TimerWorld.step at hs
      dsimp only at hs
      split_ifs at hs
      obtain ⟨d, -, rfl⟩ := Option.map_eq_some_iff.mp hs
      rw [nextId_delete]
  | getTime ticks =>
      cases hs
      exact Nat.le_refl _
  | setMaxDelta maxDelta =>
      cases hs
      exact Nat.le_refl _
  | beginTick ticks =>
      unfold TimerWorld.step at hs
      dsimp only at hs
      split_ifs at hs
      cases hs
      exact Nat.le_refl _
  | visit =>
      obtain ⟨currenttime, a, rest, ht, ⟨d, -, -, -, rfl⟩ | hpassed⟩ := visit_cases hs
      · rw [nextId_fire]
      · obtain ⟨-, -, -, -, -, -, -, -, hnext, -⟩ := hpassed
        rw [hnext]
  | returned =>
      unfold TimerWorld.step at hs
      dsimp only at hs
      split at hs
      case h_2 => cases hs
      case h_1 currenttime rest a ht =>
        cases hs
        unfold TimerWorld.returned
        cases w.heap a with
        | none => exact Nat.le_refl _
        | some d =>
            dsimp only
            split_ifs
            · exact Nat.le_refl _
            · rw [nextId_delete]
  | endTick =>
      unfold TimerWorld.step at hs
      dsimp only at hs
      split at hs
      case h_1 currenttime ht =>
        cases hs
        exact Nat.le_refl _
      case h_2 => cases hs

/-! ## Events that a tick owes a call -/

/-- An event that is due is called in the tick that is going on, if it stays registered. -/
structure Attentive (w : TimerWorld) : Prop where
  listed : w.changed = false → ∀ addr ∈ w.timers, addr ∈ w.execlist
  reads : ∀ t, w.ticking = some t → t.currenttime ≤ w.clock.offset
  attends : ∀ t, w.ticking = some t → ∀ addr e, w.heap addr = some e → e.manager = true →
    0 ≤ e.speed → addr ∈ t.todo ∨ t.currenttime ≤ e.lasttime + e.speed ∨
      firedIn w.log e.id w.ticks = true

theorem attentive_start (clock : Clock) : (start clock).Attentive where
  listed := fun _ _ h => absurd h List.not_mem_nil
  reads := fun _ h => by cases h
  attends := fun _ h => by cases h

theorem firedIn_cons {entry : TimerEntry} {log : List TimerEntry} {id tick : ℕ}
    (h : firedIn log id tick = true) : firedIn (entry :: log) id tick = true := by
  cases entry with
  | fired i k time speed =>
      rw [firedIn, h, Bool.or_true]
  | registered i time speed n => exact h
  | unregistered i => exact h
  | deleted i => exact h

/-- A step that goes on with the tick as it was: what is registered was so before, or is
registered now. -/
theorem Attentive.of_quiet (h : w.Attentive) (hticking : w'.ticking = w.ticking)
    (hticks : w'.ticks = w.ticks) (hclock : w.clock.offset ≤ w'.clock.offset)
    (hfired : ∀ id tick, firedIn w.log id tick = true → firedIn w'.log id tick = true)
    (hlisted : w'.changed = false → ∀ addr ∈ w'.timers, addr ∈ w'.execlist)
    (hheap : ∀ addr e, w'.heap addr = some e → e.manager = true →
      w.heap addr = some e ∨ w.clock.offset ≤ e.lasttime) : w'.Attentive where
  listed := hlisted
  reads := by
    intro t ht
    rw [hticking] at ht
    exact (h.reads t ht).trans hclock
  attends := by
    intro t ht addr e he hmanager hspeed
    rw [hticking] at ht
    rcases hheap addr e he hmanager with hold | hnew
    · rcases h.attends t ht addr e hold hmanager hspeed with htodo | hlate | hfiredIn
      · exact Or.inl htodo
      · exact Or.inr (Or.inl hlate)
      · right
        right
        rw [hticks]
        exact hfired _ _ hfiredIn
    · right
      left
      have hreads := h.reads t ht
      linarith

theorem Attentive.register (h : w.Attentive) (ticks : UInt32) :
    (w.register addr e ticks).Attentive := by
  unfold TimerWorld.register
  split_ifs
  · exact h
  · apply h.of_quiet
    · rfl
    · rfl
    · exact w.clock.offset_le_getTime ticks
    · exact fun _ _ => firedIn_cons
    · exact fun hchanged => by cases hchanged
    · intro a d hd _
      by_cases ha : a = addr
      · subst ha
        cases (update_self a _ _).symm.trans hd
        exact Or.inr (w.clock.offset_le_getTime ticks)
      · exact Or.inl ((update_of_ne ha _ _).symm.trans hd)

theorem Attentive.unregister (h : w.Attentive) : (w.unregister addr e).Attentive := by
  apply h.of_quiet
  · rfl
  · rfl
  · exact le_refl _
  · exact fun _ _ => firedIn_cons
  · exact fun hchanged => by cases hchanged
  · intro a d hd hmanager
    by_cases ha : a = addr
    · subst ha
      cases (update_self a _ _).symm.trans hd
      cases hmanager
    · exact Or.inl ((update_of_ne ha _ _).symm.trans hd)

theorem Attentive.free (h : w.Attentive) : (w.free addr e).Attentive := by
  apply h.of_quiet
  · rfl
  · rfl
  · exact le_refl _
  · exact fun _ _ => firedIn_cons
  · exact h.listed
  · intro a d hd _
    by_cases ha : a = addr
    · subst ha
      cases (update_self a _ _).symm.trans hd
    · exact Or.inl ((update_of_ne ha _ _).symm.trans hd)

theorem Attentive.delete (h : w.Attentive) : (w.delete addr e).Attentive := by
  unfold TimerWorld.delete
  split_ifs
  · exact h.unregister.free
  · exact h.free

/-- A tick goes on to what is left of it when it owes nothing to the event that it has come to. -/
theorem Attentive.goOn {currenttime : ℚ} {rest : List ℕ} {r : Option ℕ} (h : w.Attentive)
    (ht : w.ticking = some ⟨currenttime, addr :: rest, none⟩)
    (howed : ∀ e, w.heap addr = some e → e.manager = true → 0 ≤ e.speed →
      currenttime ≤ e.lasttime + e.speed ∨ firedIn w.log e.id w.ticks = true) :
    Attentive { w with ticking := some ⟨currenttime, rest, r⟩ } where
  listed := h.listed
  reads := by
    intro t htick
    cases htick
    exact h.reads ⟨currenttime, addr :: rest, none⟩ ht
  attends := by
    intro t htick a e he hmanager hspeed
    cases htick
    rcases h.attends _ ht a e he hmanager hspeed with htodo | hdone
    · by_cases ha : a = addr
      · subst ha
        exact Or.inr (howed e he hmanager hspeed)
      · exact Or.inl (List.mem_of_ne_of_mem ha htodo)
    · exact Or.inr hdone

theorem Attentive.fire {currenttime : ℚ} {rest : List ℕ} (h : w.Attentive)
    (ht : w.ticking = some ⟨currenttime, addr :: rest, none⟩) (he : w.heap addr = some e) :
    (w.fire addr e currenttime rest).Attentive := by
  have hcalled : Attentive
      { w with
        heap := update w.heap addr (some (TimerWorld.due e))
        log := .fired e.id w.ticks currenttime e.speed :: w.log
        ticking := some ⟨currenttime, rest, some addr⟩ } := by
    refine ⟨h.listed, ?_, ?_⟩
    · intro t htick
      cases htick
      exact h.reads ⟨currenttime, addr :: rest, none⟩ ht
    · intro t htick a d hd hmanager hspeed
      cases htick
      by_cases ha : a = addr
      · subst ha
        cases (update_self a _ _).symm.trans hd
        right
        right
        change (decide (e.id = e.id) && decide (w.ticks = w.ticks) || _) = true
        rw [decide_eq_true rfl, decide_eq_true rfl]
        rfl
      · have hold : w.heap a = some d := (update_of_ne ha _ _).symm.trans hd
        rcases h.attends _ ht a d hold hmanager hspeed with htodo | hlate | hfiredIn
        · exact Or.inl (List.mem_of_ne_of_mem ha htodo)
        · exact Or.inr (Or.inl hlate)
        · exact Or.inr (Or.inr (firedIn_cons hfiredIn))
  unfold TimerWorld.fire
  dsimp only
  split_ifs
  · exact hcalled.unregister
  · exact hcalled

theorem Attentive.step {op : TimerStep} (h : w.Attentive) (hsound : w.Sound)
    (hs : w.step op = some w') : w'.Attentive := by
  cases op with
  | create a speed lifetime =>
      unfold TimerWorld.step at hs
      dsimp only at hs
      split_ifs at hs
      cases hs
      apply h.of_quiet
      · rfl
      · rfl
      · exact le_refl _
      · exact fun _ _ hfired => hfired
      · exact h.listed
      · intro b d hd hmanager
        by_cases hb : b = a
        · subst hb
          cases (update_self b _ _).symm.trans hd
          cases hmanager
        · exact Or.inl ((update_of_ne hb _ _).symm.trans hd)
  | register a ticks =>
      obtain ⟨d, -, rfl⟩ := Option.map_eq_some_iff.mp hs
      exact h.register ticks
  | unregister a =>
      obtain ⟨d, -, rfl⟩ := Option.map_eq_some_iff.mp hs
      exact h.unregister
  | delete a =>
      unfold TimerWorld.step at hs
      dsimp only at hs
      split_ifs at hs
      obtain ⟨d, -, rfl⟩ := Option.map_eq_some_iff.mp hs
      exact h.delete
  | getTime ticks =>
      cases hs
      exact h.of_quiet rfl rfl (w.clock.offset_le_getTime ticks) (fun _ _ hfired => hfired) h.listed
        fun _ _ he _ => Or.inl he
  | setMaxDelta maxDelta =>
      cases hs
      exact h.of_quiet rfl rfl (le_refl _) (fun _ _ hfired => hfired) h.listed
        fun _ _ he _ => Or.inl he
  | beginTick ticks =>
      unfold TimerWorld.step at hs
      dsimp only at hs
      split_ifs at hs
      cases hs
      have hlisted : ∀ addr ∈ w.timers, addr ∈ if w.changed then w.timers else w.execlist := by
        intro a ha
        split_ifs with hchanged
        · exact ha
        · exact h.listed (Bool.eq_false_iff.mpr hchanged) a ha
      refine ⟨fun _ => hlisted, ?_, ?_⟩
      · intro t htick
        cases htick
        exact le_refl _
      · intro t htick a d hd hmanager _
        cases htick
        exact Or.inl (hlisted a ((hsound.members a).mpr ⟨d, hd, hmanager⟩))
  | visit =>
      obtain ⟨currenttime, a, rest, ht, ⟨d, -, hd, -, rfl⟩ | hpassed⟩ := visit_cases hs
      · exact h.fire ht hd
      · obtain ⟨-, hheap, hlog, htimers, hexec, hchanged, hticks, hclock, -, hcase⟩ := hpassed
        rcases hcase with ⟨hnone, hmem⟩ | ⟨hticking, hcase⟩
        · obtain ⟨d, hd, -⟩ := (hsound.members a).mp hmem
          rw [hnone] at hd
          cases hd
        · have hgo := h.goOn (r := none) ht (by
            intro d hd hmanager _
            rcases hcase with hnot | ⟨d', hd', hlate⟩
            · exact absurd ((hsound.members a).mpr ⟨d, hd, hmanager⟩) hnot
            · cases hd.symm.trans hd'
              exact Or.inl (not_lt.mp hlate))
          refine ⟨?_, ?_, ?_⟩
          · rw [hchanged, htimers, hexec]
            exact hgo.listed
          · rw [hticking, hclock]
            exact hgo.reads
          · rw [hticking, hheap, hlog, hticks]
            exact hgo.attends
  | returned =>
      unfold TimerWorld.step at hs
      dsimp only at hs
      split at hs
      case h_2 => cases hs
      case h_1 currenttime rest a ht =>
        cases hs
        have hgo : Attentive { w with ticking := some ⟨currenttime, rest, none⟩ } := by
          refine ⟨h.listed, ?_, ?_⟩
          · intro t htick
            cases htick
            exact h.reads ⟨currenttime, rest, some a⟩ ht
          · intro t htick
            cases htick
            exact h.attends ⟨currenttime, rest, some a⟩ ht
        unfold TimerWorld.returned
        cases w.heap a with
        | none => exact ⟨h.listed, h.reads, h.attends⟩
        | some d =>
            dsimp only
            split_ifs
            · exact hgo
            · exact hgo.delete
  | endTick =>
      unfold TimerWorld.step at hs
      dsimp only at hs
      split at hs
      case h_1 currenttime ht =>
        cases hs
        exact ⟨h.listed, fun t htick => (by cases htick), fun t htick => (by cases htick)⟩
      case h_2 => cases hs

/-- Where a tick ends, it has called what was due when it began. -/
theorem Attentive.called (h : w.Attentive) (hs : w.step .endTick = some w') {t : TimerTick}
    (ht : w.ticking = some t) (he : w.heap addr = some e) (hmanager : e.manager = true)
    (hspeed : 0 ≤ e.speed) (hdue : e.lasttime + e.speed < t.currenttime) :
    firedIn w.log e.id w.ticks = true := by
  unfold TimerWorld.step at hs
  dsimp only at hs
  split at hs
  case h_2 => cases hs
  case h_1 currenttime htick =>
    cases htick.symm.trans ht
    rcases h.attends _ htick addr e he hmanager hspeed with htodo | hlate | hfiredIn
    · cases htodo
    · exact absurd hdue (not_lt.mpr hlate)
    · exact hfiredIn

end ArenaServ.TimerWorld
