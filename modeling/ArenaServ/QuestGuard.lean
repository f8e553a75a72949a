import ArenaServ.QuestDepth
import ArenaServ.RunSteps

/-!
# The guard against quest recursion

Every call of the interpreter, and every event, leaves the recursive depth as it was, counts
its frames and never uses up the stack, as long as no action of a state's list changes the
state.
-/

namespace ArenaServ

open EOPlus Exec QuestExec

variable {σ : Type}

/-! ## Calls -/

inductive QuestCall where
  | doActions (x : ℕ)
  | checkRules (x : ℕ)
  | setState (x : ℕ) (state : String)
  | doAction (x : ℕ) (action : Action)

namespace QuestHost

variable (host : QuestHost σ)

def perform (k : Calls σ) : QuestCall → QuestExec σ Unit
  | .doActions x => host.doActions k x
  | .checkRules x => do
      let _ ← host.checkRules k x
  | .setState x state => host.setState k x state
  | .doAction x action => do
      let _ ← host.doAction k x action

def performProbed (p : Probes σ) (fuel n : ℕ) : QuestCall → QuestExec σ Unit
  | .doActions x => host.doActionsProbed p (host.callsProbed p fuel) n x
  | .checkRules x => do
      let _ ← host.checkRulesProbed p (host.callsProbed p fuel) n x
  | .setState x state => host.setStateProbed p (host.callsProbed p fuel) n x state
  | .doAction x action => do
      let _ ← host.doAction (host.callsProbed p fuel n) x action

/-- No action that is taken from the list of a state changes the state. -/
def CallStays (fuel n : ℕ) (w : QuestWorld σ) (call : QuestCall) : Prop :=
  ∃ stop, (host.performProbed (.stopping stop) fuel n call w).fault? ≠ some stop

/-- Where `n` frames are being executed, a call counts the frames that it executes and leaves
the depth at `n`. A stack for the frames that are allowed is not used up. -/
structure Balanced (fuel n : ℕ) (w : QuestWorld σ) (call : QuestCall) : Prop where
  frames : ∀ alarm, host.performProbed (.watching alarm) fuel n call w =
    host.perform (host.calls fuel) call w
  depth : (host.perform (host.calls fuel) call w).Counts QuestWorld.recursiveDepth (· = n)
  bounded : n ≤ 100 → 101 ≤ n + fuel →
    host.perform (host.calls fuel) call w ≠ .fault .outOfFuel

theorem performProbed_none (fuel n : ℕ) (call : QuestCall) :
    host.performProbed .none fuel n call = host.perform (host.calls fuel) call := by
  have hcalls (n : ℕ) : host.callsProbed .none fuel n = host.calls fuel := callsProbed_none fuel n
  cases call with
  | doActions x => exact doActionsProbed_none hcalls n x
  | checkRules x =>
      simp only [performProbed, perform, checkRulesProbed_none hcalls]
  | setState x state => exact setStateProbed_none host hcalls n x state
  | doAction x action =>
      simp only [performProbed, perform, hcalls]

theorem matches_performProbed (stop alarm : QuestFault) (fuel n : ℕ) (call : QuestCall) :
    Matches stop (Fits fuel) n (host.performProbed (.stopping stop) fuel n call)
      (host.performProbed (.watching alarm) fuel n call)
      (host.perform (host.calls fuel) call) := by
  have hks := match_callsProbed host stop alarm fuel
  rw [← performProbed_none]
  cases call with
  | doActions x => exact (matches_doActions host alarm x hks).mono fun _ => fits_succ
  | checkRules x =>
      exact ((matches_checkRules host alarm x hks).bind fun _ => (quiet_pure ()).tally).mono fun _ => fits_succ
  | setState x state => exact (matches_setState host alarm x hks state).mono fun _ => fits_succ
  | doAction x action =>
      exact (matches_doAction (hks n) x action).bind fun _ => (quiet_pure ()).tally

variable {host} {fuel n : ℕ} {w : QuestWorld σ} {call : QuestCall}

theorem balanced_of_callStays (hn : w.recursiveDepth = n) (h : host.CallStays fuel n w call) :
    host.Balanced fuel n w call := by
  obtain ⟨stop, hstop⟩ := h
  have hagrees (alarm : QuestFault) :=
    (host.matches_performProbed stop alarm fuel n call w).agrees hstop
  rw [hn] at hagrees
  exact {
    frames := fun alarm => (hagrees alarm).watch_eq rfl
    depth := (hagrees stop).counts
    bounded := fun hdeep hfuel => (hagrees stop).kept ⟨by omega, by omega⟩ }

/-- Where an action of a list changes the state, the depth ends lower than it was. -/
theorem counts_lt_of_not_callStays (hn : w.recursiveDepth = n)
    (h : ¬host.CallStays fuel n w call) :
    (host.perform (host.calls fuel) call w).Counts QuestWorld.recursiveDepth (· < n) := by
  have hstop (stop : QuestFault) :
      (host.performProbed (.stopping stop) fuel n call w).fault? = some stop := by
    by_contra hne
    exact h ⟨stop, hne⟩
  -- What agrees for two faults is no fault at all.
  have hcompare (stop : QuestFault) := host.matches_performProbed stop stop fuel n call w
  rw [hn] at hcompare
  rcases hcompare .outOfFuel with hfuel | ⟨-, hlower⟩
  · rcases hcompare (.badArgument "" 0) with harg | ⟨-, hlower⟩
    · have hfuel' := hstop .outOfFuel
      have harg' := hstop (.badArgument "" 0)
      rw [hfuel.eq] at hfuel'
      rw [harg.eq, hfuel'] at harg'
      cases harg'
    · exact hlower
  · exact hlower

/-- More than a hundred frames are stopped with an exception. -/
theorem doActions_of_deep {k : Calls σ} {x : ℕ} (hdeep : 100 ≤ w.recursiveDepth)
    (hstate : (w.contexts x).state.isSome) :
    host.doActions k x w = .raised (.other "Quest action recursion too deep") w := by
  obtain ⟨s, hs⟩ := Option.isSome_iff_exists.mp hstate
  have hraised := enterRecursion_of_deep (by omega : 100 < w.recursiveDepth + 1)
  unfold doActions
  rw [context_bind, hs]
  exact bind_of_raised hraised

theorem checkRules_of_deep {k : Calls σ} {x : ℕ} (hdeep : 100 ≤ w.recursiveDepth)
    (hstate : (w.contexts x).state.isSome) :
    host.checkRules k x w = .raised (.other "Quest action recursion too deep") w := by
  obtain ⟨s, hs⟩ := Option.isSome_iff_exists.mp hstate
  have hraised := enterRecursion_of_deep (by omega : 100 < w.recursiveDepth + 1)
  unfold checkRules
  rw [context_bind, hs]
  exact bind_of_raised hraised

end QuestHost

/-! ## What events do by themselves -/

section Contexts
open QuestContext
variable {expr : Expression}

theorem quiet_queryRule (rule : String)
    {argCheck : Expression → Exec QuestContext QuestError QuestFault Bool}
    (hcheck : ∀ expr, Quiet noCount .outOfFuel (argCheck expr)) :
    Quiet noCount .outOfFuel (queryRule rule argCheck) := by
  apply quiet_get.bind
  intro c
  cases c.state with
  | none => exact quiet_pure none
  | some s =>
      apply quiet_findM?
      intro r _
      split_ifs
      · exact hcheck r.expr
      · exact quiet_pure false

theorem quiet_argIs (id : Int32) (expr : Expression) : Quiet noCount .outOfFuel (argIs id expr) :=
  (quiet_arg 0).bind fun _ => quiet_pure _

theorem quiet_argReached (id amount : Int16) (expr : Expression) :
    Quiet noCount .outOfFuel (argReached id amount expr) := by
  apply (quiet_arg 0).bind
  intro a
  split_ifs
  · exact (quiet_arg 1).bind fun _ => quiet_pure _
  · exact quiet_pure false

theorem quiet_goalTarget : Quiet noCount .outOfFuel (goalTarget expr) := by
  unfold goalTarget
  split_ifs
  · exact (quiet_arg 1).bind fun _ => quiet_pure _
  · exact quiet_pure 1

theorem quiet_countedProgress (icon : BookIcon) :
    Quiet noCount .outOfFuel (countedProgress icon expr) := by
  apply quiet_get.bind
  intro c
  apply (quiet_arg 0).bind
  intro id
  exact quiet_goalTarget.bind fun _ => quiet_pure _

theorem quiet_goalProgress (view : CharacterView) :
    Quiet noCount .outOfFuel (goalProgress view expr) := by
  unfold goalProgress
  split
  case h_1 | h_2 =>
    apply (quiet_arg 1).bind
    intro target
    apply (quiet_arg 0).bind
    intro id
    exact quiet_goalTarget.bind fun _ => quiet_pure _
  case h_3 | h_4 | h_5 => exact quiet_countedProgress _
  case h_6 =>
    apply quiet_get.bind
    intro c
    exact (quiet_arg 0).bind fun _ => quiet_pure _
  all_goals exact quiet_pure _

theorem quiet_progressInfo (view : CharacterView) :
    Quiet noCount .outOfFuel (progressInfo view) := by
  apply quiet_get.bind
  intro c
  cases c.getGoal with
  | none => exact quiet_pure _
  | some goal => exact quiet_goalProgress view

end Contexts

theorem level_progress {host : QuestHost σ} (x : ℕ) : Level (host.progress x) := by
  apply (level_context x).bind
  intro this
  apply quiet_get.bind
  intro w
  exact (quiet_onContext (quiet_progressInfo _) x).bind fun _ => quiet_pure ()

theorem level_insertInactive (c : ℕ) (id : Int16) (r : CharacterQuestState) :
    Level (Exec.modify (QuestWorld.insertInactive c id r) : QuestExec σ Unit) :=
  quiet_modify fun _ => rfl

theorem level_restoreQuest (c : ℕ) (id : Int16) (r : CharacterQuestState) (quest : Quest) :
    Level (QuestHost.restoreQuest c id r quest : QuestExec σ Unit) := by
  apply (level_newContext c quest).bind
  intro x
  apply Quiet.tryCatch
  · apply (quiet_onContext (quiet_enterState _) x).bind
    intro _
    apply (level_change x _).bind
    intro _
    apply quiet_modify
    intro w
    unfold QuestWorld.insertQuest
    split_ifs <;> rfl
  · intro e
    cases e with
    | runtimeError what => exact level_insertInactive c id r
    | other what => exact quiet_throw _

theorem level_questUnserialize (c : ℕ) (serialized : String) :
    Level (QuestHost.questUnserialize c serialized : QuestExec σ Unit) := by
  apply quiet_forEach
  intro e _
  apply quiet_get.bind
  intro w
  cases w.table.quests.find? e.1 with
  | none => exact level_insertInactive c e.1 e.2
  | some quest => exact level_restoreQuest c e.1 e.2 quest

theorem level_restoreQuests (c : ℕ) : Level (QuestHost.restoreQuests c : QuestExec σ Unit) := by
  have hclear : Level (Exec.modify (QuestWorld.clearQuests c) : QuestExec σ Unit) :=
    quiet_modify fun _ => rfl
  apply hclear.bind
  intro _
  apply quiet_get.bind
  intro w
  apply quiet_forEach
  intro e _
  unfold QuestHost.restoreRecord
  cases w.table.quests.find? e.1 with
  | none => exact quiet_pure ()
  | some quest => exact level_restoreQuest c e.1 e.2 quest

theorem recursiveDepth_foldl {α : Type} {f : QuestWorld σ → α → QuestWorld σ}
    (hf : ∀ w a, (f w a).recursiveDepth = w.recursiveDepth) (l : List α) (w : QuestWorld σ) :
    (l.foldl f w).recursiveDepth = w.recursiveDepth := by
  induction l generalizing w with
  | nil => rfl
  | cons a rest ih => exact (ih (f w a)).trans (hf w a)

theorem recursiveDepth_backUp (w : QuestWorld σ) (c : ℕ) :
    (w.backUp c).recursiveDepth = w.recursiveDepth := by
  apply recursiveDepth_foldl
  intro w e
  cases e.2 with
  | none => rfl
  | some x => rfl

theorem level_replaceQuests (table : QuestTable) :
    Level (QuestHost.replaceQuests table : QuestExec σ Unit) := by
  have hbackUp : Level (Exec.modify fun w : QuestWorld σ =>
      w.characters.foldl (fun w c => w.backUp c) w) := by
    apply quiet_modify
    intro w
    exact recursiveDepth_foldl recursiveDepth_backUp w.characters w
  have hclear : Level (Exec.modify fun w : QuestWorld σ =>
      { w.characters.foldl (fun w c => w.clearQuests c) w with table := table }) := by
    apply quiet_modify
    intro w
    exact recursiveDepth_foldl (f := fun w c => w.clearQuests c) (fun _ _ => rfl) w.characters w
  apply hbackUp.bind
  intro _
  apply hclear.bind
  intro _
  apply quiet_get.bind
  intro w
  exact quiet_forEach fun c _ => level_restoreQuests c

/-! ## Events -/

variable {host : QuestHost σ} {k k' : Calls σ} {stop : QuestFault} {fuel : ℕ}

/-- The comparison without the execution that watches. -/
abbrev Follow (stop : QuestFault) (fuel : ℕ) {α : Type} (m m' : QuestExec σ α) : Prop :=
  Matches stop (Fits fuel) 0 m m' m'

/-- The checks of an event, with the calls of one that stops. -/
theorem follow_checkRules (hk : Calls.Match stop (Fits fuel) 0 k k' k') (x : ℕ) :
    Follow stop fuel (host.checkRules k x) (host.checkRules k' x) := by
  have hks (n : ℕ) : Calls.Match stop (Fits fuel) n k k' k' := {
    setState := fun x state => (hk.setState x state).unwatched
    checkQuestRules := fun c => (hk.checkQuestRules c).unwatched }
  have hmatch := matches_checkRules (f := 0) host stop x hks
  rw [QuestHost.checkRulesProbed_none fun _ => rfl] at hmatch
  exact hmatch.unwatched.mono fun _ => fits_succ

section Events
variable (hk : Calls.Match stop (Fits fuel) 0 k k' k')
include hk

theorem follow_checkQuestRules (c : ℕ) :
    Follow stop fuel (host.checkQuestRules k c) (host.checkQuestRules k' c) := by
  apply matches_forQuests
  intro x
  apply (follow_checkRules hk x).bind
  intro _
  exact (quiet_pure ()).tally

theorem follow_triggerRule (x : ℕ) (rule : String)
    {argCheck : Expression → Exec QuestContext QuestError QuestFault Bool}
    (hcheck : ∀ expr, Quiet noCount .outOfFuel (argCheck expr)) :
    Follow stop fuel (host.triggerRule k x rule argCheck) (host.triggerRule k' x rule argCheck) := by
  apply (quiet_onContext (quiet_queryRule rule hcheck) x).tally.bind
  intro found
  cases found with
  | none => exact (quiet_pure false).tally
  | some r => exact (matches_doAction hk x r.action).bind fun _ => (quiet_pure true).tally

theorem follow_countRule (x : ℕ) (rule : String) (key : CounterKey)
    {counts : Expression → Exec QuestContext QuestError QuestFault Bool}
    {reached : Int16 → Expression → Exec QuestContext QuestError QuestFault Bool}
    (hcounts : ∀ expr, Quiet noCount .outOfFuel (counts expr))
    (hreached : ∀ amount expr, Quiet noCount .outOfFuel (reached amount expr)) :
    Follow stop fuel (host.countRule k x rule key counts reached)
      (host.countRule k' x rule key counts reached) := by
  apply (level_context x).tally.bind
  intro this
  split_ifs
  · exact (quiet_pure ()).tally
  · apply (quiet_onContext (quiet_queryRule rule hcounts) x).tally.bind
    intro check
    apply (Tally.onlyIf fun _ => (level_change x _).tally).bind
    intro _
    apply (level_context x).tally.bind
    intro counted
    apply (follow_triggerRule hk x rule (hreached _)).bind
    intro triggered
    exact Tally.onlyIf fun _ => (level_change x _).tally

theorem follow_countThing (x : ℕ) (thing : CounterKey) (id : Int16) :
    Follow stop fuel (host.countThing k thing x id) (host.countThing k' thing x id) :=
  follow_countRule hk x thing (thing.thing id) (quiet_argIs id.toInt32) (quiet_argReached id)

theorem follow_killedPlayer (x : ℕ) :
    Follow stop fuel (host.killedPlayer k x) (host.killedPlayer k' x) := by
  apply follow_countRule hk x
  · exact fun _ => quiet_pure true
  · exact fun _ _ => (quiet_arg 0).bind fun _ => quiet_pure _

theorem follow_answer (rule : String) (x : ℕ) (id : Int32) :
    Follow stop fuel (host.answer k rule x id) (host.answer k' rule x id) := by
  apply (level_context x).tally.bind
  intro this
  split_ifs
  · exact (quiet_pure ()).tally
  · exact (follow_triggerRule hk x rule (quiet_argIs id)).bind fun _ => (quiet_pure ()).tally

theorem follow_answerQuery (x : ℕ) (query : Query) :
    Follow stop fuel (host.answerQuery k x query) (host.answerQuery k' x query) := by
  cases query with
  | talkedNPC vendor => exact follow_answer hk _ x _
  | dialogInput link => exact follow_answer hk _ x _
  | usedItem id => exact follow_countThing hk x _ id
  | usedSpell id => exact follow_countThing hk x _ id
  | killedNPC id => exact follow_countThing hk x _ id
  | killedPlayer => exact follow_killedPlayer hk x
  | checkRules => exact (follow_checkRules hk x).bind fun _ => (quiet_pure ()).tally
  | progress => exact (level_progress x).tally

theorem follow_questUse (c : ℕ) (vendor : Int16) :
    Follow stop fuel (QuestHost.questUse k c vendor) (QuestHost.questUse k' c vendor) := by
  apply (level_getQuest c vendor).tally.bind
  intro found
  cases found with
  | none =>
      apply quiet_get.tally.bind
      intro w
      cases w.table.quests.find? vendor with
      | none => exact (quiet_pure ()).tally
      | some quest =>
          change Follow stop fuel (if _ then _ else _) (if _ then _ else _)
          split_ifs
          · exact (quiet_pure ()).tally
          · apply (level_openQuest c vendor quest).tally.bind
            intro x
            exact hk.setState x "begin"
  | some x =>
      apply (level_context x).tally.bind
      intro this
      split_ifs
      · exact hk.setState x "begin"
      · exact (quiet_pure ()).tally

theorem follow_setNamedState (x : ℕ) (state : String) :
    Follow stop fuel (QuestHost.setNamedState k x state) (QuestHost.setNamedState k' x state) := by
  apply (hk.setState x state).tryCatch
  intro e
  cases e with
  | runtimeError what => exact (quiet_pure ()).tally
  | other what => exact (quiet_throw _).tally

theorem follow_questState (c : ℕ) (id : Int16) (state : String) :
    Follow stop fuel (QuestHost.questState k c id state) (QuestHost.questState k' c id state) := by
  apply (level_getQuest c id).tally.bind
  intro found
  cases found with
  | some x => exact follow_setNamedState hk x state
  | none =>
      apply quiet_get.tally.bind
      intro w
      cases w.table.quests.find? id with
      | none => exact (quiet_pure ()).tally
      | some quest =>
          apply (level_openQuest c id quest).tally.bind
          intro x
          apply (hk.setState x "begin").bind
          intro _
          exact follow_setNamedState hk x state

theorem follow_startDefault (c : ℕ) :
    Follow stop fuel (QuestHost.startDefault k c) (QuestHost.startDefault k' c) := by
  apply (level_getQuest c 0).tally.bind
  intro found
  cases found with
  | some x => exact (quiet_pure ()).tally
  | none =>
      apply quiet_get.tally.bind
      intro w
      cases w.table.quests.find? 0 with
      | none => exact (quiet_pure ()).tally
      | some quest =>
          change Follow stop fuel (if _ then _ else _) (if _ then _ else _)
          split_ifs
          · exact (quiet_pure ()).tally
          · apply (level_openQuest c 0 quest).tally.bind
            intro x
            exact hk.setState x "begin"

theorem follow_login (c : ℕ) (serialized : String) :
    Follow stop fuel (host.login k c serialized) (host.login k' c serialized) := by
  have hnew : Level (Exec.modify fun w : QuestWorld σ => { w.putLog c QuestLog.new with
      characters := w.characters ++ [c] }) := quiet_modify fun _ => rfl
  apply hnew.tally.bind
  intro _
  apply (level_questUnserialize c serialized).tally.bind
  intro _
  apply (follow_startDefault hk c).bind
  intro _
  exact follow_checkQuestRules hk c

theorem follow_reloadQuests (table : QuestTable) :
    Follow stop fuel (host.reloadQuests k table) (host.reloadQuests k' table) := by
  apply (level_replaceQuests table).tally.bind
  intro _
  apply quiet_get.tally.bind
  intro w
  apply tally_forEach
  intro c _
  exact follow_checkQuestRules hk c

theorem follow_event (e : QuestEvent σ) :
    Follow stop fuel (host.event k e) (host.event k' e) := by
  cases e with
  | query c id query =>
      apply (level_getQuest c id).tally.bind
      intro found
      cases found with
      | none => exact (quiet_pure ()).tally
      | some x => exact follow_answerQuery hk x query
  | checkQuestRules c => exact follow_checkQuestRules hk c
  | questUse c vendor => exact follow_questUse hk c vendor
  | questState c id state => exact follow_questState hk c id state
  | login c serialized => exact follow_login hk c serialized
  | logout c =>
      have hlogout : Level (Exec.modify fun w : QuestWorld σ =>
          { w with characters := w.characters.erase c }) := quiet_modify fun _ => rfl
      exact hlogout.tally
  | reloadQuests table => exact follow_reloadQuests hk table
  | play rest => exact (level_rest rest).tally

end Events

/-! ## Runs -/

namespace QuestHost

variable (host)

/-- No action that is taken from the list of a state changes the state. -/
def EventStays (fuel : ℕ) (w : QuestWorld σ) (e : QuestEvent σ) : Prop :=
  ∃ stop, (host.event (host.callsProbed (.stopping stop) fuel 0) e w).fault? ≠ some stop

/-- The event does not use up the stack. -/
def Bounded (fuel : ℕ) (w : QuestWorld σ) (e : QuestEvent σ) : Prop :=
  (host.event (host.calls fuel) e w).fault? ≠ some .outOfFuel

variable {host} {w w' : QuestWorld σ} {e : QuestEvent σ}

theorem agrees_of_eventStays (h : host.EventStays fuel w e) :
    ∃ m, Agrees QuestWorld.recursiveDepth .outOfFuel (Fits fuel) 0 w.recursiveDepth m
      (host.event (host.calls fuel) e w) (host.event (host.calls fuel) e w) := by
  obtain ⟨stop, hstop⟩ := h
  have hk : Calls.Match stop (Fits fuel) 0 (host.callsProbed (.stopping stop) fuel 0)
      (host.calls fuel) (host.calls fuel) := by
    have hmatch := match_callsProbed host stop stop fuel 0
    rw [callsProbed_none] at hmatch
    exact {
      setState := fun x state => (hmatch.setState x state).unwatched
      checkQuestRules := fun c => (hmatch.checkQuestRules c).unwatched }
  exact ⟨_, (follow_event hk e w).agrees hstop⟩

theorem recursiveDepth_step (h : host.EventStays fuel w e)
    (hstep : host.step fuel w e = some w') : w'.recursiveDepth = w.recursiveDepth := by
  obtain ⟨m, hagrees⟩ := agrees_of_eventStays h
  have hcounts := hagrees.counts
  unfold step at hstep
  revert hstep hcounts
  cases host.event (host.calls fuel) e w with
  | done a w₁ => exact fun hstep hcounts => Option.some.inj hstep ▸ hcounts
  | raised e w₁ => exact fun hstep hcounts => Option.some.inj hstep ▸ hcounts
  | fault f => exact fun hstep => nomatch hstep

theorem bounded_of_eventStays (hfuel : 101 ≤ fuel) (hw : w.recursiveDepth = 0)
    (h : host.EventStays fuel w e) : host.Bounded fuel w e := by
  obtain ⟨m, hagrees⟩ := agrees_of_eventStays h
  have hkept : host.event (host.calls fuel) e w ≠ .fault .outOfFuel := by
    apply hagrees.kept
    rw [hw]
    exact ⟨by omega, by omega⟩
  unfold Bounded
  revert hkept
  cases host.event (host.calls fuel) e w with
  | done a w₁ => exact fun _ hfault => nomatch hfault
  | raised e w₁ => exact fun _ hfault => nomatch hfault
  | fault f => exact fun hkept hfault => hkept (by rw [Option.some.inj hfault])

/-- The guard is balanced as long as no action of a list changes the state: calls count their
frames and leave the depth as it was, more than a hundred frames are stopped, and a stack for
these is never used up. Where an action of a list does change the state, the depth is lower
from then on. -/
theorem guard_balanced (host : QuestHost σ) (fuel : ℕ) :
    (∀ (n : ℕ) (w : QuestWorld σ) call, w.recursiveDepth = n → host.CallStays fuel n w call →
      host.Balanced fuel n w call) ∧
    (∀ (n : ℕ) (w : QuestWorld σ) call, w.recursiveDepth = n → ¬host.CallStays fuel n w call →
      (host.perform (host.calls fuel) call w).Counts QuestWorld.recursiveDepth (· < n)) ∧
    (∀ k x (w : QuestWorld σ), 100 ≤ w.recursiveDepth → (w.contexts x).state.isSome →
      host.doActions k x w = .raised (.other "Quest action recursion too deep") w ∧
        host.checkRules k x w = .raised (.other "Quest action recursion too deep") w) ∧
    ∀ table rest events, 101 ≤ fuel →
      RunSteps.Every (host.step fuel) (host.EventStays fuel) (QuestWorld.start table rest) events →
      (∀ w, RunSteps.Reaches (host.step fuel) (QuestWorld.start table rest) events w →
        w.recursiveDepth = 0) ∧
      RunSteps.Every (host.step fuel) (host.Bounded fuel) (QuestWorld.start table rest)
        events := by
  refine ⟨fun n w call => balanced_of_callStays, fun n w call => counts_lt_of_not_callStays,
    fun k x w hdeep hstate => ⟨doActions_of_deep hdeep hstate, checkRules_of_deep hdeep hstate⟩,
    ?_⟩
  intro table rest events hfuel hstays
  have hkeep (w : QuestWorld σ) (e : QuestEvent σ) (w' : QuestWorld σ)
      (hw : w.recursiveDepth = 0) (he : host.EventStays fuel w e)
      (hstep : host.step fuel w e = some w') : w'.recursiveDepth = 0 :=
    (recursiveDepth_step he hstep).trans hw
  constructor
  · intro w hreaches
    exact RunSteps.invariant_of_every (fun w => w.recursiveDepth = 0) hkeep rfl hstays hreaches
  · exact RunSteps.every_of_every (fun w => w.recursiveDepth = 0)
      (fun w e hw he => bounded_of_eventStays hfuel hw he) hkeep rfl hstays

end QuestHost

def hintingQuest : ArenaServ.Quest :=
  ⟨1, .acting [⟨"showhint", [.text "Hello"]⟩], by decide⟩

theorem QuestHost.guard_balanced_hinting :
    (∀ w, RunSteps.Reaches (idleHost.step 101) (QuestWorld.start (.single hintingQuest) ())
      [.questUse 3 1] w → w.recursiveDepth = 0) ∧
    RunSteps.Every (idleHost.step 101) (idleHost.Bounded 101)
      (QuestWorld.start (.single hintingQuest) ()) [.questUse 3 1] := by
  have hstays : idleHost.EventStays 101 (QuestWorld.start (.single hintingQuest) ())
      (.questUse 3 1) := ⟨.outOfFuel, by decide +kernel⟩
  exact (QuestHost.guard_balanced idleHost 101).2.2.2 _ _ _ (by decide)
    ⟨hstays, fun _ _ => trivial⟩

/-- An action list that ends the quest lowers the depth twice, and one that starts it again
afterwards goes on for as long as there is a stack. -/
theorem QuestHost.not_guard_balanced :
    (∃ valid w, RunSteps.Reaches (idleHost.step 101)
      (QuestWorld.start (.single ⟨1, .acting [⟨"end", []⟩], valid⟩) ()) [.questUse 3 1] w ∧
      w.recursiveDepth = -1) ∧
    ∃ valid, ¬RunSteps.Every (idleHost.step 300) (idleHost.Bounded 300)
      (QuestWorld.start
        (.single ⟨1, .acting [⟨"end", []⟩, ⟨"setstate", [.text "begin"]⟩], valid⟩) ())
      [.questUse 3 1] := by
  constructor
  · refine ⟨by decide, ?_⟩
    generalize hquest : (⟨1, .acting _, _⟩ : ArenaServ.Quest) = quest
    have hrun : (RunSteps.run (idleHost.step 101) (QuestWorld.start (.single quest) ())
        [.questUse 3 1]).map QuestWorld.recursiveDepth = some (-1) := by
      rw [← hquest]
      decide +kernel
    obtain ⟨w, hw, hdepth⟩ := Option.map_eq_some_iff.mp hrun
    exact ⟨w, RunSteps.reaches_of_run hw, hdepth⟩
  · refine ⟨by decide +kernel, ?_⟩
    exact fun h => h.1 (by decide +kernel)

end ArenaServ
