import ArenaServ.GuardedQuests

/-!
# The interpreter reads no missing argument

The proof follows the calls: each function of the interpreter is safe on guarded quests when
the functions it calls are, and the levels of the interpreter are safe by induction.
-/

namespace ArenaServ

open EOPlus Exec QuestExec

variable {σ : Type} {host : QuestHost σ} {k : Calls σ} {w₀ : QuestWorld σ} {x : ℕ}
  {expr : Expression}

structure Calls.Safe (k : Calls σ) : Prop where
  setState : ∀ w x state, x < w.contextCount → Runs w (k.setState x state)
  checkQuestRules : ∀ w c, Runs w (k.checkQuestRules c)

/-! ## Entering a state -/

section Entering
open QuestContext
variable {quest : Quest}

/-- What a context does by itself, when it keeps its quest. -/
theorem keeps_quest_modify {f : QuestContext → QuestContext} (hf : ∀ c, (f c).quest = c.quest) :
    Keeps (fun c => c.quest = quest) NoBadArgument
      (Exec.modify f : Exec QuestContext QuestError QuestFault Unit) :=
  keeps_modify fun c hc => (hf c).trans hc

theorem keeps_enterState (state : String) :
    Keeps (fun c => c.quest = quest) NoBadArgument (enterState state) := by
  unfold enterState
  apply (keeps_quest_modify (quest_setName · state)).bind
  intro _
  apply sat_get.bind
  intro c hc
  split
  · split_ifs
    · exact keeps_pure false
    · exact sat_throw _
  · next s hs =>
    apply (keeps_quest_modify (quest_select · _)).bind
    intro _
    have hbegin : Finishes (fun c => c.quest = quest) (beginState s) :=
      finishes_beginState (fun _ _ _ hc => hc) (fun _ hc => hc) (c.quest.checked_of_find? hs)
    apply hbegin.keeps.bind
    intro _
    exact keeps_pure true

end Entering

/-! ## Actions -/

theorem runs_runEffect (hk : k.Safe) (effect : CharacterEffect σ) :
    Runs w₀ (runEffect k effect) := by
  induction effect with
  | done rest => exact runs_rest rest
  | throws e rest => exact (runs_rest rest).bind fun _ => sat_throw e
  | checkQuestRules c rest next ih =>
      apply (runs_rest rest).bind
      intro _
      apply (hk.checkQuestRules w₀ c).bind
      intro _
      apply sat_get.keeps.bind
      intro w
      exact ih w.rest

theorem runs_callCharacter (hk : k.Safe) (call : CharacterCall) :
    Runs w₀ (host.callCharacter k x call) := by
  apply sat_context_bind
  intro w hw
  apply sat_get.keeps.bind
  intro w'
  exact runs_runEffect hk _

theorem runs_startQuest (hk : k.Safe) (h : Known actionArgumentInfo expr)
    (hf : expr.function = "startquest") : Runs w₀ (QuestHost.startQuest k x expr) := by
  apply (keeps_arg (h.length_le hf rfl)).bind
  intro id
  apply sat_context_bind
  intro w hw
  apply sat_getQuest_bind
  intro w' hw' hvalid
  split
  · apply sat_get_bind
    intro w'' hw''
    split
    · exact keeps_pure ()
    · next quest hquest =>
      apply sat_openQuest_bind (hw''.guarded.table _ _ hquest)
      intro v y hv hy
      apply (keeps_startState expr).bind
      intro state
      exact hk.setState v y state hy
  · next y hy =>
    have hy' : y < w'.contextCount := hvalid y hy
    apply sat_context_bind
    intro v hv
    split_ifs
    · apply (keeps_startState expr).bind
      intro state
      exact hk.setState v y state (hy'.trans_le hv.count_le)
    · exact keeps_pure ()

theorem runs_resetQuest (hk : k.Safe) (h : Known actionArgumentInfo expr)
    (hf : expr.function = "resetquest") : Runs w₀ (QuestHost.resetQuest k x expr) := by
  apply sat_context_bind
  intro w hw
  apply (keeps_arg (h.length_le hf rfl)).bind
  intro id
  apply sat_getQuest_bind
  intro w' hw' hvalid
  have hother : Runs w' (QuestHost.resetOther k (w.contexts x) id.toInt.toInt16
      (w'.getQuest (w.contexts x).character id.toInt.toInt16)) := by
    unfold QuestHost.resetOther
    split
    · exact keeps_pure ()
    · next y hy =>
      split_ifs
      · exact hk.setState w' y "done" (hvalid y hy)
      · refine runs_setQuest fun _ h => ?_
        cases h
  exact hother.bind fun _ => keeps_pure _

theorem runs_setQuestState (hk : k.Safe) (h : Known actionArgumentInfo expr)
    (hf : expr.function = "setqueststate") : Runs w₀ (QuestHost.setQuestState k x expr) := by
  have hlen : 2 ≤ expr.args.length := h.length_le hf rfl
  apply sat_context_bind
  intro w hw
  apply (keeps_arg (by omega)).bind
  intro id
  apply (keeps_arg hlen).bind
  intro state
  apply sat_getQuest_bind
  intro w' hw' hvalid
  split
  · exact keeps_pure false
  · next y hy =>
    apply (hk.setState w' y _ (hvalid y hy)).bind
    intro _
    exact keeps_pure _

theorem runs_resetThis (hk : k.Safe) (hx : x < w₀.contextCount) :
    Runs w₀ (QuestHost.resetThis k x) := by
  apply sat_context_bind
  intro w hw
  split_ifs
  · exact runs_setQuest fun _ h => nomatch h
  · exact hk.setState w x "done" (hx.trans_le hw.count_le)

theorem runs_roll (hx : x < w₀.contextCount) (h : 1 ≤ expr.args.length) :
    Runs w₀ (host.roll x expr) := by
  apply (keeps_arg h).bind
  intro sides
  apply sat_get.keeps.bind
  intro w
  apply (runs_rest _).bind
  intro _
  exact runs_change hx (QuestContext.quest_setProgress · _ _)

theorem runs_otherAction (hk : k.Safe) (h : Known actionArgumentInfo expr) :
    Runs w₀ (host.otherAction k x expr) := by
  apply (keeps_characterCall h).bind
  intro call
  cases call with
  | none => exact keeps_pure ()
  | some call => exact runs_callCharacter hk call

theorem runs_performAction (hk : k.Safe) (hx : x < w₀.contextCount)
    (h : Known actionArgumentInfo expr) : Runs w₀ (host.performAction k x expr) := by
  unfold QuestHost.performAction
  split
  next hf =>
    apply (keeps_arg (h.length_le hf rfl)).bind
    intro state
    exact (hk.setState w₀ x _ hx).bind fun _ => keeps_pure true
  next => exact (runs_resetThis hk hx).bind fun _ => keeps_pure true
  next =>
    apply sat_get.keeps.bind
    intro w
    apply (runs_change hx (QuestContext.quest_setProgress · _ _)).bind
    intro _
    apply (runs_change hx (QuestContext.quest_countUp · _)).bind
    intro _
    exact (hk.setState w₀ x "done" hx).bind fun _ => keeps_pure true
  next => exact (hk.setState w₀ x "end" hx).bind fun _ => keeps_pure true
  next hf => exact (runs_startQuest hk h hf).bind fun _ => keeps_pure false
  next hf => exact runs_resetQuest hk h hf
  next hf => exact runs_setQuestState hk h hf
  next hf => exact (runs_roll hx (h.length_le hf rfl)).bind fun _ => keeps_pure false
  next => exact (runs_otherAction hk h).bind fun _ => keeps_pure false

theorem runs_doAction (hk : k.Safe) (hx : x < w₀.contextCount) {action : Action}
    (h : Known actionArgumentInfo action.expr) : Runs w₀ (host.doAction k x action) := by
  apply sat_context_bind
  intro w hw
  split_ifs
  · exact keeps_pure false
  · exact runs_performAction hk (hx.trans_le hw.count_le) h

/-! ## Rules -/

theorem runs_checkEnabledRule (hx : x < w₀.contextCount)
    (h : ruleReads expr.function ≤ expr.args.length) :
    Runs w₀ (host.checkEnabledRule x expr) := by
  unfold QuestHost.checkEnabledRule
  split
  next hf =>
    apply (runs_change hx (QuestContext.quest_touchProgress · _)).bind
    intro _
    apply sat_context_bind
    intro w hw
    have hxw : x < w.contextCount := hx.trans_le hw.count_le
    apply sat_get.keeps.bind
    intro w'
    dsimp only
    split_ifs
    · apply (runs_change hxw (QuestContext.quest_touchProgress · _)).bind
      intro _
      exact (keeps_arg (length_of_ruleReads h hf)).bind fun _ => keeps_pure _
    · apply (runs_change hxw (QuestContext.quest_setProgress · _ _)).bind
      intro _
      apply (runs_change hxw (QuestContext.quest_setProgress · _ _)).bind
      intro _
      exact keeps_pure false
  next hf =>
    apply (runs_change hx (QuestContext.quest_touchProgress · _)).bind
    intro _
    apply sat_context_bind
    intro w hw
    dsimp only
    split_ifs with hfew
    · exact (keeps_arg (length_of_ruleReads h hf)).bind fun _ => keeps_pure _
    · apply (keeps_arg (length_of_ruleReads h hf)).bind
      intro low
      split_ifs
      · exact (keeps_arg (by omega)).bind fun _ => keeps_pure _
      · exact keeps_pure false
  next =>
    apply sat_context_bind
    intro w hw
    apply sat_get.keeps.bind
    intro w'
    exact keeps_viewRule host _ h

/-- A rule is read only if its quest is not disabled. -/
theorem runs_checkRule (hx : x < w₀.contextCount)
    (h : (w₀.contexts x).quest.disabled = false → ruleReads expr.function ≤ expr.args.length) :
    Runs w₀ (host.checkRule x expr) := by
  apply sat_context_bind
  intro w hw
  split_ifs with hdisabled
  · exact keeps_pure false
  · rw [hw.quest_eq x hx, Bool.not_eq_true] at hdisabled
    exact runs_checkEnabledRule (hx.trans_le hw.count_le) (h hdisabled)

/-! ## States -/

theorem runs_noState {c : QuestContext} : Runs w₀ (QuestHost.noState c) := by
  unfold QuestHost.noState
  split_ifs
  · exact keeps_pure false
  · exact sat_throw _

section States
variable (hk : k.Safe)
include hk

theorem runs_doStateAction (hx : x < w₀.contextCount) {action : Action}
    (h : Known actionArgumentInfo action.expr) : Runs w₀ (host.doStateAction k x action) := by
  apply (runs_doAction hk hx h).bind
  intro changed
  apply keeps_onlyIf
  intro _
  exact keeps_modify fun _ => follows_leaveRecursion

/-- The actions of a state are known, and its conditions have what is read of them. -/
theorem runs_doActionList (hx : x < w₀.contextCount) {actions : List Action}
    (hactions : ∀ a ∈ actions, Known actionArgumentInfo a.expr)
    (hconditions : (w₀.contexts x).quest.disabled = false → ∀ a ∈ actions,
      a.cond = .condIf ∨ a.cond = .condElseIf →
        ruleReads a.condExpr.function ≤ a.condExpr.args.length) (lastCond : Bool) :
    Runs w₀ (host.doActionList k x actions lastCond) := by
  induction actions generalizing lastCond with
  | nil => exact keeps_pure ()
  | cons a rest ih =>
      have ha : Known actionArgumentInfo a.expr := hactions a List.mem_cons_self
      have hrest (last : Bool) : Runs w₀ (host.doActionList k x rest last) :=
        ih (fun b hb => hactions b (List.mem_cons_of_mem _ hb))
          (fun hen b hb => hconditions hen b (List.mem_cons_of_mem _ hb)) last
      unfold QuestHost.doActionList
      split_ifs with hskip hcond
      · exact hrest lastCond
      · apply (runs_checkRule hx fun hen => hconditions hen a List.mem_cons_self hcond).bind
        intro holds
        apply (keeps_onlyIf fun _ => runs_doStateAction hk hx ha).bind
        intro _
        exact hrest holds
      · apply (runs_doStateAction hk hx ha).bind
        intro _
        exact hrest lastCond

theorem runs_checkRules (hx : x < w₀.contextCount) : Runs w₀ (host.checkRules k x) := by
  apply sat_context_bind
  intro w hw
  have hxw : x < w.contextCount := hx.trans_le hw.count_le
  split
  · exact runs_noState
  · next s hs =>
    obtain ⟨name, hname⟩ := (w.contexts x).state_mem s hs
    have hchecked : Quest.Checked s := (w.contexts x).quest.checked_of_find? hname
    apply runs_enterRecursion.bind
    intro _
    have hrules : Runs w (Exec.findM? s.rules fun rule => do
        if ← host.checkRule x rule.expr then host.doAction k x rule.action else pure false) := by
      apply Sat.keeps
      apply sat_findM?
      intro rule hrule
      apply (runs_checkRule hxw fun _ => ruleReads_le (hchecked.rule rule hrule)).bind
      intro holds
      cases holds with
      | true => exact runs_doAction hk hxw (hchecked.ruleAction rule hrule)
      | false => exact keeps_pure false
    apply (hrules.onRaise fun _ => follows_leaveRecursion).bind
    intro found _
    apply (keeps_modify fun _ => follows_leaveRecursion).bind
    intro _
    exact keeps_pure _

theorem runs_doActions (hx : x < w₀.contextCount) : Runs w₀ (host.doActions k x) := by
  apply sat_context_bind
  intro w hw
  have hxw : x < w.contextCount := hx.trans_le hw.count_le
  split
  · exact runs_noState.bind fun _ => keeps_pure ()
  · next s hs =>
    obtain ⟨name, hname⟩ := (w.contexts x).state_mem s hs
    have hchecked : Quest.Checked s := (w.contexts x).quest.checked_of_find? hname
    have hguarded : s.Guarded (w.contexts x).quest.disabled :=
      (hw.guarded.context x).state hname
    apply runs_enterRecursion.bind
    intro _
    have hlist : Runs w (host.doActionList k x s.actions false) :=
      runs_doActionList hk hxw hchecked.action hguarded.conditions false
    apply (hlist.onRaise fun _ => follows_leaveRecursion).bind
    intro _ _
    apply (keeps_modify fun _ => follows_leaveRecursion).bind
    intro _
    exact (runs_checkRules hk hxw).bind fun _ => keeps_pure ()

theorem runs_setState (hx : x < w₀.contextCount) (state : String) :
    Runs w₀ (host.setState k x state) := by
  apply (sat_onContext hx (keeps_enterState state)).bind
  intro entered _
  apply keeps_onlyIf
  intro _
  exact runs_doActions hk hx

theorem runs_checkQuestRules (c : ℕ) : Runs w₀ (host.checkQuestRules k c) := by
  apply runs_forQuests
  intro w x hw hx
  exact (runs_checkRules hk hx).bind fun _ => keeps_pure ()

end States

/-- Every level of the interpreter is safe. -/
theorem safe_calls (fuel : ℕ) : (host.calls fuel).Safe := by
  induction fuel with
  | zero => exact ⟨fun _ _ _ _ => sat_fault rfl, fun _ _ => sat_fault rfl⟩
  | succ n ih =>
      exact ⟨fun w x state hx => runs_setState ih hx state, fun w c => runs_checkQuestRules ih c⟩

end ArenaServ
