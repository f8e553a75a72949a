import ArenaServ.QuestArguments
import ArenaServ.RunSteps

/-!
# No run reads a missing argument

Queries, events and runs over guarded quests read only arguments that are there. Quests that
pass the check at loading and are not guarded show that the check alone is not enough.
-/

namespace ArenaServ

open EOPlus Exec QuestExec

variable {σ : Type} {host : QuestHost σ} {k : Calls σ} {w₀ : QuestWorld σ} {x : ℕ}
  {expr : Expression}

/-! ## Queries -/

section Queries
open QuestContext
variable {quest : Quest} {rule : String}

/-- The rules of the current state of a quest. -/
theorem sat_queryRule {argCheck : Expression → Exec QuestContext QuestError QuestFault Bool}
    (hcheck : ∀ name s, quest.quest.states.find? name = some s → ∀ r ∈ s.rules,
      r.expr.function = rule →
        Keeps (fun c => c.quest = quest) NoBadArgument (argCheck r.expr)) :
    Sat (fun c => c.quest = quest) NoBadArgument (queryRule rule argCheck) fun found =>
      ∀ r ∈ found, Known actionArgumentInfo r.action.expr := by
  unfold queryRule
  apply sat_get.bind
  intro c hc
  split
  · exact sat_pure fun _ h => nomatch h
  · next s hs =>
    obtain ⟨name, hname⟩ := c.state_mem s hs
    rw [hc] at hname
    have hfind : Sat (fun c => c.quest = quest) NoBadArgument
        (Exec.findM? s.rules fun r =>
          if r.expr.function = rule then argCheck r.expr else pure false)
        fun found => ∀ r ∈ found, r ∈ s.rules := by
      apply sat_findM?
      intro r hr
      split_ifs with hf
      · exact hcheck name s hname r hr hf
      · exact keeps_pure false
    apply hfind.mono
    intro found hmem r hr
    exact (quest.checked_of_find? hname).ruleAction r (hmem r hr)

theorem runs_triggerRule (hk : k.Safe) (hx : x < w₀.contextCount)
    {argCheck : Expression → Exec QuestContext QuestError QuestFault Bool}
    (hcheck : ∀ name s, (w₀.contexts x).quest.quest.states.find? name = some s → ∀ r ∈ s.rules,
      r.expr.function = rule →
        Keeps (fun c => c.quest = (w₀.contexts x).quest) NoBadArgument (argCheck r.expr)) :
    Runs w₀ (host.triggerRule k x rule argCheck) := by
  apply (sat_onContext hx (sat_queryRule hcheck)).bind
  intro found hfound
  cases found with
  | none => exact keeps_pure false
  | some r => exact (runs_doAction hk hx (hfound r rfl)).bind fun _ => keeps_pure true

theorem runs_countRule (hk : k.Safe) (hx : x < w₀.contextCount) {key : CounterKey}
    {counts : Expression → Exec QuestContext QuestError QuestFault Bool}
    {reached : Int16 → Expression → Exec QuestContext QuestError QuestFault Bool}
    (hcounts : ∀ name s, (w₀.contexts x).quest.quest.states.find? name = some s → ∀ r ∈ s.rules,
      r.expr.function = rule →
        Keeps (fun c => c.quest = (w₀.contexts x).quest) NoBadArgument (counts r.expr))
    (hreached : (w₀.contexts x).quest.disabled = false → ∀ name s,
      (w₀.contexts x).quest.quest.states.find? name = some s → ∀ r ∈ s.rules,
      r.expr.function = rule → ∀ n,
        Keeps (fun c => c.quest = (w₀.contexts x).quest) NoBadArgument (reached n r.expr)) :
    Runs w₀ (host.countRule k x rule key counts reached) := by
  apply sat_context_bind
  intro w hw
  have hxw : x < w.contextCount := hx.trans_le hw.count_le
  have hquest : (w.contexts x).quest = (w₀.contexts x).quest := hw.quest_eq x hx
  split_ifs with hdisabled
  · exact keeps_pure ()
  · rw [hquest, Bool.not_eq_true] at hdisabled
    rw [← hquest] at hcounts
    apply (sat_onContext hxw (sat_queryRule hcounts)).bind
    intro check _
    apply (keeps_onlyIf fun _ => runs_change hxw (quest_countUp · key)).bind
    intro _
    apply sat_context_bind
    intro w' hw'
    have hxw' : x < w'.contextCount := hxw.trans_le hw'.count_le
    have hquest' : (w'.contexts x).quest = (w₀.contexts x).quest :=
      (hw'.quest_eq x hxw).trans hquest
    dsimp only
    apply (runs_triggerRule hk hxw' ?_).bind
    · intro triggered
      exact keeps_onlyIf fun _ => runs_change hxw' (quest_eraseProgress · key)
    · rw [hquest']
      exact fun name s hs r hr hf => hreached hdisabled name s hs r hr hf _

/-- What is counted by a short has a second argument. -/
theorem runs_countThing (hk : k.Safe) (hx : x < w₀.contextCount)
    (hguarded : (w₀.contexts x).quest.quest.Guarded) {thing : CounterKey}
    (hthing : thing.val ∈ ["useditem", "usedspell", "killednpcs"])
    (htable : ruleArgumentInfo thing.val = some (.of 1 2)) (id : Int16) :
    Runs w₀ (host.countThing k thing x id) := by
  have hlen {name : String} {s : State} {r : Rule}
      (hs : (w₀.contexts x).quest.quest.states.find? name = some s) (hr : r ∈ s.rules)
      (hf : r.expr.function = thing.val) : 1 ≤ r.expr.args.length :=
    (((w₀.contexts x).quest.checked_of_find? hs).rule r hr).length_le hf htable
  apply runs_countRule hk hx
  · intro name s hs r hr hf
    exact keeps_argIs _ (hlen hs hr hf)
  · intro hen name s hs r hr hf amount
    apply keeps_argReached _ _ (hlen hs hr hf)
    intro hshort
    exact (hguarded.state hs).counters hen r hr ⟨hf ▸ hthing, hshort⟩

theorem runs_killedPlayer (hk : k.Safe) (hx : x < w₀.contextCount) :
    Runs w₀ (host.killedPlayer k x) := by
  apply runs_countRule hk hx
  · intro name s hs r hr hf
    exact keeps_pure true
  · intro hen name s hs r hr hf amount
    have hrule := ((w₀.contexts x).quest.checked_of_find? hs).rule r hr
    exact (keeps_arg (hrule.length_le hf rfl)).bind fun _ => keeps_pure _

theorem runs_answer (hk : k.Safe) (hx : x < w₀.contextCount)
    (htable : ruleArgumentInfo rule = some (.of 1)) (id : Int32) :
    Runs w₀ (host.answer k rule x id) := by
  apply sat_context_bind
  intro w hw
  split_ifs
  · exact keeps_pure ()
  · have htrigger : Runs w (host.triggerRule k x rule (argIs id)) := by
      apply runs_triggerRule hk (hx.trans_le hw.count_le)
      intro name s hs r hr hf
      have hrule := ((w.contexts x).quest.checked_of_find? hs).rule r hr
      exact keeps_argIs id (hrule.length_le hf htable)
    exact htrigger.bind fun _ => keeps_pure ()

theorem keeps_progressInfo (hguarded : quest.quest.Guarded) (view : CharacterView) :
    Keeps (fun c => c.quest = quest) NoBadArgument (progressInfo view) := by
  unfold progressInfo
  apply sat_get.bind
  intro c hc
  split
  · exact keeps_pure _
  · next goal hgoal =>
    unfold getGoal at hgoal
    split at hgoal
    · cases hgoal
    · next s hs =>
      obtain ⟨name, hname⟩ := c.state_mem s hs
      rw [hc] at hname
      split_ifs at hgoal
      have hmem : goal ∈ s.rules := List.mem_of_getElem? hgoal
      have hrule := (quest.checked_of_find? hname).rule goal hmem
      exact keeps_goalProgress view hrule ((hguarded.state hname).goal goal hgoal)

theorem runs_progress (hx : x < w₀.contextCount)
    (hguarded : (w₀.contexts x).quest.quest.Guarded) : Runs w₀ (host.progress x) := by
  apply sat_context_bind
  intro w hw
  apply sat_get.keeps.bind
  intro w'
  have hquest : (w.contexts x).quest = (w₀.contexts x).quest := hw.quest_eq x hx
  apply Keeps.bind
  · apply Sat.keeps (Q := fun _ => True)
    apply sat_onContext (hx.trans_le hw.count_le)
    rw [hquest]
    exact keeps_progressInfo hguarded _
  · intro _
    exact keeps_pure ()

theorem runs_answerQuery (hk : k.Safe) (hx : x < w₀.contextCount)
    (hguarded : (w₀.contexts x).quest.quest.Guarded) (query : Query) :
    Runs w₀ (host.answerQuery k x query) := by
  cases query with
  | talkedNPC vendor => exact runs_answer hk hx rfl _
  | dialogInput link => exact runs_answer hk hx rfl _
  | usedItem id => exact runs_countThing hk hx hguarded (by decide) rfl id
  | usedSpell id => exact runs_countThing hk hx hguarded (by decide) rfl id
  | killedNPC id => exact runs_countThing hk hx hguarded (by decide) rfl id
  | killedPlayer => exact runs_killedPlayer hk hx
  | checkRules => exact (runs_checkRules hk hx).bind fun _ => keeps_pure ()
  | progress => exact runs_progress hx hguarded

end Queries

/-! ## Events -/

/-- What an event brings in is guarded. -/
def QuestEvent.Guarded : QuestEvent σ → Prop
  | .reloadQuests table => table.Guarded
  | _ => True

section Events
variable (hk : k.Safe)
include hk

theorem runs_questUse (c : ℕ) (vendor : Int16) : Runs w₀ (QuestHost.questUse k c vendor) := by
  apply sat_getQuest_bind
  intro w hw hvalid
  split
  · apply sat_get_bind
    intro w' hw'
    split
    · exact keeps_pure ()
    · next quest hquest =>
      split_ifs
      · exact keeps_pure ()
      · apply sat_openQuest_bind (hw'.guarded.table _ _ hquest)
        intro v y hv hy
        exact hk.setState v y "begin" hy
  · next x hx =>
    apply sat_context_bind
    intro w' hw'
    split_ifs
    · exact hk.setState w' x "begin" ((hvalid x hx).trans_le hw'.count_le)
    · exact keeps_pure ()

theorem runs_setNamedState (hx : x < w₀.contextCount) (state : String) :
    Runs w₀ (QuestHost.setNamedState k x state) := by
  apply (hk.setState w₀ x state hx).tryCatch
  intro e
  cases e with
  | runtimeError what => exact keeps_pure ()
  | other what => exact sat_throw _

theorem runs_questState (c : ℕ) (i : Int16) (state : String) :
    Runs w₀ (QuestHost.questState k c i state) := by
  apply sat_getQuest_bind
  intro w hw hvalid
  split
  · next x hx => exact runs_setNamedState hk (hvalid x hx) state
  · apply sat_get_bind
    intro w' hw'
    split
    · exact keeps_pure ()
    · next quest hquest =>
      apply sat_openQuest_bind (hw'.guarded.table _ _ hquest)
      intro v y hv hy
      apply (hk.setState v y "begin" hy).bind
      intro _
      exact runs_setNamedState hk hy state

theorem runs_startDefault (c : ℕ) : Runs w₀ (QuestHost.startDefault k c) := by
  apply sat_getQuest_bind
  intro w hw hvalid
  split
  · exact keeps_pure ()
  · apply sat_get_bind
    intro w' hw'
    split
    · exact keeps_pure ()
    · next quest hquest =>
      split_ifs
      · exact keeps_pure ()
      · apply sat_openQuest_bind (hw'.guarded.table _ _ hquest)
        intro v y hv hy
        exact hk.setState v y "begin" hy

omit hk in
theorem runs_restoreQuest (c : ℕ) (i : Int16) (r : CharacterQuestState) {quest : Quest}
    (hquest : quest.quest.Guarded) : Runs w₀ (QuestHost.restoreQuest c i r quest) := by
  apply sat_newContext_bind hquest
  intro w x hw hx
  apply Sat.tryCatch
  · apply (sat_onContext hx (keeps_enterState r.questState)).bind
    intro _ _
    apply (runs_change hx (QuestContext.quest_unserialize r.questProgress)).bind
    intro _
    apply keeps_modify
    intro w' hw'
    unfold QuestWorld.insertQuest
    split_ifs
    · exact hw'
    · exact hw'.setQuest fun y hy => Option.some.inj hy ▸ hx
  · intro e
    cases e with
    | runtimeError what => exact keeps_modify fun _ hw' => hw'.insertInactive c i r
    | other what => exact sat_throw _

omit hk in
theorem runs_questUnserialize (c : ℕ) (serialized : String) :
    Runs w₀ (QuestHost.questUnserialize c serialized) := by
  apply keeps_forEach
  intro e _
  apply sat_get_bind
  intro w hw
  split
  · exact keeps_modify fun _ hw' => hw'.insertInactive c e.1 e.2
  · next quest hquest => exact runs_restoreQuest c e.1 e.2 (hw.guarded.table _ _ hquest)

theorem runs_login (c : ℕ) (serialized : String) : Runs w₀ (host.login k c serialized) := by
  have hnew (w : QuestWorld σ) (hw : Follows w₀ w) : Follows w₀ { w.putLog c QuestLog.new with
      characters := w.characters ++ [c] } := by
    have hlog : Follows w₀ (w.putLog c QuestLog.new) := by
      apply hw.putLog
      intro i x hx
      cases hx
    exact hlog.of_same rfl rfl rfl rfl
  apply (keeps_modify hnew).bind
  intro _
  apply (runs_questUnserialize c serialized).bind
  intro _
  apply (runs_startDefault hk c).bind
  intro _
  exact runs_checkQuestRules hk c

omit hk in
theorem runs_restoreQuests (c : ℕ) : Runs w₀ (QuestHost.restoreQuests c) := by
  apply (keeps_modify fun w hw => hw.clearQuests c).bind
  intro _
  apply sat_get_bind
  intro w hw
  apply keeps_forEach
  intro e _
  unfold QuestHost.restoreRecord
  split
  · exact keeps_pure ()
  · next quest hquest => exact runs_restoreQuest c e.1 e.2 (hw.guarded.table _ _ hquest)

omit hk in
theorem Follows.foldl {w : QuestWorld σ} (hw : Follows w₀ w) {α : Type} (l : List α)
    {f : QuestWorld σ → α → QuestWorld σ} (hf : ∀ w a, Follows w₀ w → Follows w₀ (f w a)) :
    Follows w₀ (l.foldl f w) := by
  induction l generalizing w with
  | nil => exact hw
  | cons a rest ih => exact ih (hf w a hw)

omit hk in
theorem Follows.backUp {w : QuestWorld σ} (hw : Follows w₀ w) (c : ℕ) :
    Follows w₀ (w.backUp c) := by
  apply hw.foldl
  intro w e hw
  cases e.2 with
  | none => exact hw
  | some x => exact hw.insertInactive c e.1 _

omit hk in
theorem runs_replaceQuests {table : QuestTable} (htable : table.Guarded) :
    Runs w₀ (QuestHost.replaceQuests table) := by
  apply (keeps_modify fun w hw => hw.foldl w.characters fun _ c hw => hw.backUp c).bind
  intro _
  have hclear (w : QuestWorld σ) (hw : Follows w₀ w) : Follows w₀
      { w.characters.foldl (fun w c => w.clearQuests c) w with table := table } := by
    have hcleared := hw.foldl w.characters fun _ c hw => hw.clearQuests c
    exact {
      guarded := {
        table := htable
        context := hcleared.guarded.context
        pointer := hcleared.guarded.pointer }
      count_le := hcleared.count_le
      quest_eq := hcleared.quest_eq }
  apply (keeps_modify hclear).bind
  intro _
  apply sat_get.keeps.bind
  intro w
  apply keeps_forEach
  intro c _
  exact runs_restoreQuests c

theorem runs_reloadQuests {table : QuestTable} (htable : table.Guarded) :
    Runs w₀ (host.reloadQuests k table) := by
  apply (runs_replaceQuests htable).bind
  intro _
  apply sat_get.keeps.bind
  intro w
  apply keeps_forEach
  intro c _
  exact runs_checkQuestRules hk c

theorem runs_event {e : QuestEvent σ} (he : e.Guarded) : Runs w₀ (host.event k e) := by
  cases e with
  | query c i query =>
      apply sat_getQuest_bind
      intro w hw hvalid
      split
      · exact keeps_pure ()
      · next x hx => exact runs_answerQuery hk (hvalid x hx) (hw.guarded.context x) query
  | checkQuestRules c => exact runs_checkQuestRules hk c
  | questUse c vendor => exact runs_questUse hk c vendor
  | questState c i state => exact runs_questState hk c i state
  | login c serialized => exact runs_login hk c serialized
  | logout c => exact keeps_modify fun _ hw => hw.of_same rfl rfl rfl rfl
  | reloadQuests table => exact runs_reloadQuests hk he
  | play rest => exact runs_rest rest

end Events

/-! ## Runs -/

/-- The event reads no argument that is not there. -/
def ReadsArguments (host : QuestHost σ) (fuel : ℕ) (w : QuestWorld σ) (e : QuestEvent σ) : Prop :=
  ∀ function index, (host.event (host.calls fuel) e w).fault? ≠ some (.badArgument function index)

theorem meets_event (host : QuestHost σ) {w : QuestWorld σ} (hw : w.Guarded)
    {e : QuestEvent σ} (he : e.Guarded) (fuel : ℕ) :
    (host.event (host.calls fuel) e w).Meets (Follows w) NoBadArgument fun _ => True := by
  have hk : (host.calls fuel).Safe := safe_calls fuel
  have hrun : Runs w (host.event (host.calls fuel) e) := runs_event hk he
  exact hrun w (.refl hw)

theorem readsArguments_of_guarded {w : QuestWorld σ} (hw : w.Guarded) {e : QuestEvent σ}
    (he : e.Guarded) (fuel : ℕ) : ReadsArguments host fuel w e := by
  intro function index hfault
  have hout := meets_event host hw he fuel
  revert hfault hout
  cases host.event (host.calls fuel) e w with
  | done a w' => exact fun hfault => nomatch hfault
  | raised e w' => exact fun hfault => nomatch hfault
  | fault f =>
      intro hfault hout
      rw [show f = .outOfFuel from hout] at hfault
      cases hfault

theorem guarded_step {w w' : QuestWorld σ} (hw : w.Guarded) {e : QuestEvent σ} (he : e.Guarded)
    {fuel : ℕ} (hstep : host.step fuel w e = some w') : w'.Guarded := by
  have hout := meets_event host hw he fuel
  unfold QuestHost.step at hstep
  revert hstep hout
  cases host.event (host.calls fuel) e w with
  | done a w₁ => exact fun hstep hout => Option.some.inj hstep ▸ hout.1.guarded
  | raised e w₁ => exact fun hstep hout => Option.some.inj hstep ▸ Follows.guarded hout
  | fault f => exact fun hstep => nomatch hstep

theorem guarded_start {table : QuestTable} (htable : table.Guarded) (rest : σ) :
    (QuestWorld.start table rest).Guarded where
  table := htable
  context _ := by
    intro e he
    cases he
  pointer := by
    intro c i x hx
    cases hx

/-- Functions that the tables do not know do nothing. -/
theorem performAction_of_unknown (h : actionArgumentInfo expr.function = none)
    (w : QuestWorld σ) : host.performAction k x expr w = .done false w := by
  have hne (f : String) (hf : actionArgumentInfo f ≠ none) : expr.function ≠ f :=
    fun heq => hf (heq ▸ h)
  have hcall : characterCall expr = (pure none : QuestExec σ _) := by
    unfold characterCall
    split
    case h_21 => rfl
    all_goals
      rename_i hf
      exact absurd hf (hne _ (by decide))
  have hperform : host.performAction k x expr =
      (do
        host.otherAction k x expr
        pure false) := by
    unfold QuestHost.performAction
    split
    case h_9 => rfl
    all_goals
      rename_i hf
      exact absurd hf (hne _ (by decide))
  rw [hperform, QuestHost.otherAction, hcall]
  rfl

theorem checkEnabledRule_of_unknown (h : ruleArgumentInfo expr.function = none)
    (w : QuestWorld σ) : host.checkEnabledRule x expr w = .done false w := by
  have hne (f : String) (hf : ruleArgumentInfo f ≠ none) : expr.function ≠ f :=
    fun heq => hf (heq ▸ h)
  have hview (view : CharacterView) : host.viewRule view expr = pure false := by
    unfold QuestHost.viewRule
    split
    case h_21 => rfl
    all_goals
      rename_i hf
      exact absurd hf (hne _ (by decide))
  have hcheck : host.checkEnabledRule x expr =
      (do
        let this ← context x
        let w ← Exec.get
        host.viewRule (host.view w.rest this.character) expr) := by
    unfold QuestHost.checkEnabledRule
    split
    case h_3 => rfl
    all_goals
      rename_i hf
      exact absurd hf (hne _ (by decide))
  rw [hcheck]
  change host.viewRule (host.view w.rest (w.contexts x).character) expr w = _
  rw [hview]
  rfl

/-! ## Files with one state -/

/-- `if condition showhint("Hello")`. -/
def hintIf (condition : Expression) : State :=
  ⟨"", [], [⟨.condIf, condition, ⟨"showhint", [.text "Hello"]⟩⟩], 0, noRules_goal⟩

/-- `rule expr end()`. -/
def endRule (expr : Expression) : State :=
  ⟨"", [⟨expr, ⟨.condNone, ⟨"", []⟩, ⟨"end", []⟩⟩⟩], [], 0, fun _ => Nat.zero_lt_one⟩

theorem QuestTable.guarded_single {q : ArenaServ.Quest} (hq : q.quest.Guarded) :
    (QuestTable.single q).Guarded := by
  intro i q' h
  change (SortedMap.empty.insert q.id q).find? i = some q' at h
  rw [SortedMap.find?_insert] at h
  split_ifs at h
  · rw [← Option.some.inj h]
    exact hq
  · cases h

namespace QuestHost

/-- The fault a run ends with. -/
def runFault? (host : QuestHost σ) (fuel : ℕ) :
    QuestWorld σ → List (QuestEvent σ) → Option QuestFault
  | _, [] => none
  | w, e :: rest =>
      match host.event (host.calls fuel) e w with
      | .done _ w' => runFault? host fuel w' rest
      | .raised _ w' => runFault? host fuel w' rest
      | .fault f => some f

theorem runFault?_ne {fuel : ℕ} {w : QuestWorld σ} {events : List (QuestEvent σ)}
    (h : RunSteps.Every (host.step fuel) (ReadsArguments host fuel) w events) (function : String)
    (index : ℕ) : host.runFault? fuel w events ≠ some (.badArgument function index) := by
  induction events generalizing w with
  | nil => exact fun hfault => nomatch hfault
  | cons e rest ih =>
      obtain ⟨he, hrest⟩ := h
      have hread := he function index
      have hnext (w' : QuestWorld σ) (hw' : host.step fuel w e = some w') :
          host.runFault? fuel w' rest ≠ some (.badArgument function index) := ih (hrest w' hw')
      unfold runFault?
      unfold step at hnext
      revert hread hnext
      cases host.event (host.calls fuel) e w with
      | done a w' => exact fun _ hnext => hnext w' rfl
      | raised e w' => exact fun _ hnext => hnext w' rfl
      | fault f => exact fun hread _ => hread

/-- Every run over guarded quests reads only arguments that are there, and no function that
the tables do not know makes it throw. -/
theorem reads_arguments (host : QuestHost σ) (fuel : ℕ) {table : QuestTable} (rest : σ)
    {events : List (QuestEvent σ)} (htable : table.Guarded)
    (hevents : RunSteps.Every (host.step fuel) (fun _ e => e.Guarded)
      (QuestWorld.start table rest) events) :
    RunSteps.Every (host.step fuel) (ReadsArguments host fuel)
        (QuestWorld.start table rest) events ∧
      (∀ k x expr w, actionArgumentInfo expr.function = none →
        host.performAction k x expr w = .done false w) ∧
      ∀ x expr w, ruleArgumentInfo expr.function = none →
        host.checkEnabledRule x expr w = .done false w := by
  refine ⟨?_, fun _ _ _ w h => performAction_of_unknown h w,
    fun _ _ w h => checkEnabledRule_of_unknown h w⟩
  exact RunSteps.every_of_every QuestWorld.Guarded
    (fun w e hw he => readsArguments_of_guarded hw he fuel)
    (fun w e w' hw he hstep => guarded_step hw he hstep) (guarded_start htable rest) hevents

end QuestHost

def hintQuest : ArenaServ.Quest := ⟨1, .single (hintIf ⟨"entermap", [.int 2]⟩), by decide⟩

theorem QuestHost.reads_arguments_hint :
    hintQuest.quest.Guarded ∧
      RunSteps.Every (idleHost.step 9) (ReadsArguments idleHost 9)
        (QuestWorld.start (.single hintQuest) ())
        [.login 3 "1,begin,\x7b\x7d;", .questState 3 1 "begin", .reloadQuests (.single hintQuest)] := by
  have hguarded : hintQuest.quest.Guarded := by decide
  have htable : (QuestTable.single hintQuest).Guarded := QuestTable.guarded_single hguarded
  refine ⟨hguarded, (QuestHost.reads_arguments idleHost 9 () htable ?_).1⟩
  exact ⟨trivial, fun _ _ => ⟨trivial, fun _ _ => ⟨htable, fun _ _ => trivial⟩⟩⟩

/-- Conditions are not checked at loading, the second argument of a counter is read although
it may be left out, and so is that of a goal about items. -/
theorem QuestHost.not_reads_arguments :
    (∃ valid, ¬RunSteps.Every (idleHost.step 9) (ReadsArguments idleHost 9)
      (QuestWorld.start (.single ⟨1, .single (hintIf ⟨"entermap", []⟩), valid⟩) ())
      [.questState 3 1 "begin"]) ∧
    (∃ valid, ¬RunSteps.Every (idleHost.step 9) (ReadsArguments idleHost 9)
      (QuestWorld.start (.single ⟨1, .single (endRule ⟨"killednpcs", [.int 5]⟩), valid⟩) ())
      [.questState 3 1 "begin", .query 3 1 (.killedNPC 5)]) ∧
    ∃ valid, ¬RunSteps.Every (idleHost.step 9) (ReadsArguments idleHost 9)
      (QuestWorld.start (.single ⟨1, .single (endRule ⟨"gotitems", [.int 5]⟩), valid⟩) ())
      [.questState 3 1 "begin", .query 3 1 .progress] := by
  refine ⟨⟨by decide, ?_⟩, ⟨by decide, ?_⟩, by decide, ?_⟩
  · exact fun h => runFault?_ne h "entermap" 0 (by decide +kernel)
  · exact fun h => runFault?_ne h "killednpcs" 1 (by decide +kernel)
  · exact fun h => runFault?_ne h "gotitems" 1 (by decide +kernel)

end ArenaServ
