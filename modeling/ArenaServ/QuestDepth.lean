import ArenaServ.QuestProbes

/-!
# The depth of the quest recursion

Most of what quests do leaves the recursive depth alone. What calls back into the interpreter
is compared: the one that stops at the first action of a list that has changed the state, the
one that watches the frames, and the interpreter itself.
-/

namespace ArenaServ

open EOPlus Exec QuestExec

variable {σ : Type}

/-! ## What leaves the depth alone -/

section Quiet
variable {τ : Type} {count : τ → ℤ} {expr : Expression}

theorem quiet_arg (i : ℕ) : Quiet count .outOfFuel (arg expr i) := by
  unfold arg
  split
  · exact quiet_pure _
  · exact fun _ => ⟨trivial, fun h => nomatch h⟩

theorem quiet_amount : Quiet count .outOfFuel (amount expr) := by
  unfold amount
  split_ifs
  · exact (quiet_arg 1).bind fun _ => quiet_pure _
  · exact quiet_pure 1

theorem quiet_strength : Quiet count .outOfFuel (strength expr) := by
  unfold strength
  split_ifs
  · exact (quiet_arg 0).bind fun _ => quiet_pure _
  · exact quiet_pure 5

theorem quiet_modifyStat (change : StatChange) :
    Quiet count .outOfFuel (modifyStat change expr) := by
  unfold modifyStat
  apply (quiet_arg 0).bind
  intro stat
  apply (quiet_arg 1).bind
  intro value
  split_ifs
  · exact quiet_pure _
  · exact quiet_throw _

theorem quiet_characterCall : Quiet count .outOfFuel (characterCall expr) := by
  unfold characterCall
  split
  case h_2 | h_3 => exact quiet_strength.bind fun _ => quiet_pure _
  case h_4 | h_5 =>
    apply (quiet_arg 0).bind
    intro _
    apply (quiet_arg 1).bind
    intro _
    exact (quiet_arg 2).bind fun _ => quiet_pure _
  case h_8 | h_9 =>
    apply (quiet_arg 0).bind
    intro _
    exact quiet_amount.bind fun _ => quiet_pure _
  case h_18 | h_19 | h_20 => exact (quiet_modifyStat _).bind fun _ => quiet_pure _
  case h_21 => exact quiet_pure _
  all_goals exact (quiet_arg 0).bind fun _ => quiet_pure _

theorem quiet_startState : Quiet count .outOfFuel (QuestHost.startState expr) := by
  unfold QuestHost.startState
  split_ifs
  · exact (quiet_arg 1).bind fun _ => quiet_pure _
  · exact quiet_pure _

end Quiet

/-! ## Contexts by themselves -/

section Contexts
open QuestContext
variable {expr : Expression} {count : QuestContext → ℤ}

/-- A context has no depth of its own. -/
def noCount (_ : QuestContext) : ℤ := 0

theorem quiet_change (f : QuestContext → QuestContext) :
    Quiet noCount .outOfFuel (Exec.modify f : Exec QuestContext QuestError QuestFault Unit) :=
  quiet_modify fun _ => rfl

theorem quiet_beginAction : Quiet noCount .outOfFuel (beginAction expr) := by
  unfold beginAction
  split
  · apply (quiet_arg 0).bind
    intro vendor
    apply (quiet_arg 1).bind
    intro text
    exact quiet_change _
  · apply (quiet_arg 0).bind
    intro vendor
    apply (quiet_arg 1).bind
    intro link
    apply (quiet_arg 2).bind
    intro text
    exact quiet_change _
  · exact quiet_pure ()

theorem quiet_beginState (state : State) : Quiet noCount .outOfFuel (beginState state) := by
  unfold beginState
  apply (quiet_change _).bind
  intro _
  apply quiet_get.bind
  intro c
  split_ifs
  · exact quiet_pure ()
  · exact quiet_forEach fun action _ => quiet_beginAction

theorem quiet_enterState (state : String) : Quiet noCount .outOfFuel (enterState state) := by
  unfold enterState
  apply (quiet_change _).bind
  intro _
  apply quiet_get.bind
  intro c
  split
  · split_ifs
    · exact quiet_pure false
    · exact quiet_throw _
  · next s _ =>
    apply (quiet_change _).bind
    intro _
    exact (quiet_beginState s).bind fun _ => quiet_pure true

theorem quiet_onContext {α : Type} {m : Exec QuestContext QuestError QuestFault α}
    (hm : Quiet noCount .outOfFuel m) (x : ℕ) :
    Quiet QuestWorld.recursiveDepth .outOfFuel (onContext x m : QuestExec σ α) := by
  intro w
  obtain ⟨-, hlost⟩ := hm (w.contexts x)
  unfold onContext
  revert hlost
  cases m (w.contexts x) with
  | done a c => exact fun _ => ⟨rfl, fun h => nomatch h⟩
  | raised e c => exact fun _ => ⟨rfl, fun h => nomatch h⟩
  | fault f => exact fun hlost => ⟨trivial, fun h => hlost (by rw [Outcome.fault.inj h])⟩

end Contexts

/-! ## Steps on the world -/

section Steps
variable {expr : Expression}

/-- The execution leaves the recursive depth alone and does not use up the stack. -/
abbrev Level {α : Type} (m : QuestExec σ α) : Prop := Quiet QuestWorld.recursiveDepth .outOfFuel m

theorem level_change (x : ℕ) (f : QuestContext → QuestContext) :
    Level (change x f : QuestExec σ Unit) :=
  quiet_onContext (quiet_change f) x

theorem level_context (x : ℕ) : Level (context x : QuestExec σ QuestContext) :=
  quiet_get.bind fun _ => quiet_pure _

theorem context_bind {α : Type} (x : ℕ) (f : QuestContext → QuestExec σ α) (w : QuestWorld σ) :
    (context x >>= f) w = f (w.contexts x) w := rfl

theorem level_getQuest (c : ℕ) (id : Int16) : Level (getQuest c id : QuestExec σ (Option ℕ)) :=
  quiet_get.bind fun _ => quiet_pure _

theorem level_setQuest (c : ℕ) (id : Int16) (x : Option ℕ) :
    Level (Exec.modify (QuestWorld.setQuest c id x) : QuestExec σ Unit) :=
  quiet_modify fun _ => rfl

theorem level_rest (rest : σ) :
    Level (Exec.modify fun w => { w with rest := rest } : QuestExec σ Unit) :=
  quiet_modify fun _ => rfl

theorem level_newContext (c : ℕ) (quest : Quest) : Level (newContext c quest : QuestExec σ ℕ) := by
  apply quiet_get.bind
  intro w
  have hnew : Level (Exec.modify (QuestWorld.newContext (.new c quest)) : QuestExec σ Unit) :=
    quiet_modify fun _ => rfl
  exact hnew.bind fun _ => quiet_pure _

theorem level_openQuest (c : ℕ) (id : Int16) (quest : Quest) :
    Level (openQuest c id quest : QuestExec σ ℕ) := by
  apply (level_newContext c quest).bind
  intro x
  apply (level_setQuest c id x).bind
  intro _
  exact quiet_pure x

theorem level_noState (c : QuestContext) : Level (QuestHost.noState c : QuestExec σ Bool) := by
  unfold QuestHost.noState
  split_ifs
  · exact quiet_pure false
  · exact quiet_throw _

theorem level_rpnCharEval (view : CharacterView) (values : List Variant) :
    Level (QuestHost.rpnCharEval view values : QuestExec σ Bool) := by
  unfold QuestHost.rpnCharEval
  split
  · exact quiet_pure _
  · exact quiet_throw _

theorem level_viewRule (host : QuestHost σ) (view : CharacterView) :
    Level (host.viewRule view expr) := by
  unfold QuestHost.viewRule
  split
  case h_1 | h_21 => exact quiet_pure _
  case h_3 | h_5 =>
    apply (quiet_arg 0).bind
    intro map
    split_ifs
    · apply (quiet_arg 1).bind
      intro x
      split_ifs
      · exact (quiet_arg 2).bind fun _ => quiet_pure _
      · exact quiet_pure _
    · exact quiet_pure _
  case h_6 =>
    apply quiet_amount.bind
    intro _
    exact (quiet_arg 0).bind fun _ => quiet_pure _
  case h_7 =>
    apply (quiet_arg 0).bind
    intro _
    exact quiet_amount.bind fun _ => quiet_pure _
  case h_8 =>
    apply (quiet_arg 0).bind
    intro id
    dsimp only
    split_ifs
    · exact quiet_pure _
    · exact (quiet_arg 1).bind fun _ => quiet_pure _
    · exact quiet_pure _
  case h_15 | h_16 | h_17 | h_18 =>
    apply (quiet_arg 1).bind
    intro _
    apply (quiet_arg 0).bind
    intro _
    exact level_rpnCharEval view _
  case h_19 =>
    apply (quiet_arg 1).bind
    intro low
    apply (quiet_arg 0).bind
    intro stat
    apply (quiet_arg 2).bind
    intro high
    exact level_rpnCharEval view _
  case h_20 =>
    apply (quiet_arg 0).bind
    intro _
    exact level_rpnCharEval view _
  all_goals exact (quiet_arg 0).bind fun _ => quiet_pure _

theorem level_checkEnabledRule (host : QuestHost σ) (x : ℕ) :
    Level (host.checkEnabledRule x expr) := by
  unfold QuestHost.checkEnabledRule
  split
  · apply (level_change x _).bind
    intro _
    apply (level_context x).bind
    intro this
    apply quiet_get.bind
    intro w
    dsimp only
    split_ifs
    · apply (level_change x _).bind
      intro _
      exact (quiet_arg 0).bind fun _ => quiet_pure _
    · apply (level_change x _).bind
      intro _
      exact (level_change x _).bind fun _ => quiet_pure false
  · apply (level_change x _).bind
    intro _
    apply (level_context x).bind
    intro this
    dsimp only
    split_ifs
    · exact (quiet_arg 0).bind fun _ => quiet_pure _
    · apply (quiet_arg 0).bind
      intro low
      split_ifs
      · exact (quiet_arg 1).bind fun _ => quiet_pure _
      · exact quiet_pure false
  · apply (level_context x).bind
    intro this
    apply quiet_get.bind
    intro w
    exact level_viewRule host _

theorem level_checkRule (host : QuestHost σ) (x : ℕ) : Level (host.checkRule x expr) := by
  apply (level_context x).bind
  intro this
  split_ifs
  · exact quiet_pure false
  · exact level_checkEnabledRule host x

theorem level_roll (host : QuestHost σ) (x : ℕ) : Level (host.roll x expr) := by
  apply (quiet_arg 0).bind
  intro sides
  apply quiet_get.bind
  intro w
  apply (level_rest _).bind
  intro _
  exact level_change x _

end Steps

/-! ## Calls -/

variable {host : QuestHost σ} {k watch k' : Calls σ} {stop alarm : QuestFault} {ok : ℤ → Prop}
  {n : ℤ}

abbrev Matches (stop : QuestFault) (ok : ℤ → Prop) (n : ℤ) {α : Type}
    (m watch m' : QuestExec σ α) : Prop :=
  Tally QuestWorld.recursiveDepth stop .outOfFuel ok n m watch m'

structure Calls.Match (stop : QuestFault) (ok : ℤ → Prop) (n : ℤ) (k watch k' : Calls σ) :
    Prop where
  setState : ∀ x state,
    Matches stop ok n (k.setState x state) (watch.setState x state) (k'.setState x state)
  checkQuestRules : ∀ c,
    Matches stop ok n (k.checkQuestRules c) (watch.checkQuestRules c) (k'.checkQuestRules c)

section Actions
variable {expr : Expression} (hk : Calls.Match stop ok n k watch k')
include hk

theorem matches_runEffect (effect : CharacterEffect σ) :
    Matches stop ok n (runEffect k effect) (runEffect watch effect) (runEffect k' effect) := by
  induction effect with
  | done rest => exact (level_rest rest).tally
  | throws e rest => exact ((level_rest rest).bind fun _ => quiet_throw e).tally
  | checkQuestRules c rest next ih =>
      apply (level_rest rest).tally.bind
      intro _
      apply (hk.checkQuestRules c).bind
      intro _
      apply quiet_get.tally.bind
      intro w
      exact ih w.rest

theorem matches_callCharacter (x : ℕ) (call : CharacterCall) :
    Matches stop ok n (host.callCharacter k x call) (host.callCharacter watch x call)
      (host.callCharacter k' x call) := by
  apply (level_context x).tally.bind
  intro this
  apply quiet_get.tally.bind
  intro w
  exact matches_runEffect hk _

theorem matches_startQuest (x : ℕ) :
    Matches stop ok n (QuestHost.startQuest k x expr) (QuestHost.startQuest watch x expr)
      (QuestHost.startQuest k' x expr) := by
  apply (quiet_arg 0).tally.bind
  intro id
  apply (level_context x).tally.bind
  intro this
  apply (level_getQuest _ _).tally.bind
  intro found
  cases found with
  | none =>
      apply quiet_get.tally.bind
      intro w
      cases w.table.quests.find? id.toInt.toInt16 with
      | none => exact (quiet_pure ()).tally
      | some quest =>
          apply (level_openQuest _ _ _).tally.bind
          intro y
          apply quiet_startState.tally.bind
          intro state
          exact hk.setState y state
  | some y =>
      apply (level_context y).tally.bind
      intro other
      split_ifs
      · apply quiet_startState.tally.bind
        intro state
        exact hk.setState y state
      · exact (quiet_pure ()).tally

theorem matches_resetOther (this : QuestContext) (id : Int16) (other : Option ℕ) :
    Matches stop ok n (QuestHost.resetOther k this id other)
      (QuestHost.resetOther watch this id other) (QuestHost.resetOther k' this id other) := by
  cases other with
  | none => exact (quiet_pure ()).tally
  | some y =>
      unfold QuestHost.resetOther
      split_ifs
      · exact hk.setState y "done"
      · exact (level_setQuest _ _ _).tally

theorem matches_resetQuest (x : ℕ) :
    Matches stop ok n (QuestHost.resetQuest k x expr) (QuestHost.resetQuest watch x expr)
      (QuestHost.resetQuest k' x expr) := by
  apply (level_context x).tally.bind
  intro this
  apply (quiet_arg 0).tally.bind
  intro id
  apply (level_getQuest _ _).tally.bind
  intro other
  apply (matches_resetOther hk this _ other).bind
  intro _
  exact (quiet_pure _).tally

theorem matches_setQuestState (x : ℕ) :
    Matches stop ok n (QuestHost.setQuestState k x expr) (QuestHost.setQuestState watch x expr)
      (QuestHost.setQuestState k' x expr) := by
  apply (level_context x).tally.bind
  intro this
  apply (quiet_arg 0).tally.bind
  intro id
  apply (quiet_arg 1).tally.bind
  intro state
  apply (level_getQuest _ _).tally.bind
  intro found
  cases found with
  | none => exact (quiet_pure false).tally
  | some y =>
      apply (hk.setState y _).bind
      intro _
      exact (quiet_pure _).tally

theorem matches_resetThis (x : ℕ) :
    Matches stop ok n (QuestHost.resetThis k x) (QuestHost.resetThis watch x)
      (QuestHost.resetThis k' x) := by
  apply (level_context x).tally.bind
  intro this
  split_ifs
  · exact (level_setQuest _ _ _).tally
  · exact hk.setState x "done"

theorem matches_otherAction (x : ℕ) :
    Matches stop ok n (host.otherAction k x expr) (host.otherAction watch x expr)
      (host.otherAction k' x expr) := by
  apply quiet_characterCall.tally.bind
  intro call
  cases call with
  | none => exact (quiet_pure ()).tally
  | some call => exact matches_callCharacter hk x call

theorem matches_performAction (x : ℕ) :
    Matches stop ok n (host.performAction k x expr) (host.performAction watch x expr)
      (host.performAction k' x expr) := by
  unfold QuestHost.performAction
  split
  · apply (quiet_arg 0).tally.bind
    intro state
    exact (hk.setState x _).bind fun _ => (quiet_pure true).tally
  · exact (matches_resetThis hk x).bind fun _ => (quiet_pure true).tally
  · apply quiet_get.tally.bind
    intro w
    apply (level_change x _).tally.bind
    intro _
    apply (level_change x _).tally.bind
    intro _
    exact (hk.setState x "done").bind fun _ => (quiet_pure true).tally
  · exact (hk.setState x "end").bind fun _ => (quiet_pure true).tally
  · exact (matches_startQuest hk x).bind fun _ => (quiet_pure false).tally
  · exact matches_resetQuest hk x
  · exact matches_setQuestState hk x
  · exact ((level_roll host x).bind fun _ => quiet_pure false).tally
  · exact (matches_otherAction hk x).bind fun _ => (quiet_pure false).tally

theorem matches_doAction (x : ℕ) (action : Action) :
    Matches stop ok n (host.doAction k x action) (host.doAction watch x action)
      (host.doAction k' x action) := by
  apply (level_context x).tally.bind
  intro this
  split_ifs
  · exact (quiet_pure false).tally
  · exact matches_performAction hk x

end Actions

/-! ## Frames -/

/-- What is left of the stack at a depth is enough for the frames that are still allowed. -/
def Fits (fuel : ℕ) (depth : ℤ) : Prop := depth ≤ 100 ∧ 101 ≤ depth + fuel

theorem fits_succ {fuel : ℕ} {depth : ℤ} (h : Fits fuel depth) : Fits (fuel + 1) depth := by
  unfold Fits at h ⊢
  omega

theorem matches_frames (n : ℕ) :
    Matches stop ok n ((Probes.stopping stop : Probes σ).frames n)
      ((Probes.watching alarm : Probes σ).frames n) ((Probes.none : Probes σ).frames n) := by
  intro w
  apply Compare.of_watch_eq ((quiet_pure ()).tally w)
  intro hdepth
  change (if w.recursiveDepth = n then pure () else Exec.fault alarm : QuestExec σ Unit) w = _
  rw [if_pos hdepth]

/-- An action that has changed the state lowers the depth once too often. -/
theorem matches_changed :
    Matches stop ok n (Probes.stopping stop : Probes σ).changed
      (Probes.watching alarm : Probes σ).changed (Probes.none : Probes σ).changed := by
  intro w
  right
  refine ⟨rfl, ?_⟩
  change w.recursiveDepth - 1 < w.recursiveDepth
  omega

theorem enterRecursion_of_deep {w : QuestWorld σ} (h : 100 < w.recursiveDepth + 1) :
    enterRecursion w = .raised (.other "Quest action recursion too deep") w := by
  change (if 100 < w.recursiveDepth + 1 then _ else _ : QuestExec σ Unit) w = _
  rw [if_pos h]
  rfl

theorem enterRecursion_cases (fuel : ℕ) (w : QuestWorld σ) :
    (∃ e, enterRecursion w = .raised e w) ∨
      ∃ w', enterRecursion w = .done () w' ∧ w'.recursiveDepth = w.recursiveDepth + 1 ∧
        (Fits (fuel + 1) w.recursiveDepth → Fits fuel (w.recursiveDepth + 1)) := by
  by_cases hdeep : 100 < w.recursiveDepth + 1
  · exact Or.inl ⟨_, enterRecursion_of_deep hdeep⟩
  · right
    refine ⟨{ w with recursiveDepth := w.recursiveDepth + 1 }, ?_, rfl, ?_⟩
    · change (if 100 < w.recursiveDepth + 1 then _ else _ : QuestExec σ Unit) w = _
      rw [if_neg hdeep]
      rfl
    · rintro ⟨-, hfuel⟩
      unfold Fits
      omega

section Frames
variable {fuel f x : ℕ} {ks watches ks' : ℕ → Calls σ}

theorem matches_doStateAction (hk : Calls.Match stop ok f k watch k') (action : Action) :
    Matches stop ok f (host.doStateActionProbed (.stopping stop) k f x action)
      (host.doStateActionProbed (.watching alarm) watch f x action)
      (host.doStateActionProbed .none k' f x action) := by
  apply (matches_frames f).bind
  intro _
  apply (matches_doAction hk x action).bind
  intro changed
  exact Tally.onlyIf fun _ => matches_changed

theorem matches_checkRule (expr : Expression) :
    Matches stop ok f (host.checkRuleProbed (.stopping stop) f x expr)
      (host.checkRuleProbed (.watching alarm) f x expr) (host.checkRuleProbed .none f x expr) := by
  apply (matches_frames f).bind
  intro _
  exact (level_checkRule host x).tally

theorem matches_doActionList (host : QuestHost σ) (alarm : QuestFault) (x : ℕ)
    (hk : Calls.Match stop ok f k watch k') (actions : List Action)
    (lastCond : Bool) :
    Matches stop ok f (host.doActionListProbed (.stopping stop) k f x actions lastCond)
      (host.doActionListProbed (.watching alarm) watch f x actions lastCond)
      (host.doActionListProbed .none k' f x actions lastCond) := by
  induction actions generalizing lastCond with
  | nil => exact (quiet_pure ()).tally
  | cons action rest ih =>
      unfold QuestHost.doActionListProbed
      split_ifs
      · exact ih lastCond
      · apply (matches_checkRule action.condExpr).bind
        intro holds
        apply (Tally.onlyIf fun _ => matches_doStateAction hk action).bind
        intro _
        exact ih holds
      · apply (matches_doStateAction hk action).bind
        intro _
        exact ih lastCond

section Nested
variable (host : QuestHost σ) (alarm : QuestFault) (x : ℕ)
  (hks : ∀ f : ℕ, Calls.Match stop (Fits fuel) f (ks f) (watches f) (ks' f))
include hks

theorem matches_checkRules :
    Matches stop (Fits (fuel + 1)) f (host.checkRulesProbed (.stopping stop) ks f x)
      (host.checkRulesProbed (.watching alarm) watches f x)
      (host.checkRulesProbed .none ks' f x) := by
  apply (matches_frames f).bind
  intro _
  apply (level_context x).tally.bind
  intro this
  cases this.state with
  | none => exact (level_noState this).tally
  | some s =>
      apply Tally.block _ (enterRecursion_cases fuel) fun _ => rfl
      · exact fun found => (quiet_pure _).tally
      · apply tally_findM?
        intro rule _
        apply (matches_checkRule rule.expr).bind
        intro holds
        cases holds with
        | true =>
            apply (matches_frames (f + 1)).bind
            intro _
            exact matches_doAction (hks (f + 1)) x rule.action
        | false => exact (quiet_pure false).tally

theorem matches_doActions :
    Matches stop (Fits (fuel + 1)) f (host.doActionsProbed (.stopping stop) ks f x)
      (host.doActionsProbed (.watching alarm) watches f x)
      (host.doActionsProbed .none ks' f x) := by
  apply (matches_frames f).bind
  intro _
  apply (level_context x).tally.bind
  intro this
  cases this.state with
  | none => exact ((level_noState this).bind fun _ => quiet_pure ()).tally
  | some s =>
      apply Tally.block _ (enterRecursion_cases fuel) fun _ => rfl
      · intro _
        apply (matches_checkRules host alarm x hks).bind
        intro _
        exact (quiet_pure ()).tally
      · exact matches_doActionList host alarm x (hks (f + 1)) s.actions false

theorem matches_setState (state : String) :
    Matches stop (Fits (fuel + 1)) f (host.setStateProbed (.stopping stop) ks f x state)
      (host.setStateProbed (.watching alarm) watches f x state)
      (host.setStateProbed .none ks' f x state) := by
  apply (quiet_onContext (quiet_enterState state) x).tally.bind
  intro entered
  exact Tally.onlyIf fun _ => matches_doActions host alarm x hks

end Nested

end Frames

theorem matches_visitQuest {body watching body' : ℕ → QuestExec σ Unit}
    (hbody : ∀ x, Matches stop ok n (body x) (watching x) (body' x)) (quest : Option ℕ) :
    Matches stop ok n (visitQuest body quest) (visitQuest watching quest)
      (visitQuest body' quest) := by
  cases quest with
  | none => exact (quiet_pure ()).tally
  | some x =>
      apply (level_context x).tally.bind
      intro c
      exact Tally.onlyIf fun _ => hbody x

theorem matches_forQuests {body watching body' : ℕ → QuestExec σ Unit}
    (hbody : ∀ x, Matches stop ok n (body x) (watching x) (body' x)) (c times : ℕ)
    (last : Option Int16) :
    Matches stop ok n (forQuests c body times last) (forQuests c watching times last)
      (forQuests c body' times last) := by
  induction times generalizing last with
  | zero => exact (quiet_pure ()).tally
  | succ times ih =>
      apply quiet_get.tally.bind
      intro w
      cases (w.log c).quests.next? last with
      | none => exact (quiet_pure ()).tally
      | some entry =>
          apply (matches_visitQuest hbody entry.2).bind
          intro _
          exact ih (some entry.1)

/-- Every level of the interpreter matches, with a stack for the frames that are allowed. -/
theorem match_callsProbed (host : QuestHost σ) (stop alarm : QuestFault) (fuel f : ℕ) :
    Calls.Match stop (Fits fuel) f (host.callsProbed (.stopping stop) fuel f)
      (host.callsProbed (.watching alarm) fuel f) (host.callsProbed .none fuel f) := by
  induction fuel generalizing f with
  | zero =>
      have hempty : Matches stop (Fits 0) f (Exec.fault .outOfFuel : QuestExec σ Unit)
          (Exec.fault .outOfFuel) (Exec.fault .outOfFuel) := by
        intro w
        left
        exact {
          eq := rfl
          watch_eq := fun _ => rfl
          counts := trivial
          kept := by
            rintro ⟨hdepth, hfuel⟩
            omega }
      exact ⟨fun _ _ => hempty, fun _ => hempty⟩
  | succ fuel ih =>
      exact {
        setState := fun x state => matches_setState host alarm x ih state
        checkQuestRules := by
          intro c
          apply matches_forQuests
          intro x
          apply (matches_checkRules host alarm x ih).bind
          intro _
          exact (quiet_pure ()).tally }

end ArenaServ
