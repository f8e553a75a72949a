import ArenaServ.BranchChains
import ArenaServ.QuestCut

/-!
# Chains of conditional actions

The actions of a state are a flat list of plain actions and of chains of `if`, `elseif` and
`else`. As long as no action changes the state, `DoActions` executes them chain by chain.
-/

namespace ArenaServ

open EOPlus Exec QuestExec BranchChain

variable {σ : Type}

/-- Where an action stands by its condition. -/
def actionPlace (action : Action) : Place :=
  match action.cond with
  | .condNone => .alone
  | .condIf => .opens
  | .condElseIf => .continues
  | .condElse => .ends

theorem actionPlace_skipped (action : Action) :
    (actionPlace action = .continues ∨ actionPlace action = .ends) ↔
      (action.cond = .condElseIf ∨ action.cond = .condElse) := by
  obtain ⟨cond, condExpr, expr⟩ := action
  cases cond <;> simp [actionPlace]

theorem actionPlace_tested (action : Action) :
    (actionPlace action = .opens ∨ actionPlace action = .continues) ↔
      (action.cond = .condIf ∨ action.cond = .condElseIf) := by
  obtain ⟨cond, condExpr, expr⟩ := action
  cases cond <;> simp [actionPlace]

namespace QuestHost

variable (host : QuestHost σ) (k : Calls σ)

def holds (x : ℕ) (action : Action) : QuestExec σ Bool := host.checkRule x action.condExpr

/-- Executes an action, without regard to what becomes of the state. -/
def execute (x : ℕ) (action : Action) : QuestExec σ Unit := do
  let _ ← host.doAction k x action

/-- `DoActions` for actions in blocks. -/
def doBlocks (x : ℕ) (blocks : List (Block actionPlace)) : QuestExec σ Unit := do
  enterRecursion
  Exec.onRaise (runBlocks (host.holds x) (host.execute k x) blocks false) QuestWorld.leaveRecursion
  Exec.modify QuestWorld.leaveRecursion
  let _ ← host.checkRules k x

/-! ## The list -/

variable {host k} {x : ℕ} {w : QuestWorld σ}

theorem doActionList_eq_runList (actions : List Action) (lastCond : Bool) :
    host.doActionList k x actions lastCond =
      runList actionPlace (host.holds x) (host.doStateAction k x) actions lastCond := by
  induction actions generalizing lastCond with
  | nil => rfl
  | cons action rest ih =>
      obtain ⟨cond, condExpr, expr⟩ := action
      cases cond <;> simp [doActionList, runList, actionPlace, holds, ih]

/-- An action that does not change the state is executed and that is all. -/
theorem doStateAction_bind {action : Action} {next : QuestWorld σ → Prop}
    (h : host.ActionStays k x action w next) {rest rest' : QuestExec σ Unit}
    (hrest : ∀ w', next w' → rest w' = rest' w') :
    (host.doStateAction k x action >>= fun _ => rest) w =
      (host.execute k x action >>= fun _ => rest') w := by
  cases hout : host.doAction k x action w with
  | done changed w' =>
      obtain ⟨rfl, hnext⟩ := h changed w' hout
      have hstep : host.doStateAction k x action w = .done () w' := bind_of_done hout
      have hexecute : host.execute k x action w = .done () w' := bind_of_done hout
      rw [bind_of_done hstep, bind_of_done hexecute]
      exact hrest w' hnext
  | raised e w' =>
      have hstep : host.doStateAction k x action w = .raised e w' := bind_of_raised hout
      have hexecute : host.execute k x action w = .raised e w' := bind_of_raised hout
      rw [bind_of_raised hstep, bind_of_raised hexecute]
  | fault f =>
      have hstep : host.doStateAction k x action w = .fault f := bind_of_fault hout
      have hexecute : host.execute k x action w = .fault f := bind_of_fault hout
      rw [bind_of_fault hstep, bind_of_fault hexecute]

/-- By induction on the list: an action is skipped, has a condition or has none. -/
theorem runList_of_stays {actions : List Action} {lastCond : Bool}
    (h : host.ListStays k x actions lastCond w) :
    runList actionPlace (host.holds x) (host.doStateAction k x) actions lastCond w =
      runList actionPlace (host.holds x) (host.execute k x) actions lastCond w := by
  induction actions generalizing lastCond w with
  | nil => rfl
  | cons action rest ih =>
      unfold runList
      simp only [actionPlace_skipped, actionPlace_tested]
      unfold ListStays at h
      split_ifs at h ⊢ with hskip hcond
      · exact ih h
      · cases hrule : host.checkRule x action.condExpr w with
        | done holds w' =>
            have hstays := h holds w' hrule
            have htest : host.holds x action w = .done holds w' := hrule
            rw [bind_of_done htest, bind_of_done htest]
            cases holds with
            | true => exact doStateAction_bind hstays fun _ => ih
            | false => exact ih hstays
        | raised e w' =>
            have htest : host.holds x action w = .raised e w' := hrule
            rw [bind_of_raised htest, bind_of_raised htest]
        | fault f =>
            have htest : host.holds x action w = .fault f := hrule
            rw [bind_of_fault htest, bind_of_fault htest]
      · exact doStateAction_bind h fun _ => ih

/-! ## The state -/

/-- As long as no action of a state changes it, its conditions are tested and its actions executed
chain by chain: of each chain the first branch whose condition holds or else its end, with no
condition tested behind that branch, and each plain action once. -/
theorem doActions_eq_doBlocks {s : State} (hs : (w.contexts x).state = some s)
    (hstays : host.ActionsStay k x w) (actions : InBlocks actionPlace s.actions) :
    host.doActions k x w = host.doBlocks k x actions.blocks w := by
  unfold doActions doBlocks
  rw [context_bind, hs]
  rcases hentered : (enterRecursion w : Outcome (QuestWorld σ) QuestError QuestFault Unit) with
    ⟨u, w'⟩ | ⟨e, w'⟩ | f
  · have hlist : host.doActionList k x s.actions false w' =
        runBlocks (host.holds x) (host.execute k x) actions.blocks false w' := by
      rw [doActionList_eq_runList, runList_of_stays (hstays s hs w' hentered), ← runList_items,
        actions.items_eq]
    have hguarded :
        Exec.onRaise (host.doActionList k x s.actions false) QuestWorld.leaveRecursion w' =
          Exec.onRaise (runBlocks (host.holds x) (host.execute k x) actions.blocks false)
            QuestWorld.leaveRecursion w' := by
      unfold Exec.onRaise Exec.tryCatch
      rw [hlist]
    refine (bind_of_done hentered).trans (Eq.trans ?_ (bind_of_done hentered).symm)
    change Exec.bind _ _ w' = Exec.bind _ _ w'
    rw [Exec.bind, Exec.bind, hguarded]
  · exact (bind_of_raised hentered).trans (bind_of_raised hentered).symm
  · exact (bind_of_fault hentered).trans (bind_of_fault hentered).symm

/-! ## Actions without a transition -/

/-- The actions that report whether the quest is in another state. -/
def transitions : List String :=
  ["setstate", "reset", "resetdaily", "end", "resetquest", "setqueststate"]

theorem eq_of_bind_pure {α : Type} {m : QuestExec σ α} {b changed : Bool} {w' : QuestWorld σ}
    (h : (m >>= fun _ => pure b) w = .done changed w') : changed = b := by
  cases hm : m w with
  | done a w'' =>
      rw [bind_of_done hm] at h
      cases h
      rfl
  | raised e w'' =>
      rw [bind_of_raised hm] at h
      cases h
  | fault f =>
      rw [bind_of_fault hm] at h
      cases h

theorem eq_false_of_performAction {expr : Expression} (hfunction : expr.function ∉ transitions)
    {changed : Bool} {w' : QuestWorld σ} (h : host.performAction k x expr w = .done changed w') :
    changed = false := by
  have hne (f : String) (hf : f ∈ transitions) : expr.function ≠ f :=
    fun heq => hfunction (heq ▸ hf)
  have hperform : ∃ m : QuestExec σ Unit,
      host.performAction k x expr = (m >>= fun _ => pure false) := by
    unfold performAction
    split
    case h_5 => exact ⟨_, rfl⟩
    case h_8 => exact ⟨_, rfl⟩
    case h_9 => exact ⟨_, rfl⟩
    all_goals
      rename_i hf
      exact absurd hf (hne _ (by decide))
  obtain ⟨m, hm⟩ := hperform
  rw [hm] at h
  exact eq_of_bind_pure h

theorem eq_false_of_doAction {action : Action} (hfunction : action.expr.function ∉ transitions)
    {changed : Bool} {w' : QuestWorld σ} (h : host.doAction k x action w = .done changed w') :
    changed = false := by
  rw [doAction, context_bind] at h
  split_ifs at h with hdisabled
  · cases h
    rfl
  · exact eq_false_of_performAction hfunction h

theorem listStays_of_functions {actions : List Action}
    (h : ∀ action ∈ actions, action.expr.function ∉ transitions) (lastCond : Bool)
    (w : QuestWorld σ) : host.ListStays k x actions lastCond w := by
  induction actions generalizing lastCond w with
  | nil => trivial
  | cons action rest ih =>
      have hstays : ∀ lastCond w,
          host.ActionStays k x action w (host.ListStays k x rest lastCond) :=
        fun lastCond w changed w' hdone =>
          ⟨eq_false_of_doAction (h action List.mem_cons_self) hdone,
            ih (fun action ha => h action (List.mem_cons_of_mem _ ha)) lastCond w'⟩
      have hrest : ∀ lastCond w, host.ListStays k x rest lastCond w :=
        ih fun action ha => h action (List.mem_cons_of_mem _ ha)
      unfold ListStays
      split_ifs with hskip hcond
      · exact hrest lastCond w
      · intro holds w' hrule
        split_ifs
        · exact hstays _ w'
        · exact hrest _ w'
      · exact hstays lastCond w

/-- A state without such actions is not left by its actions. -/
theorem actionsStay_of_functions
    (h : ∀ s ∈ (w.contexts x).state, ∀ action ∈ s.actions, action.expr.function ∉ transitions) :
    host.ActionsStay k x w :=
  fun s hs w' _ => listStays_of_functions (h s hs) false w'

/-! ## Two hints -/

def hint (text : String) : Expression := ⟨"showhint", [.text text]⟩

/-- A state with one chain of two branches. -/
def choosingState : State where
  desc := ""
  rules := []
  actions := [⟨.condIf, ⟨"always", []⟩, hint "Hello"⟩, ⟨.condElse, ⟨"", []⟩, hint "Goodbye"⟩]
  goalRule := 0
  goalRule_lt := noRules_goal

theorem doActions_eq_doBlocks_choosing :
    ∃ valid, ∃ w : QuestWorld ℕ, w = .inBegin ⟨1, .single choosingState, valid⟩ ∧
      countingHost.doActions (countingHost.calls 9) 0 w =
        countingHost.doBlocks (countingHost.calls 9) 0
          (InBlocks.of actionPlace choosingState.actions).blocks w := by
  refine ⟨by decide, _, rfl, ?_⟩
  have hstate : ∀ valid, ((QuestWorld.inBegin ⟨1, .single choosingState, valid⟩).contexts 0).state =
      some choosingState := by
    decide
  apply doActions_eq_doBlocks (hstate _)
  apply actionsStay_of_functions
  intro s hs action haction
  rw [hstate] at hs
  cases hs
  revert action
  decide

end QuestHost

end ArenaServ
