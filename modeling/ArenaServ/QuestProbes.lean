import ArenaServ.CountedExec
import ArenaServ.QuestPlay

/-!
# The quest interpreter with probes

The interpreter once more, with probes where an action of a state's list has changed the
state and where a number of frames of `DoActions` and `CheckRules` is being executed. Without
probes it is the interpreter; one set of probes stops at the first such action, another one
watches that the recursive depth is the number of frames.
-/

namespace ArenaServ

open EOPlus Exec QuestExec

variable {σ : Type}

structure Probes (σ : Type) where
  changed : QuestExec σ Unit
  frames : ℕ → QuestExec σ Unit

namespace Probes

def none : Probes σ := ⟨Exec.modify QuestWorld.leaveRecursion, fun _ => pure ()⟩

def stopping (stop : QuestFault) : Probes σ := ⟨Exec.fault stop, fun _ => pure ()⟩

def watching (stop : QuestFault) : Probes σ where
  changed := Exec.modify QuestWorld.leaveRecursion
  frames n := do
    let w ← Exec.get
    if w.recursiveDepth = n then pure () else Exec.fault stop

end Probes

namespace QuestHost

variable (host : QuestHost σ) (p : Probes σ) (k : Calls σ) (ks : ℕ → Calls σ)

def doStateActionProbed (n x : ℕ) (action : Action) : QuestExec σ Unit := do
  p.frames n
  let changed ← host.doAction k x action
  Exec.onlyIf changed p.changed

def checkRuleProbed (n x : ℕ) (expr : Expression) : QuestExec σ Bool := do
  p.frames n
  host.checkRule x expr

def doActionListProbed (n x : ℕ) : List Action → Bool → QuestExec σ Unit
  | [], _ => pure ()
  | action :: rest, lastCond =>
      if (action.cond = .condElseIf ∨ action.cond = .condElse) ∧ lastCond = true then
        doActionListProbed n x rest lastCond
      else if action.cond = .condIf ∨ action.cond = .condElseIf then do
        let holds ← host.checkRuleProbed p n x action.condExpr
        Exec.onlyIf holds (host.doStateActionProbed p k n x action)
        doActionListProbed n x rest holds
      else do
        host.doStateActionProbed p k n x action
        doActionListProbed n x rest lastCond

/-- The rules of a state, which are one frame more. -/
def checkRulesProbed (n x : ℕ) : QuestExec σ Bool := do
  p.frames n
  let this ← context x
  match this.state with
  | none => noState this
  | some s => do
      enterRecursion
      Exec.leaving QuestWorld.leaveRecursion
        (Exec.findM? s.rules fun rule => do
          if ← host.checkRuleProbed p (n + 1) x rule.expr then do
            p.frames (n + 1)
            host.doAction (ks (n + 1)) x rule.action
          else pure false)
        fun found => return found.isSome

def doActionsProbed (n x : ℕ) : QuestExec σ Unit := do
  p.frames n
  let this ← context x
  match this.state with
  | none => do
      let _ ← noState this
  | some s => do
      enterRecursion
      Exec.leaving QuestWorld.leaveRecursion
        (host.doActionListProbed p (ks (n + 1)) (n + 1) x s.actions false)
        fun _ => do
          let _ ← host.checkRulesProbed p ks n x

def setStateProbed (n x : ℕ) (state : String) : QuestExec σ Unit := do
  let entered ← onContext x (QuestContext.enterState state)
  Exec.onlyIf entered (host.doActionsProbed p ks n x)

def checkQuestRulesProbed (n character : ℕ) : QuestExec σ Unit :=
  forQuests character (fun x => do let _ ← host.checkRulesProbed p ks n x) (2 ^ 16) none

/-- The interpreter with a stack for that many nested calls, where so many frames are being
executed. -/
def callsProbed : ℕ → ℕ → Calls σ
  | 0, _ => ⟨fun _ _ => Exec.fault .outOfFuel, fun _ => Exec.fault .outOfFuel⟩
  | fuel + 1, n =>
      ⟨host.setStateProbed p (callsProbed fuel) n, host.checkQuestRulesProbed p (callsProbed fuel) n⟩

end QuestHost

/-! ## Without probes -/

namespace QuestHost

variable {host : QuestHost σ} {k : Calls σ} {ks : ℕ → Calls σ}

theorem doActionListProbed_none (n x : ℕ) (actions : List Action) (lastCond : Bool) :
    host.doActionListProbed .none k n x actions lastCond =
      host.doActionList k x actions lastCond := by
  induction actions generalizing lastCond with
  | nil => rfl
  | cons action rest ih =>
      unfold doActionListProbed doActionList
      simp only [ih]
      rfl

theorem checkRulesProbed_none (hks : ∀ n, ks n = k) (n x : ℕ) :
    host.checkRulesProbed .none ks n x = host.checkRules k x := by
  unfold checkRulesProbed
  rw [hks]
  rfl

theorem doActionsProbed_none (hks : ∀ n, ks n = k) (n x : ℕ) :
    host.doActionsProbed .none ks n x = host.doActions k x := by
  unfold doActionsProbed
  simp only [checkRulesProbed_none hks, doActionListProbed_none, hks]
  rfl

theorem setStateProbed_none (host : QuestHost σ) (hks : ∀ n, ks n = k) (n x : ℕ) (state : String) :
    host.setStateProbed .none ks n x state = host.setState k x state := by
  unfold setStateProbed
  rw [doActionsProbed_none hks]
  rfl

theorem checkQuestRulesProbed_none (host : QuestHost σ) (hks : ∀ n, ks n = k) (n c : ℕ) :
    host.checkQuestRulesProbed .none ks n c = host.checkQuestRules k c := by
  unfold checkQuestRulesProbed
  simp only [checkRulesProbed_none hks]
  rfl

theorem callsProbed_none (fuel n : ℕ) : host.callsProbed .none fuel n = host.calls fuel := by
  induction fuel generalizing n with
  | zero => rfl
  | succ fuel ih =>
      have hset := funext fun x => funext fun state =>
        setStateProbed_none host ih n x state
      have hcheck := funext fun c => checkQuestRulesProbed_none host ih n c
      exact congrArg₂ Calls.mk hset hcheck

end QuestHost

end ArenaServ
