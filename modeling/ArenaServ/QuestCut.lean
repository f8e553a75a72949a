import ArenaServ.QuestDepth

/-!
# Actions after a transition

`DoActions` as it would be if a transition ended the list: the actions up to and including
the first one that changes the state, and no rules but those of the new state. The interpreter
does this exactly as long as no action of the list changes the state.
-/

namespace ArenaServ

open EOPlus Exec QuestExec

variable {σ : Type}

namespace QuestHost

variable (host : QuestHost σ) (k : Calls σ)

/-- The action does not change the state, and what holds where it leads to. -/
def ActionStays (x : ℕ) (action : Action) (w : QuestWorld σ) (next : QuestWorld σ → Prop) : Prop :=
  ∀ changed w', host.doAction k x action w = .done changed w' → changed = false ∧ next w'

/-- No action of the list that is executed changes the state. -/
def ListStays (x : ℕ) : List Action → Bool → QuestWorld σ → Prop
  | [], _, _ => True
  | action :: rest, lastCond, w =>
      if (action.cond = .condElseIf ∨ action.cond = .condElse) ∧ lastCond = true then
        ListStays x rest lastCond w
      else if action.cond = .condIf ∨ action.cond = .condElseIf then
        ∀ holds w', host.checkRule x action.condExpr w = .done holds w' →
          if holds then host.ActionStays k x action w' (ListStays x rest holds)
          else ListStays x rest holds w'
      else host.ActionStays k x action w (ListStays x rest lastCond)

/-- No action of the current state that is executed changes the state. -/
def ActionsStay (x : ℕ) (w : QuestWorld σ) : Prop :=
  ∀ s ∈ (w.contexts x).state, ∀ w', enterRecursion w = .done () w' →
    host.ListStays k x s.actions false w'

/-! ## The list -/

variable {host k} {fuel x : ℕ} {w : QuestWorld σ}

end QuestHost

/-- A world that counts what characters are asked to do. -/
def countingHost : QuestHost ℕ where
  time _ := 0
  rand rest low _ := (low, rest)
  view _ _ := ⟨0, 0, 0, fun _ => 0, fun _ => false, fun _ => 0, 0, 0, 0, [], "", fun _ => .ok false⟩
  call rest _ _ := .done (rest + 1)
  rpnParse _ := []

/-- A character in the first state of a quest. -/
def QuestWorld.inBegin (quest : Quest) : QuestWorld ℕ :=
  (QuestWorld.start (.single quest) 0).putContext 0 ((QuestContext.new 3 quest).select "begin")

end ArenaServ
