import ArenaServ.QuestDepth
import ArenaServ.QuestRestore

/-!
# States that are not there

`SetState` takes over the name of a state before it looks the state up. Where there is none, it
throws, and the context keeps the name.
-/

namespace ArenaServ

open EOPlus Exec QuestExec

variable {σ : Type}

namespace QuestContext

structure SameState (c c' : QuestContext) : Prop where
  state_eq : c'.state = c.state
  stateName_eq : c'.stateName = c.stateName
  finished_eq : c'.finished = c.finished

theorem SameState.refl (c : QuestContext) : c.SameState c := ⟨rfl, rfl, rfl⟩

variable {c : QuestContext} {state : String}

theorem sameState_setName_iff (h : ¬c.quest.HasState (Util.lowercase state)) :
    c.SameState (c.setName state) ↔ Util.lowercase state = c.stateName := by
  have hend : ¬(Util.lowercase state = "end" ∨ Util.lowercase state = "done") :=
    fun hend => h (Or.inr hend)
  rw [setName, if_neg hend]
  exact ⟨fun hsame => hsame.stateName_eq, fun hname => ⟨rfl, hname, rfl⟩⟩

def unknownState (state : String) : QuestError :=
  .runtimeError ("Unknown quest state: " ++ Util.lowercase state)

theorem enterState_missing (h : ¬c.quest.HasState (Util.lowercase state)) :
    enterState state c = .raised (unknownState state) (c.setName state) := by
  unfold Quest.HasState at h
  rw [not_or, Bool.not_eq_true, Option.isSome_eq_false_iff, Option.isNone_iff_eq_none] at h
  rw [enterState_of_find?_eq_none h.1, if_neg h.2]
  rfl

end QuestContext

open QuestContext

namespace QuestWorld

variable {w : QuestWorld σ} {x : ℕ}

theorem getQuest_setQuest (character : ℕ) (id : Int16) (y : Option ℕ) :
    (w.setQuest character id y).getQuest character id = y := by
  simp [getQuest, setQuest, putLog, SortedMap.find?_insert]

/-- Every quest is in the state it was in, and every character has the quests it had. -/
structure Unharmed (w w' : QuestWorld σ) : Prop where
  log_eq : w'.log = w.log
  sameState : ∀ x, (w.contexts x).SameState (w'.contexts x)

theorem unharmed_putContext_iff {c : QuestContext} :
    w.Unharmed (w.putContext x c) ↔ (w.contexts x).SameState c := by
  constructor
  · intro h
    have hx := h.sameState x
    rw [contexts_putContext] at hx
    exact hx
  · intro h
    refine ⟨rfl, fun y => ?_⟩
    by_cases hy : y = x
    · rw [hy, contexts_putContext]
      exact h
    · rw [contexts_putContext_of_ne w c hy]
      exact SameState.refl _

end QuestWorld

namespace QuestHost

variable {host : QuestHost σ} {w : QuestWorld σ} {fuel x : ℕ}

/-- The call throws for want of the state, and leaves the world as it was exactly if `P` holds. -/
def FailsUnharmed {α : Type} (w : QuestWorld σ) (m : QuestExec σ α) (state : String) (P : Prop) :
    Prop :=
  ∃ w', m w = .raised (unknownState state) w' ∧ (w.Unharmed w' ↔ P)

theorem setState_missing {state : String} (k : Calls σ)
    (h : ¬(w.contexts x).quest.HasState (Util.lowercase state)) :
    host.setState k x state w =
      .raised (unknownState state) (w.putContext x ((w.contexts x).setName state)) := by
  apply bind_of_raised
  rw [onContext, enterState_missing h]

theorem failsUnharmed_setState {state : String}
    (h : ¬(w.contexts x).quest.HasState (Util.lowercase state)) :
    FailsUnharmed w ((host.calls (fuel + 1)).setState x state) state
      (Util.lowercase state = (w.contexts x).stateName) := by
  refine ⟨_, setState_missing (host.calls fuel) h, ?_⟩
  rw [QuestWorld.unharmed_putContext_iff, sameState_setName_iff h]

theorem FailsUnharmed.bind {α β : Type} {m : QuestExec σ α} {f : α → QuestExec σ β}
    {state : String} {P : Prop} (h : FailsUnharmed w m state P) :
    FailsUnharmed w (m >>= f) state P := by
  obtain ⟨w', hm, hiff⟩ := h
  exact ⟨w', bind_of_raised hm, hiff⟩

/-! ## Actions -/

/-- The state that `startquest` names behind the number of the quest. -/
def startName (args : List Variant) : String := (args.head?.map Variant.toText).getD "begin"

theorem startState_eq (id : Variant) (args : List Variant) :
    (startState ⟨"startquest", id :: args⟩ : Exec (QuestWorld σ) QuestError QuestFault String) =
      pure (startName args) := by
  cases args <;> rfl

/-- A quest that the character has is started again where it is done. -/
theorem startQuest_done (k : Calls σ) {id : Variant} {args : List Variant} {y : ℕ}
    (hquest : w.getQuest (w.contexts x).character id.toInt.toInt16 = some y)
    (hdone : (w.contexts y).stateName = "done") :
    startQuest k x ⟨"startquest", id :: args⟩ w = k.setState y (startName args) w := by
  have hid : (arg ⟨"startquest", id :: args⟩ 0 : QuestExec σ Variant) = pure id := rfl
  have hget : (getQuest (w.contexts x).character id.toInt.toInt16 : QuestExec σ _) w =
      .done (some y) w := congrArg (fun q => Outcome.done q w) hquest
  rw [startQuest, hid, pure_bind, context_bind, bind_of_done hget]
  dsimp only
  rw [context_bind, if_pos hdone, startState_eq, pure_bind]

/-- A quest that the character does not have is one of its quests before its state is set. -/
theorem startQuest_new (k : Calls σ) {id : Variant} {args : List Variant} {quest : Quest}
    (hquest : w.getQuest (w.contexts x).character id.toInt.toInt16 = none)
    (hfind : w.table.quests.find? id.toInt.toInt16 = some quest) :
    startQuest k x ⟨"startquest", id :: args⟩ w =
      k.setState w.contextCount (startName args)
        ((w.newContext (.new (w.contexts x).character quest)).setQuest (w.contexts x).character
          id.toInt.toInt16 (some w.contextCount)) := by
  have hid : (arg ⟨"startquest", id :: args⟩ 0 : QuestExec σ Variant) = pure id := rfl
  have hget : (getQuest (w.contexts x).character id.toInt.toInt16 : QuestExec σ _) w =
      .done none w := congrArg (fun q => Outcome.done q w) hquest
  have hopen : (openQuest (w.contexts x).character id.toInt.toInt16 quest : QuestExec σ ℕ) w =
      .done w.contextCount ((w.newContext (.new (w.contexts x).character quest)).setQuest
        (w.contexts x).character id.toInt.toInt16 (some w.contextCount)) := rfl
  rw [startQuest, hid, pure_bind, context_bind, bind_of_done hget]
  dsimp only
  rw [get_bind, hfind]
  dsimp only
  rw [bind_of_done hopen, startState_eq, pure_bind]

theorem failsUnharmed_startQuest_done {id : Variant} {args : List Variant} {y : ℕ}
    (hquest : w.getQuest (w.contexts x).character id.toInt.toInt16 = some y)
    (hdone : (w.contexts y).stateName = "done")
    (hstate : ¬(w.contexts y).quest.HasState (Util.lowercase (startName args))) :
    FailsUnharmed w (startQuest (host.calls (fuel + 1)) x ⟨"startquest", id :: args⟩)
      (startName args) False := by
  have hset : FailsUnharmed w ((host.calls (fuel + 1)).setState y (startName args)) _ _ :=
    failsUnharmed_setState hstate
  obtain ⟨w', hset, hiff⟩ := hset
  refine ⟨w', (startQuest_done _ hquest hdone).trans hset, hiff.trans ?_⟩
  -- The state `done` is always there.
  apply iff_false_intro
  intro hname
  apply hstate
  rw [hname, hdone]
  exact Or.inr (Or.inr rfl)

/-- The character keeps the context of a quest that was not started. -/
theorem failsUnharmed_startQuest_new {id : Variant} {args : List Variant} {quest : Quest}
    (hquest : w.getQuest (w.contexts x).character id.toInt.toInt16 = none)
    (hfind : w.table.quests.find? id.toInt.toInt16 = some quest)
    (hstate : ¬quest.HasState (Util.lowercase (startName args))) :
    FailsUnharmed w (startQuest (host.calls (fuel + 1)) x ⟨"startquest", id :: args⟩)
      (startName args) False := by
  have hstart : startQuest (host.calls (fuel + 1)) x ⟨"startquest", id :: args⟩ w = _ :=
    startQuest_new _ hquest hfind
  generalize hopened : ((w.newContext (.new (w.contexts x).character quest)).setQuest
    (w.contexts x).character id.toInt.toInt16 (some w.contextCount)) = opened at hstart
  have hcontext : opened.contexts w.contextCount = .new (w.contexts x).character quest := by
    rw [← hopened]
    exact w.contexts_putContext _ _
  have hmissing : ¬(opened.contexts w.contextCount).quest.HasState
      (Util.lowercase (startName args)) := by
    rw [hcontext]
    exact hstate
  refine ⟨_, hstart.trans (setState_missing (host.calls fuel) hmissing), ?_⟩
  apply iff_false_intro
  intro hunharmed
  have hgot : opened.getQuest (w.contexts x).character id.toInt.toInt16 =
      w.getQuest (w.contexts x).character id.toInt.toInt16 :=
    congrArg (fun log : ℕ → QuestLog =>
      ((log (w.contexts x).character).quests.find? id.toInt.toInt16).join) hunharmed.log_eq
  rw [hquest, ← hopened, QuestWorld.getQuest_setQuest] at hgot
  cases hgot

theorem failsUnharmed_setQuestState {id state : Variant} {y : ℕ}
    (hquest : w.getQuest (w.contexts x).character id.toInt.toInt16 = some y)
    (hstate : ¬(w.contexts y).quest.HasState (Util.lowercase state.toText)) :
    FailsUnharmed w (setQuestState (host.calls (fuel + 1)) x ⟨"setqueststate", [id, state]⟩)
      state.toText (Util.lowercase state.toText = (w.contexts y).stateName) := by
  have hid : (arg ⟨"setqueststate", [id, state]⟩ 0 : QuestExec σ Variant) = pure id := rfl
  have hname : (arg ⟨"setqueststate", [id, state]⟩ 1 : QuestExec σ Variant) = pure state := rfl
  have hget : (getQuest (w.contexts x).character id.toInt.toInt16 : QuestExec σ _) w =
      .done (some y) w := congrArg (fun q => Outcome.done q w) hquest
  have hset : FailsUnharmed w ((host.calls (fuel + 1)).setState y state.toText) _ _ :=
    failsUnharmed_setState hstate
  obtain ⟨w', hset, hiff⟩ := hset
  refine ⟨w', ?_, hiff⟩
  rw [setQuestState, context_bind, hid, pure_bind, hname, pure_bind, bind_of_done hget]
  dsimp only
  exact bind_of_raised hset

/-- The quest whose state `startquest` sets, if it sets one. -/
def toStart (w : QuestWorld σ) (character : ℕ) (id : Int16) : Option Quest :=
  (w.getQuest character id).elim (w.table.quests.find? id) fun y =>
    if (w.contexts y).stateName = "done" then some (w.contexts y).quest else none

theorem failsUnharmed_startQuest {id : Variant} {args : List Variant} {quest : Quest}
    (hquest : toStart w (w.contexts x).character id.toInt.toInt16 = some quest)
    (hstate : ¬quest.HasState (Util.lowercase (startName args))) :
    FailsUnharmed w (startQuest (host.calls (fuel + 1)) x ⟨"startquest", id :: args⟩)
      (startName args) False := by
  cases hget : w.getQuest (w.contexts x).character id.toInt.toInt16 with
  | none =>
      rw [toStart, hget, Option.elim_none] at hquest
      exact failsUnharmed_startQuest_new hget hquest hstate
  | some y =>
      rw [toStart, hget, Option.elim_some] at hquest
      split_ifs at hquest with hdone
      cases hquest
      exact failsUnharmed_startQuest_done hget hdone hstate

/-- Where a state is not there, `SetState` throws and leaves the world as it was exactly if the
context had that name already. It is the same for `setqueststate`, but a `startquest` that fails so
always changes something. -/
theorem failsUnharmed_iff_named (host : QuestHost σ) (fuel : ℕ) (w : QuestWorld σ) (x : ℕ) :
    (∀ state, ¬(w.contexts x).quest.HasState (Util.lowercase state) →
      FailsUnharmed w ((host.calls (fuel + 1)).setState x state) state
        (Util.lowercase state = (w.contexts x).stateName)) ∧
    (∀ (id state : Variant) (y : ℕ),
      w.getQuest (w.contexts x).character id.toInt.toInt16 = some y →
      ¬(w.contexts y).quest.HasState (Util.lowercase state.toText) →
      FailsUnharmed w (host.performAction (host.calls (fuel + 1)) x ⟨"setqueststate", [id, state]⟩)
        state.toText (Util.lowercase state.toText = (w.contexts y).stateName)) ∧
    (∀ (id : Variant) (args : List Variant) (quest : Quest),
      toStart w (w.contexts x).character id.toInt.toInt16 = some quest →
      ¬quest.HasState (Util.lowercase (startName args)) →
      FailsUnharmed w (host.performAction (host.calls (fuel + 1)) x ⟨"startquest", id :: args⟩)
        (startName args) False) := by
  refine ⟨fun state => failsUnharmed_setState, ?_, ?_⟩
  · intro id state y hquest hstate
    exact failsUnharmed_setQuestState hquest hstate
  · intro id args quest hquest hstate
    exact (failsUnharmed_startQuest hquest hstate).bind

end QuestHost

def statelessQuest : ArenaServ.Quest :=
  ⟨1, ⟨⟨.notHidden, false⟩, SortedMap.empty⟩, validateQuest_stateless⟩

/-- A new context keeps the name of a state that its quest does not have. -/
theorem QuestHost.not_sameState_missing :
    let w := (QuestWorld.start (.single statelessQuest) ()).newContext (.new 3 statelessQuest)
    ∃ w', (idleHost.calls 1).setState 0 "nowhere" w = .raised (unknownState "nowhere") w' ∧
      ¬(w.contexts 0).SameState (w'.contexts 0) := by
  intro w
  have hcontext : w.contexts 0 = .new 3 statelessQuest :=
    (QuestWorld.start (.single statelessQuest) ()).contexts_putContext 0 _
  have hstate : ¬(w.contexts 0).quest.HasState (Util.lowercase "nowhere") := by
    rw [hcontext]
    decide +kernel
  refine ⟨_, setState_missing (idleHost.calls 0) hstate, ?_⟩
  rw [QuestWorld.contexts_putContext, sameState_setName_iff hstate, hcontext]
  decide +kernel

end ArenaServ
