import ArenaServ.QuestCut
import ArenaServ.QuestRestore

/-!
# Resets of other quests

The action `resetquest` does to a quest it names what `reset` does to its own, but it looks for the
daily count of the wrong quest, and does the one where the other is due.
-/

namespace ArenaServ

open EOPlus Exec QuestExec

variable {σ : Type}

/-- What a character has of a quest. -/
def QuestWorld.questOf (w : QuestWorld σ) (character : ℕ) (id : Int16) : Option QuestContext :=
  (w.getQuest character id).map w.contexts

/-- What a character has of a quest behind an action, if the interpreter comes back from it. -/
def leftBy {α : Type} (o : Outcome (QuestWorld σ) QuestError QuestFault α) (character : ℕ)
    (id : Int16) : Option (Option QuestContext) := o.state?.map fun w => w.questOf character id

/-- Whether a quest has a daily count. -/
def QuestContext.hasDaily (c : QuestContext) : Bool := (c.progress.find? "c").isSome

/-- The character of a context has another quest, or the same, whose context this is. -/
structure QuestWorld.Has (w : QuestWorld σ) (x : ℕ) (id : Int16) (y : ℕ) : Prop where
  getQuest_eq : w.getQuest (w.contexts x).character id = some y
  character_eq : (w.contexts y).character = (w.contexts x).character
  id_eq : (w.contexts y).quest.id = id

theorem state_bind_pure {ε φ α β : Type} (m : Exec σ ε φ α) (f : α → β) (s : σ) :
    ((m >>= fun a => pure (f a)) s).state? = (m s).state? := by
  cases hm : m s with
  | done a s' =>
      rw [bind_of_done hm]
      rfl
  | raised e s' =>
      have hraised : (m >>= fun a => (pure (f a) : Exec σ ε φ β)) s = .raised e s' :=
        bind_of_raised hm
      rw [hraised]
      rfl
  | fault g =>
      have hfault : (m >>= fun a => (pure (f a) : Exec σ ε φ β)) s = .fault g := bind_of_fault hm
      rw [hfault]
      rfl

namespace QuestHost

variable {host : QuestHost σ} {k : Calls σ} {w : QuestWorld σ} {x y : ℕ} {id : Int16}
  {value : Variant}

theorem state_resetquest (hvalue : value.toInt.toInt16 = id) (h : w.Has x id y) :
    (host.performAction k x ⟨"resetquest", [value]⟩ w).state? =
      (resetOther k (w.contexts x) id (some y) w).state? := by
  have haction : host.performAction k x ⟨"resetquest", [value]⟩ w =
      (resetOther k (w.contexts x) value.toInt.toInt16
        (w.getQuest (w.contexts x).character value.toInt.toInt16) >>= fun _ =>
          pure (decide (value.toInt.toInt16 = (w.contexts x).quest.id))) w := rfl
  rw [haction, hvalue, h.getQuest_eq]
  exact state_bind_pure _ (fun _ => decide (id = (w.contexts x).quest.id)) w

theorem state_reset :
    (host.performAction k y ⟨"reset", []⟩ w).state? = (resetThis k y w).state? :=
  state_bind_pure (resetThis k y) (fun _ => true) w

theorem resetOther_eq (this : QuestContext) (w : QuestWorld σ) :
    resetOther k this id (some y) w =
      if this.hasDaily then .done () (w.setQuest this.character id none)
      else k.setState y "done" w := by
  rw [resetOther, QuestContext.hasDaily]
  cases this.progress.find? "c" <;> rfl

theorem resetThis_eq (w : QuestWorld σ) :
    resetThis k y w =
      if (w.contexts y).hasDaily then k.setState y "done" w
      else .done () (w.setQuest (w.contexts y).character (w.contexts y).quest.id none) := by
  change (if ((w.contexts y).progress.find? "c").isNone then _ else _ : QuestExec σ Unit) w = _
  rw [QuestContext.hasDaily]
  cases (w.contexts y).progress.find? "c" <;> rfl

/-! ## What is left -/

theorem questOf_setQuest (w : QuestWorld σ) (character : ℕ) (id : Int16) :
    (w.setQuest character id none).questOf character id = none := by
  simp [QuestWorld.questOf, QuestWorld.getQuest, QuestWorld.setQuest, QuestWorld.putLog,
    SortedMap.find?_insert]

/-- Where there are no actions to be done in the state `done`, it is entered and that is all. -/
theorem setState_done {fuel : ℕ}
    (h : (w.contexts y).quest.quest.states.find? "done" = none) :
    (host.calls (fuel + 1)).setState y "done" w =
      .done () (w.putContext y ((w.contexts y).setName "done")) := by
  have hlower : Util.lowercase "done" = "done" := by decide +kernel
  have henter : QuestContext.enterState "done" (w.contexts y) = _ :=
    QuestContext.enterState_of_find?_eq_none (by rw [hlower, h])
  rw [hlower, if_pos (Or.inr rfl)] at henter
  have hentered : (onContext y (QuestContext.enterState "done") : QuestExec σ Bool) w =
      .done false (w.putContext y ((w.contexts y).setName "done")) := by
    rw [onContext, henter]
  exact (bind_of_done hentered).trans rfl

/-- The quest has entered the state `done`, or the stack was used up. -/
theorem leftBy_setState_done {fuel : ℕ} {character : ℕ} (hquest : w.getQuest character id = some y)
    (h : (w.contexts y).quest.quest.states.find? "done" = none) :
    leftBy ((host.calls fuel).setState y "done" w) character id ≠ some none := by
  cases fuel with
  | zero =>
      intro heq
      cases heq
  | succ fuel =>
      have hsame : (w.putContext y ((w.contexts y).setName "done")).getQuest character id =
          some y := hquest
      rw [setState_done h]
      change some (Option.map _ _) ≠ some none
      rw [hsame]
      intro heq
      cases heq

/-- The action `resetquest` leaves of the quest it names what `reset` leaves of its own. -/
def ResetsAlike (host : QuestHost σ) (fuel : ℕ) (w : QuestWorld σ) (x y : ℕ) (value : Variant) :
    Prop :=
  leftBy (host.performAction (host.calls fuel) x ⟨"resetquest", [value]⟩ w)
      (w.contexts x).character value.toInt.toInt16 =
    leftBy (host.performAction (host.calls fuel) y ⟨"reset", []⟩ w)
      (w.contexts x).character value.toInt.toInt16

theorem resetsAlike_iff_state {fuel : ℕ} (h : w.Has x value.toInt.toInt16 y) :
    host.ResetsAlike fuel w x y value ↔
      leftBy (if (w.contexts x).hasDaily then
          .done () (w.setQuest (w.contexts x).character value.toInt.toInt16 none)
        else (host.calls fuel).setState y "done" w)
          (w.contexts x).character value.toInt.toInt16 =
      leftBy (if (w.contexts y).hasDaily then (host.calls fuel).setState y "done" w
        else .done () (w.setQuest (w.contexts x).character value.toInt.toInt16 none))
          (w.contexts x).character value.toInt.toInt16 := by
  unfold ResetsAlike leftBy
  rw [state_resetquest rfl h, state_reset, resetOther_eq, resetThis_eq, h.character_eq, h.id_eq]

/-- Another quest is reset as by itself if exactly one of the two has a daily count, and, unless its
state `done` has actions of its own, only then. -/
theorem resetsAlike_iff (host : QuestHost σ) (fuel : ℕ) (h : w.Has x value.toInt.toInt16 y) :
    ((w.contexts x).hasDaily ≠ (w.contexts y).hasDaily → host.ResetsAlike fuel w x y value) ∧
      ((w.contexts y).quest.quest.states.find? "done" = none →
        host.ResetsAlike fuel w x y value →
          (w.contexts x).hasDaily ≠ (w.contexts y).hasDaily) := by
  rw [resetsAlike_iff_state h]
  constructor
  · intro hne
    cases hx : (w.contexts x).hasDaily with
    | true =>
        have hy : (w.contexts y).hasDaily = false := by
          rw [hx] at hne
          exact Bool.eq_false_iff.2 (Ne.symm hne)
        rw [hy, if_pos rfl, if_neg Bool.false_ne_true]
    | false =>
        have hy : (w.contexts y).hasDaily = true := by
          rw [hx] at hne
          exact Bool.eq_true_of_not_eq_false (Ne.symm hne)
        rw [hy, if_pos rfl, if_neg Bool.false_ne_true]
  · intro hdone hsame heq
    have hremoved : leftBy (Outcome.done (ε := QuestError) (φ := QuestFault) ()
        (w.setQuest (w.contexts x).character value.toInt.toInt16 none)) (w.contexts x).character
          value.toInt.toInt16 = some none := congrArg some (questOf_setQuest _ _ _)
    have hstays : leftBy ((host.calls fuel).setState y "done" w) (w.contexts x).character
        value.toInt.toInt16 ≠ some none := leftBy_setState_done h.getQuest_eq hdone
    rw [heq] at hsame
    cases hy : (w.contexts y).hasDaily with
    | true =>
        rw [hy, if_pos rfl, if_pos rfl, hremoved] at hsame
        exact hstays hsame.symm
    | false =>
        rw [hy, if_neg Bool.false_ne_true, if_neg Bool.false_ne_true, hremoved] at hsame
        exact hstays hsame

/-! ## Two quests of one character -/

def numberedQuest (id : Int16) : ArenaServ.Quest :=
  ⟨id, ⟨⟨.notHidden, false⟩, SortedMap.empty⟩, validateQuest_stateless⟩

/-- A character with two quests, whose counters have been changed like this. -/
def twoQuests (first second : QuestContext → QuestContext) : QuestWorld Unit where
  table := .single (numberedQuest 1)
  characters := [0]
  log _ := ⟨(SortedMap.empty.insert 1 (some 0)).insert 2 (some 1), SortedMap.empty⟩
  contexts x :=
    if x = 0 then first (.new 0 (numberedQuest 1)) else second (.new 0 (numberedQuest 2))
  contextCount := 2
  recursiveDepth := 0
  rest := ()

theorem resetsAlike_iff_counted :
    let w := twoQuests (·.countUp .c) (·)
    ((w.contexts 0).hasDaily ≠ (w.contexts 1).hasDaily →
        idleHost.ResetsAlike 2 w 0 1 (.int 2)) ∧
      ((w.contexts 1).quest.quest.states.find? "done" = none →
        idleHost.ResetsAlike 2 w 0 1 (.int 2) →
          (w.contexts 0).hasDaily ≠ (w.contexts 1).hasDaily) :=
  resetsAlike_iff idleHost 2 ⟨rfl, rfl, rfl⟩

/-- Without daily counts, the other quest is done and not removed. -/
theorem not_resetsAlike_uncounted : ¬idleHost.ResetsAlike 2 (twoQuests (·) (·)) 0 1 (.int 2) := by
  have hhas : (twoQuests (·) (·)).Has 0 (Variant.int 2).toInt.toInt16 1 := ⟨rfl, rfl, rfl⟩
  have hstays : leftBy ((idleHost.calls 2).setState 1 "done" (twoQuests (·) (·))) 0 2 ≠ some none :=
    leftBy_setState_done hhas.getQuest_eq rfl
  rw [resetsAlike_iff_state hhas]
  exact hstays

end QuestHost

end ArenaServ
