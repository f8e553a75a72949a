import ArenaServ.QuestActions
import ArenaServ.QuestRestore
import ArenaServ.RunSteps

/-!
# Daily limits

A quest counts how often it was reset on a day. The day and the count are two counters: the
action `resetdaily` sets the one and raises the other, and the rule `donedaily` starts both again
when the day is another one. The count of an earlier day is raised as well where there was no
check before the first reset of the day.
-/

namespace ArenaServ

open EOPlus Exec QuestExec

namespace QuestContext

/-- `SetState` as far as the actions, whether or not there is such a state. -/
def afterState (state : String) (c : QuestContext) : QuestContext :=
  match enterState state c with
  | .done _ c' => c'
  | .raised _ c' => c'
  | .fault _ => c

/-- What the action `resetdaily` does before it changes the state. -/
def countReset (today : Int16) (c : QuestContext) : QuestContext :=
  (c.setProgress .d today).countUp .c

/-- The rule `donedaily`, with what it does to the counters. -/
def doneDaily (today : Int16) (times : Int32) (c : QuestContext) : Bool × QuestContext :=
  if (c.touchProgress .d).readProgress .d = today then
    (decide (times ≤ ((c.touchProgress .d).readProgress .c).toInt32),
      (c.touchProgress .d).touchProgress .c)
  else (false, ((c.touchProgress .d).setProgress .d today).setProgress .c 0)

/-- What is loaded of a quest that was saved, if its state is still there. -/
def reload (c : QuestContext) : Option QuestContext :=
  match enterState c.record.questState (new c.character c.quest) with
  | .done _ c' => some (c'.unserialize c.record.questProgress)
  | _ => none

end QuestContext

/-! ## The counters of the day -/

/-- The day and the count of a quest. -/
structure HasDaily (quest : Quest) (d count : Option Int16) (c : QuestContext) : Prop where
  quest_eq : c.quest = quest
  d_eq : c.progress.find? "d" = d
  count_eq : c.progress.find? "c" = count

namespace HasDaily
variable {quest : Quest} {d count : Option Int16} {c : QuestContext}

theorem setName (h : HasDaily quest d count c) (state : String) :
    HasDaily quest d count (c.setName state) := by
  unfold QuestContext.setName
  split_ifs
  · exact ⟨h.quest_eq, h.d_eq, h.count_eq⟩
  · exact ⟨h.quest_eq, h.d_eq, h.count_eq⟩

theorem clearState (h : HasDaily quest d count c) (desc : String) :
    HasDaily quest d count (c.clearState desc) := by
  refine ⟨h.quest_eq, ?_, ?_⟩
  · rw [QuestContext.progress_clearState, SortedMap.find?_filterKeys]
    exact h.d_eq
  · rw [QuestContext.progress_clearState, SortedMap.find?_filterKeys]
    exact h.count_eq

theorem finishes_beginState {stateId : String} {s : State}
    (hs : quest.quest.states.find? stateId = some s) :
    Finishes (HasDaily quest d count) (QuestContext.beginState s) := by
  apply ArenaServ.finishes_beginState
  · exact fun _ _ _ h => ⟨h.quest_eq, h.d_eq, h.count_eq⟩
  · exact fun _ h => h.clearState s.desc
  · exact quest.checked_of_find? hs

/-- No change of the state touches the day and the count. -/
theorem afterState (h : HasDaily quest d count c) (state : String) :
    HasDaily quest d count (c.afterState state) := by
  have hnamed := h.setName state
  unfold QuestContext.afterState
  cases hs : c.quest.quest.states.find? (Util.lowercase state) with
  | none =>
      rw [QuestContext.enterState_of_find?_eq_none hs]
      split_ifs
      · exact hnamed
      · exact hnamed
  | some s =>
      have hselected : HasDaily quest d count
          ((c.setName state).select (Util.lowercase state)) :=
        ⟨hnamed.quest_eq, hnamed.d_eq, hnamed.count_eq⟩
      obtain ⟨entered, c', hout, hc'⟩ :=
        ((finishes_beginState (h.quest_eq ▸ hs)).bind fun _ => finishes_pure true) _ hselected
      rw [QuestContext.enterState_of_find?_eq_some hs, hout]
      exact hc'

end HasDaily

namespace QuestContext
variable {quest : Quest} {d count : Option Int16} {c : QuestContext}

theorem progress_touchProgress (key : CounterKey) (c : QuestContext) (k : String) :
    (c.touchProgress key).progress.find? k =
      if k = key.val then some (c.readProgress key) else c.progress.find? k :=
  SortedMap.find?_insert _ _ _ _

theorem progress_setProgress (key : CounterKey) (value : Int16) (c : QuestContext) (k : String) :
    (c.setProgress key value).progress.find? k =
      if k = key.val then some value else c.progress.find? k :=
  SortedMap.find?_insert _ _ _ _

end QuestContext

namespace HasDaily
variable {quest : Quest} {d count : Option Int16} {c : QuestContext}

theorem readProgress_d (h : HasDaily quest d count c) : c.readProgress .d = d.getD 0 := by
  rw [← h.d_eq]
  rfl

theorem readProgress_c (h : HasDaily quest d count c) : c.readProgress .c = count.getD 0 := by
  rw [← h.count_eq]
  rfl

theorem setDay (h : HasDaily quest d count c) (value : Int16) :
    HasDaily quest (some value) count (c.setProgress .d value) := by
  refine ⟨h.quest_eq, ?_, ?_⟩
  · exact (QuestContext.progress_setProgress _ _ _ _).trans (if_pos rfl)
  · rw [QuestContext.progress_setProgress, if_neg (by decide)]
    exact h.count_eq

theorem setCount (h : HasDaily quest d count c) (value : Int16) :
    HasDaily quest d (some value) (c.setProgress .c value) := by
  refine ⟨h.quest_eq, ?_, ?_⟩
  · rw [QuestContext.progress_setProgress, if_neg (by decide)]
    exact h.d_eq
  · exact (QuestContext.progress_setProgress _ _ _ _).trans (if_pos rfl)

theorem countReset (h : HasDaily quest d count c) (today : Int16) :
    HasDaily quest (some today) (some (count.getD 0 + 1)) (c.countReset today) := by
  rw [← (h.setDay today).readProgress_c]
  exact (h.setDay today).setCount _

/-- A check answers with the count of its day, which is none where the day is another one. -/
theorem doneDaily (h : HasDaily quest d count c) (today : Int16) (times : Int32) :
    (c.doneDaily today times).1 =
        decide (d.getD 0 = today ∧ times ≤ (count.getD 0).toInt32) ∧
      HasDaily quest (some today) (some (if d.getD 0 = today then count.getD 0 else 0))
        (c.doneDaily today times).2 := by
  have htouched : HasDaily quest (some (d.getD 0)) count (c.touchProgress .d) := by
    rw [← h.readProgress_d]
    exact h.setDay _
  rw [QuestContext.doneDaily, htouched.readProgress_d, Option.getD_some, htouched.readProgress_c]
  by_cases hday : d.getD 0 = today
  · have hcount : HasDaily quest (some (d.getD 0)) (some (count.getD 0))
        ((c.touchProgress .d).touchProgress .c) := by
      rw [← htouched.readProgress_c]
      exact htouched.setCount _
    rw [hday] at hcount
    simp only [hday, if_true, true_and]
    exact hcount
  · rw [if_neg hday, if_neg hday]
    exact ⟨by simp [hday], (htouched.setDay today).setCount 0⟩

/-- Counters of a quest go through its text unless they are negative. -/
theorem reload (h : HasDaily quest d count c) (hd : 0 ≤ (d.getD 0).toInt)
    (hcount : 0 ≤ (count.getD 0).toInt) {c' : QuestContext} (hc' : c.reload = some c') :
    HasDaily quest d count c' := by
  have hread : ∀ {key : String} {value : Option Int16}, c.progress.find? key = value →
      0 ≤ (value.getD 0).toInt → c.record.questProgress.counters.find? key = value := by
    intro key value hkey hvalue
    have hcounters : c.record.questProgress.counters = c.progress.map ProgressScan.readBack := by
      have hscan := unserializeProgress_eq
        (fun e he => ⟨(c.progress_keys e he).1, (c.progress_keys e he).2.1⟩) []
      rw [List.append_nil] at hscan
      exact congrArg Prod.fst hscan
    rw [hcounters, SortedMap.find?_map, hkey]
    cases value with
    | none => rfl
    | some value => exact congrArg some (ProgressScan.readBack_of_nonneg hvalue)
  by_cases hstate : c.quest.HasState (Util.lowercase c.record.questState)
  · obtain ⟨entered, c₁, hout, hc₁⟩ := QuestContext.enterState_new c.character hstate
    have hresumed := QuestContext.resumed_unserialize hc₁
    rw [QuestContext.reload, hout, Option.some.injEq] at hc'
    subst hc'
    refine ⟨hresumed.quest_eq.trans h.quest_eq, ?_, ?_⟩
    · rw [hresumed.progress_eq]
      exact hread h.d_eq hd
    · rw [hresumed.progress_eq]
      exact hread h.count_eq hcount
  · obtain ⟨what, hout⟩ := QuestContext.enterState_of_not_hasState
      (c := QuestContext.new c.character c.quest) hstate
    rw [QuestContext.reload, hout] at hc'
    cases hc'

end HasDaily

/-! ## Days and resets -/

/-- `quest_day` of a day since the epoch. -/
def dayNumber (day : ℕ) : Int16 := Int16.ofNat (day % 2 ^ 15)

/-- A quest of a character, the day it is, and the days of the resets so far. -/
structure DailyQuest where
  context : QuestContext
  day : ℕ
  resets : List ℕ

inductive DailyEvent where
  | dayPasses
  | resetDaily
  | doneDaily (times : Int32)
  | setState (state : String)
  | saveAndLoad

namespace DailyQuest

def start (character : ℕ) (quest : Quest) (day : ℕ) : DailyQuest :=
  ⟨.new character quest, day, []⟩

/-- `donedaily`. No rule of a disabled quest holds. -/
def check (w : DailyQuest) (times : Int32) : Bool × QuestContext :=
  if w.context.quest.disabled then (false, w.context)
  else w.context.doneDaily (dayNumber w.day) times

/-- `resetdaily`, which leads to the state `done`. -/
def reset (w : DailyQuest) : DailyQuest where
  context := (w.context.countReset (dayNumber w.day)).afterState "done"
  day := w.day
  resets := w.day :: w.resets

/-- An event, unless the quest cannot be loaded. Nothing is done by actions of a disabled quest. -/
def step (w : DailyQuest) : DailyEvent → Option DailyQuest
  | .dayPasses => some { w with day := w.day + 1 }
  | .resetDaily =>
      if w.context.quest.disabled then some w
      else some w.reset
  | .doneDaily times => some { w with context := (w.check times).2 }
  | .setState state => some { w with context := w.context.afterState state }
  | .saveAndLoad => w.context.reload.map fun c => { w with context := c }

/-- How often the quest was reset today. -/
def today (w : DailyQuest) : ℕ := w.resets.count w.day

/-- The check answers whether there have been so many resets today. -/
def Right (w : DailyQuest) (times : Int32) : Prop :=
  (w.check times).1 = true ↔ times.toInt ≤ w.today

/-- The counters are those of the day, or the check asks for a reset at least. -/
def Askable (w : DailyQuest) (times : Int32) : Prop :=
  1 ≤ times.toInt ∨
    w.context.quest.disabled = false ∧ w.context.readProgress .d = dayNumber w.day

/-- A reset does not raise the count of another day, nor one that is as large as it can be. A day
does not begin with the number of the day that has been counted. -/
def Regular (w : DailyQuest) : DailyEvent → Prop
  | .dayPasses => w.context.progress.find? "d" = some (dayNumber (w.day + 1)) →
      w.context.readProgress .c = 0
  | .resetDaily => w.context.quest.disabled = false →
      (w.context.readProgress .d = dayNumber w.day ∨ w.context.readProgress .c = 0) ∧
        w.context.readProgress .c ≠ 32767
  | _ => True

/-- The counters say how often the quest was reset on the last day it was reset or checked. -/
structure Counted (w : DailyQuest) (day : ℕ) : Prop where
  day_le : day ≤ w.day
  resets_le : ∀ r ∈ w.resets, r ≤ day
  daily : ∃ count : Int16, HasDaily w.context.quest (some (dayNumber day)) (some count) w.context ∧
    count.toInt = w.resets.count day
  day_eq : dayNumber day = dayNumber w.day → day = w.day

/-- The quest was not checked or reset yet, or its counters are those of some day. -/
def Sound (w : DailyQuest) : Prop :=
  (w.context.quest.disabled = true → w.resets = []) ∧
    (HasDaily w.context.quest none none w.context ∧ w.resets = [] ∨ ∃ day, w.Counted day)

/-! ## What the counters say -/

theorem toInt_add_one (v : Int16) :
    (v + 1).toInt = if v.toInt = 32767 then -32768 else v.toInt + 1 := by
  have hlow := v.le_toInt
  have hhigh := v.toInt_lt
  have hone : (1 : Int16).toInt = 1 := rfl
  rw [Int16.toInt_add, hone, Int.bmod_def]
  split_ifs <;> omega

theorem dayNumber_nonneg (day : ℕ) : 0 ≤ (dayNumber day).toInt := by
  have hlt := Nat.mod_lt day (show 0 < 2 ^ 15 by decide)
  rw [dayNumber, Int16.toInt_ofNat_of_lt hlt]
  exact Int.natCast_nonneg _

variable {w w' : DailyQuest} {times : Int32}

theorem count_eq_zero {day : ℕ} (h : ∀ r ∈ w.resets, r ≤ day) {later : ℕ} (hday : day < later) :
    w.resets.count later = 0 := by
  apply List.count_eq_zero_of_not_mem
  intro hmem
  have hle := h later hmem
  omega

/-- Where the day is the one counted, so are the resets, and there are none otherwise. -/
theorem Sound.today_eq (h : w.Sound) :
    (w.context.readProgress .d = dayNumber w.day →
      (w.context.readProgress .c).toInt = w.today) ∧
    (w.context.readProgress .d ≠ dayNumber w.day → w.today = 0) := by
  rcases h.2 with ⟨hdaily, hresets⟩ | ⟨day, hcounted⟩
  · have hzero : w.today = 0 := by rw [today, hresets, List.count_nil]
    rw [hdaily.readProgress_c, hzero]
    exact ⟨fun _ => rfl, fun _ => rfl⟩
  · obtain ⟨count, hdaily, hcount⟩ := hcounted.daily
    rw [hdaily.readProgress_d, hdaily.readProgress_c, Option.getD_some, Option.getD_some]
    constructor
    · intro hd
      rw [hcount, today, hcounted.day_eq hd]
    · intro hd
      have hne : day ≠ w.day := fun heq => hd (by rw [heq])
      exact count_eq_zero hcounted.resets_le (lt_of_le_of_ne hcounted.day_le hne)

theorem check_iff (henabled : w.context.quest.disabled = false) :
    (w.check times).1 = true ↔ w.context.readProgress .d = dayNumber w.day ∧
      times.toInt ≤ (w.context.readProgress .c).toInt := by
  have hdaily : HasDaily w.context.quest (w.context.progress.find? "d")
      (w.context.progress.find? "c") w.context := ⟨rfl, rfl, rfl⟩
  rw [check, henabled, if_neg Bool.false_ne_true, (hdaily.doneDaily _ _).1, decide_eq_true_eq,
    Int32.le_iff_toInt_le, Int16.toInt_toInt32]
  rfl

theorem right_iff_askable (h : w.Sound) : w.Right times ↔ w.Askable times := by
  obtain ⟨hsame, hother⟩ := h.today_eq
  unfold Right Askable
  cases hdisabled : w.context.quest.disabled with
  | true =>
      have hzero : w.today = 0 := by rw [today, h.1 hdisabled, List.count_nil]
      rw [check, hdisabled, hzero]
      simp
      omega
  | false =>
      rw [check_iff hdisabled]
      by_cases hd : w.context.readProgress .d = dayNumber w.day
      · rw [hsame hd]
        simp [hd]
      · rw [hother hd]
        simp [hd]
        omega

/-! ## What an event does to them -/

/-- The count of today has been set. -/
theorem counted_today {c : QuestContext} {resets : List ℕ} {count : Int16}
    (hresets : ∀ r ∈ resets, r ≤ w.day)
    (hdaily : HasDaily c.quest (some (dayNumber w.day)) (some count) c)
    (hcount : count.toInt = resets.count w.day) : Counted ⟨c, w.day, resets⟩ w.day :=
  ⟨le_rfl, hresets, ⟨count, hdaily, hcount⟩, fun _ => rfl⟩

theorem Sound.resets_le (h : w.Sound) : ∀ r ∈ w.resets, r ≤ w.day := by
  intro r hr
  rcases h.2 with ⟨-, hresets⟩ | ⟨day, hcounted⟩
  · rw [hresets] at hr
    cases hr
  · exact (hcounted.resets_le r hr).trans hcounted.day_le

/-- What leaves the two counters leaves what they say. -/
theorem Sound.of_daily (h : w.Sound) {c : QuestContext}
    (hc : ∀ d count, HasDaily w.context.quest d count w.context → 0 ≤ (d.getD 0).toInt →
      0 ≤ (count.getD 0).toInt → HasDaily w.context.quest d count c) :
    Sound { w with context := c } := by
  obtain ⟨hdisabled, ⟨hdaily, hresets⟩ | ⟨day, hcounted⟩⟩ := h
  · have hnew := hc none none hdaily le_rfl le_rfl
    refine ⟨fun _ => hresets, Or.inl ⟨?_, hresets⟩⟩
    exact ⟨rfl, hnew.d_eq, hnew.count_eq⟩
  · obtain ⟨count, hdaily, hcount⟩ := hcounted.daily
    have hnew := hc _ _ hdaily (dayNumber_nonneg day) (by
      rw [Option.getD_some, hcount]
      exact Int.natCast_nonneg _)
    refine ⟨fun h => hdisabled (by rw [← hnew.quest_eq]; exact h), Or.inr ⟨day, ?_⟩⟩
    exact ⟨hcounted.day_le, hcounted.resets_le,
      ⟨count, ⟨rfl, hnew.d_eq, hnew.count_eq⟩, hcount⟩, hcounted.day_eq⟩

theorem Sound.dayPasses (h : w.Sound) (hregular : w.Regular .dayPasses) :
    Sound { w with day := w.day + 1 } := by
  refine ⟨h.1, ?_⟩
  rcases h.2 with hfresh | ⟨day, hcounted⟩
  · exact Or.inl hfresh
  · obtain ⟨count, hdaily, hcount⟩ := hcounted.daily
    have hle := hcounted.day_le
    right
    by_cases hday : dayNumber day = dayNumber (w.day + 1)
    · have hzero : count.toInt = 0 := by
        have hc := hregular (by rw [hdaily.d_eq, hday])
        rw [hdaily.readProgress_c, Option.getD_some] at hc
        rw [hc]
        rfl
      have hnone : w.resets.count (w.day + 1) = 0 :=
        count_eq_zero hcounted.resets_le (by omega)
      rw [hday] at hdaily
      refine ⟨w.day + 1, le_rfl, ?_, ⟨count, hdaily, ?_⟩, fun _ => rfl⟩
      · intro r hr
        exact (hcounted.resets_le r hr).trans (by omega)
      · rw [hzero, hnone]
        rfl
    · exact ⟨day, hle.trans (Nat.le_succ _), hcounted.resets_le, ⟨count, hdaily, hcount⟩,
        fun heq => absurd heq hday⟩

/-- The counters behind a reset. -/
theorem daily_reset (w : DailyQuest) :
    HasDaily w.context.quest (some (dayNumber w.day)) (some (w.context.readProgress .c + 1))
      w.reset.context := by
  have hdaily : HasDaily w.context.quest (w.context.progress.find? "d")
      (w.context.progress.find? "c") w.context := ⟨rfl, rfl, rfl⟩
  exact (hdaily.countReset (dayNumber w.day)).afterState "done"

theorem Sound.reset (h : w.Sound) (henabled : w.context.quest.disabled = false)
    (hcount : (w.context.readProgress .c + 1).toInt = w.today + 1) :
    w.reset.Sound := by
  have hdaily := daily_reset w
  refine ⟨?_, Or.inr ⟨w.day, ?_⟩⟩
  · intro hdisabled
    rw [hdaily.quest_eq, henabled] at hdisabled
    cases hdisabled
  · apply counted_today
    · exact List.forall_mem_cons.2 ⟨le_rfl, h.resets_le⟩
    · exact ⟨rfl, hdaily.d_eq, hdaily.count_eq⟩
    · rw [hcount, List.count_cons_self]
      rfl

theorem Sound.doneDaily (h : w.Sound) (henabled : w.context.quest.disabled = false)
    (times : Int32) : Sound { w with context := (w.check times).2 } := by
  have hdaily : HasDaily w.context.quest (w.context.progress.find? "d")
      (w.context.progress.find? "c") w.context := ⟨rfl, rfl, rfl⟩
  have hnew := (hdaily.doneDaily (dayNumber w.day) times).2
  obtain ⟨hsame, hother⟩ := h.today_eq
  rw [check, henabled, if_neg Bool.false_ne_true]
  refine ⟨?_, Or.inr ⟨w.day, counted_today h.resets_le ⟨rfl, hnew.d_eq, hnew.count_eq⟩ ?_⟩⟩
  · intro hdisabled
    rw [hnew.quest_eq, henabled] at hdisabled
    cases hdisabled
  · by_cases hd : w.context.readProgress .d = dayNumber w.day
    · exact (congrArg Int16.toInt (if_pos hd)).trans (hsame hd)
    · rw [← today, hother hd]
      exact congrArg Int16.toInt (if_neg hd)

/-- The count that a regular reset leaves. -/
theorem Sound.count_reset (h : w.Sound) (henabled : w.context.quest.disabled = false)
    (hregular : w.Regular .resetDaily) :
    (w.context.readProgress .c + 1).toInt = w.today + 1 := by
  obtain ⟨hsame, hother⟩ := h.today_eq
  obtain ⟨hday, hmax⟩ := hregular henabled
  have hcount : (w.context.readProgress .c).toInt = w.today := by
    by_cases hd : w.context.readProgress .d = dayNumber w.day
    · exact hsame hd
    · rw [hother hd, hday.resolve_left hd]
      rfl
  have hne : (w.context.readProgress .c).toInt ≠ 32767 :=
    fun heq => hmax (Int16.toInt_inj.1 heq)
  rw [toInt_add_one, if_neg hne, hcount]

theorem Sound.step {e : DailyEvent} (h : w.Sound) (hregular : w.Regular e)
    (hstep : w.step e = some w') : w'.Sound := by
  cases e with
  | dayPasses =>
      cases hstep
      exact h.dayPasses hregular
  | resetDaily =>
      rw [DailyQuest.step] at hstep
      cases hdisabled : w.context.quest.disabled with
      | true =>
          rw [hdisabled, if_pos rfl] at hstep
          cases hstep
          exact h
      | false =>
          rw [hdisabled, if_neg Bool.false_ne_true] at hstep
          cases hstep
          exact h.reset hdisabled (h.count_reset hdisabled hregular)
  | doneDaily times =>
      cases hstep
      cases hdisabled : w.context.quest.disabled with
      | true =>
          rw [check, hdisabled, if_pos rfl]
          exact h
      | false => exact h.doneDaily hdisabled times
  | setState state =>
      cases hstep
      exact h.of_daily fun _ _ hdaily _ _ => hdaily.afterState state
  | saveAndLoad =>
      obtain ⟨c, hc, rfl⟩ := Option.map_eq_some_iff.1 hstep
      exact h.of_daily fun _ _ hdaily hd hcount => hdaily.reload hd hcount hc

/-! ## Daily limits -/

/-- Every check that can be asked for is right, and no other. -/
def Exact (w : DailyQuest) : Prop := ∀ times, w.Right times ↔ w.Askable times

theorem Sound.exact (h : w.Sound) : w.Exact := fun _ => right_iff_askable h

theorem regular_dayPasses (h : w.Sound) (hexact : Exact { w with day := w.day + 1 }) :
    w.Regular .dayPasses := by
  intro hd
  rcases h.2 with ⟨hfresh, -⟩ | ⟨day, hcounted⟩
  · rw [hfresh.d_eq] at hd
    cases hd
  · obtain ⟨count, hdaily, hcount⟩ := hcounted.daily
    have hc : w.context.readProgress .c = count := hdaily.readProgress_c
    rw [hc]
    apply Int16.toInt_inj.1
    change count.toInt = 0
    cases hdisabled : w.context.quest.disabled with
    | true => rw [hcount, h.1 hdisabled, List.count_nil, Nat.cast_zero]
    | false =>
        have hzero : w.resets.count (w.day + 1) = 0 :=
          count_eq_zero hcounted.resets_le (Nat.lt_succ_of_le hcounted.day_le)
        have hread : w.context.readProgress .d = dayNumber (w.day + 1) := by
          rw [hdaily.readProgress_d, Option.getD_some]
          rw [hdaily.d_eq] at hd
          exact Option.some.inj hd
        have hcheck : (DailyQuest.check { w with day := w.day + 1 } 1).1 = true ↔ _ :=
          check_iff hdisabled
        have hone := hcheck.symm.trans ((hexact 1).2 (Or.inl le_rfl))
        dsimp only [today] at hone
        simp only [hread, hc, true_and, hzero] at hone
        have hnot : ¬(1 : Int32).toInt ≤ count.toInt := fun hle => absurd (hone.1 hle) (by decide)
        change ¬(1 : ℤ) ≤ count.toInt at hnot
        omega

theorem regular_resetDaily (h : w.Sound) (hexact : ∀ w', w.step .resetDaily = some w' → w'.Exact) :
    w.Regular .resetDaily := by
  intro henabled
  obtain ⟨hsame, hother⟩ := h.today_eq
  have hdaily := daily_reset w
  have hstep : w.step .resetDaily = some w.reset := by
    rw [DailyQuest.step, henabled, if_neg Bool.false_ne_true]
  have hnew : ∀ times : Int32,
      times.toInt ≤ (w.context.readProgress .c + 1).toInt ↔ times.toInt ≤ w.today + 1 := by
    intro times
    have hd : w.reset.context.readProgress .d = dayNumber w.reset.day := hdaily.readProgress_d
    have hc : w.reset.context.readProgress .c = w.context.readProgress .c + 1 :=
      hdaily.readProgress_c
    have hquest : w.reset.context.quest.disabled = false := by rw [hdaily.quest_eq, henabled]
    have htoday : w.reset.today = w.today + 1 := List.count_cons_self
    have hright := (hexact _ hstep times).2 (Or.inr ⟨hquest, hd⟩)
    rw [Right, check_iff hquest, hc, htoday, Nat.cast_add_one] at hright
    simp only [hd, true_and] at hright
    exact hright
  -- both bounds of the new count
  have hcount : (w.context.readProgress .c + 1).toInt = w.today + 1 := by
    have hlow := (w.context.readProgress .c + 1).le_toInt
    have hhigh := (w.context.readProgress .c + 1).toInt_lt
    have hle := hnew (w.context.readProgress .c + 1).toInt32
    have hnext := hnew (Int32.ofInt ((w.context.readProgress .c + 1).toInt + 1))
    rw [Int16.toInt_toInt32] at hle
    rw [Int32.toInt_ofInt_of_le (by omega) (by omega)] at hnext
    omega
  constructor
  · by_cases hd : w.context.readProgress .d = dayNumber w.day
    · exact Or.inl hd
    · right
      rw [hother hd, toInt_add_one] at hcount
      apply Int16.toInt_inj.1
      change _ = 0
      split_ifs at hcount <;> omega
  · intro hmax
    rw [hmax] at hcount
    have hwrapped : ((32767 : Int16) + 1).toInt = -32768 := rfl
    omega

theorem regular_iff (h : w.Sound) (e : DailyEvent) :
    (∀ w' ∈ w.step e, w'.Exact) ↔ w.Regular e := by
  constructor
  · intro hexact
    cases e with
    | dayPasses => exact regular_dayPasses h (hexact _ rfl)
    | resetDaily => exact regular_resetDaily h hexact
    | doneDaily => trivial
    | setState => trivial
    | saveAndLoad => trivial
  · intro hregular w' hstep
    exact (h.step hregular hstep).exact

theorem sound_start (character : ℕ) (quest : Quest) (day : ℕ) :
    (start character quest day).Sound :=
  ⟨fun _ => rfl, Or.inl ⟨⟨rfl, rfl, rfl⟩, rfl⟩⟩

/-- The limits count the resets of each day, in every state that a run reaches, if and only if all
its events are regular. -/
theorem exact_iff_regular (character : ℕ) (quest : Quest) (day : ℕ) (events : List DailyEvent) :
    (∀ w, RunSteps.Reaches step (start character quest day) events w →
      ∀ times, w.Right times ↔ w.Askable times) ↔
      RunSteps.Every step Regular (start character quest day) events := by
  have hstart := sound_start character quest day
  have hreaches : (∀ w, RunSteps.Reaches step (start character quest day) events w → w.Exact) ↔ _ :=
    RunSteps.forall_reaches_iff
  have hevery : RunSteps.Every step _ (start character quest day) events ↔ _ :=
    RunSteps.every_iff Sound (fun _ e h => regular_iff h e) (fun _ _ _ h => h.step) hstart
  rw [← hevery]
  exact hreaches.trans (and_iff_right hstart.exact)

/-- The quest of the next example. -/
def emptyQuest : Quest := ⟨0, ⟨⟨.notHidden, false⟩, SortedMap.empty⟩, validateQuest_stateless⟩

/-- It is reset on a day and, without a check before, on the next one. -/
def unchecked : DailyQuest := reset { (start 0 emptyQuest 1).reset with day := 2 }

theorem run_unchecked :
    RunSteps.run step (start 0 emptyQuest 1) [.resetDaily, .dayPasses, .resetDaily] =
      some unchecked := by
  have henabled : (start 0 emptyQuest 1).reset.context.quest.disabled = false := by
    rw [(daily_reset _).quest_eq]
    rfl
  have hlast :
      step { (start 0 emptyQuest 1).reset with day := 2 } .resetDaily = some unchecked := by
    rw [step, henabled, if_neg Bool.false_ne_true]
    rfl
  change (step { (start 0 emptyQuest 1).reset with day := 2 } .resetDaily).bind _ = _
  rw [hlast]
  rfl

/-- The second reset counts for both days. -/
theorem not_exact_unchecked :
    ¬∀ w, RunSteps.Reaches step (start 0 emptyQuest 1) [.resetDaily, .dayPasses, .resetDaily] w →
      ∀ times, 1 ≤ times.toInt → w.Right times := by
  intro h
  have hcheck : (unchecked.check 2).1 = true := by decide +kernel
  have hle := (h unchecked (RunSteps.reaches_of_run run_unchecked) 2 (by decide)).1 hcheck
  exact absurd hle (by decide)

end DailyQuest

/-! ## In the interpreter -/

namespace QuestHost

variable {σ : Type} (host : QuestHost σ) (k : Calls σ) (x : ℕ) (w : QuestWorld σ)

theorem questDay_eq (rest : σ) : host.questDay rest = dayNumber (host.time rest / 86400) := rfl

theorem change_eq (f : QuestContext → QuestContext) :
    (change x f : QuestExec σ Unit) w = .done () (w.putContext x (f (w.contexts x))) := rfl

theorem putContext_putContext (c c' : QuestContext) :
    (w.putContext x c).putContext x c' = w.putContext x c' := by
  unfold QuestWorld.putContext
  rw [Function.update_idem]

theorem change_putContext (c : QuestContext) (f : QuestContext → QuestContext) :
    (change x f : QuestExec σ Unit) (w.putContext x c) = .done () (w.putContext x (f c)) := by
  rw [change_eq, QuestWorld.contexts_putContext, putContext_putContext]

/-- The action counts a reset and goes on to the state `done`. -/
theorem performAction_resetdaily (args : List Variant) :
    host.performAction k x ⟨"resetdaily", args⟩ w =
      (do k.setState x "done"; pure true : QuestExec σ Bool)
        (w.putContext x ((w.contexts x).countReset (host.questDay w.rest))) := by
  have hday := change_eq x w (·.setProgress .d (host.questDay w.rest))
  change (change x (·.setProgress .d (host.questDay w.rest)) >>= fun _ =>
    (change x (·.countUp .c) >>= fun _ => k.setState x "done" >>= fun _ => pure true :
      QuestExec σ Bool)) w = _
  rw [bind_of_done hday, bind_of_done (change_putContext x w _ _)]
  rfl

/-- The rule answers as a check does. -/
theorem checkEnabledRule_donedaily (times : Variant) (args : List Variant) :
    host.checkEnabledRule x ⟨"donedaily", times :: args⟩ w =
      .done ((w.contexts x).doneDaily (host.questDay w.rest) times.toInt).1
        (w.putContext x ((w.contexts x).doneDaily (host.questDay w.rest) times.toInt).2) := by
  have htouch := change_eq x w (·.touchProgress .d)
  change (change x (·.touchProgress .d) >>= fun _ => context x >>= fun this =>
    Exec.get >>= fun w =>
      if this.readProgress .d = host.questDay w.rest then
        change x (·.touchProgress .c) >>= fun _ =>
          pure (decide (times.toInt ≤ (this.readProgress .c).toInt32))
      else change x (·.setProgress .d (host.questDay w.rest)) >>= fun _ =>
        change x (·.setProgress .c 0) >>= fun _ => pure false : QuestExec σ Bool) w = _
  rw [bind_of_done htouch]
  change (if ((w.putContext x _).contexts x).readProgress .d = host.questDay w.rest then
    _ else _ : QuestExec σ Bool) (w.putContext x _) = _
  rw [QuestWorld.contexts_putContext, QuestContext.doneDaily]
  split_ifs with hday
  · rw [bind_of_done (change_putContext x w _ _)]
    rfl
  · rw [bind_of_done (change_putContext x w _ _), bind_of_done (change_putContext x w _ _)]
    rfl

end QuestHost

end ArenaServ
