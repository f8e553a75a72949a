import ArenaServ.QuestReads

/-!
# Guarded quests

The check at loading leaves out conditions, what counts things and goals. A guarded quest has
the arguments of these as well. Worlds of guarded quests, what follows them, and the steps
that are known to stay among them.
-/

namespace ArenaServ

open EOPlus Exec QuestExec

variable {σ α β : Type}

/-- What the check does not ask for and the interpreter reads. -/
structure EOPlus.State.Guarded (disabled : Bool) (s : State) : Prop where
  conditions : disabled = false → ∀ a ∈ s.actions, a.cond = .condIf ∨ a.cond = .condElseIf →
    ruleReads a.condExpr.function ≤ a.condExpr.args.length
  counters : disabled = false → ∀ r ∈ s.rules, CountsThing r.expr → 2 ≤ r.expr.args.length
  goal : ∀ r ∈ s.rules[s.goalRule]?, r.expr.function ∈ ["gotitems", "gotspell"] →
    2 ≤ r.expr.args.length

instance (disabled : Bool) (s : State) : Decidable (s.Guarded disabled) :=
  decidable_of_iff
    ((disabled = false → ∀ a ∈ s.actions, a.cond = .condIf ∨ a.cond = .condElseIf →
        ruleReads a.condExpr.function ≤ a.condExpr.args.length) ∧
      (disabled = false → ∀ r ∈ s.rules, CountsThing r.expr → 2 ≤ r.expr.args.length) ∧
      ∀ r ∈ s.rules[s.goalRule]?, r.expr.function ∈ ["gotitems", "gotspell"] →
        2 ≤ r.expr.args.length)
    ⟨fun ⟨h, h', h''⟩ => ⟨h, h', h''⟩, fun ⟨h, h', h''⟩ => ⟨h, h', h''⟩⟩

def EOPlus.Quest.Guarded (q : EOPlus.Quest) : Prop :=
  ∀ e ∈ q.states.entries, e.2.Guarded q.info.disabled

instance (q : EOPlus.Quest) : Decidable q.Guarded :=
  inferInstanceAs (Decidable (∀ e ∈ q.states.entries, _))

theorem EOPlus.Quest.Guarded.state {q : EOPlus.Quest} (h : q.Guarded) {name : String} {s : State}
    (hs : q.states.find? name = some s) : s.Guarded q.info.disabled :=
  h (name, s) (SortedMap.mem_entries_iff.mpr hs)

def QuestTable.Guarded (t : QuestTable) : Prop :=
  ∀ i q, t.quests.find? i = some q → q.quest.Guarded

/-! ## Worlds whose quests are guarded -/

structure QuestWorld.Guarded (w : QuestWorld σ) : Prop where
  table : w.table.Guarded
  context : ∀ x, (w.contexts x).quest.quest.Guarded
  pointer : ∀ c i x, (w.log c).quests.find? i = some (some x) → x < w.contextCount

/-- A later world: contexts keep their quests. -/
structure Follows (w₀ w : QuestWorld σ) : Prop where
  guarded : w.Guarded
  count_le : w₀.contextCount ≤ w.contextCount
  quest_eq : ∀ x < w₀.contextCount, (w.contexts x).quest = (w₀.contexts x).quest

abbrev Runs (w₀ : QuestWorld σ) (m : QuestExec σ α) : Prop := Keeps (Follows w₀) NoBadArgument m

namespace Follows

variable {w₀ w w' : QuestWorld σ}

theorem refl (h : w.Guarded) : Follows w w := ⟨h, le_rfl, fun _ _ => rfl⟩

theorem trans (h : Follows w₀ w) (h' : Follows w w') : Follows w₀ w' where
  guarded := h'.guarded
  count_le := h.count_le.trans h'.count_le
  quest_eq x hx := by
    rw [h'.quest_eq x (hx.trans_le h.count_le), h.quest_eq x hx]

theorem of_same (h : Follows w₀ w) (htable : w'.table = w.table) (hlog : w'.log = w.log)
    (hcontexts : w'.contexts = w.contexts) (hcount : w'.contextCount = w.contextCount) :
    Follows w₀ w' where
  guarded := {
    table := htable ▸ h.guarded.table
    context := by rw [hcontexts]; exact h.guarded.context
    pointer := by rw [hlog, hcount]; exact h.guarded.pointer }
  count_le := hcount ▸ h.count_le
  quest_eq := by rw [hcontexts]; exact h.quest_eq

theorem setQuest (h : Follows w₀ w) {c : ℕ} {i : Int16} {x : Option ℕ}
    (hx : ∀ y ∈ x, y < w₀.contextCount) : Follows w₀ (w.setQuest c i x) where
  guarded := {
    table := h.guarded.table
    context := h.guarded.context
    pointer := by
      intro c' i' y hy
      change ((Function.update w.log c _ c').quests.find? i') = _ at hy
      by_cases hc : c' = c
      · rw [hc, Function.update_self, SortedMap.find?_insert] at hy
        split_ifs at hy
        · exact (hx y (Option.some.inj hy)).trans_le h.count_le
        · exact h.guarded.pointer c i' y hy
      · rw [Function.update_of_ne hc] at hy
        exact h.guarded.pointer c' i' y hy }
  count_le := h.count_le
  quest_eq := h.quest_eq

/-- A log whose quests are among those there before. -/
theorem putLog (h : Follows w₀ w) {c : ℕ} {log : QuestLog}
    (hlog : ∀ i x, log.quests.find? i = some (some x) → x < w.contextCount) :
    Follows w₀ (w.putLog c log) where
  guarded := {
    table := h.guarded.table
    context := h.guarded.context
    pointer := by
      intro c' i y hy
      change ((Function.update w.log c log c').quests.find? i) = _ at hy
      by_cases hc : c' = c
      · rw [hc, Function.update_self] at hy
        exact hlog i y hy
      · rw [Function.update_of_ne hc] at hy
        exact h.guarded.pointer c' i y hy }
  count_le := h.count_le
  quest_eq := h.quest_eq

theorem insertInactive (h : Follows w₀ w) (c : ℕ) (i : Int16) (r : CharacterQuestState) :
    Follows w₀ (w.insertInactive c i r) :=
  h.putLog fun i' x => h.guarded.pointer c i' x

theorem clearQuests (h : Follows w₀ w) (c : ℕ) : Follows w₀ (w.clearQuests c) :=
  h.putLog fun _ _ hx => nomatch hx

theorem putContext (h : Follows w₀ w) {x : ℕ} {c : QuestContext}
    (hc : c.quest = (w.contexts x).quest) : Follows w₀ (w.putContext x c) := by
  have hquest (y : ℕ) : ((w.putContext x c).contexts y).quest = (w.contexts y).quest := by
    change (Function.update w.contexts x c y).quest = _
    by_cases hy : y = x
    · rw [hy, Function.update_self, hc]
    · rw [Function.update_of_ne hy]
  exact {
    guarded := {
      table := h.guarded.table
      context := fun y => hquest y ▸ h.guarded.context y
      pointer := h.guarded.pointer }
    count_le := h.count_le
    quest_eq := fun y hy => (hquest y).trans (h.quest_eq y hy) }

theorem newContext (h : Follows w₀ w) {c : QuestContext} (hc : c.quest.quest.Guarded) :
    Follows w₀ (w.newContext c) where
  guarded := {
    table := h.guarded.table
    context := by
      intro y
      change (Function.update w.contexts w.contextCount c y).quest.quest.Guarded
      by_cases hy : y = w.contextCount
      · rw [hy, Function.update_self]
        exact hc
      · rw [Function.update_of_ne hy]
        exact h.guarded.context y
    pointer := fun c i x hx => (h.guarded.pointer c i x hx).trans (Nat.lt_succ_self _) }
  count_le := h.count_le.trans (Nat.le_succ _)
  quest_eq := by
    intro y hy
    change (Function.update w.contexts w.contextCount c y).quest = _
    have hne : y ≠ w.contextCount := by
      have hle : w₀.contextCount ≤ w.contextCount := h.count_le
      omega
    rw [Function.update_of_ne hne]
    exact h.quest_eq y hy

end Follows

/-! ## Steps on guarded worlds -/

section Steps
variable {w₀ : QuestWorld σ} {m : QuestExec σ α} {Q : α → Prop} {R : β → Prop}

/-- What an execution does to the world it starts from, seen from an earlier world. -/
theorem sat_at {w : QuestWorld σ} (hw : Follows w₀ w) (h : Sat (Follows w) NoBadArgument m Q) :
    (m w).Meets (Follows w₀) NoBadArgument Q :=
  (h w (.refl hw.guarded)).mono (fun _ => hw.trans) fun _ => id

theorem sat_get_bind {f : QuestWorld σ → QuestExec σ β}
    (h : ∀ w, Follows w₀ w → Sat (Follows w) NoBadArgument (f w) R) :
    Sat (Follows w₀) NoBadArgument (Exec.get >>= f) R :=
  fun w hw => sat_at (m := f w) hw (h w hw)

theorem sat_context_bind {x : ℕ} {f : QuestContext → QuestExec σ β}
    (h : ∀ w, Follows w₀ w → Sat (Follows w) NoBadArgument (f (w.contexts x)) R) :
    Sat (Follows w₀) NoBadArgument (context x >>= f) R :=
  sat_get_bind (f := fun w => f (w.contexts x)) h

theorem sat_getQuest_bind {c : ℕ} {i : Int16} {f : Option ℕ → QuestExec σ β}
    (h : ∀ w, Follows w₀ w → (∀ x ∈ w.getQuest c i, x < w.contextCount) →
      Sat (Follows w) NoBadArgument (f (w.getQuest c i)) R) :
    Sat (Follows w₀) NoBadArgument (getQuest c i >>= f) R :=
  sat_get_bind (f := fun w => f (w.getQuest c i)) fun w hw =>
    h w hw fun x hx => hw.guarded.pointer c i x (Option.join_eq_some_iff.mp hx)

theorem sat_openQuest_bind {c : ℕ} {i : Int16} {quest : Quest} {f : ℕ → QuestExec σ β}
    (hquest : quest.quest.Guarded)
    (h : ∀ w x, Follows w₀ w → x < w.contextCount → Sat (Follows w) NoBadArgument (f x) R) :
    Sat (Follows w₀) NoBadArgument (openQuest c i quest >>= f) R := by
  intro w hw
  have hnew : Follows w₀ (w.newContext (.new c quest)) := hw.newContext hquest
  have hlt : w.contextCount < (w.newContext (.new c quest)).contextCount := Nat.lt_succ_self _
  have hset : Follows w₀ ((w.newContext (.new c quest)).setQuest c i (some w.contextCount)) :=
    hnew.trans ((Follows.refl hnew.guarded).setQuest fun y hy => Option.some.inj hy ▸ hlt)
  exact sat_at (m := f w.contextCount) hset (h _ _ hset hlt)

theorem sat_newContext_bind {c : ℕ} {quest : Quest} {f : ℕ → QuestExec σ β}
    (hquest : quest.quest.Guarded)
    (h : ∀ w x, Follows w₀ w → x < w.contextCount → Sat (Follows w) NoBadArgument (f x) R) :
    Sat (Follows w₀) NoBadArgument (newContext c quest >>= f) R := by
  intro w hw
  have hnew : Follows w₀ (w.newContext (.new c quest)) := hw.newContext hquest
  exact sat_at (m := f w.contextCount) hnew (h _ _ hnew (Nat.lt_succ_self _))

theorem runs_setQuest {c : ℕ} {i : Int16} {x : Option ℕ} (hx : ∀ y ∈ x, y < w₀.contextCount) :
    Runs w₀ (Exec.modify (QuestWorld.setQuest c i x)) :=
  keeps_modify fun _ hw => hw.setQuest hx

theorem runs_rest (rest : σ) : Runs w₀ (Exec.modify fun w => { w with rest := rest }) :=
  keeps_modify fun _ hw => hw.of_same rfl rfl rfl rfl

theorem follows_leaveRecursion {w : QuestWorld σ} (hw : Follows w₀ w) :
    Follows w₀ w.leaveRecursion :=
  hw.of_same rfl rfl rfl rfl

theorem runs_enterRecursion : Runs w₀ enterRecursion := by
  apply sat_get.keeps.bind
  intro w
  split_ifs
  · exact sat_throw _
  · exact keeps_modify fun _ hw => hw.of_same rfl rfl rfl rfl

/-- A context keeps its quest in what it does by itself. -/
theorem sat_onContext {x : ℕ} {m : Exec QuestContext QuestError QuestFault α}
    (hx : x < w₀.contextCount)
    (hm : Sat (fun c => c.quest = (w₀.contexts x).quest) NoBadArgument m Q) :
    Sat (Follows w₀) NoBadArgument (onContext x m) Q := by
  intro w hw
  have hquest : (w.contexts x).quest = (w₀.contexts x).quest := hw.quest_eq x hx
  have hout := hm (w.contexts x) hquest
  unfold onContext
  revert hout
  cases m (w.contexts x) with
  | done a c => exact fun hout => ⟨hw.putContext (hout.1.trans hquest.symm), hout.2⟩
  | raised e c => exact fun hout => hw.putContext (hout.trans hquest.symm)
  | fault f => exact id

theorem runs_change {x : ℕ} {f : QuestContext → QuestContext} (hx : x < w₀.contextCount)
    (hf : ∀ c, (f c).quest = c.quest) : Runs w₀ (change x f) :=
  sat_onContext hx (keeps_modify fun c hc => (hf c).trans hc)

/-- A loop over a character's quests. -/
theorem runs_forQuests {c : ℕ} {body : ℕ → QuestExec σ Unit}
    (h : ∀ w x, Follows w₀ w → x < w.contextCount → Runs w (body x)) (n : ℕ) (last : Option Int16) :
    Runs w₀ (forQuests c body n last) := by
  induction n generalizing w₀ last with
  | zero => exact keeps_pure ()
  | succ n ih =>
      apply sat_get_bind
      intro w hw
      split
      · exact keeps_pure ()
      · next i q hnext =>
        have hbody : Runs w (visitQuest body q) := by
          cases q with
          | none => exact keeps_pure ()
          | some x =>
              have hx : x < w.contextCount :=
                hw.guarded.pointer c i x (SortedMap.mem_of_next? hnext)
              apply sat_context_bind
              intro w' hw'
              apply keeps_onlyIf
              intro _
              exact h w' x (hw.trans hw') (hx.trans_le hw'.count_le)
        apply hbody.bind
        intro _
        exact ih (fun w' x hw' hx => h w' x (hw.trans hw') hx) (some i)

end Steps

end ArenaServ
