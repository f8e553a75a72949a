import ArenaServ.QuestReads
import ArenaServ.QuestTexts

/-!
# Records become contexts again

What becomes of one record and of a list of records of different quests: a record whose quest
is loaded and has its state becomes a context of that quest, and any other stays inactive.
-/

namespace ArenaServ

open EOPlus Exec QuestExec

variable {σ : Type}

/-- A state that a context can be set to; the end needs no description. -/
def Quest.HasState (q : Quest) (name : String) : Prop :=
  (q.quest.states.find? name).isSome ∨ name = "end" ∨ name = "done"

instance (q : Quest) (name : String) : Decidable (q.HasState name) :=
  inferInstanceAs (Decidable (_ ∨ _))

/-- The counters that a record stands for. -/
def ProgressText.counters (text : ProgressText) : SortedMap String Int16 :=
  (unserializeProgress text.val.toList SortedMap.empty).1

/-- The quest of a record is loaded and has its state. -/
def QuestTable.Resumes (t : QuestTable) (id : Int16) (r : CharacterQuestState) : Prop :=
  ∃ q ∈ t.quests.find? id, q.HasState (Util.lowercase r.questState)

instance (t : QuestTable) (id : Int16) (r : CharacterQuestState) : Decidable (t.Resumes id r) :=
  match h : t.quests.find? id with
  | none => .isFalse fun ⟨_, hq, _⟩ => nomatch h.symm.trans hq
  | some q =>
      decidable_of_iff (q.HasState (Util.lowercase r.questState)) <| by
        unfold QuestTable.Resumes
        rw [h]
        simp

namespace QuestContext

variable {quest : Quest} {character : ℕ}

/-! ## A new context enters a state -/

/-- What a new context knows, in a state of that name. -/
structure EnteredNew (quest : Quest) (name : String) (c : QuestContext) : Prop where
  quest_eq : c.quest = quest
  stateName_eq : c.stateName = name
  progress_eq : c.progress = SortedMap.empty

theorem enteredNew_setName (state : String) :
    EnteredNew quest (Util.lowercase state) ((new character quest).setName state) := by
  unfold setName
  split_ifs <;> exact ⟨rfl, rfl, rfl⟩

theorem enterState_of_find?_eq_some {state : String} {s : State} {c : QuestContext}
    (h : c.quest.quest.states.find? (Util.lowercase state) = some s) :
    enterState state c =
      (beginState s >>= fun _ => pure true) ((c.setName state).select (Util.lowercase state)) := by
  have hnamed : (c.setName state).quest.quest.states.find? (Util.lowercase state) = some s := by
    rw [quest_setName, h]
  simp only [enterState, modify_bind, get_bind, hnamed]

theorem enterState_of_find?_eq_none {state : String} {c : QuestContext}
    (h : c.quest.quest.states.find? (Util.lowercase state) = none) :
    enterState state c =
      if Util.lowercase state = "end" ∨ Util.lowercase state = "done" then
        .done false (c.setName state)
      else .raised (.runtimeError ("Unknown quest state: " ++ Util.lowercase state))
        (c.setName state) := by
  have hnamed : (c.setName state).quest.quest.states.find? (Util.lowercase state) = none := by
    rw [quest_setName, h]
  simp only [enterState, modify_bind, get_bind, hnamed]
  split_ifs <;> rfl

theorem finishes_beginState_new {name stateId : String} {s : State}
    (hs : quest.quest.states.find? stateId = some s) :
    Finishes (EnteredNew quest name) (beginState s) := by
  apply finishes_beginState
  · exact fun _ _ c hc => ⟨hc.quest_eq, hc.stateName_eq, hc.progress_eq⟩
  · intro c hc
    refine ⟨hc.quest_eq, hc.stateName_eq, ?_⟩
    rw [progress_clearState, hc.progress_eq]
    rfl
  · exact quest.checked_of_find? hs

theorem enterState_new (character : ℕ) {state : String} (h : quest.HasState (Util.lowercase state)) :
    ∃ entered c, enterState state (new character quest) = .done entered c ∧
      EnteredNew quest (Util.lowercase state) c := by
  have hnamed : EnteredNew quest (Util.lowercase state) ((new character quest).setName state) :=
    enteredNew_setName state
  cases hs : quest.quest.states.find? (Util.lowercase state) with
  | none =>
      have hend : Util.lowercase state = "end" ∨ Util.lowercase state = "done" := by
        rcases h with h | h
        · rw [hs] at h
          cases h
        · exact h
      refine ⟨false, (new character quest).setName state, ?_, hnamed⟩
      rw [enterState_of_find?_eq_none hs, if_pos hend]
  | some s =>
      rw [enterState_of_find?_eq_some hs]
      apply (finishes_beginState_new hs).bind fun _ => finishes_pure true
      exact ⟨hnamed.quest_eq, hnamed.stateName_eq, hnamed.progress_eq⟩

theorem enterState_of_not_hasState {state : String} {c : QuestContext}
    (h : ¬ c.quest.HasState (Util.lowercase state)) :
    ∃ what, enterState state c = .raised (.runtimeError what) (c.setName state) := by
  unfold Quest.HasState at h
  rw [not_or, Bool.not_eq_true, Option.isSome_eq_false_iff, Option.isNone_iff_eq_none] at h
  rw [enterState_of_find?_eq_none h.1, if_neg h.2]
  exact ⟨_, rfl⟩

/-- A context of a quest as a record has it. -/
structure Resumed (quest : Quest) (r : CharacterQuestState) (c : QuestContext) : Prop where
  quest_eq : c.quest = quest
  stateName_eq : c.stateName = Util.lowercase r.questState
  progress_eq : c.progress = r.questProgress.counters

theorem resumed_unserialize {r : CharacterQuestState} {c : QuestContext}
    (h : EnteredNew quest (Util.lowercase r.questState) c) :
    Resumed quest r (c.unserialize r.questProgress) := by
  refine ⟨h.quest_eq, h.stateName_eq, ?_⟩
  change (unserializeProgress r.questProgress.val.toList c.progress).1 = _
  rw [h.progress_eq]
  rfl

end QuestContext

/-! ## One record -/

namespace QuestWorld

variable {w : QuestWorld σ}

theorem contexts_newContext (w : QuestWorld σ) (c : QuestContext) :
    (w.newContext c).contexts w.contextCount = c :=
  Function.update_self ..

theorem contexts_newContext_of_lt {x : ℕ} (c : QuestContext) (h : x < w.contextCount) :
    (w.newContext c).contexts x = w.contexts x :=
  Function.update_of_ne h.ne ..

theorem putContext_newContext (w : QuestWorld σ) (c c' : QuestContext) :
    (w.newContext c).putContext w.contextCount c' = w.newContext c' := by
  unfold newContext putContext
  simp only [Function.update_idem]

theorem log_putLog (w : QuestWorld σ) (c : ℕ) (log : QuestLog) : (w.putLog c log).log c = log :=
  Function.update_self ..

theorem log_putLog_of_ne {c d : ℕ} (h : d ≠ c) (w : QuestWorld σ) (log : QuestLog) :
    (w.putLog c log).log d = w.log d :=
  Function.update_of_ne h ..

theorem putLog_log (w : QuestWorld σ) (c : ℕ) : w.putLog c (w.log c) = w := by
  unfold putLog
  rw [Function.update_eq_self]

theorem insertQuest_eq_putLog (w : QuestWorld σ) (c : ℕ) (id : Int16) (x : ℕ) :
    w.insertQuest c id x =
      w.putLog c { w.log c with quests := (w.log c).quests.insertNew id (some x) } := by
  unfold insertQuest SortedMap.insertNew
  split_ifs
  · exact (w.putLog_log c).symm
  · rfl

theorem inactive_insertInactive (w : QuestWorld σ) (c : ℕ) (id : Int16) (r : CharacterQuestState) :
    ((w.insertInactive c id r).log c).inactive = (w.log c).inactive.insertNew id r := by
  rw [insertInactive, log_putLog]

theorem quests_insertInactive (w : QuestWorld σ) (c : ℕ) (id : Int16) (r : CharacterQuestState) :
    ((w.insertInactive c id r).log c).quests = (w.log c).quests := by
  rw [insertInactive, log_putLog]

end QuestWorld

theorem onContext_of_done {α : Type} {m : Exec QuestContext QuestError QuestFault α}
    {w : QuestWorld σ} {x : ℕ} {a : α} {c : QuestContext} (h : m (w.contexts x) = .done a c) :
    onContext x m w = .done a (w.putContext x c) := by
  rw [onContext, h]

theorem onContext_of_raised {α : Type} {m : Exec QuestContext QuestError QuestFault α}
    {w : QuestWorld σ} {x : ℕ} {e : QuestError} {c : QuestContext}
    (h : m (w.contexts x) = .raised e c) : onContext x m w = .raised e (w.putContext x c) := by
  rw [onContext, h]

namespace QuestHost

variable {quest : Quest} {r : CharacterQuestState}

theorem newContext_bind {α : Type} (c : ℕ) (f : ℕ → QuestExec σ α) (w : QuestWorld σ) :
    (newContext c quest >>= f) w = f w.contextCount (w.newContext (.new c quest)) := rfl

theorem restoreQuest_of_hasState (c : ℕ) (id : Int16)
    (h : quest.HasState (Util.lowercase r.questState)) (w : QuestWorld σ) :
    ∃ ctx, QuestContext.Resumed quest r ctx ∧
      restoreQuest c id r quest w =
        .done () ((w.newContext ctx).insertQuest c id w.contextCount) := by
  obtain ⟨entered, ctx, hrun, hctx⟩ := QuestContext.enterState_new c h
  refine ⟨ctx.unserialize r.questProgress, QuestContext.resumed_unserialize hctx, ?_⟩
  have henter : onContext w.contextCount (QuestContext.enterState r.questState)
      (w.newContext (.new c quest)) = .done entered (w.newContext ctx) := by
    rw [← w.putContext_newContext (.new c quest) ctx]
    apply onContext_of_done
    rw [w.contexts_newContext]
    exact hrun
  have hread : change w.contextCount (·.unserialize r.questProgress) (w.newContext ctx) =
      .done () (w.newContext (ctx.unserialize r.questProgress)) := by
    rw [← w.putContext_newContext ctx (ctx.unserialize _)]
    apply onContext_of_done
    rw [w.contexts_newContext]
    rfl
  unfold restoreQuest
  rw [newContext_bind]
  apply tryCatch_of_done
  rw [bind_of_done henter, bind_of_done hread]
  rfl

theorem restoreQuest_of_not_hasState (c : ℕ) (id : Int16)
    (h : ¬ quest.HasState (Util.lowercase r.questState)) (w : QuestWorld σ) :
    ∃ ctx, restoreQuest c id r quest w = .done () ((w.newContext ctx).insertInactive c id r) := by
  obtain ⟨what, hrun⟩ := QuestContext.enterState_of_not_hasState (c := .new c quest) h
  refine ⟨(QuestContext.new c quest).setName r.questState, ?_⟩
  have henter : onContext w.contextCount (QuestContext.enterState r.questState)
      (w.newContext (.new c quest)) = .raised (.runtimeError what)
        (w.newContext ((QuestContext.new c quest).setName r.questState)) := by
    rw [← w.putContext_newContext (.new c quest) ((QuestContext.new c quest).setName _)]
    apply onContext_of_raised
    rw [w.contexts_newContext]
    exact hrun
  unfold restoreQuest
  rw [newContext_bind, tryCatch_of_raised (bind_of_raised henter)]
  rfl

end QuestHost

/-! ## Records of different quests -/

/-- What the records have become. Of the quests and the inactive records that a character had
before, those of other quests stay as they are, and so do the other characters. -/
structure Restored (c : ℕ) (records : List (Int16 × CharacterQuestState)) (w w' : QuestWorld σ) :
    Prop where
  table_eq : w'.table = w.table
  characters_eq : w'.characters = w.characters
  count_le : w.contextCount ≤ w'.contextCount
  contexts_eq : ∀ x < w.contextCount, w'.contexts x = w.contexts x
  log_eq : ∀ d ≠ c, w'.log d = w.log d
  resumed : ∀ id r, (id, r) ∈ records → w.table.Resumes id r →
    (w.log c).quests.find? id = none →
    ∃ x quest, x < w'.contextCount ∧ (w'.log c).quests.find? id = some (some x) ∧
      w.table.quests.find? id = some quest ∧ QuestContext.Resumed quest r (w'.contexts x)
  kept : ∀ id r, (id, r) ∈ records → ¬ w.table.Resumes id r →
    (w'.log c).inactive.find? id = some (((w.log c).inactive.find? id).getD r)
  quests_eq : ∀ id, (∀ r, (id, r) ∈ records → ¬ w.table.Resumes id r) →
    (w'.log c).quests.find? id = (w.log c).quests.find? id
  inactive_eq : ∀ id, (∀ r, (id, r) ∈ records → w.table.Resumes id r) →
    (w'.log c).inactive.find? id = (w.log c).inactive.find? id

namespace Restored

variable {c : ℕ} {records records' : List (Int16 × CharacterQuestState)} {w w' w'' : QuestWorld σ}
  {id : Int16} {r : CharacterQuestState}

theorem refl (c : ℕ) (w : QuestWorld σ) : Restored c [] w w where
  table_eq := rfl
  characters_eq := rfl
  count_le := le_rfl
  contexts_eq _ _ := rfl
  log_eq _ _ := rfl
  resumed _ _ h := nomatch h
  kept _ _ h := nomatch h
  quests_eq _ _ := rfl
  inactive_eq _ _ := rfl

theorem append (h : Restored c records w w') (h' : Restored c records' w' w'')
    (hdistinct : ∀ id r r', (id, r) ∈ records → (id, r') ∉ records') :
    Restored c (records ++ records') w w'' where
  table_eq := h'.table_eq.trans h.table_eq
  characters_eq := h'.characters_eq.trans h.characters_eq
  count_le := h.count_le.trans h'.count_le
  contexts_eq x hx := (h'.contexts_eq x (hx.trans_le h.count_le)).trans (h.contexts_eq x hx)
  log_eq d hd := (h'.log_eq d hd).trans (h.log_eq d hd)
  resumed := by
    intro id r hr hresumes hnone
    rcases List.mem_append.mp hr with hr | hr
    · obtain ⟨x, quest, hx, hfind, hquest, hresumed⟩ := h.resumed id r hr hresumes hnone
      refine ⟨x, quest, hx.trans_le h'.count_le, ?_, hquest, ?_⟩
      · rw [h'.quests_eq id fun r' hr' => absurd hr' (hdistinct id r r' hr)]
        exact hfind
      · rw [h'.contexts_eq x hx]
        exact hresumed
    · rw [← h.table_eq] at hresumes ⊢
      apply h'.resumed id r hr hresumes
      rw [h.quests_eq id fun r' hr' => absurd hr (hdistinct id r' r hr')]
      exact hnone
  kept := by
    intro id r hr hresumes
    rcases List.mem_append.mp hr with hr | hr
    · rw [h'.inactive_eq id fun r' hr' => absurd hr' (hdistinct id r r' hr)]
      exact h.kept id r hr hresumes
    · rw [← h.table_eq] at hresumes
      rw [h'.kept id r hr hresumes,
        h.inactive_eq id fun r' hr' => absurd hr (hdistinct id r' r hr')]
  quests_eq := by
    intro id hrecords
    have hafter : ∀ r, (id, r) ∈ records' → ¬ w'.table.Resumes id r := by
      intro r hr
      rw [h.table_eq]
      exact hrecords r (List.mem_append_right _ hr)
    rw [h'.quests_eq id hafter, h.quests_eq id fun r hr => hrecords r (List.mem_append_left _ hr)]
  inactive_eq := by
    intro id hrecords
    have hafter : ∀ r, (id, r) ∈ records' → w'.table.Resumes id r := by
      intro r hr
      rw [h.table_eq]
      exact hrecords r (List.mem_append_right _ hr)
    rw [h'.inactive_eq id hafter,
      h.inactive_eq id fun r hr => hrecords r (List.mem_append_left _ hr)]

/-- A context that nobody has. -/
theorem newContext (c : ℕ) (w : QuestWorld σ) (ctx : QuestContext) :
    Restored c [] w (w.newContext ctx) :=
  { refl c w with
    count_le := Nat.le_succ _
    contexts_eq := fun _ hx => w.contexts_newContext_of_lt ctx hx
    resumed := fun _ _ h => nomatch h }

theorem insertInactive (c : ℕ) (w : QuestWorld σ) (h : ¬ w.table.Resumes id r) :
    Restored c [(id, r)] w (w.insertInactive c id r) where
  table_eq := rfl
  characters_eq := rfl
  count_le := le_rfl
  contexts_eq _ _ := rfl
  log_eq d hd := w.log_putLog_of_ne hd _
  resumed := by
    intro id' r' hr hresumes
    cases List.mem_singleton.mp hr
    exact absurd hresumes h
  kept := by
    intro id' r' hr _
    cases List.mem_singleton.mp hr
    rw [w.inactive_insertInactive, SortedMap.find?_insertNew, if_pos rfl]
  quests_eq id' _ := by rw [w.quests_insertInactive]
  inactive_eq := by
    intro id' hrecords
    have hne : id' ≠ id := by
      rintro rfl
      exact h (hrecords r (List.mem_singleton_self _))
    rw [w.inactive_insertInactive, SortedMap.find?_insertNew, if_neg hne]

theorem insertQuest (c : ℕ) (w : QuestWorld σ) {quest : Quest} {ctx : QuestContext}
    (hquest : w.table.quests.find? id = some quest)
    (hstate : quest.HasState (Util.lowercase r.questState))
    (hctx : QuestContext.Resumed quest r ctx) :
    Restored c [(id, r)] w ((w.newContext ctx).insertQuest c id w.contextCount) := by
  have hresumes : w.table.Resumes id r := ⟨quest, hquest, hstate⟩
  rw [QuestWorld.insertQuest_eq_putLog]
  exact {
    table_eq := rfl
    characters_eq := rfl
    count_le := Nat.le_succ _
    contexts_eq := fun x hx => w.contexts_newContext_of_lt ctx hx
    log_eq := fun d hd => QuestWorld.log_putLog_of_ne hd _ _
    resumed := by
      intro id' r' hr _ hnone
      cases List.mem_singleton.mp hr
      refine ⟨w.contextCount, quest, Nat.lt_succ_self _, ?_, hquest, ?_⟩
      · rw [QuestWorld.log_putLog, SortedMap.find?_insertNew, if_pos rfl]
        exact congrArg (fun o => some (o.getD (some w.contextCount))) hnone
      · exact (w.contexts_newContext ctx).symm ▸ hctx
    kept := by
      intro id' r' hr h
      cases List.mem_singleton.mp hr
      exact absurd hresumes h
    quests_eq := by
      intro id' hrecords
      have hne : id' ≠ id := by
        rintro rfl
        exact hrecords r (List.mem_singleton_self _) hresumes
      rw [QuestWorld.log_putLog, SortedMap.find?_insertNew, if_neg hne]
      rfl
    inactive_eq := by
      intro id' _
      rw [QuestWorld.log_putLog]
      rfl }

/-- A record of a loaded quest. -/
theorem restoreQuest (c : ℕ) (w : QuestWorld σ) {quest : Quest}
    (hquest : w.table.quests.find? id = some quest) :
    ∃ w', QuestHost.restoreQuest c id r quest w = .done () w' ∧ Restored c [(id, r)] w w' := by
  by_cases hstate : quest.HasState (Util.lowercase r.questState)
  · obtain ⟨ctx, hctx, hrun⟩ := QuestHost.restoreQuest_of_hasState c id hstate w
    exact ⟨_, hrun, insertQuest c w hquest hstate hctx⟩
  · obtain ⟨ctx, hrun⟩ := QuestHost.restoreQuest_of_not_hasState c id hstate w
    have hresumes : ¬ w.table.Resumes id r := by
      rintro ⟨quest', hquest', hstate'⟩
      rw [hquest] at hquest'
      cases hquest'
      exact hstate hstate'
    have hkept : Restored c [(id, r)] (w.newContext ctx)
        ((w.newContext ctx).insertInactive c id r) := insertInactive c _ hresumes
    exact ⟨_, hrun, (newContext c w ctx).append hkept fun _ _ _ h => nomatch h⟩

/-- Records of different quests one after the other; what the restoring of a record asks for
is kept by the restoring of the others. -/
theorem forEach (ask : QuestWorld σ → Prop)
    {body : Int16 × CharacterQuestState → QuestExec σ Unit}
    (hids : records.Pairwise fun e e' => e.1 ≠ e'.1)
    (hask : ∀ e ∈ records, ∀ w w', ask w → Restored c [e] w w' → ask w')
    (hbody : ∀ e ∈ records, ∀ w, ask w → ∃ w', body e w = .done () w' ∧ Restored c [e] w w')
    (hw : ask w) : ∃ w', Exec.forEach records body w = .done () w' ∧ Restored c records w w' := by
  induction records generalizing w with
  | nil => exact ⟨w, rfl, refl c w⟩
  | cons e rest ih =>
      obtain ⟨hfirst, hrest⟩ := List.pairwise_cons.mp hids
      obtain ⟨hask, hasks⟩ := List.forall_mem_cons.mp hask
      obtain ⟨hbody, hbodies⟩ := List.forall_mem_cons.mp hbody
      obtain ⟨w', hrun, hone⟩ := hbody w hw
      obtain ⟨w'', hruns, hall⟩ := ih hrest hasks hbodies (hask w w' hw hone)
      refine ⟨w'', ?_, ?_⟩
      · rw [Exec.forEach, bind_of_done hrun, hruns]
      · apply hone.append hall
        intro id r r' hr hr'
        cases List.mem_singleton.mp hr
        exact hfirst _ hr' rfl

end Restored

/-- The records of a saved text, each of its own quest. -/
theorem restored_questUnserialize (c : ℕ) {serialized : String}
    (hids : (parseRecords serialized).Pairwise fun e e' => e.1 ≠ e'.1) (w : QuestWorld σ) :
    ∃ w', QuestHost.questUnserialize c serialized w = .done () w' ∧
      Restored c (parseRecords serialized) w w' := by
  apply Restored.forEach (fun _ => True) hids (fun _ _ _ _ _ _ => trivial) ?_ trivial
  intro e _ w _
  rw [get_bind]
  cases hquest : w.table.quests.find? e.1 with
  | none =>
      refine ⟨_, rfl, Restored.insertInactive c w ?_⟩
      rintro ⟨quest, hquest', _⟩
      rw [hquest] at hquest'
      cases hquest'
  | some quest => exact Restored.restoreQuest c w hquest

end ArenaServ
