import ArenaServ.CountedExec
import ArenaServ.QuestRestore

/-!
# Quests through their saved text

A character's quests are saved and read back into a world that may have other quests loaded.
-/

namespace ArenaServ

open EOPlus Exec QuestExec

variable {σ : Type}

/-! ## What is saved -/

/-- Quests under their ids, in states whose names a record keeps, with counters that are not
negative; and records that are kept themselves. -/
structure Savable (list : SortedMap Int16 (Option QuestContext))
    (inactive : SortedMap Int16 CharacterQuestState) : Prop where
  id_eq : ∀ id q, list.find? id = some (some q) → q.quest.id = id
  stateName : ∀ id q, list.find? id = some (some q) → IsStateName q.stateName
  counters : ∀ id q, list.find? id = some (some q) → ∀ e ∈ q.progress.entries, 0 ≤ e.2.toInt
  inactive : ∀ id r, inactive.find? id = some r → IsStateName r.questState

def savedRecords (list : SortedMap Int16 (Option QuestContext))
    (inactive : SortedMap Int16 CharacterQuestState) : List (Int16 × CharacterQuestState) :=
  activeRecords list ++ inactiveRecords list inactive

section Saved
variable {list : SortedMap Int16 (Option QuestContext)}
  {inactive : SortedMap Int16 CharacterQuestState} {id : Int16} {r : CharacterQuestState}

theorem mem_activeRecords (hlist : ∀ id q, list.find? id = some (some q) → q.quest.id = id) :
    (id, r) ∈ activeRecords list ↔ ∃ q, list.find? id = some (some q) ∧ q.record = r := by
  unfold activeRecords
  rw [List.mem_filterMap]
  constructor
  · rintro ⟨⟨id', q⟩, he, hr⟩
    obtain ⟨q, rfl, hrecord⟩ := Option.map_eq_some_iff.mp hr
    have hfind : list.find? id' = some (some q) := SortedMap.mem_entries_iff.mp he
    rw [hlist id' q hfind, Prod.mk.injEq] at hrecord
    obtain ⟨rfl, hrecord⟩ := hrecord
    exact ⟨q, hfind, hrecord⟩
  · rintro ⟨q, hfind, hrecord⟩
    refine ⟨(id, some q), SortedMap.mem_entries_iff.mpr hfind, ?_⟩
    rw [Option.map_some, hlist id q hfind, hrecord]

theorem mem_inactiveRecords :
    (id, r) ∈ inactiveRecords list inactive ↔
      list.find? id = none ∧ inactive.find? id = some r := by
  unfold inactiveRecords
  rw [List.mem_filter, SortedMap.mem_entries_iff, Option.isNone_iff_eq_none, and_comm]

theorem mem_savedRecords (hlist : ∀ id q, list.find? id = some (some q) → q.quest.id = id) :
    (id, r) ∈ savedRecords list inactive ↔
      (∃ q, list.find? id = some (some q) ∧ q.record = r) ∨
        list.find? id = none ∧ inactive.find? id = some r := by
  unfold savedRecords
  rw [List.mem_append, mem_activeRecords hlist, mem_inactiveRecords]

theorem sorted_activeRecords (hlist : ∀ id q, list.find? id = some (some q) → q.quest.id = id) :
    (activeRecords list).Pairwise fun e e' => e.1 < e'.1 := by
  have hkey (e : Int16 × Option QuestContext) (he : e ∈ list.entries)
      (e' : Int16 × CharacterQuestState)
      (he' : (e.2.map fun c => (c.quest.id, c.record)) = some e') :
      e'.1 = e.1 := by
    obtain ⟨q, hq, rfl⟩ := Option.map_eq_some_iff.mp he'
    apply hlist e.1 q
    rw [← hq]
    exact SortedMap.mem_entries_iff.mp he
  unfold activeRecords
  rw [List.pairwise_filterMap]
  apply list.sorted.imp_of_mem
  intro a b ha hb hlt a' ha' b' hb'
  rw [hkey a ha a' ha', hkey b hb b' hb']
  exact hlt

theorem sorted_inactiveRecords (list : SortedMap Int16 (Option QuestContext))
    (inactive : SortedMap Int16 CharacterQuestState) :
    (inactiveRecords list inactive).Pairwise fun e e' => e.1 < e'.1 :=
  inactive.sorted.filter _

/-- No two records are of the same quest. -/
theorem distinct_savedRecords (hlist : ∀ id q, list.find? id = some (some q) → q.quest.id = id)
    (inactive : SortedMap Int16 CharacterQuestState) :
    (savedRecords list inactive).Pairwise fun e e' => e.1 ≠ e'.1 := by
  unfold savedRecords
  rw [List.pairwise_append]
  refine ⟨(sorted_activeRecords hlist).imp fun h => h.ne,
    (sorted_inactiveRecords list inactive).imp fun h => h.ne, ?_⟩
  intro e he e' he' heq
  obtain ⟨q, hfind, _⟩ := (mem_activeRecords hlist).mp he
  have hnone := (mem_inactiveRecords.mp he').1
  rw [← heq, hfind] at hnone
  cases hnone

theorem isStateName_of_mem (h : Savable list inactive) (hr : (id, r) ∈ savedRecords list inactive) :
    IsStateName r.questState := by
  rcases (mem_savedRecords h.id_eq).mp hr with ⟨q, hfind, rfl⟩ | ⟨_, hfind⟩
  · exact h.stateName id q hfind
  · exact h.inactive id r hfind

theorem parseRecords_questSerialize (h : Savable list inactive) :
    parseRecords (questSerialize list inactive) = savedRecords list inactive :=
  parseRecords_serializeRecords fun _ he => isStateName_of_mem h he

end Saved

/-! ## What is read back -/

namespace QuestWorld

/-- A character's quests. -/
def questList (w : QuestWorld σ) (c : ℕ) : SortedMap Int16 (Option QuestContext) :=
  (w.log c).quests.map fun x => x.map w.contexts

/-- What a character's quests are saved as. -/
def saveQuests (w : QuestWorld σ) (c : ℕ) : String :=
  questSerialize (w.questList c) (w.log c).inactive

end QuestWorld

/-- What the records are in quests that were read back from them. -/
structure ReadBack (table : QuestTable) (records : List (Int16 × CharacterQuestState))
    (list : SortedMap Int16 (Option QuestContext))
    (inactive : SortedMap Int16 CharacterQuestState) : Prop where
  resumed : ∀ id r, (id, r) ∈ records → table.Resumes id r →
    inactive.find? id = none ∧ ∃ quest q, list.find? id = some (some q) ∧
      table.quests.find? id = some quest ∧ QuestContext.Resumed quest r q
  kept : ∀ id r, (id, r) ∈ records → ¬ table.Resumes id r →
    list.find? id = none ∧ inactive.find? id = some r
  absent : ∀ id, (∀ r, (id, r) ∉ records) → list.find? id = none ∧ inactive.find? id = none

theorem readBack_questUnserialize {w : QuestWorld σ} {c : ℕ} (serialized : String)
    (hids : (parseRecords serialized).Pairwise fun e e' => e.1 ≠ e'.1)
    (hw : w.log c = QuestLog.new) :
    ∃ w', QuestHost.questUnserialize c serialized w = .done () w' ∧
      ReadBack w.table (parseRecords serialized) (w'.questList c) (w'.log c).inactive := by
  obtain ⟨w', hrun, h⟩ := restored_questUnserialize c hids w
  have hquests (id : Int16) : (w.log c).quests.find? id = none := by
    rw [hw]
    rfl
  have hinactive (id : Int16) : (w.log c).inactive.find? id = none := by
    rw [hw]
    rfl
  have honly {id : Int16} {r r' : CharacterQuestState} (hr : (id, r) ∈ parseRecords serialized)
      (hr' : (id, r') ∈ parseRecords serialized) : r = r' := by
    by_contra hne
    have hsymm : Std.Symm fun e e' : Int16 × CharacterQuestState => e.1 ≠ e'.1 :=
      ⟨fun _ _ => Ne.symm⟩
    exact hids.forall hr hr' (fun heq => hne (Prod.mk.inj heq).2) rfl
  refine ⟨w', hrun, ?_, ?_, ?_⟩
  · intro id r hr hresumes
    obtain ⟨x, quest, _, hfind, hquest, hctx⟩ := h.resumed id r hr hresumes (hquests id)
    refine ⟨?_, quest, w'.contexts x, ?_, hquest, hctx⟩
    · rw [h.inactive_eq id fun r' hr' => honly hr hr' ▸ hresumes, hinactive]
    · rw [QuestWorld.questList, SortedMap.find?_map, hfind]
      rfl
  · intro id r hr hresumes
    constructor
    · rw [QuestWorld.questList, SortedMap.find?_map,
        h.quests_eq id fun r' hr' => honly hr hr' ▸ hresumes, hquests]
      rfl
    · rw [h.kept id r hr hresumes, hinactive]
      rfl
  · intro id hnone
    constructor
    · rw [QuestWorld.questList, SortedMap.find?_map,
        h.quests_eq id fun r hr => absurd hr (hnone r), hquests]
      rfl
    · rw [h.inactive_eq id fun r hr => absurd hr (hnone r), hinactive]

/-! ## Saving again -/

theorem counters_progressText {q : QuestContext} (h : ∀ e ∈ q.progress.entries, 0 ≤ e.2.toInt) :
    q.progressText.counters = q.progress := by
  have hread := unserializeProgress_serializeProgress
    (fun e he => ⟨q.progress_keys e he, h e he⟩) []
  rw [List.append_nil] at hread
  exact congrArg Prod.fst hread

/-- The text that the counters read from a text have. -/
def ProgressText.canonical (text : ProgressText) : ProgressText :=
  ⟨serializeProgress text.counters, isProgressText_serializeProgress
    (isProgressKey_unserializeProgress text.property.1 fun _ he => nomatch he)⟩

/-- A record as the quest that it becomes is saved. -/
def QuestTable.saveAgain (table : QuestTable) (e : Int16 × CharacterQuestState) :
    Int16 × CharacterQuestState :=
  if table.Resumes e.1 e.2 then
    (e.1, ⟨Util.lowercase e.2.questState, e.2.questProgress.canonical⟩)
  else e

theorem QuestTable.fst_saveAgain (table : QuestTable) (e : Int16 × CharacterQuestState) :
    (table.saveAgain e).1 = e.1 := by
  unfold saveAgain
  split_ifs <;> rfl

theorem QuestContext.Resumed.record_eq {quest : Quest} {r : CharacterQuestState} {q : QuestContext}
    (h : QuestContext.Resumed quest r q) :
    q.record = ⟨Util.lowercase r.questState, r.questProgress.canonical⟩ := by
  have hcounters : q.progressText = r.questProgress.canonical := by
    apply Subtype.ext
    change serializeProgress q.progress = serializeProgress r.questProgress.counters
    rw [h.progress_eq]
  rw [record, h.stateName_eq, hcounters]

/-- The record of a quest is the one that it was read from. -/
theorem saveAgain_record (table : QuestTable) (id : Int16) {q : QuestContext}
    (h : ∀ e ∈ q.progress.entries, 0 ≤ e.2.toInt) :
    table.saveAgain (id, q.record) = (id, q.record) := by
  have hcounters : q.record.questProgress.canonical = q.record.questProgress := by
    apply Subtype.ext
    exact congrArg serializeProgress (counters_progressText h)
  have hname : Util.lowercase q.record.questState = q.record.questState := q.stateName_lower
  unfold QuestTable.saveAgain
  rw [hcounters, hname]
  split_ifs <;> rfl

namespace ReadBack

variable {table : QuestTable} {records : List (Int16 × CharacterQuestState)}
  {list : SortedMap Int16 (Option QuestContext)} {inactive : SortedMap Int16 CharacterQuestState}
  {id : Int16} {r : CharacterQuestState}

theorem mem_of_find? (h : ReadBack table records list inactive) {o : Option QuestContext}
    (hfind : list.find? id = some o) :
    ∃ r quest q, o = some q ∧ (id, r) ∈ records ∧ table.Resumes id r ∧
      table.quests.find? id = some quest ∧ QuestContext.Resumed quest r q := by
  by_cases hr : ∃ r, (id, r) ∈ records
  · obtain ⟨r, hr⟩ := hr
    by_cases hresumes : table.Resumes id r
    · obtain ⟨_, quest, q, hfind', hquest, hq⟩ := h.resumed id r hr hresumes
      rw [hfind, Option.some.injEq] at hfind'
      exact ⟨r, quest, q, hfind', hr, hresumes, hquest, hq⟩
    · rw [(h.kept id r hr hresumes).1] at hfind
      cases hfind
  · rw [(h.absent id (not_exists.mp hr)).1] at hfind
    cases hfind

theorem mem_of_inactive (h : ReadBack table records list inactive)
    (hfind : inactive.find? id = some r) : (id, r) ∈ records ∧ ¬ table.Resumes id r := by
  by_cases hr : ∃ r, (id, r) ∈ records
  · obtain ⟨r', hr⟩ := hr
    by_cases hresumes : table.Resumes id r'
    · rw [(h.resumed id r' hr hresumes).1] at hfind
      cases hfind
    · have hkept := (h.kept id r' hr hresumes).2
      rw [hfind, Option.some.injEq] at hkept
      rw [hkept]
      exact ⟨hr, hresumes⟩
  · rw [(h.absent id (not_exists.mp hr)).2] at hfind
    cases hfind

theorem id_eq (h : ReadBack table records list inactive) (id : Int16) (q : QuestContext)
    (hfind : list.find? id = some (some q)) : q.quest.id = id := by
  obtain ⟨r, quest, q', hq', _, _, hquest, hctx⟩ := h.mem_of_find? hfind
  cases hq'
  rw [hctx.quest_eq]
  exact table.id_eq id quest hquest

theorem mem_activeRecords (h : ReadBack table records list inactive) :
    (id, r) ∈ activeRecords list ↔
      ∃ r', (id, r') ∈ records ∧ table.Resumes id r' ∧ table.saveAgain (id, r') = (id, r) := by
  rw [ArenaServ.mem_activeRecords h.id_eq]
  constructor
  · rintro ⟨q, hfind, rfl⟩
    obtain ⟨r', quest, q', hq', hr', hresumes, _, hctx⟩ := h.mem_of_find? hfind
    cases hq'
    refine ⟨r', hr', hresumes, ?_⟩
    rw [QuestTable.saveAgain, if_pos hresumes, hctx.record_eq]
  · rintro ⟨r', hr', hresumes, hsave⟩
    obtain ⟨_, quest, q, hfind, _, hctx⟩ := h.resumed id r' hr' hresumes
    refine ⟨q, hfind, ?_⟩
    rw [QuestTable.saveAgain, if_pos hresumes] at hsave
    rw [hctx.record_eq]
    exact (Prod.mk.inj hsave).2

theorem mem_inactiveRecords (h : ReadBack table records list inactive) :
    (id, r) ∈ inactiveRecords list inactive ↔ (id, r) ∈ records ∧ ¬ table.Resumes id r := by
  rw [ArenaServ.mem_inactiveRecords]
  exact ⟨fun hfind => h.mem_of_inactive hfind.2, fun hr => h.kept id r hr.1 hr.2⟩

/-- The records are saved again, in an order of their own. -/
theorem perm_savedRecords (h : ReadBack table records list inactive)
    (hids : records.Pairwise fun e e' => e.1 ≠ e'.1) :
    (savedRecords list inactive).Perm (records.map table.saveAgain) := by
  have hsaved : (savedRecords list inactive).Nodup :=
    (distinct_savedRecords h.id_eq inactive).imp fun hne heq => hne (congrArg Prod.fst heq)
  have hrecords : (records.map table.saveAgain).Nodup := by
    apply List.pairwise_map.mpr
    apply hids.imp
    intro e e' hne heq
    apply hne
    rw [← table.fst_saveAgain e, heq, table.fst_saveAgain e']
  apply (List.perm_ext_iff_of_nodup hsaved hrecords).mpr
  rintro ⟨id, r⟩
  unfold savedRecords
  rw [List.mem_append, h.mem_activeRecords, h.mem_inactiveRecords, List.mem_map]
  constructor
  · rintro (⟨r', hr', _, hsave⟩ | ⟨hr, hresumes⟩)
    · exact ⟨(id, r'), hr', hsave⟩
    · exact ⟨(id, r), hr, if_neg hresumes⟩
  · rintro ⟨⟨id', r'⟩, hr', hsave⟩
    have hid : id = id' := by
      have hfst := table.fst_saveAgain (id', r')
      rw [hsave] at hfst
      exact hfst
    subst hid
    by_cases hresumes : table.Resumes id r'
    · exact Or.inl ⟨r', hr', hresumes, hsave⟩
    · rw [QuestTable.saveAgain, if_neg hresumes] at hsave
      cases hsave
      exact Or.inr ⟨hr', hresumes⟩

end ReadBack

/-! ## The round trip -/

section RoundTrip
variable {list list' : SortedMap Int16 (Option QuestContext)}
  {inactive inactive' : SortedMap Int16 CharacterQuestState} {table : QuestTable}

/-- What has become of quests and inactive records that were saved, where they are read back. -/
structure RoundTrip (table : QuestTable) (list : SortedMap Int16 (Option QuestContext))
    (inactive : SortedMap Int16 CharacterQuestState)
    (list' : SortedMap Int16 (Option QuestContext))
    (inactive' : SortedMap Int16 CharacterQuestState) : Prop where
  active_resumed : ∀ id q, list.find? id = some (some q) → table.Resumes id q.record →
    inactive'.find? id = none ∧ ∃ q', list'.find? id = some (some q') ∧
      q'.stateName = q.stateName ∧ q'.progress = q.progress
  active_kept : ∀ id q, list.find? id = some (some q) → ¬ table.Resumes id q.record →
    list'.find? id = none ∧ inactive'.find? id = some q.record
  inactive_resumed : ∀ id r, list.find? id = none → inactive.find? id = some r →
    table.Resumes id r → inactive'.find? id = none ∧ ∃ q', list'.find? id = some (some q') ∧
      q'.stateName = Util.lowercase r.questState ∧ q'.progress = r.questProgress.counters
  inactive_kept : ∀ id r, list.find? id = none → inactive.find? id = some r →
    ¬ table.Resumes id r → list'.find? id = none ∧ inactive'.find? id = some r
  absent : ∀ id, (∀ q, list.find? id ≠ some (some q)) →
    (list.find? id = none → inactive.find? id = none) →
    list'.find? id = none ∧ inactive'.find? id = none

/-- No quest becomes inactive and no record becomes active. -/
def Settled (table : QuestTable) (list : SortedMap Int16 (Option QuestContext))
    (inactive : SortedMap Int16 CharacterQuestState) : Prop :=
  (∀ id q, list.find? id = some (some q) → table.Resumes id q.record) ∧
    ∀ id r, list.find? id = none → inactive.find? id = some r → ¬ table.Resumes id r

theorem roundTrip_of_readBack (hsavable : Savable list inactive)
    (h : ReadBack table (savedRecords list inactive) list' inactive') :
    RoundTrip table list inactive list' inactive' := by
  have hmem {id : Int16} {r : CharacterQuestState} :
      (id, r) ∈ savedRecords list inactive ↔
        (∃ q, list.find? id = some (some q) ∧ q.record = r) ∨
          list.find? id = none ∧ inactive.find? id = some r :=
    mem_savedRecords hsavable.id_eq
  constructor
  · intro id q hq hresumes
    obtain ⟨hnone, quest, q', hfind, _, hctx⟩ :=
      h.resumed id q.record (hmem.mpr (Or.inl ⟨q, hq, rfl⟩)) hresumes
    refine ⟨hnone, q', hfind, ?_, ?_⟩
    · rw [hctx.stateName_eq]
      exact q.stateName_lower
    · rw [hctx.progress_eq]
      exact counters_progressText (hsavable.counters id q hq)
  · intro id q hq hresumes
    exact h.kept id q.record (hmem.mpr (Or.inl ⟨q, hq, rfl⟩)) hresumes
  · intro id r hnone hr hresumes
    obtain ⟨hnone', quest, q', hfind, _, hctx⟩ :=
      h.resumed id r (hmem.mpr (Or.inr ⟨hnone, hr⟩)) hresumes
    exact ⟨hnone', q', hfind, hctx.stateName_eq, hctx.progress_eq⟩
  · intro id r hnone hr hresumes
    exact h.kept id r (hmem.mpr (Or.inr ⟨hnone, hr⟩)) hresumes
  · intro id hactive hinactive
    apply h.absent id
    intro r hr
    rcases hmem.mp hr with ⟨q, hq, _⟩ | ⟨hnone, hr⟩
    · exact hactive q hq
    · rw [hinactive hnone] at hr
      cases hr

/-- When no record moves, the text is the same again. -/
theorem questSerialize_of_readBack (hsavable : Savable list inactive)
    (hsettled : Settled table list inactive)
    (h : ReadBack table (savedRecords list inactive) list' inactive') :
    questSerialize list' inactive' = questSerialize list inactive := by
  have hactive : activeRecords list' = activeRecords list := by
    apply SortedMap.eq_of_mem_iff (sorted_activeRecords h.id_eq)
      (sorted_activeRecords hsavable.id_eq)
    rintro ⟨id, r⟩
    rw [h.mem_activeRecords, mem_activeRecords hsavable.id_eq]
    constructor
    · rintro ⟨r', hr', hresumes, hsave⟩
      rcases (mem_savedRecords hsavable.id_eq).mp hr' with ⟨q, hq, rfl⟩ | ⟨hnone, hr'⟩
      · rw [saveAgain_record table id (hsavable.counters id q hq)] at hsave
        exact ⟨q, hq, (Prod.mk.inj hsave).2⟩
      · exact absurd hresumes (hsettled.2 id r' hnone hr')
    · rintro ⟨q, hq, rfl⟩
      exact ⟨q.record, (mem_savedRecords hsavable.id_eq).mpr (Or.inl ⟨q, hq, rfl⟩),
        hsettled.1 id q hq, saveAgain_record table id (hsavable.counters id q hq)⟩
  have hinactive : inactiveRecords list' inactive' = inactiveRecords list inactive := by
    apply SortedMap.eq_of_mem_iff (sorted_inactiveRecords list' inactive')
      (sorted_inactiveRecords list inactive)
    rintro ⟨id, r⟩
    rw [h.mem_inactiveRecords, mem_inactiveRecords, mem_savedRecords hsavable.id_eq]
    constructor
    · rintro ⟨⟨q, hq, rfl⟩ | hr, hresumes⟩
      · exact absurd (hsettled.1 id q hq) hresumes
      · exact hr
    · intro hr
      exact ⟨Or.inr hr, hsettled.2 id r hr.1 hr.2⟩
  unfold questSerialize
  rw [hactive, hinactive]

end RoundTrip

namespace QuestHost

/-- Quests read back by a character that has none yet. -/
theorem questUnserialize_questSerialize {list : SortedMap Int16 (Option QuestContext)}
    {inactive : SortedMap Int16 CharacterQuestState} (hsavable : Savable list inactive)
    {w : QuestWorld σ} {c : ℕ} (hw : w.log c = QuestLog.new) :
    ∃ w', questUnserialize c (questSerialize list inactive) w = .done () w' ∧
      RoundTrip w.table list inactive (w'.questList c) (w'.log c).inactive ∧
      (∃ records, w'.saveQuests c = serializeRecords records ∧
        records.Perm ((savedRecords list inactive).map w.table.saveAgain)) ∧
      (Settled w.table list inactive → w'.saveQuests c = questSerialize list inactive) := by
  have hparse := parseRecords_questSerialize hsavable
  have hids := distinct_savedRecords hsavable.id_eq inactive
  obtain ⟨w', hrun, hread⟩ :=
    readBack_questUnserialize (questSerialize list inactive) (hparse.symm ▸ hids) hw
  rw [hparse] at hread
  exact ⟨w', hrun, roundTrip_of_readBack hsavable hread,
    ⟨_, rfl, hread.perm_savedRecords hids⟩,
    fun hsettled => questSerialize_of_readBack hsavable hsettled hread⟩

end QuestHost

def plainQuest (id : Int16) : ArenaServ.Quest :=
  ⟨id, .single ⟨"", [], [], 0, noRules_goal⟩, by decide⟩

/-- A quest that is begun. -/
def begunQuests (id : Int16) : SortedMap Int16 (Option QuestContext) :=
  SortedMap.empty.insert id (some ((QuestContext.new 3 (plainQuest id)).setName "begin"))

/-- A record of a finished quest. -/
def endedRecords (id : Int16) : SortedMap Int16 CharacterQuestState :=
  SortedMap.empty.insert id ⟨"end", noProgress⟩

theorem eq_of_find?_begunQuests {id i : Int16} {q : QuestContext}
    (h : (begunQuests id).find? i = some (some q)) :
    i = id ∧ q = (QuestContext.new 3 (plainQuest id)).setName "begin" := by
  unfold begunQuests at h
  rw [SortedMap.find?_insert] at h
  split_ifs at h with hi
  · exact ⟨hi, (Option.some.inj (Option.some.inj h)).symm⟩
  · cases h

theorem eq_of_find?_endedRecords {id i : Int16} {r : CharacterQuestState}
    (h : (endedRecords id).find? i = some r) : i = id ∧ r = ⟨"end", noProgress⟩ := by
  unfold endedRecords at h
  rw [SortedMap.find?_insert] at h
  split_ifs at h with hi
  · exact ⟨hi, (Option.some.inj h).symm⟩
  · cases h

theorem savable_begunQuests (id id' : Int16) : Savable (begunQuests id) (endedRecords id') := by
  have hname : ((QuestContext.new 3 (plainQuest id)).setName "begin").stateName =
      Util.lowercase "begin" := by
    unfold QuestContext.setName
    split_ifs <;> rfl
  have hprogress : ((QuestContext.new 3 (plainQuest id)).setName "begin").progress =
      SortedMap.empty := by
    unfold QuestContext.setName
    split_ifs <;> rfl
  constructor
  · intro i q h
    obtain ⟨rfl, rfl⟩ := eq_of_find?_begunQuests h
    rw [QuestContext.quest_setName]
    rfl
  · intro i q h
    obtain ⟨rfl, rfl⟩ := eq_of_find?_begunQuests h
    rw [hname]
    decide +kernel
  · intro i q h
    obtain ⟨rfl, rfl⟩ := eq_of_find?_begunQuests h
    rw [hprogress]
    exact fun _ he => nomatch he
  · intro i r h
    obtain ⟨rfl, rfl⟩ := eq_of_find?_endedRecords h
    decide

theorem QuestHost.questUnserialize_questSerialize_begun :
    Savable (begunQuests 1) (endedRecords 2) ∧
      ∃ w', questUnserialize 3 (questSerialize (begunQuests 1) (endedRecords 2))
          (QuestWorld.start (.single (plainQuest 1)) ()) = .done () w' ∧
        w'.saveQuests 3 = "1,begin,\x7b\x7d;2,end,\x7b\x7d;" := by
  refine ⟨savable_begunQuests 1 2, ?_⟩
  obtain ⟨w', hrun, _, _, hsame⟩ := questUnserialize_questSerialize (savable_begunQuests 1 2)
    (w := QuestWorld.start (.single (plainQuest 1)) ()) (c := 3) rfl
  refine ⟨w', hrun, ?_⟩
  rw [hsame]
  · decide +kernel
  · constructor
    · intro id q hq
      obtain ⟨rfl, rfl⟩ := eq_of_find?_begunQuests hq
      decide +kernel
    · intro id r _ hr
      obtain ⟨rfl, rfl⟩ := eq_of_find?_endedRecords hr
      decide

/-- The record of a finished quest becomes a quest again where that quest is loaded, and the
record of a quest that is not moves behind it. -/
theorem QuestHost.not_questUnserialize_questSerialize :
    ∃ list inactive, Savable list inactive ∧
      (inactive.find? 2).map (·.questState) = some "end" ∧
      ∀ w', questUnserialize 3 (questSerialize list inactive)
          (QuestWorld.start (.single (plainQuest 2)) ()) = .done () w' →
        (w'.log 3).inactive.find? 2 = none ∧
          w'.saveQuests 3 ≠ questSerialize list inactive := by
  refine ⟨begunQuests 1, endedRecords 2, savable_begunQuests 1 2, by decide, ?_⟩
  have heval : (questUnserialize 3 (questSerialize (begunQuests 1) (endedRecords 2))
        (QuestWorld.start (.single (plainQuest 2)) ())).state?.map
          (fun w' => ((w'.log 3).inactive.find? 2, w'.saveQuests 3)) =
      some (none, "2,end,\x7b\x7d;1,begin,\x7b\x7d;") := by
    decide +kernel
  intro w' hrun
  rw [hrun] at heval
  obtain ⟨hnone, hsave⟩ := Prod.mk.inj (Option.some.inj heval)
  refine ⟨hnone, ?_⟩
  rw [hsave]
  decide +kernel

end ArenaServ
