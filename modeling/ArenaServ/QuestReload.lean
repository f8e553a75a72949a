import ArenaServ.QuestPersistence
import ArenaServ.RunSteps

/-!
# Reloading the quests

A reload stashes the state of every quest among the inactive records, drops the quests, and
makes quests of the records again. A record that is there already is not overwritten and no
record is ever removed, so from the second reload on the stash may hold an older state.
-/

namespace ArenaServ

open EOPlus Exec QuestExec

variable {σ : Type}

/-! ## The stash -/

namespace QuestLog

/-- The record that a reload makes a quest again from. -/
def stashed (log : QuestLog) (contexts : ℕ → QuestContext) (id : Int16) :
    Option CharacterQuestState :=
  (log.inactive.find? id).or
    (((log.quests.find? id).join).map fun x => (contexts x).record)

/-- The quests of a list become inactive records, unless there is one. -/
def backUpAll (contexts : ℕ → QuestContext) (quests : List (Int16 × Option ℕ)) (log : QuestLog) :
    QuestLog :=
  quests.foldl
    (fun log e =>
      match e.2 with
      | none => log
      | some x => { log with inactive := log.inactive.insertNew e.1 (contexts x).record })
    log

variable {contexts : ℕ → QuestContext} {log : QuestLog}

theorem quests_backUpAll (quests : List (Int16 × Option ℕ)) (log : QuestLog) :
    (log.backUpAll contexts quests).quests = log.quests := by
  induction quests generalizing log with
  | nil => rfl
  | cons e rest ih =>
      rw [backUpAll, List.foldl_cons]
      refine (ih _).trans ?_
      cases e.2 <;> rfl

theorem find?_backUpAll {quests : List (Int16 × Option ℕ)}
    (h : quests.Pairwise fun a b => a.1 < b.1) (log : QuestLog) (id : Int16) :
    (log.backUpAll contexts quests).inactive.find? id =
      (log.inactive.find? id).or
        (((SortedMap.lookup id quests).join).map fun x => (contexts x).record) := by
  induction quests generalizing log with
  | nil => exact Option.or_none.symm
  | cons e rest ih =>
      obtain ⟨hhead, hrest⟩ := List.pairwise_cons.mp h
      rw [backUpAll, List.foldl_cons]
      refine (ih hrest _).trans ?_
      obtain ⟨i, o⟩ := e
      rw [SortedMap.lookup]
      by_cases hi : id = i
      · have hnone : SortedMap.lookup id rest = none :=
          SortedMap.lookup_eq_none fun e he => hi ▸ (hhead e he).ne'
        rw [if_pos hi, hnone]
        cases o with
        | none => rfl
        | some x =>
            dsimp only
            rw [SortedMap.find?_insertNew, if_pos hi, ← hi]
            cases log.inactive.find? id <;> rfl
      · rw [if_neg hi]
        cases o with
        | none => rfl
        | some x =>
            dsimp only
            rw [SortedMap.find?_insertNew, if_neg hi]

def backUp (contexts : ℕ → QuestContext) (log : QuestLog) : QuestLog :=
  log.backUpAll contexts log.quests.entries

theorem quests_backUp : (log.backUp contexts).quests = log.quests :=
  quests_backUpAll _ _

theorem find?_backUp (id : Int16) :
    (log.backUp contexts).inactive.find? id = log.stashed contexts id :=
  find?_backUpAll log.quests.sorted log id

theorem backUp_backUp : (log.backUp contexts).backUp contexts = log.backUp contexts := by
  have hinactive : ((log.backUp contexts).backUp contexts).inactive =
      (log.backUp contexts).inactive := by
    ext id : 1
    rw [find?_backUp, stashed, quests_backUp, find?_backUp, stashed]
    cases log.inactive.find? id with
    | some r => rfl
    | none => cases ((log.quests.find? id).join.map fun x => (contexts x).record) <;> rfl
  have hquests : ((log.backUp contexts).backUp contexts).quests = (log.backUp contexts).quests :=
    quests_backUp
  revert hinactive hquests
  cases (log.backUp contexts).backUp contexts
  cases log.backUp contexts
  rintro rfl rfl
  rfl

end QuestLog

namespace QuestWorld

theorem putLog_putLog (w : QuestWorld σ) (c : ℕ) (log log' : QuestLog) :
    (w.putLog c log).putLog c log' = w.putLog c log' := by
  unfold putLog
  simp only [Function.update_idem]

theorem backUp_eq_putLog (w : QuestWorld σ) (c : ℕ) :
    w.backUp c = w.putLog c ((w.log c).backUp w.contexts) := by
  have hfold (quests : List (Int16 × Option ℕ)) (w : QuestWorld σ) :
      quests.foldl
        (fun w e =>
          match e.2 with
          | none => w
          | some x => w.insertInactive c e.1 (w.contexts x).record) w =
        w.putLog c ((w.log c).backUpAll w.contexts quests) := by
    induction quests generalizing w with
    | nil => exact (w.putLog_log c).symm
    | cons e rest ih =>
        rw [List.foldl_cons, ih]
        obtain ⟨i, o⟩ := e
        cases o with
        | none => rfl
        | some x =>
            dsimp only
            rw [insertInactive, log_putLog, putLog_putLog]
            rfl
  exact hfold _ w

/-- What is done to the logs of some characters, one after the other. -/
theorem foldl_putLog {f : (ℕ → QuestContext) → QuestLog → QuestLog}
    (hf : ∀ contexts log, f contexts (f contexts log) = f contexts log) (l : List ℕ)
    (w : QuestWorld σ) :
    l.foldl (fun w c => w.putLog c (f w.contexts (w.log c))) w =
      { w with log := fun c => if c ∈ l then f w.contexts (w.log c) else w.log c } := by
  induction l generalizing w with
  | nil => rfl
  | cons d rest ih =>
      rw [List.foldl_cons, ih]
      have hlog : (fun c =>
          if c ∈ rest then f w.contexts ((w.putLog d (f w.contexts (w.log d))).log c)
          else (w.putLog d (f w.contexts (w.log d))).log c) =
            fun c => if c ∈ d :: rest then f w.contexts (w.log c) else w.log c := by
        funext c
        by_cases hc : c = d
        · rw [hc, log_putLog, if_pos List.mem_cons_self, hf, ite_self]
        · rw [w.log_putLog_of_ne hc]
          simp only [List.mem_cons, hc, false_or]
      rw [← hlog]
      rfl

/-- The world in which the quests are restored. -/
def stash (table : QuestTable) (w : QuestWorld σ) : QuestWorld σ :=
  { w with
    table := table
    log := fun c =>
      if c ∈ w.characters then ⟨SortedMap.empty, ((w.log c).backUp w.contexts).inactive⟩
      else w.log c }

theorem stash_eq (table : QuestTable) (w : QuestWorld σ) :
    { (w.characters.foldl (fun w c => w.backUp c) w).characters.foldl (fun w c => w.clearQuests c)
        (w.characters.foldl (fun w c => w.backUp c) w) with table := table } = w.stash table := by
  have hbackUp : w.characters.foldl (fun w c => w.backUp c) w =
      { w with log := fun c =>
          if c ∈ w.characters then (w.log c).backUp w.contexts else w.log c } := by
    rw [← foldl_putLog (f := QuestLog.backUp) fun _ _ => QuestLog.backUp_backUp]
    simp only [backUp_eq_putLog]
  have hclear := foldl_putLog (f := fun _ log => ⟨SortedMap.empty, log.inactive⟩)
    (fun _ _ => rfl) w.characters (w.characters.foldl (fun w c => w.backUp c) w)
  rw [hbackUp] at hclear ⊢
  have hlog : (fun c =>
      if c ∈ w.characters then
        (⟨SortedMap.empty, (if c ∈ w.characters then (w.log c).backUp w.contexts
          else w.log c).inactive⟩ : QuestLog)
      else if c ∈ w.characters then (w.log c).backUp w.contexts else w.log c) =
        (w.stash table).log := by
    funext c
    unfold stash
    dsimp only
    split_ifs <;> rfl
  refine (congrArg (fun v : QuestWorld σ => { v with table := table }) hclear).trans ?_
  exact congrArg (fun log => { w with table := table, log := log }) hlog

variable {w : QuestWorld σ} {table : QuestTable} {c : ℕ}

theorem log_stash (hc : c ∈ w.characters) :
    (w.stash table).log c = ⟨SortedMap.empty, ((w.log c).backUp w.contexts).inactive⟩ :=
  if_pos hc

end QuestWorld

/-! ## The restoring -/

/-- The quests of a character are those of its inactive records that can be resumed. -/
structure FromInactive (table : QuestTable) (inactive : SortedMap Int16 CharacterQuestState)
    (c : ℕ) (w : QuestWorld σ) : Prop where
  inactive_eq : (w.log c).inactive = inactive
  resumed : ∀ id r, inactive.find? id = some r → table.Resumes id r →
    ∃ x quest, x < w.contextCount ∧ (w.log c).quests.find? id = some (some x) ∧
      table.quests.find? id = some quest ∧ QuestContext.Resumed quest r (w.contexts x)
  kept : ∀ id r, inactive.find? id = some r → ¬ table.Resumes id r →
    (w.log c).quests.find? id = none

section Restoring
variable {c d : ℕ} {w w' : QuestWorld σ} {table : QuestTable}
  {inactive : SortedMap Int16 CharacterQuestState}

/-- A character that nothing is restored for keeps its quests. -/
theorem FromInactive.frame (h : FromInactive table inactive d w)
    (hlog : w'.log d = w.log d) (hcount : w.contextCount ≤ w'.contextCount)
    (hcontexts : ∀ x < w.contextCount, w'.contexts x = w.contexts x) :
    FromInactive table inactive d w' where
  inactive_eq := by rw [hlog, h.inactive_eq]
  resumed := by
    intro id r hr hresumes
    obtain ⟨x, quest, hx, hfind, hquest, hctx⟩ := h.resumed id r hr hresumes
    refine ⟨x, quest, hx.trans_le hcount, ?_, hquest, ?_⟩
    · rw [hlog, hfind]
    · rw [hcontexts x hx]
      exact hctx
  kept := by
    intro id r hr hresumes
    rw [hlog, h.kept id r hr hresumes]

/-- What a character's quests being restored leaves as it is. -/
structure RestoredFor (c : ℕ) (w w' : QuestWorld σ) : Prop where
  table_eq : w'.table = w.table
  inactive_eq : ∀ d, (w'.log d).inactive = (w.log d).inactive
  count_le : w.contextCount ≤ w'.contextCount
  contexts_eq : ∀ x < w.contextCount, w'.contexts x = w.contexts x
  log_eq : ∀ d ≠ c, w'.log d = w.log d

/-- A record that is there already is not inserted. -/
theorem insertInactive_of_find? {id : Int16} {r : CharacterQuestState}
    (h : (w.log c).inactive.find? id = some r) (r' : CharacterQuestState) :
    w.insertInactive c id r' = w := by
  have hinsert : (w.log c).inactive.insertNew id r' = (w.log c).inactive := by
    unfold SortedMap.insertNew
    rw [h, if_pos (by rfl)]
  rw [QuestWorld.insertInactive, hinsert]
  exact w.putLog_log c

theorem Restored.inactive_eq_of_find? {records : List (Int16 × CharacterQuestState)}
    (h : Restored c records w w')
    (hrecords : ∀ e ∈ records, (w.log c).inactive.find? e.1 = some e.2) :
    (w'.log c).inactive = (w.log c).inactive := by
  ext id : 1
  by_cases hkept : ∃ r, (id, r) ∈ records ∧ ¬ w.table.Resumes id r
  · obtain ⟨r, hr, hresumes⟩ := hkept
    rw [h.kept id r hr hresumes, hrecords _ hr]
    rfl
  · apply h.inactive_eq id
    intro r hr
    by_contra hresumes
    exact hkept ⟨r, hr, hresumes⟩

theorem restoreQuests_spec (c : ℕ) (w : QuestWorld σ) :
    ∃ w', QuestHost.restoreQuests c w = .done () w' ∧ RestoredFor c w w' ∧
      FromInactive w.table (w.log c).inactive c w' := by
  have hlog : (w.clearQuests c).log c = { w.log c with quests := SortedMap.empty } :=
    w.log_putLog c _
  have hids : (w.log c).inactive.entries.Pairwise fun e e' => e.1 ≠ e'.1 :=
    (w.log c).inactive.sorted.imp fun h => h.ne
  have hfind (e : Int16 × CharacterQuestState) (he : e ∈ (w.log c).inactive.entries) :
      (w.log c).inactive.find? e.1 = some e.2 := SortedMap.mem_entries_iff.mp he
  have hask (e : Int16 × CharacterQuestState) (he : e ∈ (w.log c).inactive.entries)
      (v v' : QuestWorld σ) (hv : v.table = w.table ∧ (v.log c).inactive = (w.log c).inactive)
      (hone : Restored c [e] v v') :
      v'.table = w.table ∧ (v'.log c).inactive = (w.log c).inactive := by
    refine ⟨hone.table_eq.trans hv.1, (hone.inactive_eq_of_find? ?_).trans hv.2⟩
    intro e' he'
    rw [List.mem_singleton.mp he', hv.2]
    exact hfind e he
  have hbody (e : Int16 × CharacterQuestState) (he : e ∈ (w.log c).inactive.entries)
      (v : QuestWorld σ) (hv : v.table = w.table ∧ (v.log c).inactive = (w.log c).inactive) :
      ∃ v', QuestHost.restoreRecord c w.table e v = .done () v' ∧ Restored c [e] v v' := by
    unfold QuestHost.restoreRecord
    cases hquest : w.table.quests.find? e.1 with
    | none =>
        refine ⟨v, rfl, ?_⟩
        have hresumes : ¬ v.table.Resumes e.1 e.2 := by
          rintro ⟨quest, hquest', _⟩
          rw [hv.1, hquest] at hquest'
          cases hquest'
        have hone := Restored.insertInactive c v hresumes
        rw [insertInactive_of_find? (hv.2 ▸ hfind e he)] at hone
        exact hone
    | some quest => exact Restored.restoreQuest c v (hv.1 ▸ hquest)
  have hcleared : (w.clearQuests c).table = w.table ∧
      ((w.clearQuests c).log c).inactive = (w.log c).inactive := ⟨rfl, by rw [hlog]⟩
  obtain ⟨w', hrun, h⟩ := Restored.forEach _ hids hask hbody hcleared
  have hinactive : (w'.log c).inactive = (w.log c).inactive := by
    rw [h.inactive_eq_of_find?, hlog]
    rw [hlog]
    exact hfind
  refine ⟨w', ?_, ⟨h.table_eq, ?_, h.count_le, h.contexts_eq, ?_⟩, hinactive, ?_, ?_⟩
  · unfold QuestHost.restoreQuests
    rw [modify_bind, get_bind, hlog]
    exact hrun
  · intro d
    by_cases hd : d = c
    · rw [hd, hinactive]
    · rw [h.log_eq d hd, QuestWorld.clearQuests, w.log_putLog_of_ne hd]
  · intro d hd
    rw [h.log_eq d hd, QuestWorld.clearQuests, w.log_putLog_of_ne hd]
  · intro id r hr hresumes
    apply h.resumed id r (SortedMap.mem_entries_iff.mpr hr) hresumes
    rw [hlog]
    rfl
  · intro id r hr hresumes
    rw [h.quests_eq id, hlog]
    · rfl
    · intro r' hr'
      have heq : some r' = some r := (SortedMap.mem_entries_iff.mp hr').symm.trans hr
      rw [Option.some.inj heq]
      exact hresumes

/-- Each character in turn; those whose turn has been keep what they got. -/
theorem forEach_restoreQuests (inactives : ℕ → SortedMap Int16 CharacterQuestState)
    (restored : ℕ → Prop) (l : List ℕ) (htable : w.table = table)
    (hinactive : ∀ c, (w.log c).inactive = inactives c)
    (hrestored : ∀ c, restored c → FromInactive table (inactives c) c w) :
    ∃ w', Exec.forEach l QuestHost.restoreQuests w = .done () w' ∧
      ∀ c, restored c ∨ c ∈ l → FromInactive table (inactives c) c w' := by
  induction l generalizing w restored with
  | nil => exact ⟨w, rfl, fun c hc => hrestored c (hc.resolve_right List.not_mem_nil)⟩
  | cons d rest ih =>
      obtain ⟨w', hrun, hframe, hfrom⟩ := restoreQuests_spec d w
      rw [htable, hinactive d] at hfrom
      have hnext (c : ℕ) (hc : restored c ∨ c = d) : FromInactive table (inactives c) c w' := by
        by_cases hcd : c = d
        · rw [hcd]
          exact hfrom
        · exact (hrestored c (hc.resolve_right hcd)).frame (hframe.log_eq c hcd) hframe.count_le
            hframe.contexts_eq
      obtain ⟨w'', hruns, hall⟩ := ih _ (hframe.table_eq.trans htable)
        (fun c => (hframe.inactive_eq c).trans (hinactive c)) hnext
      refine ⟨w'', ?_, ?_⟩
      · rw [Exec.forEach, bind_of_done hrun, hruns]
      · intro c hc
        apply hall c
        rw [List.mem_cons] at hc
        tauto

end Restoring

/-! ## A reload -/

/-- After a reload each character that is online has the quests that its stash can resume. -/
theorem replaceQuests_spec (table : QuestTable) (w : QuestWorld σ) :
    ∃ w', QuestHost.replaceQuests table w = .done () w' ∧
      ∀ c ∈ w.characters,
        FromInactive table ((w.log c).backUp w.contexts).inactive c w' := by
  obtain ⟨w', hrun, hall⟩ := forEach_restoreQuests (w := w.stash table)
    (fun c => ((w.stash table).log c).inactive) (fun _ => False) w.characters rfl (fun _ => rfl)
    fun _ hc => hc.elim
  refine ⟨w', ?_, ?_⟩
  · unfold QuestHost.replaceQuests
    rw [modify_bind, modify_bind, get_bind, QuestWorld.stash_eq]
    exact hrun
  · intro c hc
    have hfrom := hall c (Or.inr hc)
    rw [QuestWorld.log_stash hc] at hfrom
    exact hfrom

/-- A quest whose script has its state is in that state with the same counters after a reload,
and any other is an inactive record of its state. -/
def KeepsQuests (table : QuestTable) (w : QuestWorld σ) : Prop :=
  ∃ w', QuestHost.replaceQuests table w = .done () w' ∧
    ∀ c ∈ w.characters, ∀ id q, (w.questList c).find? id = some (some q) →
      if table.Resumes id q.record then
        ∃ q', (w'.questList c).find? id = some (some q') ∧ q'.stateName = q.stateName ∧
          q'.progress = q.progress
      else (w'.questList c).find? id = none ∧ (w'.log c).inactive.find? id = some q.record

/-- The record of the quest that a reload finds, an older one if there is one. -/
def QuestLog.recordOf (log : QuestLog) (id : Int16) (q : QuestContext) : CharacterQuestState :=
  (log.inactive.find? id).getD q.record

/-- A record that stands for the state that the quest is in. -/
def CharacterQuestState.StandsFor (r : CharacterQuestState) (q : QuestContext) : Prop :=
  Util.lowercase r.questState = q.stateName ∧ r.questProgress.counters = q.progress

/-- No older record than the present state is in the way, and the counters can be read back. -/
def RecordsCurrent (table : QuestTable) (w : QuestWorld σ) : Prop :=
  ∀ c ∈ w.characters, ∀ id q, (w.questList c).find? id = some (some q) →
    if table.Resumes id q.record then ((w.log c).recordOf id q).StandsFor q
    else (w.log c).recordOf id q = q.record

theorem QuestWorld.find?_questList (w : QuestWorld σ) (c : ℕ) (id : Int16) :
    (w.questList c).find? id = ((w.log c).quests.find? id).map fun x => x.map w.contexts :=
  SortedMap.find?_map _ _ _

theorem stashed_eq {w : QuestWorld σ} {c : ℕ} {id : Int16} {q : QuestContext}
    (h : (w.questList c).find? id = some (some q)) :
    (w.log c).stashed w.contexts id = some ((w.log c).recordOf id q) := by
  rw [w.find?_questList] at h
  obtain ⟨o, ho, hq⟩ := Option.map_eq_some_iff.mp h
  obtain ⟨x, rfl, rfl⟩ := Option.map_eq_some_iff.mp hq
  unfold QuestLog.stashed QuestLog.recordOf
  rw [ho]
  cases (w.log c).inactive.find? id <;> rfl

theorem CharacterQuestState.StandsFor.resumes_iff {table : QuestTable} {id : Int16}
    {r : CharacterQuestState} {q : QuestContext} (h : r.StandsFor q) :
    table.Resumes id r ↔ table.Resumes id q.record := by
  have hname : Util.lowercase r.questState = Util.lowercase q.record.questState :=
    h.1.trans q.stateName_lower.symm
  unfold QuestTable.Resumes
  rw [hname]

namespace FromInactive

variable {table : QuestTable} {w w' : QuestWorld σ} {c : ℕ} {id : Int16} {r : CharacterQuestState}
  {q : QuestContext} {inactive : SortedMap Int16 CharacterQuestState}

/-- The quest of a record is as the record has it. -/
theorem standsFor_iff (h : FromInactive table inactive c w') (hr : inactive.find? id = some r)
    (hresumes : table.Resumes id q.record) :
    (∃ q', (w'.questList c).find? id = some (some q') ∧ q'.stateName = q.stateName ∧
      q'.progress = q.progress) ↔ r.StandsFor q := by
  constructor
  · rintro ⟨q', hfind, hname, hprogress⟩
    rw [w'.find?_questList] at hfind
    by_cases hr' : table.Resumes id r
    · obtain ⟨x, quest, _, hx, _, hctx⟩ := h.resumed id r hr hr'
      rw [hx] at hfind
      cases hfind
      exact ⟨hctx.stateName_eq.symm.trans hname, hctx.progress_eq.symm.trans hprogress⟩
    · rw [h.kept id r hr hr'] at hfind
      cases hfind
  · intro hstands
    obtain ⟨x, quest, _, hx, _, hctx⟩ := h.resumed id r hr (hstands.resumes_iff.mpr hresumes)
    refine ⟨w'.contexts x, ?_, hctx.stateName_eq.trans hstands.1,
      hctx.progress_eq.trans hstands.2⟩
    rw [w'.find?_questList, hx]
    rfl

theorem kept_iff (h : FromInactive table inactive c w') (hr : inactive.find? id = some r)
    (hresumes : ¬ table.Resumes id q.record) :
    ((w'.questList c).find? id = none ∧ (w'.log c).inactive.find? id = some q.record) ↔
      r = q.record := by
  rw [h.inactive_eq, hr, Option.some.injEq]
  constructor
  · exact And.right
  · rintro rfl
    rw [w'.find?_questList, h.kept id q.record hr hresumes]
    exact ⟨rfl, rfl⟩

end FromInactive

theorem keepsQuests_iff (table : QuestTable) (w : QuestWorld σ) :
    KeepsQuests table w ↔ RecordsCurrent table w := by
  obtain ⟨w', hrun, hfrom⟩ := replaceQuests_spec table w
  have hkeeps : KeepsQuests table w ↔
      ∀ c ∈ w.characters, ∀ id q, (w.questList c).find? id = some (some q) →
        if table.Resumes id q.record then
          ∃ q', (w'.questList c).find? id = some (some q') ∧ q'.stateName = q.stateName ∧
            q'.progress = q.progress
        else (w'.questList c).find? id = none ∧ (w'.log c).inactive.find? id = some q.record := by
    constructor
    · rintro ⟨w'', hrun', hall⟩
      rw [hrun] at hrun'
      cases hrun'
      exact hall
    · exact fun hall => ⟨w', hrun, hall⟩
  rw [hkeeps]
  apply forall₂_congr
  intro c hc
  apply forall₂_congr
  intro id q
  apply imp_congr_right
  intro hq
  have hr : ((w.log c).backUp w.contexts).inactive.find? id =
      some ((w.log c).recordOf id q) := by
    rw [QuestLog.find?_backUp, stashed_eq hq]
  split_ifs with hresumes
  · exact (hfrom c hc).standsFor_iff hr hresumes
  · exact (hfrom c hc).kept_iff hr hresumes

/-- The first reload after the records are gone finds the present states. -/
theorem recordsCurrent_of_noRecords {table : QuestTable} {w : QuestWorld σ}
    (hrecords : ∀ c ∈ w.characters, ∀ id q, (w.questList c).find? id = some (some q) →
      (w.log c).inactive.find? id = none)
    (hcounters : ∀ c ∈ w.characters, ∀ id q, (w.questList c).find? id = some (some q) →
      ∀ e ∈ q.progress.entries, 0 ≤ e.2.toInt) :
    RecordsCurrent table w := by
  intro c hc id q hq
  have hrecord : (w.log c).recordOf id q = q.record := by
    rw [QuestLog.recordOf, hrecords c hc id q hq]
    rfl
  rw [hrecord]
  split_ifs
  · exact ⟨q.stateName_lower, counters_progressText (hcounters c hc id q hq)⟩
  · rfl

/-! ## Runs -/

namespace QuestHost

/-- What an event leaves of the quests, should it be a reload. -/
def KeepsAtReload (w : QuestWorld σ) : QuestEvent σ → Prop
  | .reloadQuests table => KeepsQuests table w
  | _ => True

def CurrentAtReload (w : QuestWorld σ) : QuestEvent σ → Prop
  | .reloadQuests table => RecordsCurrent table w
  | _ => True

/-- Reloads between any quest play. -/
theorem keepsAtReload_iff (host : QuestHost σ) (fuel : ℕ) (table : QuestTable) (rest : σ)
    (events : List (QuestEvent σ)) :
    RunSteps.Every (host.step fuel) KeepsAtReload (QuestWorld.start table rest) events ↔
      RunSteps.Every (host.step fuel) CurrentAtReload (QuestWorld.start table rest) events := by
  have hiff (w : QuestWorld σ) (e : QuestEvent σ) : KeepsAtReload w e ↔ CurrentAtReload w e := by
    cases e with
    | reloadQuests table => exact keepsQuests_iff table w
    | _ => exact Iff.rfl
  exact RunSteps.every_iff (fun _ => True) (fun w e _ => hiff w e) (fun _ _ _ _ _ _ => trivial)
    trivial

end QuestHost

def plainState : State := ⟨"", [], [], 0, noRules_goal⟩

def twoStates : ArenaServ.Quest :=
  ⟨1, ⟨⟨.notHidden, false⟩, (SortedMap.empty.insert "begin" plainState).insert "next" plainState⟩,
    by decide⟩

/-- The quest goes on after a reload. -/
def reloadedOnce : List (QuestEvent Unit) :=
  [.login 3 "1,begin,\x7b\x7d;", .reloadQuests (.single twoStates), .questState 3 1 "next"]

/-- The second reload takes the quest back. -/
theorem QuestHost.not_keepsAtReload :
    ¬ RunSteps.Every (idleHost.step 9) KeepsAtReload (QuestWorld.start (.single twoStates) ())
      (reloadedOnce ++ [.reloadQuests (.single twoStates)]) := by
  intro h
  have hview : (RunSteps.run (idleHost.step 9) (QuestWorld.start (.single twoStates) ())
      reloadedOnce).map
        (fun w => (w.characters, ((w.questList 3).find? 1).map (Option.map (·.stateName)),
          ((w.log 3).inactive.find? 1).map (·.questState))) =
      some ([3], some (some "next"), some "begin") := by
    decide +kernel
  obtain ⟨w, hrun, hw⟩ := Option.map_eq_some_iff.mp hview
  simp only [Prod.mk.injEq] at hw
  obtain ⟨hcharacters, hactive, hinactive⟩ := hw
  obtain ⟨o, ho, hsome⟩ := Option.map_eq_some_iff.mp hactive
  obtain ⟨q, rfl, hname⟩ := Option.map_eq_some_iff.mp hsome
  obtain ⟨r, hr, hstate⟩ := Option.map_eq_some_iff.mp hinactive
  have hkeeps : KeepsQuests (.single twoStates) w := (RunSteps.every_of_append h hrun).1
  have hcurrent := (keepsQuests_iff _ w).mp hkeeps 3 (by rw [hcharacters]; decide) 1 q ho
  have hrecord : (w.log 3).recordOf 1 q = r := by
    rw [QuestLog.recordOf, hr]
    rfl
  have hlower : Util.lowercase "begin" ≠ "next" := by decide +kernel
  rw [hrecord] at hcurrent
  split_ifs at hcurrent
  · apply hlower
    rw [← hstate, ← hname]
    exact hcurrent.1
  · have hsame : r.questState = q.stateName := congrArg CharacterQuestState.questState hcurrent
    rw [hstate, hname] at hsame
    exact absurd hsame (by decide)

end ArenaServ
