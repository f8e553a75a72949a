import ArenaServ.TimedSave

/-!
# When timed saves lose nothing

As long as there is nothing to be saved but characters when a commit fails, the rows of the
guilds that need no save are what these guilds are in memory, and every record of a command
is in the database or in the queue.
-/

namespace ArenaServ
open RunSteps

/-! ## What the statements write -/

namespace SavedTables

variable {t : SavedTables} {name tag : String} {state : SavedCharacter}

theorem characters_saveGuild (g : CachedGuild) : (t.saveGuild tag g).characters = t.characters := by
  unfold saveGuild
  split_ifs <;> rfl

theorem audit_saveGuild (g : CachedGuild) : (t.saveGuild tag g).audit = t.audit := by
  unfold saveGuild
  split_ifs <;> rfl

theorem guilds_saveGuild_of_ne {other : String} (g : CachedGuild) (h : other ≠ tag) :
    (t.saveGuild tag g).guilds other = t.guilds other := by
  unfold saveGuild
  split_ifs
  · exact updateRow_of_ne h
  · rfl

theorem saveCharacters_eq (characters : SortedMap String SavedCharacter) (t : SavedTables) :
    t.saveCharacters characters =
      { t with characters := updateRows characters.entries t.characters } := by
  unfold saveCharacters
  generalize characters.entries = es
  induction es generalizing t with
  | nil => rfl
  | cons e rest ih =>
      rw [List.foldl_cons, ih]
      rfl

/-- The rows that are written of guilds. -/
def guildRows (guilds : List (String × CachedGuild)) : List (String × GuildColumns) :=
  (guilds.filter (·.2.needsSave)).map fun e => (e.1, e.2.state.row)

theorem saveGuilds_eq (guilds : SortedMap String CachedGuild) (t : SavedTables) :
    t.saveGuilds guilds =
      { t with guilds := updateRows (guildRows guilds.entries) t.guilds } := by
  unfold saveGuilds guildRows
  generalize guilds.entries = es
  induction es generalizing t with
  | nil => rfl
  | cons e rest ih =>
      rw [List.foldl_cons, ih, saveGuild]
      by_cases h : e.2.needsSave = true
      · rw [if_pos h, List.filter_cons_of_pos (by exact h)]
        rfl
      · rw [if_neg h, List.filter_cons_of_neg (by exact h)]

theorem saveCommandAudit_eq {inserts : AuditEntry → Bool} {entries : List AuditEntry}
    (h : ∀ e ∈ entries, inserts e = true) (t : SavedTables) :
    t.saveCommandAudit inserts entries =
      { t with audit := t.audit ++ entries.map (·.row) } := by
  unfold saveCommandAudit
  induction entries generalizing t with
  | nil => rw [List.foldl_nil, List.map_nil, List.append_nil]
  | cons e rest ih =>
      rw [List.foldl_cons, if_pos (h e List.mem_cons_self),
        ih fun e he => h e (List.mem_cons_of_mem _ he)]
      simp only [List.map_cons, List.append_assoc, List.singleton_append]

/-- Every character with a row gets its state. -/
theorem characters_saveCharacters {characters : SortedMap String SavedCharacter}
    (h : characters.find? name = some state) (hrow : (t.characters name).isSome = true) :
    (t.saveCharacters characters).characters name = some state := by
  have hkeys : (characters.entries.map Prod.fst).Nodup :=
    List.pairwise_map.mpr (characters.sorted.imp fun hlt => hlt.ne)
  obtain ⟨old, hold⟩ := Option.isSome_iff_exists.mp hrow
  rw [saveCharacters_eq]
  dsimp only
  rw [updateRows_of_mem hkeys (SortedMap.mem_entries_iff.mpr h), hold, Option.map_some]

/-- A guild that needs a save gets its state, and another keeps its row. -/
theorem guilds_saveGuilds {guilds : SortedMap String CachedGuild} {g : CachedGuild}
    (h : guilds.find? tag = some g) :
    (t.saveGuilds guilds).guilds tag =
      if g.needsSave then (t.guilds tag).map fun _ => g.state.row else t.guilds tag := by
  have hkeys : ((guilds.entries.filter (·.2.needsSave)).map Prod.fst).Nodup :=
    List.pairwise_map.mpr ((guilds.sorted.filter _).imp fun hlt => hlt.ne)
  have hmem := SortedMap.mem_entries_iff.mpr h
  rw [saveGuilds_eq]
  dsimp only
  have hfst : (guildRows guilds.entries).map Prod.fst =
      (guilds.entries.filter (·.2.needsSave)).map Prod.fst :=
    List.map_map
  by_cases hg : g.needsSave = true
  · rw [if_pos hg, updateRows_of_mem]
    · rw [hfst]
      exact hkeys
    · exact List.mem_map.mpr ⟨(tag, g), List.mem_filter.mpr ⟨hmem, hg⟩, rfl⟩
  · rw [if_neg hg, updateRows_of_not_mem]
    rw [hfst, List.mem_map]
    rintro ⟨⟨tag', g'⟩, hg', htag⟩
    obtain ⟨hmem', hneeds⟩ := List.mem_filter.mp hg'
    have hsome := SortedMap.mem_entries_iff.mp hmem'
    dsimp only at htag hneeds
    rw [htag, h] at hsome
    rw [← Option.some.inj hsome] at hneeds
    exact hg hneeds

end SavedTables

/-! ## The invariant -/

/-- A row has the state of a guild: it is what the guild was loaded from, or what would be
saved of it. -/
def SaveConfig.Holds (config : SaveConfig) (row : GuildColumns) (g : GuildState) : Prop :=
  row = g.row ∨ config.load row = g

namespace SavingWorld

/-- What a committed save is for: the database has all that is in memory, and each record of a
command once, behind the records `before` of earlier runs. -/
structure Saved (config : SaveConfig) (before : List AuditRow) (s : SavingWorld) : Prop where
  characters : ∀ name state, s.characters.find? name = some state →
    s.db.committed.characters name = some state
  guilds : ∀ tag g, s.guilds.find? tag = some g →
    ∃ row, s.db.committed.guilds tag = some row ∧ config.Holds row g.state
  audit : s.db.committed.audit = before ++ (s.audit ++ s.uncommitted).map (·.row)

/-- Nothing is lost: what is in memory has a row, a guild that needs no save has its state in
it, and the records that are not in the queue are in the database. -/
structure Intact (config : SaveConfig) (before : List AuditRow) (s : SavingWorld) : Prop where
  settled : s.db.isOpen = false
  characters : ∀ name state, s.characters.find? name = some state →
    (s.db.committed.characters name).isSome = true
  guilds : ∀ tag g, s.guilds.find? tag = some g →
    ∃ row, s.db.committed.guilds tag = some row ∧
      (g.needsSave = false → config.Holds row g.state)
  audit : s.db.committed.audit = before ++ s.audit.map (·.row)

/-- In a timed save every record can be inserted, and when its commit fails there is no guild
to be saved and no record in the queue. -/
def Spares (config : SaveConfig) (s : SavingWorld) (step : SaveStep) : Prop :=
  ∀ o, step = .timedSave o → config.timedSave = true →
    (∀ e ∈ s.uncommitted, o.inserts e = true) ∧
      (o.commit = false →
        (∀ tag g, s.guilds.find? tag = some g → g.needsSave = false) ∧ s.uncommitted = [])

/-- A timed save that is committed saves everything. -/
def SavesAll (config : SaveConfig) (before : List AuditRow) (s : SavingWorld) (step : SaveStep) :
    Prop :=
  ∀ o, step = .timedSave o → config.timedSave = true → o.commit = true →
    ∀ s' ∈ s.next config step, s'.Saved config before

variable {config : SaveConfig} {before : List AuditRow} {s s' : SavingWorld} {step : SaveStep}
  {o : SaveOutcome}

theorem intact_start (tables : SavedTables) : (start tables).Intact config tables.audit where
  settled := rfl
  characters _ _ h := nomatch h
  guilds _ _ h := nomatch h
  audit := (List.append_nil _).symm

theorem saved_timedSave (h : s.Intact config before) (hon : config.timedSave = true)
    (hinserts : ∀ e ∈ s.uncommitted, o.inserts e = true) (hcommit : o.commit = true)
    (hs' : s.timedSave config o = some s') : s'.Saved config before := by
  unfold timedSave at hs'
  dsimp only at hs'
  rw [if_pos hon, if_pos hcommit, Option.some.injEq] at hs'
  rw [← hs']
  have hcurrent := s.db.current_of_not_isOpen h.settled
  refine ⟨?_, ?_, ?_⟩
  · intro name state hstate
    simp only [Transactional.committed_commit, Transactional.current_update,
      Transactional.current_openUp, hcurrent, SavedTables.saveCommandAudit_eq hinserts]
    rw [SavedTables.saveGuilds_eq]
    exact SavedTables.characters_saveCharacters hstate (h.characters name state hstate)
  · intro tag g hg
    rw [SortedMap.find?_map, Option.map_eq_some_iff] at hg
    obtain ⟨g', hg', rfl⟩ := hg
    obtain ⟨row, hrow, hholds⟩ := h.guilds tag g' hg'
    simp only [Transactional.committed_commit, Transactional.current_update,
      Transactional.current_openUp, hcurrent, SavedTables.saveCommandAudit_eq hinserts]
    rw [SavedTables.guilds_saveGuilds hg', SavedTables.saveCharacters_eq]
    dsimp only
    rw [hrow]
    by_cases hneeds : g'.needsSave = true
    · rw [if_pos hneeds]
      exact ⟨_, rfl, Or.inl rfl⟩
    · rw [if_neg hneeds]
      exact ⟨row, rfl, hholds (Bool.eq_false_iff.mpr hneeds)⟩
  · simp only [Transactional.committed_commit, Transactional.current_update,
      Transactional.current_openUp, hcurrent, SavedTables.saveCommandAudit_eq hinserts]
    rw [SavedTables.saveGuilds_eq, SavedTables.saveCharacters_eq]
    dsimp only
    rw [h.audit, List.append_nil, List.map_append, List.append_assoc]

/-- After a failed commit everything is as before, but for the flags and the queue. -/
theorem intact_timedSave (h : s.Intact config before) (hspares : s.Spares config (.timedSave o))
    (hs' : s.timedSave config o = some s') : s'.Intact config before := by
  by_cases hon : config.timedSave = true
  · obtain ⟨hinserts, hclean⟩ := hspares o rfl hon
    by_cases hcommit : o.commit = true
    · have hsaved := saved_timedSave h hon hinserts hcommit hs'
      unfold timedSave at hs'
      dsimp only at hs'
      rw [if_pos hon, if_pos hcommit, Option.some.injEq] at hs'
      refine ⟨by rw [← hs']; rfl, ?_, ?_, ?_⟩
      · intro name state hstate
        rw [hsaved.characters name state hstate]
        rfl
      · intro tag g hg
        obtain ⟨row, hrow, hholds⟩ := hsaved.guilds tag g hg
        exact ⟨row, hrow, fun _ => hholds⟩
      · rw [hsaved.audit, ← hs']
        dsimp only
        rw [List.append_nil]
    · obtain ⟨hguilds, hqueue⟩ := hclean (Bool.eq_false_iff.mpr hcommit)
      unfold timedSave at hs'
      dsimp only at hs'
      rw [if_pos hon, if_neg hcommit, Option.ite_none_right_eq_some, Option.some.injEq] at hs'
      obtain ⟨-, rfl⟩ := hs'
      have hopen : s.db.openUp.isOpen = true := rfl
      have hback : ∀ f g k : SavedTables → SavedTables,
          (((s.db.openUp.update f).update g).update k).rollback.committed = s.db.committed := by
        intro f g k
        rw [Transactional.committed_rollback, Transactional.committed_update,
          Transactional.committed_update, Transactional.committed_update]
        · rfl
        · exact hopen
        · rw [Transactional.isOpen_update]
          exact hopen
        · rw [Transactional.isOpen_update, Transactional.isOpen_update]
          exact hopen
      refine ⟨rfl, ?_, ?_, ?_⟩
      · intro name state hstate
        rw [hback]
        exact h.characters name state hstate
      · intro tag g hg
        rw [SortedMap.find?_map, Option.map_eq_some_iff] at hg
        obtain ⟨g', hg', rfl⟩ := hg
        obtain ⟨row, hrow, hholds⟩ := h.guilds tag g' hg'
        rw [hback]
        exact ⟨row, hrow, fun _ => hholds (hguilds tag g' hg')⟩
      · rw [hback]
        dsimp only
        rw [hqueue, List.append_nil]
        exact h.audit
  · unfold timedSave at hs'
    rw [if_neg hon, Option.some.injEq] at hs'
    rw [← hs']
    exact h

/-- Statements outside of a transaction that keep the rows of what stays in memory. -/
theorem intact_update {f : SavedTables → SavedTables}
    {characters : SortedMap String SavedCharacter} {guilds : SortedMap String CachedGuild}
    (h : s.Intact config before)
    (hcharacters : ∀ name state, characters.find? name = some state →
      ((f s.db.committed).characters name).isSome = true)
    (hguilds : ∀ tag g, guilds.find? tag = some g →
      ∃ row, (f s.db.committed).guilds tag = some row ∧
        (g.needsSave = false → config.Holds row g.state))
    (haudit : (f s.db.committed).audit = s.db.committed.audit) :
    Intact config before { s with
      db := s.db.update f
      characters := characters
      guilds := guilds } := by
  have hcommitted := s.db.committed_update_of_not_isOpen f h.settled
  refine ⟨?_, ?_, ?_, ?_⟩
  · rw [Transactional.isOpen_update]
    exact h.settled
  · rw [hcommitted]
    exact hcharacters
  · rw [hcommitted]
    exact hguilds
  · rw [hcommitted, haudit]
    exact h.audit

/-- A loaded guild has what its row has. -/
theorem holds_load (row : GuildColumns) : config.Holds row (config.load row) := Or.inr rfl

theorem intact_next (h : s.Intact config before) (hspares : s.Spares config step)
    (hs' : s.next config step = some s') : s'.Intact config before := by
  have hcurrent := s.db.current_of_not_isOpen h.settled
  cases step with
  | login name state =>
      rw [next, Option.ite_none_right_eq_some, Option.some.injEq, hcurrent] at hs'
      obtain ⟨⟨hrow, -⟩, rfl⟩ := hs'
      refine { h with characters := ?_ }
      intro name' state' hstate'
      rw [SortedMap.find?_insert] at hstate'
      split_ifs at hstate' with hname
      · rw [hname]
        exact hrow
      · exact h.characters name' state' hstate'
  | character name state =>
      obtain ⟨old, hold, rfl⟩ := Option.map_eq_some_iff.mp hs'
      refine { h with characters := ?_ }
      intro name' state' hstate'
      rw [SortedMap.find?_insert] at hstate'
      split_ifs at hstate' with hname
      · rw [hname]
        exact h.characters name old hold
      · exact h.characters name' state' hstate'
  | logout name =>
      obtain ⟨state, -, rfl⟩ := Option.map_eq_some_iff.mp hs'
      apply intact_update h _ h.guilds rfl
      intro name' state' hstate'
      rw [SortedMap.find?_erase] at hstate'
      split_ifs at hstate'
      exact (isSome_updateRow name').trans (h.characters name' state' hstate')
  | createGuild tag row =>
      rw [next, Option.ite_none_right_eq_some, Option.some.injEq] at hs'
      obtain ⟨-, rfl⟩ := hs'
      apply intact_update h h.characters _ rfl
      intro tag' g hg
      rw [SortedMap.find?_insert] at hg
      split_ifs at hg with htag
      · rw [htag, ← Option.some.inj hg]
        exact ⟨row, Function.update_self .., fun _ => holds_load row⟩
      · obtain ⟨row', hrow', hholds⟩ := h.guilds tag' g hg
        exact ⟨row', (Function.update_of_ne htag ..).trans hrow', hholds⟩
  | loadGuild tag =>
      rw [next, Option.ite_none_right_eq_some, hcurrent] at hs'
      obtain ⟨row, hrow, rfl⟩ := Option.map_eq_some_iff.mp hs'.2
      refine { h with guilds := ?_ }
      intro tag' g hg
      rw [SortedMap.find?_insert] at hg
      split_ifs at hg with htag
      · rw [htag, ← Option.some.inj hg]
        exact ⟨row, hrow, fun _ => holds_load row⟩
      · exact h.guilds tag' g hg
  | changeGuild tag change =>
      obtain ⟨g, hg, rfl⟩ := Option.map_eq_some_iff.mp hs'
      refine { h with guilds := ?_ }
      intro tag' g' hg'
      rw [SortedMap.find?_insert] at hg'
      split_ifs at hg' with htag
      · obtain ⟨row, hrow, hholds⟩ := h.guilds tag g hg
        rw [htag, ← Option.some.inj hg']
        refine ⟨row, hrow, ?_⟩
        intro hneeds
        rcases g.needsSave_or_eq_change config change with hneeds' | hsame
        · rw [hneeds'] at hneeds
          cases hneeds
        · rw [hsame] at hneeds ⊢
          exact hholds hneeds
      · exact h.guilds tag' g' hg'
  | releaseGuild tag members =>
      obtain ⟨g, -, rfl⟩ := Option.map_eq_some_iff.mp hs'
      have hothers : ∀ tag' g', (s.guilds.erase tag).find? tag' = some g' →
          tag' ≠ tag ∧ s.guilds.find? tag' = some g' := by
        intro tag' g' hg'
        rw [SortedMap.find?_erase] at hg'
        split_ifs at hg' with htag
        exact ⟨htag, hg'⟩
      cases members with
      | true =>
          rw [if_pos rfl]
          apply intact_update h _ _ (SavedTables.audit_saveGuild g)
          · intro name state hstate
            rw [SavedTables.characters_saveGuild]
            exact h.characters name state hstate
          · intro tag' g' hg'
            obtain ⟨htag, hg'⟩ := hothers tag' g' hg'
            rw [SavedTables.guilds_saveGuild_of_ne g htag]
            exact h.guilds tag' g' hg'
      | false =>
          rw [if_neg Bool.false_ne_true]
          apply intact_update h _ _ rfl
          · intro name state hstate
            unfold SavedTables.deleteGuild
            dsimp only
            rw [Option.isSome_map]
            exact h.characters name state hstate
          · intro tag' g' hg'
            obtain ⟨htag, hg'⟩ := hothers tag' g' hg'
            obtain ⟨row, hrow, hholds⟩ := h.guilds tag' g' hg'
            exact ⟨row, (Function.update_of_ne htag ..).trans hrow, hholds⟩
  | command entry =>
      rw [next, Option.some.injEq] at hs'
      rw [← hs']
      exact { h with }
  | timedSave o => exact intact_timedSave h hspares hs'

/-- Every committed save of a run has everything in the database, as long as no commit fails
while there is a guild to be saved or a record in the queue. -/
theorem every_savesAll {tables : SavedTables} {steps : List SaveStep}
    (h : Every (next config) (Spares config) (start tables) steps) :
    Every (next config) (SavesAll config tables.audit) (start tables) steps := by
  apply every_of_every (Intact config tables.audit) _ _ (intact_start tables) h
  · rintro s step hintact hspares o rfl hon hcommit s' hs'
    exact saved_timedSave hintact hon (hspares o rfl hon).1 hcommit hs'
  · exact fun s step s' hintact hspares hs' => intact_next hintact hspares hs'

end SavingWorld

/-! ## A save that is lost -/

namespace LostSave

def config : SaveConfig := ⟨true, 1000, id⟩

def tables : SavedTables where
  characters _ := none
  guilds tag := if tag = "TAG" then some ⟨"", "", 0⟩ else none
  audit := []

def save (commit : Bool) : SaveStep := .timedSave ⟨fun _ => true, commit, true⟩

/-- A guild gets gold, the next timed save fails, and the one after that does not. -/
def steps : List SaveStep :=
  [.loadGuild "TAG", .changeGuild "TAG" (.addBank 5), save false, save true]

/-- The save fails before the guild gets its gold. -/
def orderlySteps : List SaveStep :=
  [.loadGuild "TAG", save false, .changeGuild "TAG" (.addBank 5), save true]

end LostSave

namespace SavingWorld

/-- The failed save has cleared the flag of the guild, so that its gold is not saved later. -/
theorem not_every_savesAll : ¬ Every (next LostSave.config)
    (SavesAll LostSave.config LostSave.tables.audit) (start LostSave.tables) LostSave.steps := by
  rintro ⟨-, h⟩
  obtain ⟨-, h⟩ := h _ rfl
  obtain ⟨-, h⟩ := h _ rfl
  obtain ⟨h, -⟩ := h _ rfl
  obtain ⟨row, hrow, hholds⟩ := (h _ rfl rfl rfl _ rfl).guilds "TAG" _ rfl
  have hbank : row.bank = 0 := by
    rw [← Option.some.inj hrow]
  rcases hholds with heq | heq
  · have hsaved := congrArg GuildColumns.bank heq
    rw [hbank] at hsaved
    revert hsaved
    decide
  · have hloaded : row.bank = _ := congrArg GuildState.bank heq
    rw [hbank] at hloaded
    revert hloaded
    decide

theorem every_savesAll_orderly : Every (next LostSave.config)
    (SavesAll LostSave.config LostSave.tables.audit) (start LostSave.tables)
    LostSave.orderlySteps := by
  apply every_savesAll
  refine ⟨?_, fun s₁ h₁ => ⟨?_, fun s₂ h₂ => ⟨?_, fun s₃ h₃ => ⟨?_, fun _ _ => trivial⟩⟩⟩⟩
  · intro o ho
    cases ho
  · rw [← Option.some.inj h₁]
    intro o ho _
    refine ⟨?_, fun _ => ⟨?_, rfl⟩⟩
    · intro e he
      cases he
    · intro tag g hg
      have hmem := SortedMap.mem_entries_iff.mpr hg
      rcases SortedMap.eq_or_mem_of_mem_insert hmem with heq | hmem
      · rw [(Prod.mk.inj heq).2]
      · cases hmem
  · intro o ho
    cases ho
  · rw [← Option.some.inj h₁] at h₂
    rw [← Option.some.inj h₂] at h₃
    rw [← Option.some.inj h₃]
    intro o ho _
    refine ⟨?_, ?_⟩
    · intro e he
      cases he
    · intro hcommit
      cases ho
      cases hcommit

end SavingWorld

end ArenaServ
