import ArenaServ.WorldDump

/-!
# When a restore loses no character

A character is taken out of the dump as soon as its queries have worked, and the file is
rewritten without it. What the transaction did for it is rolled back with the rest when a
later query, or the commit, throws.
-/

namespace ArenaServ

/-! ## The loop over the records -/

/-- The records that a loop leaves, where `takes` and `raises` say what becomes of each. -/
def leftOver {α : Type} (takes raises : α → Bool) : List α → List α
  | [] => []
  | record :: rest =>
      let left := if raises record then rest else leftOver takes raises rest
      if takes record then left else record :: left

theorem leftOver_subset {α : Type} {takes raises : α → Bool} {records : List α} :
    leftOver takes raises records ⊆ records := by
  induction records with
  | nil => exact List.Subset.refl _
  | cons record rest ih =>
      rw [leftOver]
      cases takes record <;> cases raises record
      · exact List.cons_subset_cons record ih
      · exact List.Subset.refl _
      · exact List.subset_cons_of_subset record ih
      · exact List.subset_cons_of_subset record (List.Subset.refl _)

/-- Only what comes before the exception is taken. -/
theorem mem_leftOver_iff {α : Type} {takes raises : α → Bool} {records : List α} {r : α}
    (hnodup : records.Nodup) (hexcl : ∀ r, takes r = true → raises r = false) (hr : r ∈ records) :
    r ∈ leftOver takes raises records ↔
      ¬ (r ∈ records.takeWhile (!raises ·) ∧ takes r = true) := by
  induction records with
  | nil => cases hr
  | cons record rest ih =>
      obtain ⟨hnot, hrest⟩ := List.nodup_cons.mp hnodup
      have hleft : record ∉ leftOver takes raises rest := fun h => hnot (leftOver_subset h)
      rw [leftOver]
      by_cases hraises : raises record = true
      · have htakes : ¬ takes record = true := fun h => by
          rw [hexcl record h] at hraises
          cases hraises
        have hwhile : (record :: rest).takeWhile (!raises ·) = [] :=
          List.takeWhile_cons_of_neg (by simpa using hraises)
        rw [if_pos hraises, if_neg htakes, hwhile]
        simp only [List.not_mem_nil, false_and, not_false_iff, iff_true]
        exact hr
      · have hwhile : (record :: rest).takeWhile (!raises ·) =
            record :: rest.takeWhile (!raises ·) :=
          List.takeWhile_cons_of_pos (by simpa using hraises)
        rw [if_neg hraises, hwhile]
        rcases List.mem_cons.mp hr with rfl | hr
        · by_cases htakes : takes r = true
          · rw [if_pos htakes]
            exact iff_of_false hleft fun h => h ⟨List.mem_cons_self, htakes⟩
          · rw [if_neg htakes]
            exact iff_of_true List.mem_cons_self fun h => htakes h.2
        · have hne : r ≠ record := fun h => hnot (h ▸ hr)
          rw [List.mem_cons, or_iff_right hne, ← ih hrest hr]
          split_ifs
          · rfl
          · rw [List.mem_cons, or_iff_right hne]

section Loop
variable {τ α : Type} {step : Transactional τ → α → RecordEnd τ}

/-- What each step keeps, the loop keeps. -/
theorem restoreEach_keeps {records : List α} {I : Transactional τ → Prop}
    (hstep : ∀ db, ∀ r ∈ records, I db → I (step db r).db) {db : Transactional τ} (h : I db) :
    I (restoreEach step db records).2.2 := by
  induction records generalizing db with
  | nil => exact h
  | cons record rest ih =>
      have hdb := hstep db record List.mem_cons_self h
      rw [restoreEach]
      dsimp only
      split_ifs with hraised
      · exact hdb
      · exact ih (fun db r hr => hstep db r (List.mem_cons_of_mem _ hr)) hdb

/-- The loop, where the steps do what `takes` and `raises` say as long as the database looks
the same to the records that are to come. -/
theorem restoreEach_spec {takes raises : α → Bool} {S : Transactional τ → List α → Prop}
    (hstep : ∀ db record rest, S db (record :: rest) →
      (step db record).taken = takes record ∧ (step db record).raised = raises record ∧
        S (step db record).db rest)
    {db : Transactional τ} {records : List α} (h : S db records) :
    (restoreEach step db records).1 = leftOver takes raises records ∧
      (restoreEach step db records).2.1 = records.any raises := by
  induction records generalizing db with
  | nil => exact ⟨rfl, rfl⟩
  | cons record rest ih =>
      obtain ⟨htaken, hraised, hsame⟩ := hstep db record rest h
      obtain ⟨hleft, hany⟩ := ih hsame
      rw [restoreEach, leftOver, List.any_cons, htaken, hraised]
      dsimp only
      cases raises record with
      | true => exact ⟨rfl, rfl⟩
      | false =>
          simp only [Bool.false_eq_true, ↓reduceIte, Bool.false_or]
          rw [hleft, hany]
          exact ⟨rfl, rfl⟩

/-- While a transaction is open, a loop that writes commits nothing. -/
theorem restoreEach_committed {db : Transactional τ} (records : List α) (hopen : db.isOpen = true)
    (hstep : ∀ db r, (step db r).db = db ∨ ∃ f, (step db r).db = db.update f) :
    (restoreEach step db records).2.2.isOpen = true ∧
      (restoreEach step db records).2.2.committed = db.committed := by
  apply restoreEach_keeps
    (I := fun db' : Transactional τ => db'.isOpen = true ∧ db'.committed = db.committed)
    _ ⟨hopen, rfl⟩
  intro db' r _ hdb'
  rcases hstep db' r with hdb | ⟨f, hdb⟩
  · rw [hdb]
    exact hdb'
  · rw [hdb, Transactional.isOpen_update, Transactional.committed_update _ _ hdb'.1]
    exact hdb'

end Loop

/-! ## What becomes of a record -/

namespace Tables

/-- The database has a character as it was dumped, but for the account, which an update
leaves, or in a newer state. -/
def Stored (t : Tables) (c : DumpCharacter) : Prop :=
  t.HasNewer c ∨
    ∃ row ∈ t.characters c.name, row.usage = c.row.usage ∧ row.columns = c.row.columns

variable {t t' : Tables} {c d : DumpCharacter}

theorem hasNewer_congr (h : t.characters c.name = t'.characters c.name) :
    t.HasNewer c ↔ t'.HasNewer c := by
  unfold HasNewer
  rw [h]

theorem stored_congr (h : t.characters c.name = t'.characters c.name) :
    t.Stored c ↔ t'.Stored c := by
  unfold Stored
  rw [hasNewer_congr h, h]

theorem stored_putCharacter : (t.putCharacter c).Stored c := by
  right
  unfold putCharacter
  dsimp only
  rw [Function.update_self]
  cases t.characters c.name with
  | none => exact ⟨_, rfl, rfl, rfl⟩
  | some row => exact ⟨_, rfl, rfl, rfl⟩

theorem characters_putCharacter (h : d.name ≠ c.name) :
    (t.putCharacter c).characters d.name = t.characters d.name :=
  Function.update_of_ne h _ _

theorem characters_putGuild (g : DumpGuild) : (t.putGuild g).characters = t.characters := rfl

end Tables

namespace RestoreEnv

/-- A query for a character throws. -/
def characterRaises (env : RestoreEnv) (t : Tables) (c : DumpCharacter) : Bool :=
  (env.characters c).select = .raises ||
    ((env.characters c).select = .works && !t.HasNewer c && (env.characters c).write = .raises)

/-- A character is found to be older than the database's, or is written. -/
def takesCharacter (env : RestoreEnv) (t : Tables) (c : DumpCharacter) : Bool :=
  (env.characters c).select = .works && (t.HasNewer c || (env.characters c).write = .works)

def guildRaises (env : RestoreEnv) (g : DumpGuild) : Bool :=
  (env.guilds g).select = .raises ||
    ((env.guilds g).select = .works && ((env.guilds g).write = .raises ||
      ((env.guilds g).write = .works && (env.guilds g).load = .raises)))

def takesGuild (env : RestoreEnv) (g : DumpGuild) : Bool :=
  (env.guilds g).select = .works && (env.guilds g).write = .works

variable {env : RestoreEnv} {db : Transactional Tables} {t : Tables}

theorem characterRaises_of_takesCharacter (c : DumpCharacter)
    (h : env.takesCharacter t c = true) : env.characterRaises t c = false := by
  unfold takesCharacter at h
  unfold characterRaises
  cases hselect : (env.characters c).select <;> cases hwrite : (env.characters c).write <;>
    simp_all

theorem restoreCharacter_spec (env : RestoreEnv) {c : DumpCharacter}
    (h : db.current.characters c.name = t.characters c.name) :
    (restoreCharacter env.characters db c).taken = env.takesCharacter t c ∧
      (restoreCharacter env.characters db c).raised = env.characterRaises t c ∧
      ((restoreCharacter env.characters db c).db = db ∧
          (env.takesCharacter t c = true → db.current.Stored c) ∨
        (restoreCharacter env.characters db c).db = db.update (Tables.putCharacter c)) := by
  have hnewer : decide (db.current.HasNewer c) = decide (t.HasNewer c) :=
    decide_eq_decide.mpr (Tables.hasNewer_congr h)
  unfold restoreCharacter takesCharacter characterRaises
  cases (env.characters c).select with
  | raises => exact ⟨rfl, rfl, Or.inl ⟨rfl, fun h => nomatch h⟩⟩
  | fails => exact ⟨rfl, rfl, Or.inl ⟨rfl, fun h => nomatch h⟩⟩
  | works =>
      dsimp only
      rw [← hnewer]
      by_cases hn : db.current.HasNewer c
      · rw [if_pos hn, decide_eq_true hn]
        exact ⟨rfl, rfl, Or.inl ⟨rfl, fun _ => Or.inl hn⟩⟩
      · rw [if_neg hn, decide_eq_false hn]
        cases (env.characters c).write with
        | works => exact ⟨rfl, rfl, Or.inr rfl⟩
        | fails => exact ⟨rfl, rfl, Or.inl ⟨rfl, fun h => nomatch h⟩⟩
        | raises => exact ⟨rfl, rfl, Or.inl ⟨rfl, fun h => nomatch h⟩⟩

theorem restoreGuild_spec (env : RestoreEnv) (db : Transactional Tables) (g : DumpGuild) :
    (restoreGuild env.guilds db g).taken = env.takesGuild g ∧
      (restoreGuild env.guilds db g).raised = env.guildRaises g ∧
      ((restoreGuild env.guilds db g).db = db ∨
        (restoreGuild env.guilds db g).db = db.update (Tables.putGuild g)) := by
  unfold restoreGuild takesGuild guildRaises
  cases (env.guilds g).select with
  | raises => exact ⟨rfl, rfl, Or.inl rfl⟩
  | fails => exact ⟨rfl, rfl, Or.inl rfl⟩
  | works =>
      cases (env.guilds g).write with
      | raises => exact ⟨rfl, rfl, Or.inl rfl⟩
      | fails => exact ⟨rfl, rfl, Or.inl rfl⟩
      | works =>
          cases (env.guilds g).load with
          | works => exact ⟨rfl, rfl, Or.inr rfl⟩
          | fails => exact ⟨rfl, rfl, Or.inr rfl⟩
          | raises => exact ⟨rfl, rfl, Or.inr rfl⟩

/-! ## The characters and the guilds of a dump -/

/-- The database has the rows of `t` for the characters that are to come. -/
def SameRows (t : Tables) (db : Transactional Tables) (records : List DumpCharacter) : Prop :=
  (records.map (·.name)).Nodup ∧ ∀ c ∈ records, db.current.characters c.name = t.characters c.name

theorem sameRows_step {c : DumpCharacter} {rest : List DumpCharacter}
    (h : SameRows t db (c :: rest)) :
    SameRows t (restoreCharacter env.characters db c).db rest := by
  obtain ⟨hnames, hrows⟩ := h
  rw [List.map_cons, List.nodup_cons] at hnames
  refine ⟨hnames.2, ?_⟩
  intro d hd
  have hname : d.name ≠ c.name := fun h => hnames.1 (h ▸ List.mem_map_of_mem hd)
  rw [← hrows d (List.mem_cons_of_mem c hd)]
  rcases (env.restoreCharacter_spec (hrows c List.mem_cons_self)).2.2 with ⟨hdb, -⟩ | hdb
  · rw [hdb]
  · rw [hdb, Transactional.current_update, Tables.characters_putCharacter hname]

theorem restoreCharacters_spec (env : RestoreEnv) {records : List DumpCharacter}
    (h : SameRows t db records) :
    (restoreEach (restoreCharacter env.characters) db records).1 =
        leftOver (env.takesCharacter t) (env.characterRaises t) records ∧
      (restoreEach (restoreCharacter env.characters) db records).2.1 =
        records.any (env.characterRaises t) := by
  apply restoreEach_spec _ h
  intro db c rest hsame
  obtain ⟨htaken, hraised, -⟩ :=
    env.restoreCharacter_spec (hsame.2 c List.mem_cons_self)
  exact ⟨htaken, hraised, sameRows_step hsame⟩

/-- A name that the records do not have keeps its row. -/
theorem characters_restoreCharacters {records : List DumpCharacter} {name : String}
    (h : name ∉ records.map (·.name)) :
    (restoreEach (restoreCharacter env.characters) db records).2.2.current.characters name =
      db.current.characters name := by
  apply restoreEach_keeps
    (I := fun db' : Transactional Tables =>
      db'.current.characters name = db.current.characters name) _ rfl
  intro db' c hc hrow
  have hname : name ≠ c.name := fun heq => h (heq ▸ List.mem_map_of_mem hc)
  rcases (env.restoreCharacter_spec (rfl : db'.current.characters c.name = _)).2.2 with
    ⟨hdb, -⟩ | hdb
  · rw [hdb, hrow]
  · rw [hdb, Transactional.current_update, ← hrow]
    exact Function.update_of_ne hname _ _

/-- Every character that is taken out of the dump is in the database then. -/
theorem stored_of_takesCharacter {records : List DumpCharacter} (h : SameRows t db records)
    {c : DumpCharacter} (hc : c ∈ records.takeWhile (!env.characterRaises t ·))
    (htakes : env.takesCharacter t c = true) :
    (restoreEach (restoreCharacter env.characters) db records).2.2.current.Stored c := by
  induction records generalizing db with
  | nil => cases hc
  | cons d rest ih =>
      obtain ⟨htaken, hraised, hdb⟩ :=
        env.restoreCharacter_spec (h.2 d List.mem_cons_self)
      have hd : env.characterRaises t d = false := by
        by_contra hd
        rw [Bool.not_eq_false] at hd
        rw [List.takeWhile_cons_of_neg (by simp [hd])] at hc
        cases hc
      rw [List.takeWhile_cons_of_pos (by simp [hd])] at hc
      rw [restoreEach, hraised, hd]
      dsimp only
      rw [if_neg Bool.false_ne_true]
      rcases List.mem_cons.mp hc with rfl | hc
      · have hname : c.name ∉ rest.map (·.name) := (List.nodup_cons.mp h.1).1
        refine (Tables.stored_congr (characters_restoreCharacters hname)).mpr ?_
        rcases hdb with ⟨hdb, hstored⟩ | hdb
        · rw [hdb]
          exact hstored htakes
        · rw [hdb, Transactional.current_update]
          exact Tables.stored_putCharacter
      · exact ih (sameRows_step h) hc

theorem restoreGuilds_raised {records : List DumpGuild} :
    (restoreEach (restoreGuild env.guilds) db records).1 =
        leftOver env.takesGuild env.guildRaises records ∧
      (restoreEach (restoreGuild env.guilds) db records).2.1 = records.any env.guildRaises := by
  apply restoreEach_spec (S := fun _ _ => True) _ trivial
  intro db g rest _
  obtain ⟨htaken, hraised, -⟩ := env.restoreGuild_spec db g
  exact ⟨htaken, hraised, trivial⟩

theorem characters_restoreGuilds {records : List DumpGuild} :
    (restoreEach (restoreGuild env.guilds) db records).2.2.current.characters =
      db.current.characters := by
  apply restoreEach_keeps
    (I := fun db' : Transactional Tables => db'.current.characters = db.current.characters) _ rfl
  intro db' g _ hrows
  rcases (env.restoreGuild_spec db' g).2.2 with hdb | hdb
  · rw [hdb, hrows]
  · rw [hdb, Transactional.current_update, Tables.characters_putGuild, hrows]

/-! ## The whole restore -/

/-- Every query for a record works or reports its error, and so does the commit. -/
def CommitsAll (env : RestoreEnv) (dump : WorldDump) (t : Tables) : Prop :=
  (∀ c ∈ dump.characters, env.characterRaises t c = false) ∧
    (∀ g ∈ dump.guilds, env.guildRaises g = false) ∧ env.commit = true

theorem any_eq_false_iff {α : Type} {p : α → Bool} {l : List α} :
    l.any p = false ↔ ∀ x ∈ l, p x = false := by
  rw [List.any_eq_false]
  simp only [Bool.not_eq_true]

/-- The records of a dump, where a transaction is open. -/
theorem restoreRecords_spec (env : RestoreEnv) (dump : WorldDump) {db : Transactional Tables}
    (hopen : db.isOpen = true) :
    (restoreRecords env dump db).characters =
        leftOver (env.takesCharacter db.current) (env.characterRaises db.current)
          dump.characters ∧
      ((restoreRecords env dump db).raised = false ↔
        (∀ c ∈ dump.characters, env.characterRaises db.current c = false) ∧
          ∀ g ∈ dump.guilds, env.guildRaises g = false) ∧
      (restoreRecords env dump db).db.committed = db.committed ∧
      ∀ c ∈ dump.characters.takeWhile (!env.characterRaises db.current ·),
        env.takesCharacter db.current c = true →
          (restoreRecords env dump db).db.current.Stored c := by
  have hsame : SameRows db.current db dump.characters := ⟨dump.names, fun c _ => rfl⟩
  obtain ⟨hleft, hraised⟩ := env.restoreCharacters_spec hsame
  have hcommitted := restoreEach_committed dump.characters hopen
    fun db' c => (env.restoreCharacter_spec (rfl : db'.current.characters c.name = _))
      |>.2.2.imp And.left fun hdb => ⟨_, hdb⟩
  have hguilds := restoreEach_committed dump.guilds hcommitted.1
    fun db' g => (env.restoreGuild_spec db' g).2.2.imp id fun hdb => ⟨_, hdb⟩
  unfold restoreRecords
  dsimp only
  rw [hraised]
  by_cases hany : dump.characters.any (env.characterRaises db.current) = true
  · rw [if_pos hany]
    refine ⟨hleft, ?_, hcommitted.2, fun c => stored_of_takesCharacter hsame⟩
    rw [← any_eq_false_iff, hany]
    simp
  · rw [if_neg hany]
    refine ⟨hleft, ?_, hguilds.2.trans hcommitted.2, ?_⟩
    · dsimp only
      rw [restoreGuilds_raised.2, ← any_eq_false_iff, ← any_eq_false_iff]
      simp [hany]
    · intro c hc htakes
      refine (Tables.stored_congr ?_).mpr (stored_of_takesCharacter hsame hc htakes)
      exact congrFun characters_restoreGuilds c.name

end RestoreEnv

/-- Every character of the dump is in the database or in the file. -/
def RestoredWorld.KeepsCharacters (out : RestoredWorld) (dump : WorldDump) : Prop :=
  ∀ c ∈ dump.characters, out.db.committed.Stored c ∨ ∃ file ∈ out.file, c ∈ file.characters

section Restore
variable {env : RestoreEnv} {db : Transactional Tables} {maps : List DumpedMap}
  {dump : WorldDump} {out : RestoredWorld}

/-- A restore loses no character exactly when all of the database work is committed, or each
character that was taken out of the dump before an exception had been stored before. -/
theorem keepsCharacters_iff (h : restoreFromDump env db maps (some dump) = .ok out) :
    out.KeepsCharacters dump ↔
      (db.isOpen = false ∧ env.CommitsAll dump db.current) ∨
        ∀ c ∈ dump.characters.takeWhile (!env.characterRaises db.current ·),
          env.takesCharacter db.current c = true → db.committed.Stored c := by
  obtain ⟨hend, -, hfile⟩ := restoreFromDump_cases h
  obtain ⟨hleft, hraised, hcommitted, hstored⟩ :=
    env.restoreRecords_spec dump db.isOpen_openUp
  rw [Transactional.current_openUp] at hleft hraised hstored
  rw [Transactional.committed_openUp] at hcommitted
  have hmem : ∀ c ∈ dump.characters, (∃ file ∈ out.file, c ∈ file.characters) ↔
      ¬ (c ∈ dump.characters.takeWhile (!env.characterRaises db.current ·) ∧
        env.takesCharacter db.current c = true) := by
    intro c hc
    rw [← mem_leftOver_iff dump.names.of_map (env.characterRaises_of_takesCharacter) hc, ← hleft]
    rcases hfile with ⟨hnone, hempty, -⟩ | ⟨file, hsome, hcharacters, -⟩
    · rw [hnone, hempty]
      simp
    · rw [hsome, ← hcharacters]
      simp
  have hiff : out.KeepsCharacters dump ↔
      ∀ c ∈ dump.characters.takeWhile (!env.characterRaises db.current ·),
        env.takesCharacter db.current c = true → out.db.committed.Stored c := by
    unfold RestoredWorld.KeepsCharacters
    constructor
    · intro hkeeps c hc htakes
      have hcdump := (List.takeWhile_sublist _).subset hc
      exact (hkeeps c hcdump).resolve_right fun hin => (hmem c hcdump).mp hin ⟨hc, htakes⟩
    · intro htaken c hc
      rw [hmem c hc, or_iff_not_imp_right, not_not]
      exact fun hboth => htaken c hboth.1 hboth.2
  rw [hiff]
  unfold endTransaction at hend
  by_cases hdone : db.isOpen = false ∧ env.CommitsAll dump db.current
  · obtain ⟨hclosed, hcharacters, hguilds, hcommit⟩ := hdone
    rw [hraised.mpr ⟨hcharacters, hguilds⟩, hclosed, hcommit] at hend
    rw [← Option.some.inj hend]
    exact iff_of_true hstored (Or.inl ⟨hclosed, hcharacters, hguilds, hcommit⟩)
  · have hsame : out.db.committed = db.committed := by
      split_ifs at hend with hback hrollback hbegun
      · rw [← Option.some.inj hend]
        exact hcommitted
      · have hclosed : db.isOpen = false := by simpa using hbegun
        simp only [hclosed, Bool.not_false, Bool.true_and, Bool.or_eq_true, not_or,
          Bool.not_eq_true, Bool.not_eq_false'] at hback
        obtain ⟨hcharacters, hguilds⟩ := hraised.mp hback.1
        exact absurd ⟨hclosed, hcharacters, hguilds, hback.2⟩ hdone
      · rw [← Option.some.inj hend]
        exact hcommitted
    rw [hsame, or_iff_right hdone]

end Restore

/-! ## A character that is lost -/

namespace LostCharacter

def character (name : String) : DumpCharacter := ⟨name, ⟨"account", 0, default⟩⟩

def dump : WorldDump where
  characters := [character "anna", character "bo"]
  names := by decide
  guilds := []
  tags := List.nodup_nil
  mapState := ⟨[], []⟩

def tables : Tables := ⟨fun _ => none, fun _ => none⟩

/-- The query for `name` throws. -/
def env (name : String) : RestoreEnv where
  characters c := ⟨if c.name = name then .raises else .works, .works, .works⟩
  guilds _ := ⟨.works, .works, .works⟩
  commit := true
  rollback := true
  rewrite := true

/-- What there is after a restore that returns. -/
def restored (name : String) : Option RestoredWorld :=
  (restoreFromDump (env name) (.settled tables) [] (some dump)).toOption

end LostCharacter

/-- The first character is taken out of the dump, the query for the second one throws, and
after the rollback the first is in neither. -/
theorem not_keepsCharacters :
    ∃ out ∈ LostCharacter.restored "bo", ¬ out.KeepsCharacters LostCharacter.dump := by
  refine ⟨_, rfl, ?_⟩
  intro h
  rcases h (LostCharacter.character "anna") List.mem_cons_self with hstored | hfile
  · rcases hstored with ⟨row, hrow, -⟩ | ⟨row, hrow, -⟩
    · cases hrow
    · cases hrow
  · obtain ⟨file, hfile, hmem⟩ := hfile
    cases hfile
    revert hmem
    decide

/-- When the query for the first one throws, nothing has been taken out of the dump. -/
theorem keepsCharacters_first :
    ∃ out ∈ LostCharacter.restored "anna", out.KeepsCharacters LostCharacter.dump := by
  refine ⟨_, rfl, ?_⟩
  have hok : restoreFromDump (LostCharacter.env "anna") (.settled LostCharacter.tables) []
      (some LostCharacter.dump) = .ok ⟨_, _, _⟩ := rfl
  apply (keepsCharacters_iff hok).mpr
  right
  intro c hc
  cases hc

end ArenaServ
