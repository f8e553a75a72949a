import ArenaServ.Chests
import ArenaServ.Transaction

/-!
# Dumping the world and restoring it

A server that closes down writes its characters, guilds, ground items and chests to a file.
The next one puts the characters and guilds into the database in one transaction, and the
items and chest contents onto its maps, and rewrites or removes the file. What a query comes
to is up to the database: it works, it reports an error, or it raises an exception.
-/

namespace ArenaServ

/-! ## The tables -/

/-- The columns of a character that are neither its key nor its account nor its usage. -/
structure CharacterColumns where
  title : String
  home : String
  fiance : String
  partner : String
  clas : Int32
  gender : Int32
  race : Int32
  hairstyle : Int32
  haircolor : Int32
  map : Int32
  x : Int32
  y : Int32
  direction : Int32
  level : Int32
  admin : Int32
  exp : Int32
  hp : Int32
  tp : Int32
  str : Int32
  intl : Int32
  wis : Int32
  agi : Int32
  con : Int32
  cha : Int32
  statpoints : Int32
  skillpoints : Int32
  karma : Int32
  sitting : Int32
  hidden : Int32
  nointeract : Int32
  bankmax : Int32
  goldbank : Int32
  inventory : String
  bank : String
  paperdoll : String
  spells : String
  guild : String
  guildrank : Int32
  guildrankStr : String
  quest : String
  deriving DecidableEq, Inhabited

structure CharacterRow where
  account : String
  usage : Int32
  columns : CharacterColumns
  deriving DecidableEq, Inhabited

structure GuildColumns where
  description : String
  ranks : String
  bank : Int32
  deriving DecidableEq, Inhabited

structure GuildRow where
  name : String
  columns : GuildColumns
  deriving DecidableEq, Inhabited

structure Tables where
  characters : String → Option CharacterRow
  guilds : String → Option GuildRow

/-! ## The dump -/

structure DumpCharacter where
  name : String
  row : CharacterRow
  deriving DecidableEq, Inhabited

structure DumpGuild where
  tag : String
  row : GuildRow
  deriving DecidableEq, Inhabited

structure DumpItem where
  mapId : Int32
  x : UInt8
  y : UInt8
  itemId : Int16
  amount : Int32
  uid : Int16
  deriving DecidableEq

structure DumpChestItem where
  mapId : Int32
  x : UInt8
  y : UInt8
  itemId : Int16
  amount : Int32
  slot : Int32
  deriving DecidableEq

structure DumpMapState where
  items : List DumpItem
  chests : List DumpChestItem
  deriving DecidableEq

/-- A dump has one record for each name and each tag. -/
structure WorldDump where
  characters : List DumpCharacter
  names : (characters.map (·.name)).Nodup
  guilds : List DumpGuild
  tags : (guilds.map (·.tag)).Nodup
  mapState : DumpMapState

/-- The part of a map that is dumped. -/
structure DumpedMap where
  id : Int32
  items : List MapItem
  chests : List MapChest
  deriving DecidableEq

/-! ## Writing the dump -/

/-- The records of the world go behind those that the file had under other keys. -/
def mergeRecords {α : Type} (key : α → String) (existing new : List α) : List α :=
  new.foldl (fun all record => all.eraseP (key · = key record) ++ [record]) existing

theorem nodup_mergeRecords {α : Type} (key : α → String) {existing : List α}
    (h : (existing.map key).Nodup) (new : List α) :
    ((mergeRecords key existing new).map key).Nodup := by
  induction new generalizing existing with
  | nil => exact h
  | cons record rest ih =>
      apply ih
      have herase : (existing.eraseP (key · = key record)).map key =
          (existing.map key).erase (key record) := by
        rw [List.erase_eq_eraseP', List.eraseP_map]
        rfl
      rw [List.map_append, List.map_singleton, herase, List.nodup_append]
      refine ⟨h.erase _, List.nodup_singleton _, ?_⟩
      intro k hk k' hk' heq
      rw [heq, List.mem_singleton.mp hk'] at hk
      exact h.not_mem_erase hk

/-- What `DumpToFile` writes of the items and chests of the maps. -/
def dumpMapState (maps : List DumpedMap) : DumpMapState where
  items := maps.flatMap fun map =>
    map.items.map fun item => ⟨map.id, item.x, item.y, item.id, item.amount, item.uid⟩
  chests := maps.flatMap fun map =>
    map.chests.flatMap fun chest =>
      chest.items.map fun item =>
        ⟨map.id, chest.x, chest.y, item.id, item.amount, item.slot⟩

/-- `DumpToFile`, which keeps the records of an earlier dump of others. -/
def dumpToFile (characters : List DumpCharacter) (guilds : List DumpGuild)
    (maps : List DumpedMap) (file : Option WorldDump) : WorldDump where
  characters := mergeRecords (·.name) ((file.map (·.characters)).getD []) characters
  names := by
    apply nodup_mergeRecords
    cases file with
    | none => exact List.nodup_nil
    | some dump => exact dump.names
  guilds := mergeRecords (·.tag) ((file.map (·.guilds)).getD []) guilds
  tags := by
    apply nodup_mergeRecords
    cases file with
    | none => exact List.nodup_nil
    | some dump => exact dump.tags
  mapState := dumpMapState maps

/-! ## Restoring records -/

/-- What a query comes to: it works, it reports an error, or it throws. -/
inductive QueryResult where
  | works
  | fails
  | raises
  deriving DecidableEq

/-- The queries for a record: whether it is there, writing it, and for a guild loading it. -/
structure RecordResults where
  select : QueryResult
  write : QueryResult
  load : QueryResult
  deriving DecidableEq

/-- What becomes of a record: whether it is taken out of the dump, whether a query throws, and
the database then. -/
structure RecordEnd (τ : Type) where
  taken : Bool
  raised : Bool
  db : Transactional τ

/-- A statement that writes. -/
def writeRecord {τ : Type} (result : QueryResult) (f : τ → τ) (db : Transactional τ) :
    RecordEnd τ :=
  match result with
  | .works => ⟨true, false, db.update f⟩
  | .fails => ⟨false, false, db⟩
  | .raises => ⟨false, true, db⟩

/-- The loop over the records of one kind: those that are left, whether a query has thrown,
and the database. -/
def restoreEach {τ α : Type} (step : Transactional τ → α → RecordEnd τ) :
    Transactional τ → List α → List α × Bool × Transactional τ
  | db, [] => ([], false, db)
  | db, record :: rest =>
      let out := step db record
      let (left, raised, db') :=
        if out.raised then (rest, true, out.db) else restoreEach step out.db rest
      (if out.taken then left else record :: left, raised, db')

theorem sublist_restoreEach {τ α : Type} (step : Transactional τ → α → RecordEnd τ)
    (db : Transactional τ) (records : List α) :
    (restoreEach step db records).1.Sublist records := by
  induction records generalizing db with
  | nil => exact List.Sublist.refl _
  | cons record rest ih =>
      rw [restoreEach]
      dsimp only
      cases (step db record).taken <;> cases (step db record).raised
      · exact (ih _).cons_cons record
      · exact List.Sublist.refl _
      · exact (ih _).cons record
      · exact (List.Sublist.refl _).cons record

namespace Tables

/-- `INSERT`, or an `UPDATE` which leaves the account as it is. -/
def putCharacter (c : DumpCharacter) (t : Tables) : Tables :=
  { t with
    characters := Function.update t.characters c.name <| some <|
      match t.characters c.name with
      | none => c.row
      | some row => { c.row with account := row.account } }

def putGuild (g : DumpGuild) (t : Tables) : Tables :=
  { t with
    guilds := Function.update t.guilds g.tag <| some <|
      match t.guilds g.tag with
      | none => g.row
      | some row => { row with columns := g.row.columns } }

/-- The database has a character in a state that is newer than the dump's. -/
def HasNewer (t : Tables) (c : DumpCharacter) : Prop :=
  ∃ row ∈ t.characters c.name, c.row.usage < row.usage

instance (t : Tables) (c : DumpCharacter) : Decidable (t.HasNewer c) :=
  match h : t.characters c.name with
  | none => .isFalse fun ⟨_, hrow, _⟩ => nomatch h.symm.trans hrow
  | some row =>
      decidable_of_iff (c.row.usage < row.usage) <| by
        unfold HasNewer
        rw [h]
        simp

end Tables

def restoreCharacter (results : DumpCharacter → RecordResults) (db : Transactional Tables)
    (c : DumpCharacter) : RecordEnd Tables :=
  match (results c).select with
  | .raises => ⟨false, true, db⟩
  | .fails => ⟨false, false, db⟩
  | .works =>
      if db.current.HasNewer c then ⟨true, false, db⟩
      else writeRecord (results c).write (Tables.putCharacter c) db

/-- A guild is taken out of the dump before it is loaded into the cache. -/
def restoreGuild (results : DumpGuild → RecordResults) (db : Transactional Tables)
    (g : DumpGuild) : RecordEnd Tables :=
  match (results g).select with
  | .raises => ⟨false, true, db⟩
  | .fails => ⟨false, false, db⟩
  | .works =>
      let out := writeRecord (results g).write (Tables.putGuild g) db
      { out with raised := out.raised || (out.taken && decide ((results g).load = .raises)) }

/-! ## Restoring the maps -/

def restoreItem (maps : List DumpedMap) (i : DumpItem) : List DumpedMap :=
  FirstMatch.alterFirst (·.id = i.mapId)
    (fun map => some { map with
      items := map.items ++ [⟨i.uid, i.itemId, i.amount, i.x, i.y, 0, 0⟩] }) maps

def restoreChestItem (maps : List DumpedMap) (i : DumpChestItem) : List DumpedMap :=
  FirstMatch.alterFirst (·.id = i.mapId)
    (fun map => some { map with
      chests := FirstMatch.alterFirst (fun chest => chest.x = i.x && chest.y = i.y)
        (fun chest => some (chest.addItem i.itemId i.amount i.slot).2) map.chests }) maps

def restoreMapState (state : DumpMapState) (maps : List DumpedMap) : List DumpedMap :=
  state.chests.foldl restoreChestItem (state.items.foldl restoreItem maps)

/-! ## The whole restore -/

/-- What the database and the file system do during a restore. -/
structure RestoreEnv where
  characters : DumpCharacter → RecordResults
  guilds : DumpGuild → RecordResults
  commit : Bool
  rollback : Bool
  /-- The file can be opened for writing. -/
  rewrite : Bool

/-- Why `RestoreFromDump` does not return. -/
inductive RestoreError where
  | rollbackFailed
  | noRewrite
  deriving DecidableEq

/-- The records that are left, whether a query has thrown, and the database. -/
structure RestoredRecords where
  characters : List DumpCharacter
  guilds : List DumpGuild
  raised : Bool
  db : Transactional Tables

/-- What happens inside of the `try` block, up to the commit. -/
def restoreRecords (env : RestoreEnv) (dump : WorldDump) (db : Transactional Tables) :
    RestoredRecords :=
  let (characters, raised, db) := restoreEach (restoreCharacter env.characters) db dump.characters
  if raised then ⟨characters, dump.guilds, true, db⟩
  else
    let (guilds, raised, db) := restoreEach (restoreGuild env.guilds) db dump.guilds
    ⟨characters, guilds, raised, db⟩

theorem sublist_restoreRecords (env : RestoreEnv) (dump : WorldDump) (db : Transactional Tables) :
    (restoreRecords env dump db).characters.Sublist dump.characters ∧
      (restoreRecords env dump db).guilds.Sublist dump.guilds := by
  have hcharacters := sublist_restoreEach (restoreCharacter env.characters) db dump.characters
  unfold restoreRecords
  dsimp only
  split_ifs
  · exact ⟨hcharacters, List.Sublist.refl _⟩
  · exact ⟨hcharacters, sublist_restoreEach _ _ _⟩

/-- The end of the transaction: only what has been begun here is committed, and on an
exception, that of the commit included, everything is rolled back. -/
def endTransaction (env : RestoreEnv) (begun raised : Bool) (db : Transactional Tables) :
    Option (Transactional Tables) :=
  if raised || (begun && !env.commit) then
    if env.rollback then some db.rollback else none
  else some (if begun then db.commit else db)

/-- The dump with the records that are left. Its map state stays. -/
def WorldDump.leave (dump : WorldDump) (characters : List DumpCharacter) (guilds : List DumpGuild)
    (hcharacters : characters.Sublist dump.characters) (hguilds : guilds.Sublist dump.guilds) :
    WorldDump where
  characters := characters
  names := (hcharacters.map (·.name)).nodup dump.names
  guilds := guilds
  tags := (hguilds.map (·.tag)).nodup dump.tags
  mapState := dump.mapState

structure RestoredWorld where
  db : Transactional Tables
  maps : List DumpedMap
  file : Option WorldDump

def restoreFromDump (env : RestoreEnv) (db : Transactional Tables) (maps : List DumpedMap)
    (file : Option WorldDump) : Except RestoreError RestoredWorld :=
  match file with
  | none => .ok ⟨db, maps, none⟩
  | some dump =>
      let restored := restoreRecords env dump db.openUp
      match endTransaction env (!db.isOpen) restored.raised restored.db with
      | none => .error .rollbackFailed
      | some db =>
          let maps := restoreMapState dump.mapState maps
          if restored.characters = [] ∧ restored.guilds = [] then .ok ⟨db, maps, none⟩
          else if env.rewrite then
            .ok ⟨db, maps, some <| dump.leave restored.characters restored.guilds
              (sublist_restoreRecords env dump _).1 (sublist_restoreRecords env dump _).2⟩
          else .error .noRewrite

/-- What a restore that returns has done. -/
theorem restoreFromDump_cases {env : RestoreEnv} {db : Transactional Tables}
    {maps : List DumpedMap} {dump : WorldDump} {out : RestoredWorld}
    (h : restoreFromDump env db maps (some dump) = .ok out) :
    endTransaction env (!db.isOpen) (restoreRecords env dump db.openUp).raised
        (restoreRecords env dump db.openUp).db = some out.db ∧
      out.maps = restoreMapState dump.mapState maps ∧
      ((out.file = none ∧ (restoreRecords env dump db.openUp).characters = [] ∧
          (restoreRecords env dump db.openUp).guilds = []) ∨
        ∃ file, out.file = some file ∧
          file.characters = (restoreRecords env dump db.openUp).characters ∧
          file.guilds = (restoreRecords env dump db.openUp).guilds ∧
          file.mapState = dump.mapState) := by
  unfold restoreFromDump at h
  dsimp only at h
  cases hend : endTransaction env (!db.isOpen) (restoreRecords env dump db.openUp).raised
      (restoreRecords env dump db.openUp).db with
  | none =>
      rw [hend] at h
      cases h
  | some db' =>
      rw [hend] at h
      dsimp only at h
      split_ifs at h with hempty hrewrite
      · cases h
        exact ⟨rfl, rfl, Or.inl ⟨rfl, hempty⟩⟩
      · cases h
        exact ⟨rfl, rfl, Or.inr ⟨_, rfl, rfl, rfl, rfl⟩⟩

end ArenaServ
