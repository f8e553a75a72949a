import ArenaServ.RunSteps
import ArenaServ.SortedMap
import ArenaServ.TextUtil
import ArenaServ.WorldDump

/-!
# Timed saves

A timed save writes all characters, the guilds that have been changed and the queued records of
commands, and commits. A guild's flag and the queue are cleared while the statements are
issued, and nothing puts them back when the commit fails.
-/

namespace ArenaServ

/-! ## Records of commands -/

structure AuditEntry where
  time : ℤ
  source : String
  command : String
  arguments : List String
  deriving DecidableEq

structure AuditRow where
  time : Int32
  source : String
  command : String
  arguments : String
  deriving DecidableEq

/-- What `SaveCommandAudit` inserts. -/
def AuditEntry.row (e : AuditEntry) : AuditRow :=
  ⟨Int32.ofInt e.time, e.source, e.command, " ".intercalate e.arguments⟩

/-! ## Characters and guilds -/

/-- What `Character::Save` writes. -/
structure SavedCharacter where
  usage : Int32
  columns : CharacterColumns
  deriving DecidableEq

structure GuildState where
  description : String
  ranks : List String
  bank : Int32
  deriving DecidableEq

def rankSerialize (ranks : List String) : String := String.join (ranks.map (· ++ ","))

/-- Nine ranks; a delimiter at the end is optional. -/
def rankUnserialize (serialized : String) : List String :=
  let pieces := serialized.splitOn ","
  let pieces := if pieces.getLast? = some "" then pieces.dropLast else pieces
  (pieces.take 9).rightpad 9 ""

namespace GuildState

/-- What `Guild::Save` writes. -/
def row (g : GuildState) : GuildColumns := ⟨g.description, rankSerialize g.ranks, g.bank⟩

end GuildState

structure SaveConfig where
  timedSave : Bool
  guildBankMax : Int32
  /-- `util::text_word_wrap` at the width of guild descriptions. -/
  wrap : String → String

/-- `GetGuild` of a guild that is not in the cache. -/
def SaveConfig.load (config : SaveConfig) (row : GuildColumns) : GuildState :=
  ⟨config.wrap row.description, rankUnserialize row.ranks, row.bank⟩

structure CachedGuild where
  state : GuildState
  needsSave : Bool
  deriving DecidableEq

inductive GuildChange where
  | description (text : String)
  | ranks (ranks : List String)
  | addBank (gold : Int32)
  | delBank (gold : Int32)

namespace CachedGuild

def setDescription (config : SaveConfig) (g : CachedGuild) (description : String) : CachedGuild :=
  let description := description.map fun c => if c = Char.ofNat 255 then 'y' else c
  ⟨{ g.state with description := config.wrap description }, true⟩

/-- `Guild_Agree` with new ranks. -/
def setRanks (g : CachedGuild) (ranks : List String) : CachedGuild :=
  ⟨{ g.state with ranks := ranks }, true⟩

def addBank (config : SaveConfig) (g : CachedGuild) (gold : Int32) : CachedGuild :=
  if 0 < gold ∧ 0 ≤ g.state.bank + gold then
    ⟨{ g.state with bank := min (g.state.bank + gold) config.guildBankMax }, true⟩
  else g

def delBank (g : CachedGuild) (gold : Int32) : CachedGuild :=
  if 0 < gold ∧ 0 ≤ g.state.bank ∧ 0 ≤ g.state.bank - gold then
    ⟨{ g.state with bank := g.state.bank - gold }, true⟩
  else g

def change (config : SaveConfig) (g : CachedGuild) : GuildChange → CachedGuild
  | .description text => g.setDescription config text
  | .ranks ranks => g.setRanks ranks
  | .addBank gold => g.addBank config gold
  | .delBank gold => g.delBank gold

/-- A change of a guild makes it one that needs a save. -/
theorem needsSave_or_eq_change (config : SaveConfig) (g : CachedGuild) (c : GuildChange) :
    (g.change config c).needsSave = true ∨ g.change config c = g := by
  cases c with
  | description text => exact Or.inl rfl
  | ranks ranks => exact Or.inl rfl
  | addBank gold =>
      unfold change addBank
      dsimp only
      split_ifs
      · exact Or.inl rfl
      · exact Or.inr rfl
  | delBank gold =>
      unfold change delBank
      dsimp only
      split_ifs
      · exact Or.inl rfl
      · exact Or.inr rfl

end CachedGuild

/-! ## The world and its database -/

structure SavedTables where
  characters : String → Option SavedCharacter
  guilds : String → Option GuildColumns
  audit : List AuditRow

/-- What is in memory of what is saved. `audit` has the records of this run that have left the
queue. -/
structure SavingWorld where
  db : Transactional SavedTables
  characters : SortedMap String SavedCharacter
  guilds : SortedMap String CachedGuild
  audit : List AuditEntry
  uncommitted : List AuditEntry

namespace SavedTables

def putCharacter (name : String) (state : SavedCharacter) (t : SavedTables) : SavedTables :=
  { t with characters := updateRow name state t.characters }

/-- `Guild::Save`. -/
def saveGuild (tag : String) (g : CachedGuild) (t : SavedTables) : SavedTables :=
  if g.needsSave then { t with guilds := updateRow tag g.state.row t.guilds } else t

/-- A guild without members is deleted, and the characters' rows are told. -/
def deleteGuild (tag : String) (t : SavedTables) : SavedTables :=
  { t with
    characters := fun name => (t.characters name).map fun c =>
      if c.columns.guild = tag then
        { c with columns := { c.columns with guild := "", guildrank := 0, guildrankStr := "" } }
      else c
    guilds := Function.update t.guilds tag none }

def saveCharacters (characters : SortedMap String SavedCharacter) (t : SavedTables) :
    SavedTables :=
  characters.entries.foldl (fun t e => t.putCharacter e.1 e.2) t

/-- `GuildManager::SaveAll`. -/
def saveGuilds (guilds : SortedMap String CachedGuild) (t : SavedTables) : SavedTables :=
  guilds.entries.foldl (fun t e => t.saveGuild e.1 e.2) t

/-- The loop of `SaveCommandAudit`, which goes on after a statement that fails. -/
def saveCommandAudit (inserts : AuditEntry → Bool) (entries : List AuditEntry)
    (t : SavedTables) : SavedTables :=
  entries.foldl
    (fun t e => if inserts e then { t with audit := t.audit ++ [e.row] } else t) t

end SavedTables

/-! ## Steps -/

/-- What the database does in a timed save. -/
structure SaveOutcome where
  inserts : AuditEntry → Bool
  commit : Bool
  rollback : Bool

inductive SaveStep where
  | login (name : String) (state : SavedCharacter)
  | character (name : String) (state : SavedCharacter)
  | logout (name : String)
  | createGuild (tag : String) (row : GuildColumns)
  | loadGuild (tag : String)
  | changeGuild (tag : String) (change : GuildChange)
  | releaseGuild (tag : String) (members : Bool)
  | command (entry : AuditEntry)
  | timedSave (outcome : SaveOutcome)

namespace SavingWorld

/-- `world_timed_save`. When the rollback throws as well, the server goes down. -/
def timedSave (config : SaveConfig) (s : SavingWorld) (o : SaveOutcome) : Option SavingWorld :=
  if config.timedSave then
    let db := s.db.openUp
    let db := db.update (SavedTables.saveCharacters s.characters)
    let db := db.update (SavedTables.saveGuilds s.guilds)
    let db := db.update (SavedTables.saveCommandAudit o.inserts s.uncommitted)
    let s := { s with
      guilds := s.guilds.map fun g : CachedGuild => { g with needsSave := false }
      audit := s.audit ++ s.uncommitted
      uncommitted := [] }
    if o.commit then some { s with db := db.commit }
    else if o.rollback then some { s with db := db.rollback }
    else none
  else some s

/-- A step; there is none of an action that cannot happen. -/
def next (config : SaveConfig) (s : SavingWorld) : SaveStep → Option SavingWorld
  | .login name state =>
      if (s.db.current.characters name).isSome ∧ s.characters.find? name = none then
        some { s with characters := s.characters.insert name state }
      else none
  | .character name state =>
      (s.characters.find? name).map fun _ =>
        { s with characters := s.characters.insert name state }
  | .logout name =>
      (s.characters.find? name).map fun state =>
        { s with
          db := s.db.update (SavedTables.putCharacter name state)
          characters := s.characters.erase name }
  | .createGuild tag row =>
      if s.db.current.guilds tag = none ∧ s.guilds.find? tag = none then
        some { s with
          db := s.db.update fun t => { t with guilds := Function.update t.guilds tag (some row) }
          guilds := s.guilds.insert tag ⟨config.load row, false⟩ }
      else none
  | .loadGuild tag =>
      if s.guilds.find? tag = none then
        (s.db.current.guilds tag).map fun row =>
          { s with guilds := s.guilds.insert tag ⟨config.load row, false⟩ }
      else none
  | .changeGuild tag change =>
      (s.guilds.find? tag).map fun g =>
        { s with guilds := s.guilds.insert tag (g.change config change) }
  | .releaseGuild tag members =>
      (s.guilds.find? tag).map fun g =>
        { s with
          db := s.db.update
            (if members then SavedTables.saveGuild tag g else SavedTables.deleteGuild tag)
          guilds := s.guilds.erase tag }
  | .command entry => some { s with uncommitted := s.uncommitted ++ [entry] }
  | .timedSave o => s.timedSave config o

/-- Nothing is in memory yet. -/
def start (tables : SavedTables) : SavingWorld := ⟨.settled tables, .empty, .empty, [], []⟩

end SavingWorld

end ArenaServ
