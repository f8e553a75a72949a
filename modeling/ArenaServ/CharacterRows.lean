import ArenaServ.CharacterTexts
import ArenaServ.ConfigFiles
import ArenaServ.QuestRecords
import ArenaServ.WorldDump

/-!
# Characters and their rows

A character is written to its row by `Character::Save` and by the two statements of
`World::RestoreFromDump`, and read back by the constructor. Statements give their columns and their
values in an order each; what they write follows from both.
-/

namespace ArenaServ

open CharacterTexts

inductive CharacterColumn where
  | name | account | title | home | fiance | partner | clas | gender | race | hairstyle
  | haircolor | map | x | y | direction | level | admin | exp | hp | tp | str | intl | wis | agi
  | con | cha | statpoints | skillpoints | karma | sitting | hidden | nointeract | bankmax
  | goldbank | inventory | bank | paperdoll | spells | guild | guildrank | guildrankStr | quest
  | usage | vars
  deriving DecidableEq

inductive DbValue where
  | number (n : Int32)
  | text (s : String)

namespace CharacterRow

/-- A column gets a value of its kind. The name is the key, and nothing reads the variables. -/
def set (row : CharacterRow) : CharacterColumn → DbValue → Option CharacterRow
  | .name, .text _ => some row
  | .account, .text s => some { row with account := s }
  | .title, .text s => some { row with columns := { row.columns with title := s } }
  | .home, .text s => some { row with columns := { row.columns with home := s } }
  | .fiance, .text s => some { row with columns := { row.columns with fiance := s } }
  | .partner, .text s => some { row with columns := { row.columns with partner := s } }
  | .clas, .number n => some { row with columns := { row.columns with clas := n } }
  | .gender, .number n => some { row with columns := { row.columns with gender := n } }
  | .race, .number n => some { row with columns := { row.columns with race := n } }
  | .hairstyle, .number n => some { row with columns := { row.columns with hairstyle := n } }
  | .haircolor, .number n => some { row with columns := { row.columns with haircolor := n } }
  | .map, .number n => some { row with columns := { row.columns with map := n } }
  | .x, .number n => some { row with columns := { row.columns with x := n } }
  | .y, .number n => some { row with columns := { row.columns with y := n } }
  | .direction, .number n => some { row with columns := { row.columns with direction := n } }
  | .level, .number n => some { row with columns := { row.columns with level := n } }
  | .admin, .number n => some { row with columns := { row.columns with admin := n } }
  | .exp, .number n => some { row with columns := { row.columns with exp := n } }
  | .hp, .number n => some { row with columns := { row.columns with hp := n } }
  | .tp, .number n => some { row with columns := { row.columns with tp := n } }
  | .str, .number n => some { row with columns := { row.columns with str := n } }
  | .intl, .number n => some { row with columns := { row.columns with intl := n } }
  | .wis, .number n => some { row with columns := { row.columns with wis := n } }
  | .agi, .number n => some { row with columns := { row.columns with agi := n } }
  | .con, .number n => some { row with columns := { row.columns with con := n } }
  | .cha, .number n => some { row with columns := { row.columns with cha := n } }
  | .statpoints, .number n => some { row with columns := { row.columns with statpoints := n } }
  | .skillpoints, .number n => some { row with columns := { row.columns with skillpoints := n } }
  | .karma, .number n => some { row with columns := { row.columns with karma := n } }
  | .sitting, .number n => some { row with columns := { row.columns with sitting := n } }
  | .hidden, .number n => some { row with columns := { row.columns with hidden := n } }
  | .nointeract, .number n => some { row with columns := { row.columns with nointeract := n } }
  | .bankmax, .number n => some { row with columns := { row.columns with bankmax := n } }
  | .goldbank, .number n => some { row with columns := { row.columns with goldbank := n } }
  | .inventory, .text s => some { row with columns := { row.columns with inventory := s } }
  | .bank, .text s => some { row with columns := { row.columns with bank := s } }
  | .paperdoll, .text s => some { row with columns := { row.columns with paperdoll := s } }
  | .spells, .text s => some { row with columns := { row.columns with spells := s } }
  | .guild, .text s => some { row with columns := { row.columns with guild := s } }
  | .guildrank, .number n => some { row with columns := { row.columns with guildrank := n } }
  | .guildrankStr, .text s => some { row with columns := { row.columns with guildrankStr := s } }
  | .quest, .text s => some { row with columns := { row.columns with quest := s } }
  | .usage, .number n => some { row with usage := n }
  | .vars, .text _ => some row
  | _, _ => none

/-- The columns of a statement and its values, one after the other. -/
def assign (row : CharacterRow) : List CharacterColumn → List DbValue → Option CharacterRow
  | [], [] => some row
  | column :: columns, value :: values => do assign (← row.set column value) columns values
  | _, _ => none

end CharacterRow

/-- What `Character` has of its row; the enumerations are bytes. -/
structure CharacterRecord where
  admin : UInt8
  realName : String
  account : String
  title : String
  home : String
  fiance : String
  partner : String
  clas : UInt8
  gender : UInt8
  race : UInt8
  hairstyle : UInt8
  haircolor : UInt8
  mapid : Int16
  x : UInt8
  y : UInt8
  direction : UInt8
  level : UInt8
  exp : Int32
  hp : Int16
  tp : Int16
  str : Int16
  intl : Int16
  wis : Int16
  agi : Int16
  con : Int16
  cha : Int16
  statpoints : Int16
  skillpoints : Int16
  karma : Int16
  sitting : UInt8
  hidden : Int32
  nointeract : Int32
  bankmax : Int32
  goldbank : Int32
  usage : Int32
  loginTime : Int32
  inventory : List CharacterItem
  bank : List CharacterItem
  paperdoll : Vector Int32 15
  spells : List CharacterSpell
  /-- The tag of the guild. -/
  guild : Option String
  guildRank : UInt8
  guildRankString : String
  questString : String
  quests : SortedMap Int16 (Option QuestContext)
  questsInactive : SortedMap Int16 CharacterQuestState

def ofByte (n : UInt8) : Int32 := Int32.ofNat n.toNat

def toByte (n : Int32) : UInt8 := UInt8.ofInt n.toInt

namespace CharacterRecord

/-- `NoInteractCustom`. -/
def noInteractCustom : Int32 := 1

def isCustom (nointeract : Int32) : Bool := nointeract &&& noInteractCustom ≠ 0

variable (c : CharacterRecord)

/-- `Usage`, in minutes. -/
def usageAt (now : Int32) : Int32 := c.usage + (now - c.loginTime) / 60

/-- What `Save` keeps of whom the character interacts with. -/
def storedNoInteract : Int32 := if isCustom c.nointeract then c.nointeract else 0

def questData : String :=
  if c.questString = "" then questSerialize c.quests c.questsInactive else c.questString

/-! ## Saving -/

def saveColumns : List CharacterColumn :=
  [.title, .home, .fiance, .partner, .admin, .clas, .gender, .race, .hairstyle, .haircolor, .map,
  .x, .y, .direction, .level, .exp, .hp, .tp, .str, .intl, .wis, .agi, .con, .cha, .statpoints,
  .skillpoints, .karma, .sitting, .hidden, .nointeract, .bankmax, .goldbank, .usage, .inventory,
  .bank, .paperdoll, .spells, .guild, .guildrank, .guildrankStr, .quest, .vars]

/-- The values of `Save`, in their order. -/
def saveValues (now : Int32) : List DbValue :=
  [.text c.title, .text c.home, .text c.fiance, .text c.partner, .number (ofByte c.admin),
  .number (ofByte c.clas), .number (ofByte c.gender), .number (ofByte c.race),
  .number (ofByte c.hairstyle), .number (ofByte c.haircolor), .number c.mapid.toInt32,
  .number (ofByte c.x), .number (ofByte c.y), .number (ofByte c.direction),
  .number (ofByte c.level), .number c.exp, .number c.hp.toInt32, .number c.tp.toInt32,
  .number c.str.toInt32, .number c.intl.toInt32, .number c.wis.toInt32, .number c.agi.toInt32,
  .number c.con.toInt32, .number c.cha.toInt32, .number c.statpoints.toInt32,
  .number c.skillpoints.toInt32, .number c.karma.toInt32, .number (ofByte c.sitting),
  .number c.hidden, .number c.storedNoInteract, .number c.bankmax, .number c.goldbank,
  .number (c.usageAt now), .text (String.ofList (itemSerialize c.inventory)),
  .text (String.ofList (itemSerialize c.bank)), .text (String.ofList (dollSerialize c.paperdoll)),
  .text (String.ofList (spellSerialize c.spells)), .text (c.guild.getD ""),
  .number (ofByte c.guildRank), .text c.guildRankString, .text c.questData, .text ""]

/-- `Save`, on the row of the character. -/
def save (now : Int32) (row : CharacterRow) : Option CharacterRow :=
  row.assign saveColumns (c.saveValues now)

/-- The columns of a character, with what is stored of whom it interacts with. -/
def columns (nointeract : Int32) : CharacterColumns where
  title := c.title
  home := c.home
  fiance := c.fiance
  partner := c.partner
  clas := ofByte c.clas
  gender := ofByte c.gender
  race := ofByte c.race
  hairstyle := ofByte c.hairstyle
  haircolor := ofByte c.haircolor
  map := c.mapid.toInt32
  x := ofByte c.x
  y := ofByte c.y
  direction := ofByte c.direction
  level := ofByte c.level
  admin := ofByte c.admin
  exp := c.exp
  hp := c.hp.toInt32
  tp := c.tp.toInt32
  str := c.str.toInt32
  intl := c.intl.toInt32
  wis := c.wis.toInt32
  agi := c.agi.toInt32
  con := c.con.toInt32
  cha := c.cha.toInt32
  statpoints := c.statpoints.toInt32
  skillpoints := c.skillpoints.toInt32
  karma := c.karma.toInt32
  sitting := ofByte c.sitting
  hidden := c.hidden
  nointeract := nointeract
  bankmax := c.bankmax
  goldbank := c.goldbank
  inventory := String.ofList (itemSerialize c.inventory)
  bank := String.ofList (itemSerialize c.bank)
  paperdoll := String.ofList (dollSerialize c.paperdoll)
  spells := String.ofList (spellSerialize c.spells)
  guild := c.guild.getD ""
  guildrank := ofByte c.guildRank
  guildrankStr := c.guildRankString
  quest := c.questData

/-! ## The dump -/

/-- What `DumpToFile` puts down of a character. -/
def dumpCharacter : DumpCharacter where
  name := c.realName
  row := ⟨c.account, c.usage, c.columns c.nointeract⟩

end CharacterRecord

namespace DumpCharacter

variable (d : DumpCharacter)

def insertColumns : List CharacterColumn :=
  [.name, .title, .account, .home, .fiance, .partner, .clas, .gender, .race, .hairstyle,
  .haircolor, .map, .x, .y, .direction, .level, .admin, .exp, .hp, .tp, .str, .intl, .wis, .agi,
  .con, .cha, .statpoints, .skillpoints, .karma, .sitting, .hidden, .nointeract, .bankmax,
  .goldbank, .usage, .inventory, .bank, .paperdoll, .spells, .guild, .guildrank, .guildrankStr,
  .quest]

/-- The values of the `INSERT`, in their order. -/
def insertValues : List DbValue :=
  let c := d.row.columns
  [.text d.name, .text c.title, .text d.row.account, .text c.home, .text c.fiance,
  .text c.partner, .number c.clas, .number c.gender, .number c.race, .number c.hairstyle,
  .number c.haircolor, .number c.map, .number c.x, .number c.y, .number c.direction,
  .number c.level, .number c.admin, .number c.exp, .number c.hp, .number c.tp, .number c.str,
  .number c.intl, .number c.wis, .number c.agi, .number c.con, .number c.cha,
  .number c.statpoints, .number c.skillpoints, .number c.karma, .number c.sitting,
  .number c.hidden, .number c.nointeract, .number c.bankmax, .number c.goldbank,
  .number d.row.usage, .text c.inventory, .text c.bank, .text c.paperdoll, .text c.spells,
  .text c.guild, .number c.guildrank, .text c.guildrankStr, .text c.quest]

/-- The `INSERT`, whose row has all of its columns from the statement. -/
def insert : Option CharacterRow := (default : CharacterRow).assign insertColumns d.insertValues

def updateColumns : List CharacterColumn :=
  [.title, .home, .fiance, .partner, .clas, .gender, .race, .hairstyle, .haircolor, .map, .x, .y,
  .direction, .level, .admin, .exp, .hp, .tp, .str, .intl, .wis, .agi, .con, .cha, .statpoints,
  .skillpoints, .karma, .sitting, .hidden, .nointeract, .bankmax, .goldbank, .usage, .inventory,
  .bank, .paperdoll, .spells, .guild, .guildrank, .guildrankStr, .quest]

/-- The values of the `UPDATE`, in their order. -/
def updateValues : List DbValue :=
  let c := d.row.columns
  [.text c.title, .text c.home, .text c.fiance, .text c.partner, .number c.clas, .number c.gender,
  .number c.race, .number c.hairstyle, .number c.haircolor, .number c.map, .number c.x,
  .number c.y, .number c.direction, .number c.level, .number c.admin, .number c.exp, .number c.hp,
  .number c.tp, .number c.str, .number c.intl, .number c.wis, .number c.agi, .number c.con,
  .number c.cha, .number c.statpoints, .number c.skillpoints, .number c.karma, .number c.sitting,
  .number c.hidden, .number c.nointeract, .number c.bankmax, .number c.goldbank,
  .number d.row.usage, .text c.inventory, .text c.bank, .text c.paperdoll, .text c.spells,
  .text c.guild, .number c.guildrank, .text c.guildrankStr, .text c.quest]

def update (row : CharacterRow) : Option CharacterRow := row.assign updateColumns d.updateValues

end DumpCharacter

/-! ## Loading -/

/-- What the constructor asks the world for. -/
structure LoadEnv where
  /-- `GetGuild`, which gives the tag of the guild that it finds. -/
  getGuild : String → Option String
  /-- The id of the map that `GetMap` gives, which may be the fallback; or it throws. -/
  mapId : Int16 → Option Int16
  noInteractDefaultAdmin : Int32
  noInteractDefault : Int32
  now : Int32

def trimmed (s : String) : String := String.ofList (Util.trim s.toList)

namespace CharacterRecord

def loadedNoInteract (env : LoadEnv) (admin : UInt8) (nointeract : Int32) : Int32 :=
  if env.noInteractDefaultAdmin ≤ ofByte admin ∧ isCustom nointeract = false then
    env.noInteractDefault
  else nointeract

/-- `Character::Character`. The account is the name of its player, who comes later. -/
def load (env : LoadEnv) (username name : String) (row : CharacterRow) :
    Option CharacterRecord := do
  let c := row.columns
  let paperdoll ← dollUnserialize c.paperdoll.toList
  let mapid ← env.mapId c.map.toInt16
  let tag := trimmed c.guild
  return {
    admin := toByte c.admin
    realName := name
    account := username
    title := c.title
    home := c.home
    fiance := c.fiance
    partner := c.partner
    clas := toByte c.clas
    gender := toByte c.gender
    race := toByte c.race
    hairstyle := toByte c.hairstyle
    haircolor := toByte c.haircolor
    mapid := mapid
    x := toByte c.x
    y := toByte c.y
    direction := toByte c.direction
    level := toByte c.level
    exp := c.exp
    hp := c.hp.toInt16
    tp := c.tp.toInt16
    str := c.str.toInt16
    intl := c.intl.toInt16
    wis := c.wis.toInt16
    agi := c.agi.toInt16
    con := c.con.toInt16
    cha := c.cha.toInt16
    statpoints := c.statpoints.toInt16
    skillpoints := c.skillpoints.toInt16
    karma := c.karma.toInt16
    sitting := toByte c.sitting
    hidden := c.hidden
    nointeract := loadedNoInteract env (toByte c.admin) c.nointeract
    bankmax := c.bankmax
    goldbank := c.goldbank
    usage := row.usage
    loginTime := env.now
    inventory := itemUnserialize c.inventory.toList
    bank := itemUnserialize c.bank.toList
    paperdoll := paperdoll
    spells := spellUnserialize c.spells.toList
    guild := if tag = "" then none else env.getGuild tag
    guildRank := if tag = "" then 0 else toByte c.guildrank
    guildRankString := if tag = "" then "" else c.guildrankStr
    questString := c.quest
    quests := .empty
    questsInactive := .empty }

/-! ## What is read back -/

/-- The lists of a character are such as its texts can hold, and the world has its map and its
guild. -/
structure Storable (env : LoadEnv) (c : CharacterRecord) : Prop where
  inventory : ∀ item ∈ c.inventory, 1 ≤ item.id.toInt ∧ 1 ≤ item.amount.toInt
  bank : ∀ item ∈ c.bank, 1 ≤ item.id.toInt ∧ 1 ≤ item.amount.toInt
  paperdoll : ∀ id ∈ c.paperdoll, 0 ≤ id.toInt ∧ id.toInt ≤ 65535
  spells : ∀ spell ∈ c.spells, 1 ≤ spell.id.toInt
  map : env.mapId c.mapid = some c.mapid
  guild : ∀ tag, c.guild = some tag → trimmed tag ≠ "" ∧ env.getGuild (trimmed tag) = some tag

theorem Storable.congr {env : LoadEnv} {c c' : CharacterRecord} (h : c.Storable env)
    (hinventory : c'.inventory = c.inventory) (hbank : c'.bank = c.bank)
    (hpaperdoll : c'.paperdoll = c.paperdoll) (hspells : c'.spells = c.spells)
    (hmap : c'.mapid = c.mapid) (hguild : c'.guild = c.guild) : c'.Storable env where
  inventory := hinventory ▸ h.inventory
  bank := hbank ▸ h.bank
  paperdoll := hpaperdoll ▸ h.paperdoll
  spells := hspells ▸ h.spells
  map := hmap ▸ h.map
  guild := hguild ▸ h.guild

/-- The character as it comes back, with its quests as a text. Ranks are those of a guild. -/
def reloaded (env : LoadEnv) (c : CharacterRecord) (usage nointeract : Int32) : CharacterRecord :=
  { c with
    usage := usage
    loginTime := env.now
    nointeract := loadedNoInteract env c.admin nointeract
    guildRank := if c.guild.isSome then c.guildRank else 0
    guildRankString := if c.guild.isSome then c.guildRankString else ""
    questString := c.questData
    quests := .empty
    questsInactive := .empty }

theorem toByte_ofByte (n : UInt8) : toByte (ofByte n) = n := by
  have hlt : n.toNat < 256 := n.toNat_lt
  have hn : (ofByte n).toInt = n.toNat :=
    Int32.toInt_ofNat_of_lt (by omega)
  rw [toByte, hn]
  refine UInt8.toNat_inj.mp ?_
  simp only [UInt8.ofInt, UInt8.toNat_ofNat']
  omega

/-- The constructor on a guild column, by what the column holds. -/
theorem load_of_guild {env : LoadEnv} {c : CharacterRecord} {row : CharacterRow}
    (h : c.Storable env) (hrow : row.columns = c.columns row.columns.nointeract) :
    load env c.account c.realName row =
      some { c.reloaded env row.usage row.columns.nointeract with
        guild := if trimmed row.columns.guild = "" then none
          else env.getGuild (trimmed row.columns.guild)
        guildRank := if trimmed row.columns.guild = "" then 0 else c.guildRank
        guildRankString := if trimmed row.columns.guild = "" then "" else c.guildRankString } := by
  rw [load]
  generalize hguild : trimmed row.columns.guild = tag
  rw [hrow]
  simp only [columns, String.toList_ofList, dollUnserialize_dollSerialize h.paperdoll,
    itemUnserialize_itemSerialize h.inventory, itemUnserialize_itemSerialize h.bank,
    spellUnserialize_spellSerialize h.spells, Int16.toInt16_toInt32, h.map, toByte_ofByte,
    reloaded, Option.bind_eq_bind, Option.bind_some, Option.pure_def]

/-- What is written of a character is what its next session starts with. -/
theorem load_columns {env : LoadEnv} {c : CharacterRecord} (h : c.Storable env) (account : String)
    (usage nointeract : Int32) :
    load env c.account c.realName ⟨account, usage, c.columns nointeract⟩ =
      some (c.reloaded env usage nointeract) := by
  have hcolumn : (c.columns nointeract).guild = c.guild.getD "" := rfl
  rw [load_of_guild h rfl]
  simp only [reloaded, hcolumn]
  cases hg : c.guild with
  | none =>
    have htrim : trimmed "" = "" := rfl
    simp [htrim, columns]
  | some tag =>
    obtain ⟨htag, hget⟩ := h.guild tag hg
    simp [htag, hget, columns]

def savedRow (c : CharacterRecord) (now : Int32) (row : CharacterRow) : CharacterRow :=
  ⟨row.account, c.usageAt now, c.columns c.storedNoInteract⟩

/-- `Save` writes each value into its column. -/
theorem save_eq (c : CharacterRecord) (now : Int32) (row : CharacterRow) :
    c.save now row = some (c.savedRow now row) :=
  rfl

/-- A member of a guild with one item and one spell. -/
def newcomer : CharacterRecord where
  admin := 0
  realName := "newcomer"
  account := "player"
  title := ""
  home := "Aeven"
  fiance := ""
  partner := ""
  clas := 1
  gender := 1
  race := 0
  hairstyle := 3
  haircolor := 2
  mapid := 5
  x := 10
  y := 12
  direction := 0
  level := 3
  exp := 120
  hp := 20
  tp := 10
  str := 1
  intl := 1
  wis := 1
  agi := 1
  con := 1
  cha := 1
  statpoints := 2
  skillpoints := 1
  karma := 1000
  sitting := 0
  hidden := 0
  nointeract := 0
  bankmax := 0
  goldbank := 50
  usage := 5
  loginTime := 1000
  inventory := [⟨1, 300⟩]
  bank := []
  paperdoll := Vector.replicate 15 0
  spells := [⟨4, 2⟩]
  guild := some "ABC"
  guildRank := 8
  guildRankString := "Leader"
  questString := ""
  quests := .empty
  questsInactive := .empty

def newcomerEnv : LoadEnv := ⟨fun tag => some tag, some, 4, 0, 5000⟩

theorem storable_newcomer : newcomer.Storable newcomerEnv where
  inventory := by decide
  bank := by decide
  paperdoll := by simp [newcomer]
  spells := by decide
  map := rfl
  guild := by
    intro tag htag
    obtain rfl := Option.some_inj.mp htag
    decide

/-! ## Sessions -/

/-- A session from its login on: what happens to the character, the logout, and the login after
it. -/
structure Session where
  play : CharacterRecord → CharacterRecord
  logout : Int32
  next : LoadEnv

/-- The end of a session and the start of the next one, by way of the row. -/
def relog (s : Session) (c : CharacterRecord) (row : CharacterRow) :
    Option (CharacterRecord × CharacterRow) := do
  let saved ← (s.play c).save s.logout row
  let c' ← load s.next c.account c.realName saved
  return (c', saved)

def relogs : List Session → CharacterRecord × CharacterRow →
    Option (CharacterRecord × CharacterRow)
  | [], state => some state
  | s :: rest, (c, row) => do relogs rest (← relog s c row)

/-- The same with no database. -/
def stay (s : Session) (c : CharacterRecord) : CharacterRecord :=
  (s.play c).reloaded s.next ((s.play c).usageAt s.logout) (s.play c).storedNoInteract

/-- Nothing in a session changes these. -/
structure SameSession (c c' : CharacterRecord) : Prop where
  account : c'.account = c.account
  realName : c'.realName = c.realName
  usage : c'.usage = c.usage
  loginTime : c'.loginTime = c.loginTime

/-- Each session is one of the character, and leaves it so that it can be stored. -/
def Plays : List Session → CharacterRecord → Prop
  | [], _ => True
  | s :: rest, c =>
    SameSession c (s.play c) ∧ (s.play c).Storable s.next ∧ Plays rest (stay s c)

/-- The minutes of the sessions, each rounded on its own. -/
def minutes : List Session → Int32 → Int32
  | [], _ => 0
  | s :: rest, loginTime => (s.logout - loginTime) / 60 + minutes rest s.next.now

theorem relog_eq {s : Session} {c : CharacterRecord} (hsame : SameSession c (s.play c))
    (h : (s.play c).Storable s.next) (row : CharacterRow) :
    ∃ row', relog s c row = some (stay s c, row') := by
  have hload := load_columns h row.account ((s.play c).usageAt s.logout)
    (s.play c).storedNoInteract
  rw [hsame.account, hsame.realName] at hload
  refine ⟨(s.play c).savedRow s.logout row, ?_⟩
  rw [relog, save_eq, Option.bind_eq_bind, Option.bind_some, savedRow, hload]
  rfl

theorem usage_stay {s : Session} {c : CharacterRecord} (hsame : SameSession c (s.play c)) :
    (stay s c).usage = c.usage + (s.logout - c.loginTime) / 60 := by
  rw [stay, reloaded, usageAt, hsame.usage, hsame.loginTime]

/-- A character is the same after any number of sessions as if it had stayed in memory, and its
usage is the sum of the minutes of each. -/
theorem relogs_eq_stay {sessions : List Session} {c : CharacterRecord} (h : Plays sessions c)
    (row : CharacterRow) :
    ∃ row', relogs sessions (c, row) = some (sessions.foldl (fun c s => stay s c) c, row') ∧
      (sessions.foldl (fun c s => stay s c) c).usage = c.usage + minutes sessions c.loginTime := by
  induction sessions generalizing c row with
  | nil => exact ⟨row, rfl, by simp [minutes]⟩
  | cons s rest ih =>
    obtain ⟨hsame, hstorable, hrest⟩ := h
    obtain ⟨row₁, hrelog⟩ := relog_eq hsame hstorable row
    obtain ⟨row₂, hrelogs, husage⟩ := ih hrest row₁
    refine ⟨row₂, ?_, ?_⟩
    · rw [relogs, hrelog]
      exact hrelogs
    · have hlogin : (stay s c).loginTime = s.next.now := rfl
      rw [List.foldl_cons, husage, usage_stay hsame, hlogin, minutes, Int32.add_assoc]

theorem relogs_newcomer :
    ∃ row', relogs [⟨fun c => { c with exp := 200 }, 1130, newcomerEnv⟩, ⟨id, 5070, newcomerEnv⟩]
        (newcomer, default) =
        some ({ newcomer with exp := 200 }.reloaded newcomerEnv 8 0, row') ∧
      (8 : Int32) = 5 + (130 / 60 + 70 / 60) :=
  @relogs_eq_stay
    [⟨fun c => { c with exp := 200 }, 1130, newcomerEnv⟩, ⟨id, 5070, newcomerEnv⟩] newcomer
    ⟨⟨rfl, rfl, rfl, rfl⟩, storable_newcomer.congr rfl rfl rfl rfl rfl rfl,
      ⟨rfl, rfl, rfl, rfl⟩, storable_newcomer.congr rfl rfl rfl rfl rfl rfl, trivial⟩ default

end CharacterRecord

namespace DumpCharacter

theorem update_eq (d : DumpCharacter) (row : CharacterRow) :
    d.update row = some { d.row with account := row.account } := rfl

/-- The statements write what the dump has, whichever of them it is. -/
theorem characters_putCharacter (d : DumpCharacter) (t : Tables) :
    (t.putCharacter d).characters d.name =
      match t.characters d.name with
      | none => d.insert
      | some row => d.update row := by
  rw [Tables.putCharacter]
  simp only [Function.update_self]
  cases t.characters d.name <;> rfl

end DumpCharacter

/-! ## Sessions that a dump ends -/

namespace CharacterRecord

/-- The saves of a session, one after the other. -/
def saveAll (saves : List (CharacterRecord × Int32)) (row : CharacterRow) : Option CharacterRow :=
  saves.foldlM (fun row save => save.1.save save.2 row) row

/-- What a restore brings back of a session: what was dumped, unless a save from its second minute
on has been the last one. -/
def recovered (env : LoadEnv) (saves : List (CharacterRecord × Int32)) (dumped : CharacterRecord) :
    CharacterRecord :=
  match saves.getLast? with
  | none => dumped.reloaded env dumped.usage dumped.nointeract
  | some (c, now) =>
    if 60 ≤ now.toInt - c.loginTime.toInt then c.reloaded env (c.usageAt now) c.storedNoInteract
    else dumped.reloaded env dumped.usage dumped.nointeract

theorem saveAll_concat (saves : List (CharacterRecord × Int32)) (c : CharacterRecord) (now : Int32)
    (row : CharacterRow) :
    ∃ row', saveAll (saves ++ [(c, now)]) row = some (c.savedRow now row') := by
  induction saves generalizing row with
  | nil => exact ⟨row, rfl⟩
  | cons save rest ih => exact ih (save.1.savedRow save.2 row)

theorem usage_lt_usageAt {c : CharacterRecord} {now : Int32} (hlogin : 0 ≤ c.loginTime.toInt)
    (hnow : c.loginTime.toInt ≤ now.toInt)
    (husage : c.usage.toInt + (now.toInt - c.loginTime.toInt) / 60 < 2 ^ 31) :
    c.usage < c.usageAt now ↔ 60 ≤ now.toInt - c.loginTime.toInt := by
  have hlt := now.toInt_lt
  have hge := c.usage.le_toInt
  have hsub : (now - c.loginTime).toInt = now.toInt - c.loginTime.toInt := by
    rw [Int32.toInt_sub, Int.bmod_eq_of_le (by omega) (by omega)]
  have hdiv : ((now - c.loginTime) / 60).toInt = (now.toInt - c.loginTime.toInt) / 60 := by
    have h60 : (60 : Int32).toInt = 60 := rfl
    rw [Int32.toInt_div, hsub, h60, Int.tdiv_eq_ediv_of_nonneg (by omega),
      Int.bmod_eq_of_le (by omega) (by omega)]
  rw [Int32.lt_iff_toInt_lt, usageAt, Int32.toInt_add, hdiv,
    Int.bmod_eq_of_le (by omega) (by omega)]
  omega

/-- What the constructor gives once the dump of a character has been restored. -/
theorem load_restoreCharacter {env : LoadEnv} {results : DumpCharacter → RecordResults}
    {db : Transactional Tables} {dumped : CharacterRecord} {saved : CharacterRow}
    (hdb : db.current.characters dumped.realName = some saved)
    (hselect : (results dumped.dumpCharacter).select = .works)
    (hwrite : (results dumped.dumpCharacter).write = .works) (h : dumped.Storable env) :
    ((restoreCharacter results db dumped.dumpCharacter).db.current.characters
        dumped.realName).bind (load env dumped.account dumped.realName) =
      if dumped.usage < saved.usage then load env dumped.account dumped.realName saved
      else some (dumped.reloaded env dumped.usage dumped.nointeract) := by
  have hnewer : db.current.HasNewer dumped.dumpCharacter ↔ dumped.usage < saved.usage := by
    rw [Tables.HasNewer]
    simp only [dumpCharacter, hdb, Option.mem_some_iff, exists_eq_left']
  rw [restoreCharacter, hselect]
  by_cases hlt : dumped.usage < saved.usage
  · simp only [hnewer, if_pos hlt, hdb, Option.bind_some]
  · have hput := DumpCharacter.characters_putCharacter dumped.dumpCharacter db.current
    simp only [hnewer, if_neg hlt, hwrite, writeRecord, Transactional.current_update]
    rw [show dumped.realName = dumped.dumpCharacter.name from rfl, hput]
    simp only [dumpCharacter, hdb, DumpCharacter.update_eq, Option.bind_some]
    exact load_columns h _ _ _

/-- A crash in a session, and what the next login finds after the dump is restored. -/
theorem load_restored {env : LoadEnv} {results : DumpCharacter → RecordResults}
    {db : Transactional Tables} {c dumped : CharacterRecord}
    {saves : List (CharacterRecord × Int32)} {row saved : CharacterRow}
    (hrow : row.usage = c.usage) (hsaved : saveAll saves row = some saved)
    (hdb : db.current.characters c.realName = some saved)
    (hselect : (results dumped.dumpCharacter).select = .works)
    (hwrite : (results dumped.dumpCharacter).write = .works)
    (hdumped : SameSession c dumped ∧ dumped.Storable env)
    (hsaves : ∀ save ∈ saves, SameSession c save.1 ∧ save.1.Storable env)
    (htimes : ∀ save ∈ saves, 0 ≤ c.loginTime.toInt ∧ c.loginTime.toInt ≤ save.2.toInt ∧
      c.usage.toInt + (save.2.toInt - c.loginTime.toInt) / 60 < 2 ^ 31) :
    ((restoreCharacter results db dumped.dumpCharacter).db.current.characters c.realName).bind
        (load env c.account c.realName) = some (recovered env saves dumped) := by
  obtain ⟨hsame, hstorable⟩ := hdumped
  rw [← hsame.realName, ← hsame.account,
    load_restoreCharacter (hsame.realName ▸ hdb) hselect hwrite hstorable, hsame.usage]
  obtain rfl | ⟨saves, ⟨s, now⟩, rfl⟩ := saves.eq_nil_or_concat'
  · obtain rfl := Option.some_inj.mp hsaved
    rw [hrow, if_neg Int32.lt_irrefl, ← hsame.usage]
    rfl
  · have hmem : (s, now) ∈ saves ++ [(s, now)] := by simp
    obtain ⟨hs, hload⟩ := hsaves _ hmem
    obtain ⟨hlogin, hnow, husage⟩ := htimes _ hmem
    obtain ⟨row', hlast⟩ := saveAll_concat saves s now row
    obtain rfl := Option.some_inj.mp (hlast.symm.trans hsaved)
    rw [← hs.loginTime] at hlogin hnow husage
    rw [← hs.usage] at husage
    have hiff := usage_lt_usageAt hlogin hnow husage
    have hreload := load_columns hload row'.account (s.usageAt now) s.storedNoInteract
    rw [hs.account, hs.realName, ← hsame.account, ← hsame.realName] at hreload
    simp only [recovered, List.getLast?_append, List.getLast?_singleton, Option.some_or, ← hiff,
      savedRow, hreload, ← hs.usage]
    split_ifs with hlt
    · rfl
    · rw [hsame.usage, hs.usage]

theorem load_restored_newcomer :
    ((restoreCharacter (fun _ => ⟨.works, .works, .works⟩)
        (.settled ⟨fun _ => some (newcomer.savedRow 1120 default), fun _ => none⟩)
        { newcomer with exp := 200 }.dumpCharacter).db.current.characters "newcomer").bind
        (load newcomerEnv "player" "newcomer") =
      some (newcomer.reloaded newcomerEnv 7 0) :=
  @load_restored newcomerEnv _ _ newcomer { newcomer with exp := 200 } [(newcomer, 1120)]
    { (default : CharacterRow) with usage := 5 } _ rfl rfl rfl
    rfl rfl ⟨⟨rfl, rfl, rfl, rfl⟩, storable_newcomer.congr rfl rfl rfl rfl rfl rfl⟩
    (by simpa using ⟨⟨rfl, rfl, rfl, rfl⟩, storable_newcomer⟩) (by decide)

end CharacterRecord

end ArenaServ
