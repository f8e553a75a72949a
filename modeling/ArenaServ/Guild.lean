import ArenaServ.TextUtil
import Mathlib.Data.List.Sort
import Mathlib.Logic.Function.Basic

/-!
# Guilds

A `Guild` is shared by the characters in memory that point to it. It is read from the database
with its members when one of them is loaded, and destroyed when the last of them lets go of it;
a guild without members is deleted from the database then. The row of a character is written
when it is saved, and by `DelMember` only when it is not online.
-/

namespace ArenaServ
open Function

structure GuildConfig where
  guildMaxNameLength : ℤ
  guildMaxDescLength : ℤ
  guildCreateMembers : ℤ
  guildPrice : ℤ
  guildRecruitRank : ℤ
  recruitCost : ℤ
  guildMaxMembers : ℤ
  guildKickRank : ℤ
  guildDisbandRank : ℤ
  guildBankMax : ℤ
  guildMinDeposit : ℤ

/-! ## Names -/

namespace Letters

def lowercase (s : List Char) : List Char := s.map Char.toLower

def uppercase (s : List Char) : List Char := s.map Char.toUpper

/-- An `int` that is cast to `size_t`. -/
def toSize (n : ℤ) : ℕ := (n % 2 ^ 64).toNat

theorem lowercase_lowercase (s : List Char) : lowercase (lowercase s) = lowercase s := by
  unfold lowercase
  rw [List.map_map]
  exact List.map_congr_left fun c _ => Util.toLower_toLower c

theorem toUpper_toUpper (c : Char) : c.toUpper.toUpper = c.toUpper := by
  by_cases h : 'a'.val ≤ c.val ∧ c.val ≤ 'z'.val
  · have hval : c.toUpper.val = c.val + ('A'.val - 'a'.val) := by
      unfold Char.toUpper
      rw [dif_pos h]
    have hnot : ¬('a'.val ≤ c.toUpper.val ∧ c.toUpper.val ≤ 'z'.val) := by
      rintro ⟨hle, -⟩
      have hlow : 97 ≤ c.val.toNat := UInt32.le_iff_toNat_le.mp h.1
      have hhigh : c.val.toNat ≤ 122 := UInt32.le_iff_toNat_le.mp h.2
      have hge : 97 ≤ c.toUpper.val.toNat := UInt32.le_iff_toNat_le.mp hle
      have hshift : ('A'.val - 'a'.val).toNat = 4294967264 := by decide
      rw [hval, UInt32.toNat_add, hshift] at hge
      omega
    rw [Char.toUpper.eq_def c.toUpper, dif_neg hnot]
  · rw [show c.toUpper = c from dif_neg h, show c.toUpper = c from dif_neg h]

theorem uppercase_uppercase (s : List Char) : uppercase (uppercase s) = uppercase s := by
  unfold uppercase
  rw [List.map_map]
  exact List.map_congr_left fun c _ => toUpper_toUpper c

end Letters

/-- The real name of a character, which `Character_Create` makes lower case. -/
abbrev RealName := {name : List Char // Letters.lowercase name = name}

def RealName.of (name : List Char) : RealName :=
  ⟨Letters.lowercase name, Letters.lowercase_lowercase name⟩

/-- The tag and the name of a guild. -/
structure GuildId where
  tag : List Char
  name : List Char
  upper : Letters.uppercase tag = tag
  lower : Letters.lowercase name = name
  short : tag.length ≤ 3
  long : 4 ≤ name.length
  deriving DecidableEq

namespace GuildManager

def validTag (tag : List Char) : Bool :=
  let tag := Letters.uppercase tag
  2 ≤ tag.length && tag.length ≤ 3 && tag.all fun c => 'A' ≤ c && c ≤ 'Z'

def validName (cfg : GuildConfig) (name : List Char) : Bool :=
  let name := Letters.lowercase name
  4 ≤ name.length && name.length ≤ Letters.toSize cfg.guildMaxNameLength &&
    name.all fun c => 'a' ≤ c && c ≤ 'z' || c = ' '

def validDescription (cfg : GuildConfig) (description : List Char) : Bool :=
  let description := Letters.lowercase description
  description.length ≤ Letters.toSize cfg.guildMaxDescLength && description.all fun c =>
    'a' ≤ c && c ≤ 'z' || '0' ≤ c && c ≤ '9' || c ∈ [' ', '@', '_', '-', '.']

theorem short_of_validTag {tag : List Char} (h : validTag tag = true) :
    (Letters.uppercase tag).length ≤ 3 := by
  unfold validTag at h
  simp only [Bool.and_eq_true, decide_eq_true_eq] at h
  exact h.1.2

theorem long_of_validName {cfg : GuildConfig} {name : List Char} (h : validName cfg name = true) :
    4 ≤ (Letters.lowercase name).length := by
  unfold validName at h
  simp only [Bool.and_eq_true, decide_eq_true_eq] at h
  exact h.1.1

end GuildManager

def GuildId.of (cfg : GuildConfig) (tag name : List Char)
    (h : GuildManager.validTag tag = true ∧ GuildManager.validName cfg name = true) : GuildId where
  tag := Letters.uppercase tag
  name := Letters.lowercase name
  upper := Letters.uppercase_uppercase tag
  lower := Letters.lowercase_lowercase name
  short := GuildManager.short_of_validTag h.1
  long := GuildManager.long_of_validName h.2

/-! ## The state -/

structure GuildMember where
  name : RealName
  rank : ℕ
  deriving DecidableEq

/-- The constructor keeps the rank between 0 and 9. -/
def GuildMember.of (name : RealName) (rank : ℕ) : GuildMember := ⟨name, min 9 rank⟩

structure Guild where
  id : GuildId
  members : List GuildMember
  bank : ℤ
  deriving DecidableEq

structure GuildCreate where
  id : GuildId
  leader : ℕ
  members : List GuildMember
  deriving DecidableEq

/-- A row of `guilds`. -/
structure StoredGuild where
  id : GuildId
  bank : ℤ
  deriving DecidableEq

/-- The guild in a row of `characters`. -/
structure StoredRank where
  tag : List Char
  rank : ℕ
  deriving DecidableEq

structure GuildCharacter where
  name : RealName
  playerId : ℕ
  guild : Option ℕ
  rank : ℕ
  invite : List Char
  join : List Char
  create : Option ℕ
  deriving DecidableEq

/-- The database, the `Character` objects of the players that are logged in and those of them
that are online, and what the `GuildManager` knows. Addresses are not used again. -/
structure GuildWorld where
  names : List RealName
  nodup : names.Nodup
  row : RealName → Option StoredRank
  stored : List StoredGuild
  loaded : List ℕ
  characters : List ℕ
  character : ℕ → GuildCharacter
  guild : ℕ → Option Guild
  cache : List Char → Option ℕ
  creating : ℕ → Option GuildCreate
  createCache : List Char → Option ℕ
  nextCharacter : ℕ
  nextGuild : ℕ
  nextCreate : ℕ

/-- Whether a character stands before a guild master, what gold it has, and which characters are
on its map. -/
structure GuildScene where
  atMaster : Bool
  gold : ℤ
  onMap : ℕ → Bool

namespace GuildWorld

variable (cfg : GuildConfig) (w : GuildWorld)

def setCharacter (c : ℕ) (f : GuildCharacter → GuildCharacter) : GuildWorld :=
  { w with character := update w.character c (f (w.character c)) }

def setGuild (g : ℕ) (guild : Guild) : GuildWorld :=
  { w with guild := update w.guild g (some guild) }

/-- Some character in memory points to a guild. -/
def Held (g : ℕ) : Prop := ∃ c ∈ w.loaded, (w.character c).guild = some g

instance (g : ℕ) : Decidable (w.Held g) := inferInstanceAs (Decidable (∃ c ∈ w.loaded, _))

/-! ## Destructors -/

/-- `Guild::~Guild`. -/
def deleteGuild (g : ℕ) : GuildWorld :=
  match w.guild g with
  | none => w
  | some guild =>
      let w' := { w with
        guild := update w.guild g none
        cache := fun key => if key = guild.id.tag ∨ key = guild.id.name then none else w.cache key }
      if guild.members = [] then
        { w' with
          row := fun n => if (w.row n).any (·.tag = guild.id.tag) then none else w.row n
          stored := w.stored.filter (·.id.tag ≠ guild.id.tag) }
      else
        { w' with
          stored := w.stored.map fun s : StoredGuild =>
            if s.id.tag = guild.id.tag then { s with bank := guild.bank } else s }

/-- A pointer to a guild is given up; `pin` is a guild that the caller has a pointer to. -/
def release (pin : Option ℕ) (g : ℕ) : GuildWorld :=
  if pin = some g ∨ w.Held g then w else w.deleteGuild g

/-- `Guild_Create::~Guild_Create`. -/
def deleteCreate (k : ℕ) : GuildWorld :=
  match w.creating k with
  | none => w
  | some create =>
      { w with
        creating := update w.creating k none
        createCache := update w.createCache create.id.tag none }

def setCreate (c : ℕ) (k : Option ℕ) : GuildWorld :=
  let w' := w.setCharacter c ({ · with create := k })
  match (w.character c).create with
  | none => w'
  | some old => w'.deleteCreate old

/-! ## GuildManager -/

def readMembers (tag : List Char) : List GuildMember :=
  let members := w.names.filterMap fun n =>
    (w.row n).bind fun s => if s.tag = tag then some (GuildMember.of n s.rank) else none
  members.insertionSort fun a b => a.rank < b.rank ∨ a.rank = b.rank ∧ a.name.1 ≤ b.name.1

/-- A guild is read from the database. -/
def readGuild (s : StoredGuild) : ℕ × GuildWorld :=
  (w.nextGuild, { w with
    guild := update w.guild w.nextGuild (some ⟨s.id, w.readMembers s.id.tag, s.bank⟩)
    cache := update (update w.cache s.id.tag w.nextGuild) s.id.name w.nextGuild
    nextGuild := w.nextGuild + 1 })

/-- The guild in the cache, or else the one that is found in the database. -/
def findGuild (key : List Char) (p : StoredGuild → Bool) : Option (ℕ × GuildWorld) :=
  match w.cache key with
  | some g => some (g, w)
  | none => (w.stored.find? p).map w.readGuild

def getGuild (tag : List Char) : Option (ℕ × GuildWorld) :=
  w.findGuild (Letters.uppercase tag) fun s => s.id.tag = Letters.uppercase tag

def getGuildName (name : List Char) : Option (ℕ × GuildWorld) :=
  w.findGuild (Letters.lowercase name) fun s => s.id.name = Letters.lowercase name

def getCreate (tag : List Char) : Option (ℕ × GuildCreate) :=
  (w.createCache (Letters.uppercase tag)).bind fun k => (w.creating k).map fun create => (k, create)

def beginCreate (id : GuildId) (leader : ℕ) : GuildWorld :=
  { w with
    creating := update w.creating w.nextCreate
      (some ⟨id, leader, [GuildMember.of (w.character leader).name 0]⟩)
    createCache := update w.createCache id.tag w.nextCreate
    nextCreate := w.nextCreate + 1 }

def getCharacterReal (name : List Char) : Option ℕ :=
  w.characters.find? fun c => (w.character c).name = RealName.of name

def getCharacterPID (id : ℕ) : Option ℕ :=
  w.characters.find? fun c => (w.character c).playerId = id

/-! ## Members -/

/-- The pointer of a character is assigned, and what it was before is given up. -/
def point (pin : Option ℕ) (c : ℕ) (g : Option ℕ) (rank : ℕ) : GuildWorld :=
  let w' := w.setCharacter c ({ · with guild := g, rank := rank })
  match (w.character c).guild with
  | none => w'
  | some old => w'.release pin old

def addMember (pin : Option ℕ) (g joined rank : ℕ) : GuildWorld :=
  let w := w.point pin joined (some g) rank
  match w.guild g with
  | none => w
  | some guild =>
      w.setGuild g { guild with
        members := guild.members ++ [GuildMember.of (w.character joined).name rank] }

/-- The characters in memory whose name is that of a member who is kicked, up to one that is
online. Without one that is online the database is changed. -/
def expel (pin : Option ℕ) (kicked : RealName) : List ℕ → GuildWorld → GuildWorld
  | [], w => { w with row := update w.row kicked none }
  | c :: rest, w =>
      if (w.character c).name = kicked then
        let w' := w.point pin c none 0
        if c ∈ w.characters then w' else expel pin kicked rest w'
      else expel pin kicked rest w

def delMember (pin : Option ℕ) (g : ℕ) (kicked : List Char) : GuildWorld :=
  let kicked := RealName.of kicked
  match w.guild g with
  | none => w
  | some guild =>
      let w := w.setGuild g { guild with members := guild.members.eraseP (·.name = kicked) }
      w.expel pin kicked w.loaded

def disband (g : ℕ) : GuildWorld :=
  match w.guild g with
  | none => w
  | some guild =>
      (guild.members.foldl (fun w m => w.delMember (some g) g m.name.1) w).release none g

/-- There is a guild with the tag or the name. -/
def isStored (id : GuildId) : Bool := w.stored.any fun s => s.id.tag = id.tag || s.id.name = id.name

/-- The row of a new guild, which is not pending any more. -/
def insertGuild (id : GuildId) : GuildWorld :=
  { w with
    stored := w.stored ++ [⟨id, 0⟩]
    createCache := update w.createCache id.tag none }

/-- `CreateGuild`. The `INSERT` throws when the tag or the name is not new. -/
def createGuild (create : GuildCreate) : Option GuildWorld :=
  if w.isStored create.id then none
  else
    let w := w.insertGuild create.id
    match w.getGuild create.id.tag with
    | none => some w
    | some (g, w) =>
        let w := create.members.foldl (fun (w : GuildWorld) m =>
          match w.getCharacterReal m.name.1 with
          | none => w
          | some c => w.addMember (some g) g c (if c = create.leader then 0 else 9)) w
        some (w.release none g)

/-! ## Handlers -/

def request (c : ℕ) (scene : GuildScene) (tag name : List Char) : GuildWorld :=
  if 3 < tag.length ∨ Letters.toSize cfg.guildMaxNameLength < name.length then w
  else if scene.atMaster = false ∨ (w.character c).guild.isSome ∨ cfg.guildCreateMembers ≤ 0 then w
  else
    match w.getGuild tag with
    | some (g, w') => w'.release none g
    | none =>
        match w.getGuildName name with
        | some (g, w') => w'.release none g
        | none =>
            if h : GuildManager.validTag tag = true ∧ GuildManager.validName cfg name = true then
              if cfg.guildPrice ≤ scene.gold then
                let w' := (w.beginCreate (GuildId.of cfg tag name h) c).setCreate c w.nextCreate
                { w' with
                  character := fun d =>
                    if d ∈ w.characters ∧ scene.onMap d ∧ d ≠ c ∧ (w.character d).guild = none then
                      { w'.character d with invite := tag }
                    else w'.character d }
              else w
            else w

def accept (c : ℕ) : GuildWorld :=
  if (w.character c).invite = [] then w
  else
    let w' :=
      match w.getCreate (w.character c).invite with
      | none => w
      | some (k, create) =>
          { w with
            creating := update w.creating k (some { create with
              members := create.members ++ [GuildMember.of (w.character c).name 9] }) }
    w'.setCharacter c ({ · with invite := [] })

def remove (c : ℕ) (scene : GuildScene) : GuildWorld :=
  if scene.atMaster then
    match (w.character c).guild with
    | none => w
    | some g => w.delMember none g (w.character c).name.1
  else w

/-- What `Guild_Create` calls `CreateGuild` with. -/
def creation (c : ℕ) (scene : GuildScene) (tag name description : List Char) :
    Option GuildCreate :=
  if 3 < tag.length ∨ Letters.toSize cfg.guildMaxNameLength < name.length ∨
      GuildManager.validDescription cfg description = false then none
  else if scene.atMaster ∧ (w.character c).guild = none ∧ cfg.guildPrice ≤ scene.gold then
    (w.getCreate tag).bind fun (_, create) =>
      if create.leader = c ∧ Letters.toSize cfg.guildCreateMembers ≤ create.members.length then
        some create
      else none
  else none

def create (c : ℕ) (scene : GuildScene) (tag name description : List Char) : GuildWorld :=
  match (w.creation cfg c scene tag name description).bind w.createGuild with
  | none => w
  | some w' => w'.setCreate c none

def player (c : ℕ) (scene : GuildScene) (tag recruiterName : List Char) : GuildWorld :=
  let tag := Letters.uppercase tag
  let recruiterName := Letters.lowercase recruiterName
  if 3 < tag.length ∨ 12 < recruiterName.length then w
  else if scene.atMaster = false ∨ (w.character c).guild.isSome then w
  else
    match w.getCharacterReal recruiterName with
    | none => w
    | some recruiter =>
        if scene.onMap recruiter ∧
            (((w.character recruiter).guild.bind w.guild).any fun guild => guild.id.tag = tag) ∧
            ((w.character recruiter).rank : ℤ) ≤ cfg.guildRecruitRank then
          w.setCharacter c ({ · with join := tag })
        else w

/-- `Guild_Use`, by a recruiter. -/
def use (c : ℕ) (scene : GuildScene) (pid : ℕ) : GuildWorld :=
  match w.getCharacterPID pid, (w.character c).guild with
  | some joiner, some g =>
      match w.guild g with
      | none => w
      | some guild =>
          if ((w.character c).rank : ℤ) ≤ cfg.guildRecruitRank ∧
              (w.character joiner).guild = none ∧ scene.onMap joiner ∧
              (w.character joiner).join = guild.id.tag then
            if cfg.recruitCost ≤ guild.bank ∧
                guild.members.length < Letters.toSize cfg.guildMaxMembers then
              let w := w.addMember none g joiner 9
              match w.guild g with
              | none => w
              | some guild =>
                  if 0 < cfg.recruitCost ∧ 0 ≤ guild.bank ∧ 0 ≤ guild.bank - cfg.recruitCost then
                    w.setGuild g { guild with bank := guild.bank - cfg.recruitCost }
                  else w
            else w
          else w
  | _, _ => w

/-- `Guild_Buy`, by a character that may handle items. -/
def buy (c : ℕ) (scene : GuildScene) (gold : ℤ) : GuildWorld :=
  if gold < 0 ∨ scene.atMaster = false then w
  else
    match (w.character c).guild with
    | none => w
    | some g =>
        match w.guild g with
        | none => w
        | some guild =>
            let maxDeposit := cfg.guildBankMax - guild.bank
            let gold := min gold maxDeposit
            if maxDeposit ≤ 0 ∨ gold < cfg.guildMinDeposit ∨ scene.gold < gold then w
            else if 0 < gold ∧ 0 ≤ guild.bank + gold then
              w.setGuild g { guild with bank := min (guild.bank + gold) cfg.guildBankMax }
            else w

def junk (c : ℕ) (scene : GuildScene) : GuildWorld :=
  if scene.atMaster then
    match (w.character c).guild with
    | none => w
    | some g => if ((w.character c).rank : ℤ) ≤ cfg.guildDisbandRank then w.disband g else w
  else w

def kick (c : ℕ) (scene : GuildScene) (name : List Char) : GuildWorld :=
  if 12 < name.length ∨ scene.atMaster = false then w
  else
    match (w.character c).guild with
    | none => w
    | some g =>
        match w.guild g with
        | none => w
        | some guild =>
            if ((w.character c).rank : ℤ) ≤ cfg.guildKickRank then
              match guild.members.find? (·.name = RealName.of name) with
              | none => w
              | some target =>
                  if (w.character c).rank < target.rank then w.delMember none g name else w
            else w

/-! ## Characters -/

/-- The constructor of `Character`. -/
def load (name : RealName) (playerId : ℕ) : GuildWorld :=
  let (guild, rank, w) : Option ℕ × ℕ × GuildWorld :=
    match w.row name with
    | none => (none, 0, w)
    | some s =>
        match w.getGuild s.tag with
        | none => (none, s.rank, w)
        | some (g, w) => (some g, s.rank, w)
  { w with
    loaded := w.loaded ++ [w.nextCharacter]
    character := update w.character w.nextCharacter ⟨name, playerId, guild, rank, [], [], none⟩
    nextCharacter := w.nextCharacter + 1 }

/-- `Character::Save`. -/
def save (c : ℕ) : GuildWorld :=
  { w with
    row := update w.row (w.character c).name
      (((w.character c).guild.bind w.guild).map fun guild =>
        ⟨guild.id.tag, (w.character c).rank⟩) }

/-- What a `Character` object has goes with it. -/
def destroy (c : ℕ) : GuildWorld :=
  let w' := { w with
    loaded := w.loaded.filter (· ≠ c)
    characters := w.characters.filter (· ≠ c) }
  let w'' :=
    match (w.character c).create with
    | none => w'
    | some k => w'.deleteCreate k
  match (w.character c).guild with
  | none => w''
  | some g => w''.release none g

/-- `Character::~Character`, which logs out. -/
def unload (c : ℕ) : GuildWorld := (if c ∈ w.characters then w.save c else w).destroy c

end GuildWorld

/-! ## Steps -/

inductive GuildStep where
  | request (c : ℕ) (scene : GuildScene) (tag name : List Char)
  | accept (c : ℕ)
  | remove (c : ℕ) (scene : GuildScene)
  | create (c : ℕ) (scene : GuildScene) (tag name description : List Char)
  | player (c : ℕ) (scene : GuildScene) (tag recruiterName : List Char)
  | use (c : ℕ) (scene : GuildScene) (pid : ℕ)
  | buy (c : ℕ) (scene : GuildScene) (gold : ℤ)
  | junk (c : ℕ) (scene : GuildScene)
  | kick (c : ℕ) (scene : GuildScene) (name : List Char)
  | load (name : RealName) (playerId : ℕ)
  | enter (c : ℕ)
  | save (c : ℕ)
  | unload (c : ℕ)

namespace GuildWorld

variable (cfg : GuildConfig)

/-- What comes from a character needs it to be online. -/
def whenOnline (w : GuildWorld) (c : ℕ) (w' : GuildWorld) : Option GuildWorld :=
  if c ∈ w.characters then some w' else none

/-- An account is logged in once, so a character is in memory once. -/
def next (w : GuildWorld) : GuildStep → Option GuildWorld
  | .request c scene tag name => w.whenOnline c (w.request cfg c scene tag name)
  | .accept c => w.whenOnline c (w.accept c)
  | .remove c scene => w.whenOnline c (w.remove c scene)
  | .create c scene tag name description =>
      w.whenOnline c (w.create cfg c scene tag name description)
  | .player c scene tag recruiterName => w.whenOnline c (w.player cfg c scene tag recruiterName)
  | .use c scene pid => w.whenOnline c (w.use cfg c scene pid)
  | .buy c scene gold => w.whenOnline c (w.buy cfg c scene gold)
  | .junk c scene => w.whenOnline c (w.junk cfg c scene)
  | .kick c scene name => w.whenOnline c (w.kick cfg c scene name)
  | .load name playerId =>
      if name ∈ w.names ∧ ∀ c ∈ w.loaded, (w.character c).name ≠ name then
        some (w.load name playerId)
      else none
  | .enter c =>
      if c ∈ w.loaded ∧ c ∉ w.characters then
        some { w with characters := w.characters ++ [c] }
      else none
  | .save c => w.whenOnline c (w.save c)
  | .unload c => if c ∈ w.loaded then some (w.unload c) else none

/-- A server is started on a database that has characters, and no guilds yet. -/
def start (names : List RealName) (nodup : names.Nodup) : GuildWorld where
  names := names
  nodup := nodup
  row _ := none
  stored := []
  loaded := []
  characters := []
  character _ := ⟨RealName.of [], 0, none, 0, [], [], none⟩
  guild _ := none
  cache _ := none
  creating _ := none
  createCache _ := none
  nextCharacter := 0
  nextGuild := 0
  nextCreate := 0

end GuildWorld

end ArenaServ
