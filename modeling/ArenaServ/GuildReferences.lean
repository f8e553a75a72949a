import ArenaServ.FirstMatch
import ArenaServ.Guild

/-!
# References to guilds

What `GuildManager` and `Guild` do, whoever calls them: besides the characters in memory there are
variables that refer to a guild, and the guild is destroyed when the last reference of either kind
goes. The database compares a text with a column in its own way and may give back another text
than the one that was written, as a `CHAR(3)` column of SQL Server does, which fills a tag of two
letters up with a blank.
-/

namespace ArenaServ
open Function

/-- How a database compares texts, in `WHERE` and in a unique index, and what tag and name it
gives back for the ones that were written. -/
structure TextColumns where
  same : List Char → List Char → Bool
  equivalence : Equivalence fun a b => same a b = true
  column : GuildId → GuildId
  same_tag : ∀ id, same (column id).tag id.tag = true
  same_name : ∀ id, same (column id).name id.name = true

namespace TextColumns

/-- Texts are compared and kept byte by byte, as SQLite does. -/
def binary : TextColumns where
  same a b := a = b
  equivalence := by
    constructor
    · exact fun a => decide_eq_true rfl
    · exact fun h => decide_eq_true (of_decide_eq_true h).symm
    · exact fun h h' => decide_eq_true ((of_decide_eq_true h).trans (of_decide_eq_true h'))
  column id := id
  same_tag _ := decide_eq_true rfl
  same_name _ := decide_eq_true rfl

def rtrim (s : List Char) : List Char := (s.reverse.dropWhile (· = ' ')).reverse

/-- A tag in a column of type `CHAR(3)`. -/
def padded (tag : List Char) : List Char := tag ++ List.replicate (3 - tag.length) ' '

theorem dropWhile_replicate_append (n : ℕ) (s : List Char) :
    (List.replicate n ' ' ++ s).dropWhile (· = ' ') = s.dropWhile (· = ' ') := by
  induction n with
  | zero => rfl
  | succ n ih => exact ih

theorem rtrim_padded (tag : List Char) : rtrim (padded tag) = rtrim tag := by
  unfold rtrim padded
  rw [List.reverse_append, List.reverse_replicate, dropWhile_replicate_append]

theorem map_padded {f : Char → Char} (hf : f ' ' = ' ') (tag : List Char) :
    (padded tag).map f = padded (tag.map f) := by
  unfold padded
  rw [List.map_append, List.map_replicate, List.length_map, hf]

theorem lowercase_padded (tag : List Char) :
    Letters.lowercase (padded tag) = padded (Letters.lowercase tag) := map_padded rfl tag

theorem uppercase_padded (tag : List Char) :
    Letters.uppercase (padded tag) = padded (Letters.uppercase tag) := map_padded rfl tag

theorem length_padded_le {tag : List Char} (h : tag.length ≤ 3) : (padded tag).length ≤ 3 := by
  unfold padded
  rw [List.length_append, List.length_replicate]
  omega

def paddedId (id : GuildId) : GuildId where
  tag := padded id.tag
  name := id.name
  upper := (uppercase_padded id.tag).trans (congrArg padded id.upper)
  lower := id.lower
  short := length_padded_le id.short
  long := id.long

/-- What SQL Server makes equal: blanks at the end do not count, and case does not either. -/
def folded (s : List Char) : List Char := rtrim (Letters.lowercase s)

/-- A `CHAR(3)` column is filled up with blanks. -/
def sqlServer : TextColumns where
  same a b := folded a = folded b
  equivalence := by
    constructor
    · exact fun a => decide_eq_true rfl
    · exact fun h => decide_eq_true (of_decide_eq_true h).symm
    · exact fun h h' => decide_eq_true ((of_decide_eq_true h).trans (of_decide_eq_true h'))
  column := paddedId
  same_tag id := by
    unfold folded paddedId
    rw [lowercase_padded, rtrim_padded]
    exact decide_eq_true rfl
  same_name _ := decide_eq_true rfl

end TextColumns

/-- The tables `characters` and `guilds`, with the keys of the latter. -/
structure GuildTables (db : TextColumns) where
  names : List RealName
  nodup : names.Nodup
  row : RealName → Option StoredRank
  stored : List StoredGuild
  unique : ∀ x ∈ stored, ∀ y ∈ stored,
    db.same x.id.tag y.id.tag = true ∨ db.same x.id.name y.id.name = true → x.id = y.id

/-- `refs` are the references to guilds that are not those of the characters. -/
structure GuildServer extends GuildWorld where
  refs : List ℕ

inductive GuildFailure where
  | badWeakPtr
  | queryFailed
  | impossible
  deriving DecidableEq

namespace GuildServer

variable (db : TextColumns) (s : GuildServer)

def Referenced (g : ℕ) : Prop := g ∈ s.refs ∨ s.Held g

instance (g : ℕ) : Decidable (s.Referenced g) := inferInstanceAs (Decidable (_ ∨ _))

/-! ## Guild -/

/-- `Guild::Save`. -/
def save (guild : Guild) : GuildServer :=
  { s with
    stored := s.stored.map fun x : StoredGuild =>
      if db.same x.id.tag guild.id.tag then { x with bank := guild.bank } else x }

/-- `Guild::~Guild`. -/
def deleteGuild (g : ℕ) : GuildServer :=
  (s.guild g).elim s fun guild =>
    let s' := { s with
      guild := update s.guild g none
      cache := fun key => if key = guild.id.tag ∨ key = guild.id.name then none else s.cache key }
    if guild.members = [] then
      { s' with
        row := fun n => if (s.row n).any fun r => db.same r.tag guild.id.tag then none else s.row n
        stored := s.stored.filter fun x => !db.same x.id.tag guild.id.tag }
    else s'.save db guild

/-- A reference has been given up. -/
def release (g : ℕ) : GuildServer := if s.Referenced g then s else s.deleteGuild db g

/-- A variable with a reference goes out of scope. -/
def drop (g : ℕ) : GuildServer :=
  let s' := { s with refs := s.refs.erase g }
  s'.release db g

def point (c : ℕ) (g : Option ℕ) (rank : ℕ) : GuildServer :=
  { s with
    character := update s.character c { s.character c with guild := g, rank := rank } }

/-- The pointer of a character is assigned, and what it was before is given up. -/
def assign (c : ℕ) (g : Option ℕ) (rank : ℕ) : GuildServer :=
  (s.character c).guild.elim (s.point c g rank) ((s.point c g rank).release db)

def setMembers (g : ℕ) (guild : Guild) (members : List GuildMember) : GuildServer :=
  { s with guild := update s.guild g (some { guild with members := members }) }

def addMember (g joined rank : ℕ) : GuildServer :=
  let s := s.assign db joined (some g) rank
  (s.guild g).elim s fun guild =>
    s.setMembers g guild (guild.members ++ [GuildMember.of (s.character joined).name rank])

/-- The first character of each client whose name is that of a member who is kicked, up to one
that is online. Without one that is online the database is changed. -/
def expel (kicked : RealName) : List (List ℕ) → GuildServer → GuildServer
  | [], s => { s with row := fun n => if db.same n.1 kicked.1 then none else s.row n }
  | client :: rest, s =>
      (client.find? fun c => (s.character c).name = kicked).elim (expel kicked rest s) fun c =>
        let s' := s.assign db c none 0
        if c ∈ s.characters then s' else expel kicked rest s'

/-- `clients` are the characters of the player of each client. -/
def delMember (g : ℕ) (clients : List (List ℕ)) (kicked : List Char) : GuildServer :=
  (s.guild g).elim s fun guild =>
    expel db (RealName.of kicked) clients
      (s.setMembers g guild (guild.members.eraseP (·.name = RealName.of kicked)))

/-- As `expel`, but the name is compared as it is given. -/
def regrade (name : List Char) (rank : ℕ) : List (List ℕ) → GuildServer → GuildServer
  | [], s =>
      { s with
        row := fun n =>
          if db.same n.1 name then (s.row n).map ({ · with rank := rank }) else s.row n }
  | client :: rest, s =>
      (client.find? fun c => (s.character c).name.1 = name).elim (regrade name rank rest s) fun c =>
        let s' := s.point c (s.character c).guild rank
        if c ∈ s.characters then s' else regrade name rank rest s'

def setMemberRank (g : ℕ) (clients : List (List ℕ)) (name : List Char) (rank : ℕ) : GuildServer :=
  (s.guild g).elim s fun guild =>
    if guild.members.any (·.name = RealName.of name) then
      regrade db name rank clients (s.setMembers g guild
        (FirstMatch.alterFirst (·.name = RealName.of name) (fun m => some { m with rank := rank })
          guild.members))
    else s

def disband (g : ℕ) (clients : List (List ℕ)) : GuildServer :=
  (s.guild g).elim s fun guild =>
    let pinned := { s with refs := g :: s.refs }
    (guild.members.foldl (fun s m => s.delMember db g clients m.name.1) pinned).drop db g

/-- `AddBank` and `DelBank` change nothing else. -/
def setBank (g : ℕ) (bank : ℤ) : GuildServer :=
  (s.guild g).elim s fun guild =>
    { s with guild := update s.guild g (some { guild with bank := bank }) }

/-! ## GuildManager -/

def readMembers (tag : List Char) : List GuildMember :=
  let members := s.names.filterMap fun n =>
    (s.row n).bind fun r => if db.same r.tag tag then some (GuildMember.of n r.rank) else none
  members.insertionSort fun a b => a.rank < b.rank ∨ a.rank = b.rank ∧ a.name.1 ≤ b.name.1

/-- A guild is read from the database, and who asked for it has a reference. -/
def readGuild (x : StoredGuild) (tag : List Char) : GuildServer :=
  { s with
    guild := update s.guild s.nextGuild (some ⟨x.id, s.readMembers db tag, x.bank⟩)
    cache := update (update s.cache x.id.tag s.nextGuild) x.id.name s.nextGuild
    nextGuild := s.nextGuild + 1
    refs := s.nextGuild :: s.refs }

/-- The entry of the cache is locked. -/
def lock (g : ℕ) : Except GuildFailure GuildServer :=
  if s.guild g = none then .error .badWeakPtr else .ok { s with refs := g :: s.refs }

/-- The guild in the cache, or else the one that is found in the database; `tag` is the text that
its members are looked for with. -/
def findGuild (key : List Char) (p : GuildId → Bool) (tag : GuildId → List Char) :
    Except GuildFailure (Option ℕ × GuildServer) :=
  match s.cache key with
  | some g => (s.lock g).map (some g, ·)
  | none =>
      .ok ((s.stored.find? (p ·.id)).elim (none, s) fun x =>
        (some s.nextGuild, s.readGuild db x (tag x.id)))

def getGuild (tag : List Char) : Except GuildFailure (Option ℕ × GuildServer) :=
  let tag := Letters.uppercase tag
  s.findGuild db tag (fun id => db.same id.tag tag) fun _ => tag

def getGuildName (name : List Char) : Except GuildFailure (Option ℕ × GuildServer) :=
  let name := Letters.lowercase name
  s.findGuild db name (fun id => db.same id.name name) fun id => id.tag

/-- The unique keys of `guilds` have the tag or the name already. -/
def isStored (id : GuildId) : Bool :=
  s.stored.any fun x => db.same x.id.tag id.tag || db.same x.id.name id.name

def insertGuild (id : GuildId) : GuildServer :=
  { s with
    stored := s.stored ++ [⟨db.column id, 0⟩]
    createCache := update s.createCache id.tag none }

/-- The members of a request that are online join the guild that has been made for it. -/
def join (create : GuildCreate) (g : ℕ) : GuildServer :=
  create.members.foldl (fun s m => (s.getCharacterReal m.name.1).elim s fun c =>
    s.addMember db g c (if c = create.leader then 0 else 9)) s

def createGuild (create : GuildCreate) : Except GuildFailure GuildServer :=
  if s.isStored db create.id then .error .queryFailed
  else
    ((s.insertGuild db create.id).getGuild db create.id.tag).map fun found =>
      found.1.elim found.2 (found.2.join db create)

/-- `SaveAll`, with the keys in the order of the hash table. -/
def saveAll : List (List Char) → GuildServer → Except GuildFailure GuildServer
  | [], s => .ok s
  | key :: rest, s =>
      match s.cache key with
      | none => saveAll rest s
      | some g => (s.guild g).elim (.error .badWeakPtr) fun guild => saveAll rest (s.save db guild)

end GuildServer

/-! ## Calls -/

/-- `assign` is what the constructor of a character does with the guild that it has got, and
`write` what else is written to `characters`. -/
inductive GuildCall where
  | getGuild (tag : List Char)
  | getGuildName (name : List Char)
  | createGuild (create : GuildCreate)
  | addMember (g joined rank : ℕ)
  | delMember (g : ℕ) (clients : List (List ℕ)) (kicked : List Char)
  | setMemberRank (g : ℕ) (clients : List (List ℕ)) (name : List Char) (rank : ℕ)
  | disband (g : ℕ) (clients : List (List ℕ))
  | setBank (g : ℕ) (bank : ℤ)
  | saveAll (keys : List (List Char))
  | drop (g : ℕ)
  | load (name : RealName) (playerId : ℕ)
  | enter (c : ℕ)
  | assign (c g rank : ℕ)
  | unload (c : ℕ)
  | write (row : RealName → Option StoredRank)

namespace GuildServer

variable (db : TextColumns) (s : GuildServer)

/-- A member function is called through a reference. -/
def through (g : ℕ) (s' : GuildServer) : Except GuildFailure GuildServer :=
  if s.Referenced g then .ok s' else .error .impossible

def load (name : RealName) (playerId : ℕ) : GuildServer :=
  { s with
    loaded := s.loaded ++ [s.nextCharacter]
    character := update s.character s.nextCharacter ⟨name, playerId, none, 0, [], [], none⟩
    nextCharacter := s.nextCharacter + 1 }

/-- The reference of a character goes with it. -/
def unload (c : ℕ) : GuildServer :=
  let s' := { s with
    loaded := s.loaded.filter (· ≠ c)
    characters := s.characters.filter (· ≠ c) }
  (s.character c).guild.elim s' (s'.release db)

def call (s : GuildServer) : GuildCall → Except GuildFailure GuildServer
  | .getGuild tag => (s.getGuild db tag).map (·.2)
  | .getGuildName name => (s.getGuildName db name).map (·.2)
  | .createGuild create => s.createGuild db create
  | .addMember g joined rank =>
      if joined ∈ s.loaded then s.through g (s.addMember db g joined rank)
      else .error .impossible
  | .delMember g clients kicked => s.through g (s.delMember db g clients kicked)
  | .setMemberRank g clients name rank => s.through g (s.setMemberRank db g clients name rank)
  | .disband g clients => s.through g (s.disband db g clients)
  | .setBank g bank => s.through g (s.setBank g bank)
  | .saveAll keys => saveAll db keys s
  | .drop g => if g ∈ s.refs then .ok (s.drop db g) else .error .impossible
  | .load name playerId => .ok (s.load name playerId)
  | .enter c =>
      if c ∈ s.loaded then .ok { s with characters := s.characters ++ [c] }
      else .error .impossible
  | .assign c g rank =>
      if c ∈ s.loaded then s.through g (s.assign db c (some g) rank) else .error .impossible
  | .unload c => if c ∈ s.loaded then .ok (s.unload db c) else .error .impossible
  | .write row => .ok { s with row := row }

/-- A call that throws is not a step. -/
def next (s : GuildServer) (a : GuildCall) : Option GuildServer := (s.call db a).toOption

/-- The server is started on the tables of a database. -/
def start (tables : GuildTables db) : GuildServer where
  toGuildWorld := { GuildWorld.start tables.names tables.nodup with
    row := tables.row
    stored := tables.stored }
  refs := []

end GuildServer

end ArenaServ
