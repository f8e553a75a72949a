import ArenaServ.GuildReferences
import ArenaServ.TimedSave

/-!
# Guilds that fail to load

`GetGuild` and `GetGuildName` read the row of a guild and then its members. When the second query
throws there is a guild already, with no members, and its destructor takes it for one that has been
disbanded: it clears the members in the database and deletes the row. A query that throws in the
destructor ends the program.
-/

namespace ArenaServ
open Function

/-- A row of `guilds`. -/
structure GuildRecord where
  tag : List Char
  name : List Char
  created : ℤ
  columns : GuildColumns
  deriving DecidableEq

/-- What a row of `characters` has of the guild. -/
structure MemberRecord where
  name : List Char
  guild : Option (List Char)
  guildRank : Option ℤ
  guildRankString : Option String
  deriving DecidableEq

structure LoadedMember where
  name : List Char
  rank : ℤ
  rankString : String
  deriving DecidableEq

structure LoadedGuild where
  tag : List Char
  name : List Char
  created : ℤ
  state : GuildState
  members : List LoadedMember
  needsSave : Bool
  deriving DecidableEq

/-- The tables, and the guilds in memory. -/
structure GuildStore where
  guilds : List GuildRecord
  characters : List MemberRecord
  guild : ℕ → Option LoadedGuild
  cache : List Char → Option ℕ
  nextGuild : ℕ

inductive GuildQuery where
  | selectGuild
  | selectMembers
  | save
  | clearMembers
  | deleteGuild
  deriving DecidableEq

inductive LoadOutcome where
  | returned (guild : Option ℕ) (s : GuildStore)
  | badWeakPtr
  | threw (s : GuildStore)
  | terminated (s : GuildStore)

/-- The program goes on, and if there is an exception the state is the one before. -/
def LoadOutcome.Unharmed (s : GuildStore) : LoadOutcome → Prop
  | .returned _ _ => True
  | .badWeakPtr => True
  | .threw t => t = s
  | .terminated _ => False

inductive GuildLookup where
  | getGuild (tag : List Char)
  | getGuildName (name : List Char)

namespace MemberRecord

def hasGuild (db : TextColumns) (tag : List Char) (m : MemberRecord) : Bool :=
  m.guild.any fun guild => db.same guild tag

def clear (db : TextColumns) (tag : List Char) (m : MemberRecord) : MemberRecord :=
  if m.hasGuild db tag then ⟨m.name, none, none, none⟩ else m

/-- `NULL` comes first. -/
def before (a b : MemberRecord) : Bool :=
  match a.guildRank, b.guildRank with
  | none, some _ => true
  | some _, none => false
  | none, none => a.name ≤ b.name
  | some i, some j => i < j || (i = j && a.name ≤ b.name)

/-- The constructor of `Guild_Member`. -/
def load (m : MemberRecord) : LoadedMember :=
  ⟨m.name, max 0 (min 9 (m.guildRank.getD 0)), m.guildRankString.getD ""⟩

end MemberRecord

namespace GuildStore

variable (db : TextColumns) (fails : GuildQuery → Bool) (s : GuildStore)

/-- `Guild::~Guild`. An error is the state in which a query has ended the program. -/
def destroy (guild : LoadedGuild) : Except GuildStore GuildStore :=
  let s := { s with
    cache := fun key => if key = guild.tag ∨ key = guild.name then none else s.cache key }
  if guild.members = [] then
    if fails .clearMembers then .error s
    else
      let s := { s with characters := s.characters.map (MemberRecord.clear db guild.tag) }
      if fails .deleteGuild then .error s
      else .ok { s with guilds := s.guilds.filter fun x => !db.same x.tag guild.tag }
  else if guild.needsSave then
    if fails .save then .error s
    else .ok { s with
      guilds := s.guilds.map fun x =>
        if db.same x.tag guild.tag then { x with columns := guild.state.row } else x }
  else .ok s

/-- The exception goes on when the destructor is through. -/
def unwind : Except GuildStore GuildStore → LoadOutcome
  | .ok s => .threw s
  | .error s => .terminated s

/-- The guild that is made of a row, before its members are read. -/
def begin (wrap : String → String) (x : GuildRecord) : LoadedGuild :=
  ⟨x.tag, x.name, x.created,
    ⟨wrap x.columns.description, rankUnserialize x.columns.ranks, x.columns.bank⟩, [], false⟩

def readMembers (tag : List Char) : List LoadedMember :=
  let rows := s.characters.filter (MemberRecord.hasGuild db tag)
  (rows.insertionSort fun a b => a.before b = true).map MemberRecord.load

/-- The guild is found in the cache, or else with its row; `tag` is what its members are asked
for with. -/
def find (key : List Char) (p : GuildRecord → Bool) (tag : GuildRecord → List Char)
    (wrap : String → String) : LoadOutcome :=
  match s.cache key with
  | some g => if s.guild g = none then .badWeakPtr else .returned (some g) s
  | none =>
      if fails .selectGuild then .threw s
      else (s.guilds.find? p).elim (.returned none s) fun x =>
        let guild := begin wrap x
        if fails .selectMembers then unwind (s.destroy db fails guild)
        else .returned (some s.nextGuild) { s with
          guild := update s.guild s.nextGuild
            (some { guild with members := s.readMembers db (tag x) })
          cache := update (update s.cache guild.tag (some s.nextGuild)) guild.name
            (some s.nextGuild)
          nextGuild := s.nextGuild + 1 }

end GuildStore

namespace GuildLookup

/-- The key of the cache. -/
def key : GuildLookup → List Char
  | .getGuild tag => Letters.uppercase tag
  | .getGuildName name => Letters.lowercase name

def finds (db : TextColumns) : GuildLookup → GuildRecord → Bool
  | .getGuild tag, x => db.same x.tag (Letters.uppercase tag)
  | .getGuildName name, x => db.same x.name (Letters.lowercase name)

end GuildLookup

namespace GuildStore

variable (db : TextColumns) (fails : GuildQuery → Bool) (wrap : String → String) (s : GuildStore)

def getGuild (tag : List Char) : LoadOutcome :=
  s.find db fails (Letters.uppercase tag) (GuildLookup.finds db (.getGuild tag))
    (fun _ => Letters.uppercase tag) wrap

/-- The description is not wrapped here. -/
def getGuildName (name : List Char) : LoadOutcome :=
  s.find db fails (Letters.lowercase name) (GuildLookup.finds db (.getGuildName name))
    (fun x => x.tag) id

def lookup : GuildLookup → LoadOutcome
  | .getGuild tag => s.getGuild db fails wrap tag
  | .getGuildName name => s.getGuildName db fails name

/-- A query that throws leaves everything as it was, and the caller gets the exception. -/
def LoadsSafely (a : GuildLookup) : Prop := (s.lookup db fails wrap a).Unharmed s

/-- The row of the guild has been read, and the query for its members throws. -/
def FailsHalfway (a : GuildLookup) : Prop :=
  s.cache a.key = none ∧ fails .selectGuild = false ∧ (s.guilds.find? (a.finds db)).isSome ∧
    fails .selectMembers = true

variable {db fails wrap s} {t : GuildStore} {x : GuildRecord} {a : GuildLookup}

theorem lookup_eq_find (db : TextColumns) (fails : GuildQuery → Bool) (wrap : String → String)
    (s : GuildStore) (a : GuildLookup) : ∃ tag wrap',
      s.lookup db fails wrap a = s.find db fails a.key (a.finds db) tag wrap' := by
  cases a with
  | getGuild tag => exact ⟨_, _, rfl⟩
  | getGuildName name => exact ⟨_, _, rfl⟩

/-! ## What a failed load destroys -/

/-- The guild of a row has been disbanded. -/
def disbanded (db : TextColumns) (s : GuildStore) (x : GuildRecord) : GuildStore where
  guilds := s.guilds.filter fun y => !db.same y.tag x.tag
  characters := s.characters.map (MemberRecord.clear db x.tag)
  guild := s.guild
  cache key := if key = x.tag ∨ key = x.name then none else s.cache key
  nextGuild := s.nextGuild

/-- A guild that has been begun has no members, so its destructor deletes it. -/
theorem destroy_begin (x : GuildRecord) :
    s.destroy db fails (begin wrap x) = .ok (s.disbanded db x) ∨
      ∃ t, s.destroy db fails (begin wrap x) = .error t := by
  unfold destroy begin
  dsimp only
  rw [if_pos rfl]
  split
  · exact Or.inr ⟨_, rfl⟩
  · split
    · exact Or.inr ⟨_, rfl⟩
    · exact Or.inl rfl

/-- The row itself is gone. -/
theorem not_mem_disbanded (db : TextColumns) (s : GuildStore) (x : GuildRecord) :
    x ∉ (s.disbanded db x).guilds := by
  intro hx
  have hkept := (List.mem_filter.mp hx).2
  have hsame : db.same x.tag x.tag = true := db.equivalence.refl x.tag
  rw [hsame] at hkept
  cases hkept

/-- And so are the guild fields of the members. -/
theorem guild_of_mem_disbanded {m : MemberRecord} (hm : m ∈ (s.disbanded db x).characters) :
    m.hasGuild db x.tag = false := by
  obtain ⟨n, -, rfl⟩ := List.mem_map.mp hm
  unfold MemberRecord.clear
  split
  · rfl
  · rename_i hnot
    exact (Bool.not_eq_true _).mp hnot

theorem find_of_halfway {key : List Char} {p : GuildRecord → Bool} (hcache : s.cache key = none)
    (hselect : fails .selectGuild = false) (hfind : s.guilds.find? p = some x)
    (hmembers : fails .selectMembers = true) (tag : GuildRecord → List Char) :
    s.find db fails key p tag wrap = unwind (s.destroy db fails (begin wrap x)) := by
  unfold find
  rw [hcache]
  dsimp only
  rw [hselect, if_neg Bool.false_ne_true, hfind, Option.elim_some, if_pos hmembers]

/-- A load that fails halfway deletes the row that it has read and clears the members of that
guild, or ends the program. -/
theorem lookup_of_failsHalfway (wrap : String → String) (h : s.FailsHalfway db fails a) :
    ∃ x ∈ s.guilds, a.finds db x = true ∧
      ((∃ t, s.lookup db fails wrap a = .threw t ∧ x ∉ t.guilds ∧
          ∀ m ∈ t.characters, m.hasGuild db x.tag = false) ∨
        ∃ t, s.lookup db fails wrap a = .terminated t) := by
  obtain ⟨hcache, hselect, hsome, hmembers⟩ := h
  obtain ⟨x, hfind⟩ := Option.isSome_iff_exists.mp hsome
  obtain ⟨tag, wrap', heq⟩ := lookup_eq_find db fails wrap s a
  rw [heq, find_of_halfway hcache hselect hfind hmembers]
  refine ⟨x, List.mem_of_find?_eq_some hfind, List.find?_some hfind, ?_⟩
  rcases destroy_begin x with hok | ⟨t, herror⟩
  · rw [hok]
    exact Or.inl ⟨_, rfl, not_mem_disbanded db s x, fun m => guild_of_mem_disbanded⟩
  · rw [herror]
    exact Or.inr ⟨t, rfl⟩

/-- Any other load changes nothing when it throws. -/
theorem unharmed_find {key : List Char} {p : GuildRecord → Bool}
    (h : ¬(s.cache key = none ∧ fails .selectGuild = false ∧ (s.guilds.find? p).isSome ∧
      fails .selectMembers = true)) (tag : GuildRecord → List Char) :
    (s.find db fails key p tag wrap).Unharmed s := by
  unfold find
  cases hcache : s.cache key with
  | some g =>
      dsimp only
      split
      · trivial
      · trivial
  | none =>
      dsimp only
      cases hselect : fails .selectGuild with
      | true => rfl
      | false =>
          rw [if_neg Bool.false_ne_true]
          cases hfind : s.guilds.find? p with
          | none => trivial
          | some x =>
              have hmembers : ¬fails .selectMembers = true := fun hmembers =>
                h ⟨hcache, hselect, Option.isSome_iff_exists.mpr ⟨x, hfind⟩, hmembers⟩
              dsimp only [Option.elim_some]
              rw [if_neg hmembers]
              trivial

/-- A load destroys nothing, unless it is the query for the members that throws. -/
theorem loadsSafely_iff (db : TextColumns) (fails : GuildQuery → Bool) (wrap : String → String)
    (s : GuildStore) (a : GuildLookup) :
    s.LoadsSafely db fails wrap a ↔ ¬s.FailsHalfway db fails a := by
  unfold LoadsSafely
  constructor
  · intro hsafe hfails
    obtain ⟨x, hx, -, ⟨t, hthrew, hgone, -⟩ | ⟨t, hterminated⟩⟩ :=
      lookup_of_failsHalfway wrap hfails
    · rw [hthrew] at hsafe
      rw [show t = s from hsafe] at hgone
      exact hgone hx
    · rw [hterminated] at hsafe
      exact hsafe
  · intro hnot
    obtain ⟨tag, wrap', heq⟩ := lookup_eq_find db fails wrap s a
    rw [heq]
    exact unharmed_find hnot tag

end GuildStore

/-- A guild with one member, in a database that answers the first query and not the second. -/
def Interrupted.store : GuildStore where
  guilds := [⟨['A', 'B', 'C'], ['a', 'l', 'f', 'a'], 0, ⟨"", "", 500⟩⟩]
  characters := [⟨['b', 'o', 'b'], some ['A', 'B', 'C'], some 0, some ""⟩]
  guild _ := none
  cache _ := none
  nextGuild := 0

def Interrupted.fails (query : GuildQuery) : Bool := query = .selectMembers

theorem GuildStore.lookup_interrupted : ∃ t : GuildStore,
    Interrupted.store.lookup .binary Interrupted.fails id (.getGuild ['A', 'B', 'C']) = .threw t ∧
      t.guilds = [] ∧ t.characters = [⟨['b', 'o', 'b'], none, none, none⟩] :=
  ⟨_, rfl, by decide, by decide⟩

/-- The guild with its bank is gone, and its member has no guild. -/
theorem GuildStore.not_loadsSafely_interrupted : ¬ ∀ (db : TextColumns)
    (fails : GuildQuery → Bool) (wrap : String → String) (s : GuildStore) (a : GuildLookup),
    s.LoadsSafely db fails wrap a := by
  intro h
  obtain ⟨t, hthrew, hguilds, -⟩ := GuildStore.lookup_interrupted
  have hsafe := h .binary Interrupted.fails id Interrupted.store (.getGuild ['A', 'B', 'C'])
  unfold GuildStore.LoadsSafely at hsafe
  rw [hthrew] at hsafe
  rw [show t = Interrupted.store from hsafe] at hguilds
  cases hguilds

end ArenaServ
