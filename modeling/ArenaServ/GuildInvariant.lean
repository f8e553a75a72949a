import ArenaServ.FirstMatch
import ArenaServ.Guild
import Mathlib.Tactic.SplitIfs

/-!
# What guild membership rests on

What the columns of a character should be says which guild lists it: those of the `Character`
object when there is one, and else those of the row. The lists of the guilds in memory agree with
the columns, and what joining, leaving, destroying and reading a guild does to that is said here.
-/

namespace ArenaServ
open Function

/-! ## What is promised -/

def Guild.entries (guild : Guild) (n : RealName) : List GuildMember :=
  guild.members.filter (·.name = n)

namespace GuildWorld

/-- A character is in one list at most, once, and a character that is online points to the guild
that lists it, with the same rank. -/
structure Consistent (w : GuildWorld) : Prop where
  once : ∀ g guild, w.guild g = some guild → ∀ n, (guild.entries n).length ≤ 1
  one : ∀ g g' guild guild', w.guild g = some guild → w.guild g' = some guild' →
    ∀ m ∈ guild.members, ∀ m' ∈ guild'.members, m.name = m'.name → g = g'
  membership : ∀ c ∈ w.characters, ∀ g, (w.character c).guild = some g ↔
    ∃ guild, w.guild g = some guild ∧ ∃ m ∈ guild.members, m.name = (w.character c).name
  rank : ∀ c ∈ w.characters, ∀ g guild, w.guild g = some guild →
    ∀ m ∈ guild.members, m.name = (w.character c).name → m.rank = (w.character c).rank

/-- The columns that a `Character` object is saved with. -/
def rankOf (w : GuildWorld) (c : ℕ) : Option StoredRank :=
  ((w.character c).guild.bind w.guild).map fun guild =>
    ⟨guild.id.tag, (w.character c).rank⟩

def columns (w : GuildWorld) (n : RealName) : Option StoredRank :=
  match w.loaded.find? fun c => (w.character c).name = n with
  | some c => w.rankOf c
  | none => w.row n

/-- The entries of a character with these columns in the list of the guild with a tag. -/
def listed (tag : List Char) (n : RealName) (s : Option StoredRank) : List GuildMember :=
  match s with
  | none => []
  | some s => if s.tag = tag then [⟨n, s.rank⟩] else []

/-- The invariant. A guild without a character in memory that points to it is that of `pin`. -/
structure Sound (pin : Option ℕ) (w : GuildWorld) : Prop where
  nodup : w.loaded.Nodup
  distinct : ∀ c ∈ w.loaded, ∀ d ∈ w.loaded, (w.character c).name = (w.character d).name → c = d
  known : ∀ c ∈ w.loaded, (w.character c).name ∈ w.names
  online : w.characters ⊆ w.loaded
  freshCharacter : ∀ c ∈ w.loaded, c < w.nextCharacter
  freshGuild : ∀ g, w.nextGuild ≤ g → w.guild g = none
  pointed : ∀ c ∈ w.loaded, ∀ g, (w.character c).guild = some g → w.guild g ≠ none
  held : ∀ g, w.guild g ≠ none → pin = some g ∨ w.Held g
  unique : ∀ s ∈ w.stored, ∀ s' ∈ w.stored,
    s.id.tag = s'.id.tag ∨ s.id.name = s'.id.name → s.id = s'.id
  kept : ∀ g guild, w.guild g = some guild → ∃ s ∈ w.stored, s.id = guild.id
  cached : ∀ g guild, w.guild g = some guild →
    w.cache guild.id.tag = some g ∧ w.cache guild.id.name = some g
  cache_live : ∀ key g, w.cache key = some g →
    ∃ guild, w.guild g = some guild ∧ (key = guild.id.tag ∨ key = guild.id.name)
  ranks : ∀ c ∈ w.loaded, (w.character c).rank ≤ 9
  rows : ∀ n s, w.row n = some s → n ∈ w.names ∧ s.rank ≤ 9 ∧ ∃ x ∈ w.stored, x.id.tag = s.tag
  synced : ∀ c ∈ w.loaded, c ∉ w.characters → w.row (w.character c).name = w.rankOf c
  entries : ∀ g guild, w.guild g = some guild → ∀ n,
    guild.entries n = listed guild.id.tag n (w.columns n)

variable {w w' : GuildWorld} {c d g : ℕ} {n : RealName} {pin : Option ℕ} {guild : Guild}

theorem tag_ne_name (i j : GuildId) : i.tag ≠ j.name := by
  intro heq
  have hshort := i.short
  have hlong := j.long
  rw [heq] at hshort
  omega

theorem mem_listed {tag : List Char} {s : Option StoredRank} {m : GuildMember} :
    m ∈ listed tag n s ↔ m.name = n ∧ s = some ⟨tag, m.rank⟩ := by
  obtain ⟨name, rank⟩ := m
  unfold listed
  cases s with
  | none => simp
  | some s =>
      obtain ⟨tag', rank'⟩ := s
      by_cases htag : tag' = tag
      · simp [htag, eq_comm]
      · simp [htag]

theorem length_listed_le (tag : List Char) (n : RealName) (s : Option StoredRank) :
    (listed tag n s).length ≤ 1 := by
  unfold listed
  split
  · exact Nat.zero_le 1
  · split_ifs
    · exact le_refl 1
    · exact Nat.zero_le 1

theorem mem_entries {m : GuildMember} :
    m ∈ guild.entries n ↔ m ∈ guild.members ∧ m.name = n := by
  unfold Guild.entries
  rw [List.mem_filter, decide_eq_true_iff]

/-! ## Columns -/

theorem Sound.find_loaded (h : w.Sound pin) (hc : c ∈ w.loaded) :
    (w.loaded.find? fun d => (w.character d).name = (w.character c).name) = some c :=
  FirstMatch.find?_key (fun d hd heq => h.distinct d hd c hc heq) hc

theorem Sound.columns_of_loaded (h : w.Sound pin) (hc : c ∈ w.loaded) :
    w.columns (w.character c).name = w.rankOf c := by
  unfold columns
  rw [h.find_loaded hc]

theorem columns_of_unloaded (h : ∀ c ∈ w.loaded, (w.character c).name ≠ n) :
    w.columns n = w.row n := by
  have hfind : (w.loaded.find? fun d => (w.character d).name = n) = none := by
    apply List.find?_eq_none.mpr
    intro c hc
    rw [decide_eq_true_iff]
    exact h c hc
  unfold columns
  rw [hfind]

theorem rankOf_of_guild (hguild : (w.character c).guild = some g) (hlive : w.guild g = some guild) :
    w.rankOf c = some ⟨guild.id.tag, (w.character c).rank⟩ := by
  unfold rankOf
  rw [hguild, Option.bind_some, hlive, Option.map_some]

theorem rankOf_of_none (hguild : (w.character c).guild = none) : w.rankOf c = none := by
  unfold rankOf
  rw [hguild]
  rfl

theorem Sound.eq_of_tag (h : w.Sound pin) {g' : ℕ} {guild' : Guild} (hg : w.guild g = some guild)
    (hg' : w.guild g' = some guild') (htag : guild.id.tag = guild'.id.tag) : g = g' := by
  have hcache := (h.cached g guild hg).1
  rw [htag, (h.cached g' guild' hg').1] at hcache
  exact (Option.some.inj hcache).symm

/-- A character in memory whose columns have the tag of a guild points to it. -/
theorem Sound.guild_of_rankOf (h : w.Sound pin) (hlive : w.guild g = some guild) {rank : ℕ}
    (hrank : w.rankOf c = some ⟨guild.id.tag, rank⟩) :
    (w.character c).guild = some g ∧ (w.character c).rank = rank := by
  unfold rankOf at hrank
  obtain ⟨guild', hguild', heq⟩ := Option.map_eq_some_iff.mp hrank
  obtain ⟨g', hg', hlive'⟩ := Option.bind_eq_some_iff.mp hguild'
  injection heq with htag hrank
  rw [h.eq_of_tag hlive' hlive htag] at hg'
  exact ⟨hg', hrank⟩

theorem Sound.consistent (h : w.Sound pin) : w.Consistent where
  once g guild hg n := by
    rw [h.entries g guild hg n]
    exact length_listed_le _ _ _
  one g g' guild guild' hg hg' m hm m' hm' hname := by
    have hin := mem_entries.mpr ⟨hm, rfl⟩
    have hin' := mem_entries.mpr ⟨hm', hname.symm⟩
    rw [h.entries g guild hg] at hin
    rw [h.entries g' guild' hg'] at hin'
    have hcolumns := (mem_listed.mp hin).2
    rw [(mem_listed.mp hin').2, Option.some.injEq] at hcolumns
    injection hcolumns with htag
    exact h.eq_of_tag hg hg' htag.symm
  membership c hc g := by
    have hloaded := h.online hc
    constructor
    · intro hguild
      obtain ⟨guild, hg⟩ := Option.ne_none_iff_exists'.mp (h.pointed c hloaded g hguild)
      have hin : ⟨(w.character c).name, (w.character c).rank⟩ ∈
          guild.entries (w.character c).name := by
        rw [h.entries g guild hg, h.columns_of_loaded hloaded, rankOf_of_guild hguild hg]
        exact mem_listed.mpr ⟨rfl, rfl⟩
      exact ⟨guild, hg, _, (mem_entries.mp hin).1, rfl⟩
    · rintro ⟨guild, hg, m, hm, hname⟩
      have hin := mem_entries.mpr ⟨hm, hname⟩
      rw [h.entries g guild hg, h.columns_of_loaded hloaded] at hin
      exact (h.guild_of_rankOf hg (mem_listed.mp hin).2).1
  rank c hc g guild hg m hm hname := by
    have hin := mem_entries.mpr ⟨hm, hname⟩
    rw [h.entries g guild hg, h.columns_of_loaded (h.online hc)] at hin
    exact (h.guild_of_rankOf hg (mem_listed.mp hin).2).2.symm

/-! ## Guilds with the same tags and names -/

/-- The same guilds are in memory, with whatever members and banks. -/
def SameIds (w w' : GuildWorld) : Prop := ∀ g, (w'.guild g).map (·.id) = (w.guild g).map (·.id)

theorem sameIds_of_update {guild' : Guild} (hlive : w.guild g = some guild)
    (hguild : w'.guild = update w.guild g (some guild')) (hid : guild'.id = guild.id) :
    SameIds w w' := by
  intro g'
  rw [hguild]
  by_cases hg : g' = g
  · rw [hg, update_self, hlive, Option.map_some, Option.map_some, hid]
  · rw [update_of_ne hg]

namespace SameIds

variable {guild' : Guild}

theorem symm (hs : SameIds w w') : SameIds w' w := fun g => (hs g).symm

theorem exists_guild (hs : SameIds w w') (hg : w'.guild g = some guild') :
    ∃ guild, w.guild g = some guild ∧ guild.id = guild'.id := by
  have hmap := hs g
  rw [hg, Option.map_some] at hmap
  exact Option.map_eq_some_iff.mp hmap.symm

theorem ne_none_iff (hs : SameIds w w') : w'.guild g ≠ none ↔ w.guild g ≠ none := by
  have hmap := hs g
  rw [not_iff_not, ← Option.map_eq_none_iff, hmap, Option.map_eq_none_iff]

/-- What a character is saved with is a tag and its rank. -/
theorem rankOf (hs : SameIds w w') (hguild : (w'.character c).guild = (w.character c).guild)
    (hrank : (w'.character c).rank = (w.character c).rank) : w'.rankOf c = w.rankOf c := by
  unfold GuildWorld.rankOf
  rw [hguild, hrank]
  cases (w.character c).guild with
  | none => rfl
  | some g =>
      have htag := congrArg (Option.map fun id : GuildId =>
        StoredRank.mk id.tag (w.character c).rank) (hs g)
      rw [Option.map_map, Option.map_map] at htag
      exact htag

theorem freshGuild (hs : SameIds w w') (h : w.Sound pin) (hg : w.nextGuild ≤ g) :
    w'.guild g = none :=
  not_not.mp (mt hs.ne_none_iff.mp (not_not.mpr (h.freshGuild g hg)))

theorem kept (hs : SameIds w w') (h : w.Sound pin) (hg : w'.guild g = some guild') :
    ∃ x ∈ w.stored, x.id = guild'.id := by
  obtain ⟨guild, hlive, hid⟩ := hs.exists_guild hg
  rw [← hid]
  exact h.kept g guild hlive

theorem cached (hs : SameIds w w') (h : w.Sound pin) (hg : w'.guild g = some guild') :
    w.cache guild'.id.tag = some g ∧ w.cache guild'.id.name = some g := by
  obtain ⟨guild, hlive, hid⟩ := hs.exists_guild hg
  rw [← hid]
  exact h.cached g guild hlive

theorem cache_live (hs : SameIds w w') (h : w.Sound pin) {key : List Char}
    (hkey : w.cache key = some g) :
    ∃ guild', w'.guild g = some guild' ∧ (key = guild'.id.tag ∨ key = guild'.id.name) := by
  obtain ⟨guild, hlive, hkeys⟩ := h.cache_live key g hkey
  obtain ⟨guild', hlive', hid⟩ := hs.symm.exists_guild hlive
  rw [← hid] at hkeys
  exact ⟨guild', hlive', hkeys⟩

end SameIds

/-! ## Other columns for one name -/

/-- What a change of the members of a guild leaves as it is. -/
structure Framed (w w' : GuildWorld) : Prop where
  names : w'.names = w.names
  loaded : w'.loaded = w.loaded
  characters : w'.characters = w.characters
  stored : w'.stored = w.stored
  cache : w'.cache = w.cache
  nextCharacter : w'.nextCharacter = w.nextCharacter
  nextGuild : w'.nextGuild = w.nextGuild
  name : ∀ c, (w'.character c).name = (w.character c).name

/-- What the other characters point to and what their rows are. -/
structure FramedOthers (n : RealName) (w w' : GuildWorld) : Prop extends Framed w w' where
  guild : ∀ c, (w.character c).name ≠ n → (w'.character c).guild = (w.character c).guild
  rank : ∀ c, (w.character c).name ≠ n → (w'.character c).rank = (w.character c).rank
  row : ∀ m, m ≠ n → w'.row m = w.row m

variable {guild' : Guild}

/-- The guild may have other members, but not another tag. -/
theorem FramedOthers.rankOf (hf : FramedOthers n w w') (hs : SameIds w w')
    (hc : (w.character c).name ≠ n) : w'.rankOf c = w.rankOf c :=
  hs.rankOf (hf.guild c hc) (hf.rank c hc)

theorem FramedOthers.columns (hf : FramedOthers n w w') (hs : SameIds w w') {m : RealName}
    (hm : m ≠ n) : w'.columns m = w.columns m := by
  unfold GuildWorld.columns
  rw [hf.loaded]
  simp only [hf.name]
  cases hfind : w.loaded.find? fun d => (w.character d).name = m with
  | none => exact hf.row m hm
  | some d =>
      have hname := List.find?_some hfind
      rw [decide_eq_true_iff] at hname
      exact hf.rankOf hs (hname ▸ hm)

/-- One name gets other columns, and the guild that they name before and after lists it
accordingly. -/
theorem Sound.alter (h : w.Sound pin) {pin' : Option ℕ} (hf : FramedOthers n w w')
    (hlive : w.guild g = some guild) (hid : guild'.id = guild.id)
    (hguild : w'.guild = update w.guild g (some guild'))
    (hpointer : ∀ c ∈ w.loaded, (w.character c).name = n →
      (w'.character c).guild ∈ [none, some g] ∧ (w'.character c).rank ≤ 9)
    (hrow : w'.row n = w.row n ∨ w'.row n = none)
    (hsynced : ∀ c ∈ w.loaded, c ∉ w.characters → (w.character c).name = n →
      w'.row n = w'.rankOf c)
    (hbefore : ∀ s, w.columns n = some s → s.tag = guild.id.tag)
    (hafter : ∀ s, w'.columns n = some s → s.tag = guild.id.tag)
    (hentries : guild'.entries n = listed guild.id.tag n (w'.columns n))
    (hothers : ∀ m, m ≠ n → guild'.entries m = guild.entries m)
    (hheld : ∀ g, w.guild g ≠ none → pin' = some g ∨ w'.Held g) : w'.Sound pin' := by
  have hcases : ∀ g' guild'', w'.guild g' = some guild'' →
      g' = g ∧ guild'' = guild' ∨ g' ≠ g ∧ w.guild g' = some guild'' := by
    intro g' guild'' hg'
    rw [hguild] at hg'
    by_cases heq : g' = g
    · rw [heq, update_self, Option.some.injEq] at hg'
      exact Or.inl ⟨heq, hg'.symm⟩
    · rw [update_of_ne heq] at hg'
      exact Or.inr ⟨heq, hg'⟩
  have hsame := sameIds_of_update hlive hguild hid
  refine ⟨?_, ?_, ?_, ?_, ?_, ?_, ?_, ?_, ?_, ?_, ?_, ?_, ?_, ?_, ?_, ?_⟩
  · rw [hf.loaded]
    exact h.nodup
  · rw [hf.loaded]
    simp only [hf.name]
    exact h.distinct
  · rw [hf.loaded, hf.names]
    simp only [hf.name]
    exact h.known
  · rw [hf.loaded, hf.characters]
    exact h.online
  · rw [hf.loaded, hf.nextCharacter]
    exact h.freshCharacter
  · intro g' hg'
    rw [hf.nextGuild] at hg'
    exact hsame.freshGuild h hg'
  · intro c hc g' hg'
    rw [hf.loaded] at hc
    rw [hsame.ne_none_iff]
    by_cases hn : (w.character c).name = n
    · have hin := (hpointer c hc hn).1
      rw [hg', List.mem_cons, List.mem_singleton] at hin
      rcases hin with hnone | hsome
      · cases hnone
      · rw [Option.some.inj hsome, hlive]
        exact fun h => nomatch h
    · rw [hf.guild c hn] at hg'
      exact h.pointed c hc g' hg'
  · intro g' hg'
    exact hheld g' (hsame.ne_none_iff.mp hg')
  · rw [hf.stored]
    exact h.unique
  · intro g' guild'' hg'
    rw [hf.stored]
    exact hsame.kept h hg'
  · intro g' guild'' hg'
    rw [hf.cache]
    exact hsame.cached h hg'
  · intro key g' hkey
    rw [hf.cache] at hkey
    exact hsame.cache_live h hkey
  · intro c hc
    rw [hf.loaded] at hc
    by_cases hn : (w.character c).name = n
    · exact (hpointer c hc hn).2
    · rw [hf.rank c hn]
      exact h.ranks c hc
  · intro m s hs
    rw [hf.names, hf.stored]
    by_cases hm : m = n
    · rw [hm] at hs ⊢
      rcases hrow with hrow | hrow
      · exact h.rows n s (hrow ▸ hs)
      · rw [hrow] at hs
        cases hs
    · rw [hf.row m hm] at hs
      exact h.rows m s hs
  · intro c hc hoff
    rw [hf.loaded] at hc
    rw [hf.characters] at hoff
    rw [hf.name]
    by_cases hn : (w.character c).name = n
    · rw [hn]
      exact hsynced c hc hoff hn
    · rw [hf.row _ hn, hf.rankOf hsame hn]
      exact h.synced c hc hoff
  · intro g' guild'' hg' m
    rcases hcases g' guild'' hg' with ⟨rfl, rfl⟩ | ⟨hne, hg'⟩
    · rw [hid]
      by_cases hm : m = n
      · rw [hm]
        exact hentries
      · rw [hothers m hm, hf.columns hsame hm]
        exact h.entries g' guild hlive m
    · rw [h.entries g' guild'' hg' m]
      by_cases hm : m = n
      · -- another guild lists the name neither before nor after
        have htag : guild''.id.tag ≠ guild.id.tag := fun heq => hne (h.eq_of_tag hg' hlive heq)
        have hempty : ∀ s, (∀ x, s = some x → x.tag = guild.id.tag) →
            listed guild''.id.tag n s = [] := by
          intro s hs
          apply List.eq_nil_iff_forall_not_mem.mpr
          intro x hx
          exact htag (hs _ (mem_listed.mp hx).2)
        rw [hm, hempty _ hbefore, hempty _ hafter]
      · rw [hf.columns hsame hm]

/-- A name that a character in memory has keeps being looked up there. -/
theorem Framed.columns_of_loaded (hf : Framed w w') (h : w.Sound pin) (hc : c ∈ w.loaded) :
    w'.columns (w.character c).name = w'.rankOf c := by
  unfold columns
  rw [hf.loaded]
  simp only [hf.name]
  rw [h.find_loaded hc]

/-- A character points elsewhere, a guild has another list, and its row may be another. -/
def settle (w : GuildWorld) (c : ℕ) (p : Option ℕ) (rank g : ℕ) (guild : Guild)
    (row : RealName → Option StoredRank) : GuildWorld :=
  { w with
    character := update w.character c { w.character c with guild := p, rank := rank }
    guild := update w.guild g (some guild)
    row := row }

section
variable {p : Option ℕ} {rank : ℕ} {row : RealName → Option StoredRank}

theorem character_settle_self : (w.settle c p rank g guild row).character c =
    { w.character c with guild := p, rank := rank } := update_self c _ w.character

theorem character_settle_of_ne (hd : d ≠ c) :
    (w.settle c p rank g guild row).character d = w.character d := update_of_ne hd _ w.character

theorem framedOthers_settle (hrow : ∀ m, m ≠ (w.character c).name → row m = w.row m) :
    FramedOthers (w.character c).name w (w.settle c p rank g guild row) where
  names := rfl
  loaded := rfl
  characters := rfl
  stored := rfl
  cache := rfl
  nextCharacter := rfl
  nextGuild := rfl
  name d := by
    by_cases hd : d = c
    · rw [hd, character_settle_self]
    · rw [character_settle_of_ne hd]
  guild d hd := by
    have hne : d ≠ c := fun heq => hd (heq ▸ rfl)
    rw [character_settle_of_ne hne]
  rank d hd := by
    have hne : d ≠ c := fun heq => hd (heq ▸ rfl)
    rw [character_settle_of_ne hne]
  row := hrow

/-- A character in memory with new columns, and the guild that has them or had them. -/
theorem sound_settle (h : w.Sound pin) {pin' : Option ℕ} (hc : c ∈ w.loaded)
    (hlive : w.guild g = some guild) (hid : guild'.id = guild.id) (hp : p ∈ [none, some g])
    (hwas : (w.character c).guild ∈ [none, some g]) (hrank : rank ≤ 9)
    (hothers : ∀ m, m ≠ (w.character c).name → row m = w.row m)
    (hrow : row (w.character c).name = w.row (w.character c).name ∨
      row (w.character c).name = none)
    (hsynced : c ∉ w.characters → p = none ∧ row (w.character c).name = none)
    (hentries : guild'.entries (w.character c).name =
      if p = none then [] else [⟨(w.character c).name, rank⟩])
    (hentriesOthers : ∀ m, m ≠ (w.character c).name → guild'.entries m = guild.entries m)
    (hheld : ∀ g', w.guild g' ≠ none →
      pin' = some g' ∨ ∃ d ∈ w.loaded, d ≠ c ∧ (w.character d).guild = some g' ∨ p = some g') :
    (w.settle c p rank g guild' row).Sound pin' := by
  have hf : FramedOthers (w.character c).name w (w.settle c p rank g guild' row) :=
    framedOthers_settle hothers
  have honly : ∀ d ∈ w.loaded, (w.character d).name = (w.character c).name → d = c :=
    fun d hd heq => h.distinct d hd c hc heq
  have hself : ((w.settle c p rank g guild' row).character c).guild = p := by
    rw [character_settle_self]
  have hselfRank : ((w.settle c p rank g guild' row).character c).rank = rank := by
    rw [character_settle_self]
  have hrankOf : (w.settle c p rank g guild' row).rankOf c =
      if p = none then none else some ⟨guild.id.tag, rank⟩ := by
    by_cases hpnone : p = none
    · rw [if_pos hpnone]
      exact rankOf_of_none (hself.trans hpnone)
    · have hpsome : p = some g := by simpa [hpnone] using hp
      rw [if_neg hpnone, rankOf_of_guild (hself.trans hpsome) (update_self g _ w.guild), hselfRank,
        hid]
  have hcolumns := (hf.toFramed.columns_of_loaded h hc).trans hrankOf
  apply h.alter hf hlive hid rfl
  · intro d hd hname
    rw [honly d hd hname, hself, hselfRank]
    exact ⟨hp, hrank⟩
  · exact hrow
  · intro d hd hoff hname
    rw [honly d hd hname] at hoff ⊢
    obtain ⟨hpnone, hnone⟩ := hsynced hoff
    rw [hrankOf, if_pos hpnone]
    exact hnone
  · intro s hs
    rw [h.columns_of_loaded hc] at hs
    rcases List.mem_cons.mp hwas with hnone | hsome
    · rw [rankOf_of_none hnone] at hs
      cases hs
    · rw [rankOf_of_guild (List.mem_singleton.mp hsome) hlive, Option.some.injEq] at hs
      rw [← hs]
  · intro s hs
    rw [hcolumns] at hs
    split_ifs at hs with hpnone
    rw [← Option.some.inj hs]
  · rw [hentries, hcolumns]
    split_ifs with hpnone
    · rfl
    · exact (if_pos rfl).symm
  · exact hentriesOthers
  · intro g' hg'
    rcases hheld g' hg' with hpin | ⟨d, hd, ⟨hne, hguild⟩ | hpg⟩
    · exact Or.inl hpin
    · exact Or.inr ⟨d, hd, by rw [character_settle_of_ne hne, hguild]⟩
    · exact Or.inr ⟨c, hc, hself.trans hpg⟩

end

/-! ## Joining -/

theorem addMember_of_none (pin : Option ℕ) (hnone : (w.character c).guild = none)
    (hlive : w.guild g = some guild) (rank : ℕ) :
    w.addMember pin g c rank = w.settle c (some g) rank g { guild with
        members := guild.members ++ [GuildMember.of (w.character c).name rank] } w.row := by
  have hpoint : w.point pin c (some g) rank =
      w.setCharacter c ({ · with guild := some g, rank := rank }) := by
    unfold point
    rw [hnone]
  have hname : ((w.setCharacter c ({ · with guild := some g, rank := rank })).character c).name =
      (w.character c).name := by
    unfold setCharacter
    dsimp only
    rw [update_self]
  have hguild : (w.setCharacter c ({ · with guild := some g, rank := rank })).guild g =
      some guild := hlive
  unfold addMember
  rw [hpoint]
  dsimp only
  rw [hguild, hname]
  rfl

theorem entries_append_self {m : GuildMember} (hm : m.name = n) (guild : Guild) :
    ({ guild with members := guild.members ++ [m] } : Guild).entries n =
      guild.entries n ++ [m] := by
  unfold Guild.entries
  rw [List.filter_append, List.filter_singleton, decide_eq_true hm]
  rfl

theorem entries_append_of_ne {m : GuildMember} (hm : m.name ≠ n) (guild : Guild) :
    ({ guild with members := guild.members ++ [m] } : Guild).entries n = guild.entries n := by
  unfold Guild.entries
  rw [List.filter_append, List.filter_singleton, decide_eq_false hm]
  exact List.append_nil _

/-- A character that is online and has no guild joins one. -/
theorem sound_addMember (h : w.Sound pin) (hc : c ∈ w.characters)
    (hnone : (w.character c).guild = none) (hlive : w.guild g = some guild) {rank : ℕ}
    (hrank : rank ≤ 9) : (w.addMember pin g c rank).Sound pin := by
  rw [addMember_of_none pin hnone hlive]
  have hloaded := h.online hc
  refine sound_settle h hloaded hlive rfl (List.mem_cons_of_mem _ List.mem_cons_self) ?_ hrank
    (fun _ _ => rfl) (Or.inl rfl) (fun hoff => absurd hc hoff) ?_ ?_ ?_
  · rw [hnone]
    exact List.mem_cons_self
  · rw [if_neg (fun heq => nomatch heq)]
    refine (entries_append_self (m := GuildMember.of (w.character c).name rank) rfl guild).trans ?_
    have hbefore : guild.entries (w.character c).name = [] := by
      rw [h.entries g guild hlive, h.columns_of_loaded hloaded, rankOf_of_none hnone]
      rfl
    unfold GuildMember.of
    dsimp only
    rw [hbefore, Nat.min_eq_right hrank]
    rfl
  · exact fun m hm => entries_append_of_ne (Ne.symm hm) guild
  · intro g' hg'
    rcases h.held g' hg' with hpin | ⟨d, hd, hguild⟩
    · exact Or.inl hpin
    · have hne : d ≠ c := by
        rintro rfl
        rw [hnone] at hguild
        cases hguild
      exact Or.inr ⟨d, hd, Or.inl ⟨hne, hguild⟩⟩

/-! ## Destroying -/

theorem Sound.of_held (h : w.Sound pin) (hheld : ∀ g, pin = some g → w.guild g ≠ none → w.Held g)
    (pin' : Option ℕ) : w.Sound pin' := by
  refine { h with held := ?_ }
  intro g hg
  rcases h.held g hg with hpin | hheld'
  · exact Or.inr (hheld g hpin hg)
  · exact Or.inr hheld'

theorem Sound.pinned (h : w.Sound none) (pin : Option ℕ) : w.Sound pin :=
  h.of_held (fun _ heq => nomatch heq) pin

/-- A guild that no one points to is forgotten, and what the database has of it may go. -/
theorem Sound.drop (h : w.Sound (some g)) (hlive : w.guild g = some guild) (hnot : ¬w.Held g)
    {row : RealName → Option StoredRank} {stored : List StoredGuild}
    (hunloaded : ∀ n, (∀ c ∈ w.loaded, (w.character c).name ≠ n) → row n = w.row n)
    (hoffline : ∀ c ∈ w.loaded, c ∉ w.characters →
      row (w.character c).name = w.row (w.character c).name)
    (hrow : ∀ n s, row n = some s → w.row n = some s ∧ ∃ x ∈ stored, x.id.tag = s.tag)
    (hstored : ∀ x ∈ stored, ∃ y ∈ w.stored, y.id = x.id)
    (hstored' : ∀ y ∈ w.stored, y.id.tag ≠ guild.id.tag → ∃ x ∈ stored, x.id = y.id) :
    Sound none { w with
      guild := update w.guild g none
      cache := fun key => if key = guild.id.tag ∨ key = guild.id.name then none else w.cache key
      row := row
      stored := stored } := by
  have hcases : ∀ g' guild', update w.guild g none g' = some guild' →
      g' ≠ g ∧ w.guild g' = some guild' := by
    intro g' guild' hg'
    by_cases heq : g' = g
    · rw [heq, update_self] at hg'
      cases hg'
    · rw [update_of_ne heq] at hg'
      exact ⟨heq, hg'⟩
  have hpoints : ∀ c ∈ w.loaded, ∀ g', (w.character c).guild = some g' →
      update w.guild g none g' = w.guild g' := by
    intro c hc g' hg'
    apply update_of_ne
    rintro rfl
    exact hnot ⟨c, hc, hg'⟩
  have hrankOf : ∀ c ∈ w.loaded, rankOf { w with
      guild := update w.guild g none
      cache := fun key => if key = guild.id.tag ∨ key = guild.id.name then none else w.cache key
      row := row
      stored := stored } c = w.rankOf c := by
    intro c hc
    unfold rankOf
    dsimp only
    cases hg' : (w.character c).guild with
    | none => rfl
    | some g' => rw [Option.bind_some, Option.bind_some, hpoints c hc g' hg']
  have hcolumns : ∀ n, columns { w with
      guild := update w.guild g none
      cache := fun key => if key = guild.id.tag ∨ key = guild.id.name then none else w.cache key
      row := row
      stored := stored } n = w.columns n := by
    intro n
    unfold columns
    dsimp only
    cases hfind : w.loaded.find? fun d => (w.character d).name = n with
    | some c => exact hrankOf c (List.mem_of_find?_eq_some hfind)
    | none =>
        apply hunloaded
        intro c hc hname
        exact List.find?_eq_none.mp hfind c hc (decide_eq_true hname)
  refine ⟨h.nodup, h.distinct, h.known, h.online, h.freshCharacter, ?_, ?_, ?_, ?_, ?_, ?_, ?_,
    h.ranks, ?_, ?_, ?_⟩
  · intro g' hg'
    dsimp only
    by_cases heq : g' = g
    · rw [heq, update_self]
    · rw [update_of_ne heq]
      exact h.freshGuild g' hg'
  · intro c hc g' hg'
    dsimp only
    rw [hpoints c hc g' hg']
    exact h.pointed c hc g' hg'
  · intro g' hg'
    obtain ⟨guild', hguild'⟩ := Option.ne_none_iff_exists'.mp hg'
    obtain ⟨hne, hguild'⟩ := hcases g' guild' hguild'
    rcases h.held g' (by rw [hguild']; exact fun h => nomatch h) with hpin | hheld
    · exact absurd (Option.some.inj hpin).symm hne
    · exact Or.inr hheld
  · intro x hx x' hx' heq
    obtain ⟨y, hy, hid⟩ := hstored x hx
    obtain ⟨y', hy', hid'⟩ := hstored x' hx'
    rw [← hid, ← hid'] at heq ⊢
    exact h.unique y hy y' hy' heq
  · intro g' guild' hg'
    obtain ⟨hne, hg'⟩ := hcases g' guild' hg'
    obtain ⟨y, hy, hid⟩ := h.kept g' guild' hg'
    obtain ⟨x, hx, hid'⟩ := hstored' y hy
      (fun htag => hne (h.eq_of_tag hg' hlive (hid ▸ htag)))
    exact ⟨x, hx, hid'.trans hid⟩
  · intro g' guild' hg'
    obtain ⟨hne, hg'⟩ := hcases g' guild' hg'
    obtain ⟨htag, hname⟩ := h.cached g' guild' hg'
    have hother := h.cached g guild hlive
    constructor
    · dsimp only
      rw [if_neg, htag]
      rintro (heq | heq)
      · exact hne (h.eq_of_tag hg' hlive heq)
      · exact tag_ne_name _ _ heq
    · dsimp only
      rw [if_neg, hname]
      rintro (heq | heq)
      · exact tag_ne_name _ _ heq.symm
      · rw [heq, hother.2] at hname
        exact hne (Option.some.inj hname).symm
  · intro key g' hkey
    dsimp only at hkey
    split_ifs at hkey with hown
    obtain ⟨guild', hg', hkeys⟩ := h.cache_live key g' hkey
    have hne : g' ≠ g := by
      rintro rfl
      rw [hlive, Option.some.injEq] at hg'
      exact hown (hg' ▸ hkeys)
    exact ⟨guild', (update_of_ne hne _ _).trans hg', hkeys⟩
  · intro n s hs
    obtain ⟨hs, hx⟩ := hrow n s hs
    obtain ⟨hn, hrank, -⟩ := h.rows n s hs
    exact ⟨hn, hrank, hx⟩
  · intro c hc hoff
    rw [hrankOf c hc]
    exact (hoffline c hc hoff).trans (h.synced c hc hoff)
  · intro g' guild' hg' n
    rw [hcolumns]
    exact h.entries g' guild' (hcases g' guild' hg').2 n

/-- `Guild::~Guild`, when no one points to the guild any more. -/
theorem sound_deleteGuild (h : w.Sound (some g)) (hnot : ¬w.Held g) :
    (w.deleteGuild g).Sound none := by
  unfold deleteGuild
  cases hlive : w.guild g with
  | none =>
      apply h.of_held
      intro g' heq hg'
      rw [← Option.some.inj heq, hlive] at hg'
      exact absurd rfl hg'
  | some guild =>
      dsimp only
      split_ifs with hempty
      · have hno : ∀ n s, w.columns n = some s → s.tag ≠ guild.id.tag := by
          rintro n ⟨tag, rank⟩ hs rfl
          have hin : (⟨n, rank⟩ : GuildMember) ∈ guild.entries n := by
            rw [h.entries g guild hlive, hs]
            exact mem_listed.mpr ⟨rfl, rfl⟩
          have hmem := (mem_entries.mp hin).1
          rw [hempty] at hmem
          cases hmem
        have hclear : ∀ n, w.columns n = w.row n →
            (if (w.row n).any (·.tag = guild.id.tag) then none else w.row n) = w.row n := by
          intro n hn
          rw [if_neg]
          intro hany
          obtain ⟨s, hs, htag⟩ := Option.any_eq_true _ _ |>.mp hany
          exact hno n s (hn.trans hs) (of_decide_eq_true htag)
        apply h.drop hlive hnot
        · exact fun n hn => hclear n (columns_of_unloaded hn)
        · intro c hc hoff
          exact hclear _ ((h.columns_of_loaded hc).trans (h.synced c hc hoff).symm)
        · intro n s hs
          split_ifs at hs with hany
          obtain ⟨x, hx, htag⟩ := (h.rows n s hs).2.2
          refine ⟨hs, x, List.mem_filter.mpr ⟨hx, decide_eq_true ?_⟩, htag⟩
          intro hsame
          apply hany
          rw [hs, Option.any_some]
          exact decide_eq_true (htag.symm.trans hsame)
        · exact fun x hx => ⟨x, List.mem_of_mem_filter hx, rfl⟩
        · exact fun y hy hne => ⟨y, List.mem_filter.mpr ⟨hy, decide_eq_true hne⟩, rfl⟩
      · have hid : ∀ y : StoredGuild,
            (if y.id.tag = guild.id.tag then { y with bank := guild.bank } else y).id = y.id := by
          intro y
          split_ifs <;> rfl
        apply h.drop hlive hnot (fun _ _ => rfl) (fun _ _ _ => rfl)
        · intro n s hs
          obtain ⟨x, hx, htag⟩ := (h.rows n s hs).2.2
          exact ⟨hs, _, List.mem_map_of_mem hx, (congrArg GuildId.tag (hid x)).trans htag⟩
        · intro x hx
          obtain ⟨y, hy, rfl⟩ := List.mem_map.mp hx
          exact ⟨y, hy, (hid y).symm⟩
        · exact fun y hy _ => ⟨_, List.mem_map_of_mem hy, hid y⟩

theorem sound_release (h : w.Sound (some g)) : (w.release none g).Sound none := by
  unfold release
  by_cases hheld : w.Held g
  · rw [if_pos (Or.inr hheld)]
    apply h.of_held
    intro g' heq _
    rw [← Option.some.inj heq]
    exact hheld
  · rw [if_neg (not_or.mpr ⟨fun heq => (nomatch heq), hheld⟩)]
    exact sound_deleteGuild h hheld

theorem release_of_pin : w.release (some g) g = w := by
  unfold release
  rw [if_pos (Or.inl rfl)]

/-! ## Leaving -/

theorem character_release (w : GuildWorld) (pin : Option ℕ) (g : ℕ) :
    (w.release pin g).character = w.character ∧ (w.release pin g).loaded = w.loaded ∧
      (w.release pin g).characters = w.characters := by
  unfold release
  split_ifs with hkeep
  · exact ⟨rfl, rfl, rfl⟩
  · unfold deleteGuild
    cases w.guild g with
    | none => exact ⟨rfl, rfl, rfl⟩
    | some guild =>
        dsimp only
        split_ifs <;> exact ⟨rfl, rfl, rfl⟩

/-- The database is changed before the guild is given up, or after. -/
theorem release_row (w : GuildWorld) (pin : Option ℕ) (g : ℕ) (n : RealName) :
    ({ w with row := update w.row n none } : GuildWorld).release pin g =
      { w.release pin g with row := update (w.release pin g).row n none } := by
  unfold release
  by_cases hkeep : pin = some g ∨ w.Held g
  · have hkeep' : pin = some g ∨ Held { w with row := update w.row n none } g := hkeep
    rw [if_pos hkeep, if_pos hkeep']
  · have hkeep' : ¬(pin = some g ∨ Held { w with row := update w.row n none } g) := hkeep
    rw [if_neg hkeep, if_neg hkeep']
    unfold deleteGuild
    dsimp only
    cases w.guild g with
    | none => rfl
    | some guild =>
        dsimp only
        by_cases hempty : guild.members = []
        · simp only [if_pos hempty]
          have hrow : (fun m => if (update w.row n none m).any (·.tag = guild.id.tag) then none
              else update w.row n none m) =
              update (fun m => if (w.row m).any (·.tag = guild.id.tag) then none else w.row m)
                n none := by
            funext m
            by_cases hm : m = n
            · rw [hm, update_self, update_self]
              rfl
            · rw [update_of_ne hm, update_of_ne hm]
          simp only [hrow]
        · simp only [if_neg hempty]

theorem name_point (w : GuildWorld) (pin : Option ℕ) (c : ℕ) (p : Option ℕ) (rank d : ℕ) :
    ((w.point pin c p rank).character d).name = (w.character d).name := by
  have hset : ((w.setCharacter c ({ · with guild := p, rank := rank })).character d).name =
      (w.character d).name := by
    unfold setCharacter
    dsimp only
    by_cases hd : d = c
    · rw [hd, update_self]
    · rw [update_of_ne hd]
  unfold point
  cases (w.character c).guild with
  | none => exact hset
  | some old =>
      dsimp only
      rw [(character_release _ _ _).1]
      exact hset

theorem expel_of_forall {l : List ℕ} (h : ∀ c ∈ l, (w.character c).name ≠ n) :
    w.expel pin n l = { w with row := update w.row n none } := by
  induction l with
  | nil => rfl
  | cons c rest ih =>
      rw [expel, if_neg (h c List.mem_cons_self)]
      exact ih fun d hd => h d (List.mem_cons_of_mem _ hd)

theorem expel_of_mem (pin : Option ℕ) {l : List ℕ} (hnodup : l.Nodup)
    (honly : ∀ d ∈ l, (w.character d).name = n → d = c) (hc : c ∈ l)
    (hname : (w.character c).name = n) :
    w.expel pin n l = if c ∈ w.characters then w.point pin c none 0
      else { w.point pin c none 0 with row := update (w.point pin c none 0).row n none } := by
  induction l with
  | nil => cases hc
  | cons d rest ih =>
      obtain ⟨hnotin, hnodup⟩ := List.nodup_cons.mp hnodup
      rw [expel]
      by_cases hd : (w.character d).name = n
      · have heq := honly d List.mem_cons_self hd
        rw [if_pos hd, heq]
        dsimp only
        split_ifs with hon
        · rfl
        · -- no other character in memory has the name
          apply expel_of_forall
          intro e he hen
          rw [name_point] at hen
          rw [honly e (List.mem_cons_of_mem _ he) hen, ← heq] at he
          exact hnotin he
      · rw [if_neg hd]
        apply ih hnodup (fun e he => honly e (List.mem_cons_of_mem _ he))
        rcases List.mem_cons.mp hc with rfl | hc
        · exact absurd hname hd
        · exact hc

/-- The guild without a member. -/
def Guild.without (guild : Guild) (n : RealName) : Guild :=
  { guild with members := guild.members.eraseP (·.name = n) }

/-- The columns in the database, which `DelMember` clears for a character that is not online. -/
def expelledRow (w : GuildWorld) (c : ℕ) : RealName → Option StoredRank :=
  if c ∈ w.characters then w.row else update w.row (w.character c).name none

theorem delMember_of_loaded (h : w.Sound pin) (hc : c ∈ w.loaded)
    (hguild : (w.character c).guild = some g) (hlive : w.guild g = some guild)
    (pin' : Option ℕ) {kicked : List Char} (hname : RealName.of kicked = (w.character c).name) :
    w.delMember pin' g kicked =
      (w.settle c none 0 g (Guild.without guild (w.character c).name)
        (w.expelledRow c)).release pin' g := by
  have hpoint : (w.setGuild g (Guild.without guild (w.character c).name)).point pin' c none 0 =
      (w.settle c none 0 g (Guild.without guild (w.character c).name) w.row).release pin' g := by
    unfold point
    have hguild' : ((w.setGuild g (Guild.without guild (w.character c).name)).character c).guild =
        some g := hguild
    rw [hguild']
    rfl
  have hexpel := expel_of_mem (w := w.setGuild g (Guild.without guild (w.character c).name))
    pin' h.nodup (fun d hd heq => h.distinct d hd c hc heq) hc rfl
  unfold delMember
  rw [hlive, hname]
  refine hexpel.trans ?_
  rw [hpoint]
  unfold expelledRow
  by_cases hon : c ∈ w.characters
  · have hon' : c ∈ (w.setGuild g (Guild.without guild (w.character c).name)).characters := hon
    rw [if_pos hon, if_pos hon']
  · have hon' : c ∉ (w.setGuild g (Guild.without guild (w.character c).name)).characters := hon
    rw [if_neg hon, if_neg hon']
    exact (release_row _ _ _ _).symm

theorem delMember_of_unloaded (hlive : w.guild g = some guild) (pin' : Option ℕ)
    {kicked : List Char} (hunloaded : ∀ c ∈ w.loaded, (w.character c).name ≠ RealName.of kicked) :
    w.delMember pin' g kicked =
      { w.setGuild g (Guild.without guild (RealName.of kicked)) with
        row := update w.row (RealName.of kicked) none } := by
  unfold delMember
  rw [hlive]
  exact expel_of_forall (w := w.setGuild g (Guild.without guild (RealName.of kicked))) hunloaded

theorem entries_without_self (h : (guild.entries n).length ≤ 1) :
    (Guild.without guild n).entries n = [] := by
  unfold Guild.without Guild.entries
  dsimp only
  rw [FirstMatch.filter_eraseP_self]
  apply List.eq_nil_of_length_eq_zero
  rw [List.length_tail]
  unfold Guild.entries at h
  omega

theorem entries_without_of_ne {m : RealName} (hm : m ≠ n) :
    (Guild.without guild n).entries m = guild.entries m := by
  unfold Guild.without Guild.entries
  apply FirstMatch.filter_eraseP_of_not
  intro x hx hx'
  rw [decide_eq_true_iff] at hx hx'
  exact hm (hx'.symm.trans hx)

/-- A member in memory leaves. -/
theorem sound_settle_none (h : w.Sound pin) (hpin : pin = none ∨ pin = some g) (hc : c ∈ w.loaded)
    (hguild : (w.character c).guild = some g) (hlive : w.guild g = some guild) :
    (w.settle c none 0 g (Guild.without guild (w.character c).name) (w.expelledRow c)).Sound
      (some g) := by
  have honce : (guild.entries (w.character c).name).length ≤ 1 := by
    rw [h.entries g guild hlive]
    exact length_listed_le _ _ _
  have hoff : c ∉ w.characters → w.expelledRow c (w.character c).name = none := by
    intro hoff
    unfold expelledRow
    rw [if_neg hoff, update_self]
  refine sound_settle h hc hlive rfl List.mem_cons_self ?_ (Nat.zero_le 9) ?_ ?_
    (fun hnot => ⟨rfl, hoff hnot⟩) ?_ ?_ ?_
  · rw [hguild]
    exact List.mem_cons_of_mem _ List.mem_cons_self
  · intro m hm
    unfold expelledRow
    split_ifs
    · rfl
    · exact update_of_ne hm _ _
  · by_cases hon : c ∈ w.characters
    · unfold expelledRow
      rw [if_pos hon]
      exact Or.inl rfl
    · exact Or.inr (hoff hon)
  · rw [if_pos rfl]
    exact entries_without_self honce
  · exact fun m hm => entries_without_of_ne hm
  · intro g' hg'
    by_cases heq : g' = g
    · exact Or.inl (congrArg some heq.symm)
    · rcases h.held g' hg' with hpin' | ⟨d, hd, hd'⟩
      · rcases hpin with hpin | hpin
        · rw [hpin] at hpin'
          cases hpin'
        · rw [hpin, Option.some.injEq] at hpin'
          exact absurd hpin'.symm heq
      · have hne : d ≠ c := by
          rintro rfl
          exact heq (Option.some.inj (hd'.symm.trans hguild))
        exact Or.inr ⟨d, hd, Or.inl ⟨hne, hd'⟩⟩

/-- A member that is not in memory leaves. -/
theorem sound_unloaded (h : w.Sound pin) (hlive : w.guild g = some guild)
    (hunloaded : ∀ c ∈ w.loaded, (w.character c).name ≠ n)
    (hmember : ∀ s, w.row n = some s → s.tag = guild.id.tag) :
    Sound pin { w.setGuild g (Guild.without guild n) with row := update w.row n none } := by
  have hrow : update w.row n none n = none := update_self n none w.row
  have hcolumns : columns { w.setGuild g (Guild.without guild n) with
      row := update w.row n none } n = none := by
    refine (columns_of_unloaded ?_).trans hrow
    exact hunloaded
  have hf : FramedOthers n w { w.setGuild g (Guild.without guild n) with
      row := update w.row n none } :=
    ⟨⟨rfl, rfl, rfl, rfl, rfl, rfl, rfl, fun _ => rfl⟩, fun _ _ => rfl, fun _ _ => rfl,
      fun m hm => update_of_ne hm _ _⟩
  apply h.alter hf hlive (show (Guild.without guild n).id = guild.id from rfl) rfl
  · exact fun c hc hname => absurd hname (hunloaded c hc)
  · exact Or.inr hrow
  · exact fun c hc _ hname => absurd hname (hunloaded c hc)
  · rw [columns_of_unloaded hunloaded]
    exact hmember
  · rw [hcolumns]
    exact fun _ heq => nomatch heq
  · rw [hcolumns]
    apply entries_without_self
    rw [h.entries g guild hlive]
    exact length_listed_le _ _ _
  · exact fun m hm => entries_without_of_ne hm
  · exact h.held

/-- A member leaves, whether it is online, only in memory or neither. -/
theorem sound_delMember (h : w.Sound pin) (hpin : pin = none ∨ pin = some g)
    (hlive : w.guild g = some guild) {kicked : List Char} {rank : ℕ}
    (hmember : w.columns (RealName.of kicked) = some ⟨guild.id.tag, rank⟩) :
    (w.delMember pin g kicked).Sound pin ∧ (pin = some g →
      (w.delMember pin g kicked).guild g = some (Guild.without guild (RealName.of kicked))) := by
  by_cases hloaded : ∃ c ∈ w.loaded, (w.character c).name = RealName.of kicked
  · obtain ⟨c, hc, hname⟩ := hloaded
    rw [← hname, h.columns_of_loaded hc] at hmember
    have hguild := (h.guild_of_rankOf hlive hmember).1
    rw [delMember_of_loaded h hc hguild hlive pin hname.symm, ← hname]
    have hsettled := sound_settle_none h hpin hc hguild hlive
    rcases hpin with rfl | rfl
    · exact ⟨sound_release hsettled, fun heq => nomatch heq⟩
    · rw [release_of_pin]
      exact ⟨hsettled, fun _ => update_self g _ w.guild⟩
  · have hunloaded : ∀ c ∈ w.loaded, (w.character c).name ≠ RealName.of kicked :=
      fun c hc hname => hloaded ⟨c, hc, hname⟩
    rw [delMember_of_unloaded hlive pin hunloaded]
    rw [columns_of_unloaded hunloaded] at hmember
    refine ⟨sound_unloaded h hlive hunloaded ?_, fun _ => update_self g _ w.guild⟩
    intro s hs
    rw [hmember, Option.some.injEq] at hs
    rw [← hs]

/-- Who is in the list of a guild has its tag in the columns. -/
theorem Sound.columns_of_mem (h : w.Sound pin) (hlive : w.guild g = some guild) {m : GuildMember}
    (hm : m ∈ guild.members) : w.columns m.name = some ⟨guild.id.tag, m.rank⟩ := by
  have hin := mem_entries.mpr ⟨hm, rfl⟩
  rw [h.entries g guild hlive] at hin
  exact (mem_listed.mp hin).2

theorem RealName.of_val (n : RealName) : RealName.of n.1 = n := Subtype.ext n.2

/-- One member after the other leaves, with a pointer to the guild being kept. -/
theorem sound_disband (h : w.Sound none) : (w.disband g).Sound none := by
  unfold disband
  cases hlive : w.guild g with
  | none => exact h
  | some guild =>
      apply sound_release
      have hall : ∀ (members : List GuildMember) (v : GuildWorld) (guild : Guild),
          v.Sound (some g) → v.guild g = some guild → guild.members = members →
          (members.foldl (fun w m => w.delMember (some g) g m.name.1) v).Sound (some g) := by
        intro members
        induction members with
        | nil => exact fun v _ hv _ _ => hv
        | cons m rest ih =>
            intro v guild hv hlive hmembers
            have hmember := hv.columns_of_mem hlive (hmembers ▸ List.mem_cons_self)
            rw [← RealName.of_val m.name] at hmember
            obtain ⟨hnext, hguild⟩ := sound_delMember hv (Or.inr rfl) hlive hmember
            apply ih _ _ hnext (hguild rfl)
            unfold Guild.without
            rw [hmembers, RealName.of_val]
            rw [List.eraseP_cons_of_pos]
            exact decide_eq_true rfl
      exact hall guild.members w guild (h.pinned _) hlive rfl

/-! ## Changes that touch no membership -/

/-- The pointers, the ranks and the rows are the same. -/
structure Same (w w' : GuildWorld) : Prop where
  names : w'.names = w.names
  row : w'.row = w.row
  stored : w'.stored = w.stored
  loaded : w'.loaded = w.loaded
  characters : w'.characters = w.characters
  guild : w'.guild = w.guild
  cache : w'.cache = w.cache
  nextCharacter : w'.nextCharacter = w.nextCharacter
  nextGuild : w'.nextGuild = w.nextGuild
  name : ∀ c, (w'.character c).name = (w.character c).name
  pointer : ∀ c, (w'.character c).guild = (w.character c).guild
  rank : ∀ c, (w'.character c).rank = (w.character c).rank

theorem Same.refl (w : GuildWorld) : Same w w :=
  ⟨rfl, rfl, rfl, rfl, rfl, rfl, rfl, rfl, rfl, fun _ => rfl, fun _ => rfl, fun _ => rfl⟩

theorem Same.trans {w'' : GuildWorld} (h : Same w w') (h' : Same w' w'') : Same w w'' where
  names := h'.names.trans h.names
  row := h'.row.trans h.row
  stored := h'.stored.trans h.stored
  loaded := h'.loaded.trans h.loaded
  characters := h'.characters.trans h.characters
  guild := h'.guild.trans h.guild
  cache := h'.cache.trans h.cache
  nextCharacter := h'.nextCharacter.trans h.nextCharacter
  nextGuild := h'.nextGuild.trans h.nextGuild
  name c := (h'.name c).trans (h.name c)
  pointer c := (h'.pointer c).trans (h.pointer c)
  rank c := (h'.rank c).trans (h.rank c)

theorem Same.rankOf (hs : Same w w') (c : ℕ) : w'.rankOf c = w.rankOf c := by
  unfold GuildWorld.rankOf
  rw [hs.pointer, hs.rank, hs.guild]

theorem Same.columns (hs : Same w w') (n : RealName) : w'.columns n = w.columns n := by
  unfold GuildWorld.columns
  rw [hs.loaded, hs.row]
  simp only [hs.name, hs.rankOf]

theorem Same.sound (hs : Same w w') (h : w.Sound pin) : w'.Sound pin where
  nodup := by
    rw [hs.loaded]
    exact h.nodup
  distinct := by
    simp only [hs.loaded, hs.name]
    exact h.distinct
  known := by
    simp only [hs.loaded, hs.name, hs.names]
    exact h.known
  online := by
    rw [hs.loaded, hs.characters]
    exact h.online
  freshCharacter := by
    rw [hs.loaded, hs.nextCharacter]
    exact h.freshCharacter
  freshGuild := by
    rw [hs.nextGuild, hs.guild]
    exact h.freshGuild
  pointed := by
    simp only [hs.loaded, hs.pointer, hs.guild]
    exact h.pointed
  held := by
    simp only [Held, hs.loaded, hs.pointer, hs.guild]
    exact h.held
  unique := by
    rw [hs.stored]
    exact h.unique
  kept := by
    rw [hs.stored, hs.guild]
    exact h.kept
  cached := by
    rw [hs.cache, hs.guild]
    exact h.cached
  cache_live := by
    rw [hs.cache, hs.guild]
    exact h.cache_live
  ranks := by
    simp only [hs.loaded, hs.rank]
    exact h.ranks
  rows := by
    rw [hs.row, hs.names, hs.stored]
    exact h.rows
  synced := by
    simp only [hs.loaded, hs.characters, hs.row, hs.name, hs.rankOf]
    exact h.synced
  entries := by
    simp only [hs.guild, hs.columns]
    exact h.entries

theorem same_setCharacter (w : GuildWorld) (c : ℕ) {f : GuildCharacter → GuildCharacter}
    (hname : ∀ x, (f x).name = x.name) (hguild : ∀ x, (f x).guild = x.guild)
    (hrank : ∀ x, (f x).rank = x.rank) : Same w (w.setCharacter c f) := by
  have hcharacter : ∀ d, (w.setCharacter c f).character d = w.character d ∨
      (w.setCharacter c f).character d = f (w.character d) := by
    intro d
    unfold setCharacter
    dsimp only
    by_cases hd : d = c
    · rw [hd, update_self]
      exact Or.inr rfl
    · rw [update_of_ne hd]
      exact Or.inl rfl
  refine ⟨rfl, rfl, rfl, rfl, rfl, rfl, rfl, rfl, rfl, ?_, ?_, ?_⟩
  · intro d
    rcases hcharacter d with heq | heq <;> rw [heq]
    exact hname _
  · intro d
    rcases hcharacter d with heq | heq <;> rw [heq]
    exact hguild _
  · intro d
    rcases hcharacter d with heq | heq <;> rw [heq]
    exact hrank _

theorem same_deleteCreate (w : GuildWorld) (k : ℕ) : Same w (w.deleteCreate k) := by
  unfold deleteCreate
  cases w.creating k with
  | none => exact Same.refl w
  | some create =>
      exact ⟨rfl, rfl, rfl, rfl, rfl, rfl, rfl, rfl, rfl, fun _ => rfl, fun _ => rfl, fun _ => rfl⟩

theorem same_setCreate (w : GuildWorld) (c : ℕ) (k : Option ℕ) : Same w (w.setCreate c k) := by
  have hset := same_setCharacter w c (f := ({ · with create := k })) (fun _ => rfl) (fun _ => rfl)
    (fun _ => rfl)
  unfold setCreate
  cases (w.character c).create with
  | none => exact hset
  | some old => exact hset.trans (same_deleteCreate _ old)

/-- The rows of `guilds` may be others that have the same guilds in them. -/
theorem Sound.of_stored (h : w.Sound pin) (stored : List StoredGuild) {next : ℕ}
    (hnext : w.nextGuild ≤ next)
    (hunique : ∀ s ∈ stored, ∀ s' ∈ stored,
      s.id.tag = s'.id.tag ∨ s.id.name = s'.id.name → s.id = s'.id)
    (hkept : ∀ g guild, w.guild g = some guild → ∃ s ∈ stored, s.id = guild.id)
    (hrows : ∀ n s, w.row n = some s → ∃ x ∈ stored, x.id.tag = s.tag) :
    Sound pin { w with stored := stored, nextGuild := next } := by
  refine ⟨h.nodup, h.distinct, h.known, h.online, h.freshCharacter, ?_, h.pointed, h.held, hunique,
    hkept, h.cached, h.cache_live, h.ranks, ?_, h.synced, h.entries⟩
  · intro g hg
    exact h.freshGuild g (hnext.trans hg)
  · intro n s hs
    obtain ⟨hn, hrank, -⟩ := h.rows n s hs
    exact ⟨hn, hrank, hrows n s hs⟩

/-- The bank of a guild. -/
theorem sound_setBank (h : w.Sound pin) (hlive : w.guild g = some guild) (bank : ℤ) :
    (w.setGuild g { guild with bank := bank }).Sound pin := by
  have hsame : SameIds w (w.setGuild g { guild with bank := bank }) :=
    sameIds_of_update hlive rfl rfl
  have hmembers : ∀ g' guild', (w.setGuild g { guild with bank := bank }).guild g' = some guild' →
      ∃ guild'', w.guild g' = some guild'' ∧ guild'.id = guild''.id ∧
        guild'.members = guild''.members := by
    intro g' guild' hg'
    unfold setGuild at hg'
    dsimp only at hg'
    by_cases heq : g' = g
    · rw [heq] at hg' ⊢
      rw [update_self, Option.some.injEq] at hg'
      exact ⟨guild, hlive, hg' ▸ rfl, hg' ▸ rfl⟩
    · rw [update_of_ne heq] at hg'
      exact ⟨guild', hg', rfl, rfl⟩
  have hrankOf : ∀ c, (w.setGuild g { guild with bank := bank }).rankOf c = w.rankOf c :=
    fun c => hsame.rankOf rfl rfl
  have hcolumns : ∀ n, (w.setGuild g { guild with bank := bank }).columns n = w.columns n := by
    intro n
    unfold columns
    simp only [hrankOf]
    rfl
  refine ⟨h.nodup, h.distinct, h.known, h.online, h.freshCharacter,
    fun g' hg' => hsame.freshGuild h hg', ?_, ?_, h.unique, fun g' guild' hg' => hsame.kept h hg',
    fun g' guild' hg' => hsame.cached h hg', fun key g' hkey => hsame.cache_live h hkey, h.ranks,
    h.rows, ?_, ?_⟩
  · intro c hc g' hg'
    exact hsame.ne_none_iff.mpr (h.pointed c hc g' hg')
  · intro g' hg'
    exact h.held g' (hsame.ne_none_iff.mp hg')
  · intro c hc hoff
    rw [hrankOf]
    exact h.synced c hc hoff
  · intro g' guild' hg' n
    obtain ⟨guild'', hg'', hid, hmembers'⟩ := hmembers g' guild' hg'
    have hentries : guild'.entries n = guild''.entries n := by
      unfold Guild.entries
      rw [hmembers']
    rw [hentries, h.entries g' guild'' hg'' n, hcolumns, hid]

/-! ## Reading a guild -/

/-- What is read of a character is what its row says. -/
theorem entries_readMembers (h : w.Sound pin) (tag : List Char) (n : RealName) :
    (w.readMembers tag).filter (·.name = n) = listed tag n (w.row n) := by
  have hf : ∀ (k : RealName) m, ((w.row k).bind fun s =>
      if s.tag = tag then some (GuildMember.of k s.rank) else none) = some m → m.name = k := by
    intro k m hm
    obtain ⟨s, -, hs⟩ := Option.bind_eq_some_iff.mp hm
    split_ifs at hs with htag
    rw [← Option.some.inj hs]
    rfl
  have hread : (w.names.filterMap fun k => (w.row k).bind fun s =>
      if s.tag = tag then some (GuildMember.of k s.rank) else none).filter (·.name = n) =
        listed tag n (w.row n) := by
    rw [FirstMatch.filter_filterMap_key hf w.nodup n]
    cases hrow : w.row n with
    | none =>
        split_ifs <;> rfl
    | some s =>
        obtain ⟨hn, hrank, -⟩ := h.rows n s hrow
        rw [if_pos hn, Option.bind_some]
        unfold GuildMember.of
        rw [Nat.min_eq_right hrank]
        by_cases htag : s.tag = tag
        · rw [if_pos htag]
          exact (if_pos htag).symm
        · rw [if_neg htag]
          exact (if_neg htag).symm
  have hperm := (List.perm_insertionSort (fun a b : GuildMember =>
    a.rank < b.rank ∨ a.rank = b.rank ∧ a.name.1 ≤ b.name.1) (w.names.filterMap fun k =>
      (w.row k).bind fun s =>
        if s.tag = tag then some (GuildMember.of k s.rank) else none)).filter (·.name = n)
  rw [hread] at hperm
  -- there is one entry at most, so its place does not matter
  rcases hlist : listed tag n (w.row n) with _ | ⟨m, _ | ⟨m', rest⟩⟩
  · rw [hlist] at hperm
    exact hperm.eq_nil
  · rw [hlist] at hperm
    exact List.perm_singleton.mp hperm
  · have hle := length_listed_le tag n (w.row n)
    rw [hlist, List.length_cons, List.length_cons] at hle
    omega

theorem Sound.not_held_next (h : w.Sound pin) : ¬w.Held w.nextGuild := by
  rintro ⟨c, hc, hguild⟩
  exact h.pointed c hc _ hguild (h.freshGuild _ (le_refl _))

/-- A guild is in memory when its tag or its name is in the cache. -/
theorem Sound.id_ne (h : w.Sound pin) {s : StoredGuild} (hs : s ∈ w.stored)
    (hkey : w.cache s.id.tag = none ∨ w.cache s.id.name = none) (hlive : w.guild g = some guild) :
    guild.id.tag ≠ s.id.tag ∧ guild.id.name ≠ s.id.name := by
  obtain ⟨y, hy, hid⟩ := h.kept g guild hlive
  have hcached := h.cached g guild hlive
  have hne : guild.id ≠ s.id := by
    intro heq
    rw [heq] at hcached
    rcases hkey with hkey | hkey
    · rw [hkey] at hcached
      cases hcached.1
    · rw [hkey] at hcached
      cases hcached.2
  constructor
  · intro htag
    exact hne (hid.symm.trans (h.unique y hy s hs (Or.inl (hid ▸ htag))))
  · intro hname
    exact hne (hid.symm.trans (h.unique y hy s hs (Or.inr (hid ▸ hname))))

theorem Sound.cache_eq_none (h : w.Sound pin) {s : StoredGuild} (hs : s ∈ w.stored)
    (hkey : w.cache s.id.tag = none ∨ w.cache s.id.name = none) :
    w.cache s.id.tag = none ∧ w.cache s.id.name = none := by
  constructor
  · by_contra hne
    obtain ⟨g, hg⟩ := Option.ne_none_iff_exists'.mp hne
    obtain ⟨guild, hlive, htag | hname⟩ := h.cache_live _ g hg
    · exact (h.id_ne hs hkey hlive).1 htag.symm
    · exact tag_ne_name _ _ hname
  · by_contra hne
    obtain ⟨g, hg⟩ := Option.ne_none_iff_exists'.mp hne
    obtain ⟨guild, hlive, htag | hname⟩ := h.cache_live _ g hg
    · exact tag_ne_name _ _ htag.symm
    · exact (h.id_ne hs hkey hlive).2 hname.symm

/-- A guild is read that no character in memory has in its row. -/
theorem sound_readGuild (h : w.Sound none) {s : StoredGuild} (hs : s ∈ w.stored)
    (hkey : w.cache s.id.tag = none ∨ w.cache s.id.name = none)
    (hstale : ∀ c ∈ w.loaded, ∀ x, w.row (w.character c).name = some x → x.tag ≠ s.id.tag) :
    (w.readGuild s).2.Sound (some w.nextGuild) := by
  have hcases : ∀ g guild, (w.readGuild s).2.guild g = some guild →
      g = w.nextGuild ∧ guild = ⟨s.id, w.readMembers s.id.tag, s.bank⟩ ∨
        g ≠ w.nextGuild ∧ w.guild g = some guild := by
    intro g guild hg
    unfold readGuild at hg
    dsimp only at hg
    by_cases heq : g = w.nextGuild
    · rw [heq, update_self, Option.some.injEq] at hg
      exact Or.inl ⟨heq, hg.symm⟩
    · rw [update_of_ne heq] at hg
      exact Or.inr ⟨heq, hg⟩
  have hold : ∀ g guild, w.guild g = some guild → (w.readGuild s).2.guild g = some guild := by
    intro g guild hg
    have hne : g ≠ w.nextGuild := by
      rintro rfl
      rw [h.freshGuild _ (le_refl _)] at hg
      cases hg
    exact (update_of_ne hne _ _).trans hg
  have hself : (w.readGuild s).2.guild w.nextGuild =
      some ⟨s.id, w.readMembers s.id.tag, s.bank⟩ := update_self _ _ w.guild
  have hrankOf : ∀ c ∈ w.loaded, (w.readGuild s).2.rankOf c = w.rankOf c := by
    intro c hc
    cases hguild : (w.character c).guild with
    | none =>
        exact (rankOf_of_none (w := (w.readGuild s).2) hguild).trans (rankOf_of_none hguild).symm
    | some g =>
        obtain ⟨guild, hg⟩ := Option.ne_none_iff_exists'.mp (h.pointed c hc g hguild)
        exact (rankOf_of_guild (w := (w.readGuild s).2) hguild (hold g guild hg)).trans
          (rankOf_of_guild hguild hg).symm
  have hcolumns : ∀ n, (w.readGuild s).2.columns n = w.columns n := by
    intro n
    unfold columns
    have hsame : ((w.readGuild s).2.loaded.find? fun c =>
        ((w.readGuild s).2.character c).name = n) =
          w.loaded.find? fun c => (w.character c).name = n := rfl
    rw [hsame]
    cases hfind : w.loaded.find? fun c => (w.character c).name = n with
    | none => rfl
    | some c => exact hrankOf c (List.mem_of_find?_eq_some hfind)
  have hcache : ∀ key, (w.readGuild s).2.cache key =
      if key = s.id.name then some w.nextGuild
      else if key = s.id.tag then some w.nextGuild else w.cache key := by
    intro key
    unfold readGuild
    dsimp only
    by_cases hname : key = s.id.name
    · rw [if_pos hname, hname, update_self]
    · rw [if_neg hname, update_of_ne hname]
      by_cases htag : key = s.id.tag
      · rw [if_pos htag, htag, update_self]
      · rw [if_neg htag, update_of_ne htag]
  refine ⟨h.nodup, h.distinct, h.known, h.online, h.freshCharacter, ?_, ?_, ?_, h.unique, ?_, ?_,
    ?_, h.ranks, h.rows, ?_, ?_⟩
  · intro g hg
    have hlt : w.nextGuild + 1 ≤ g := hg
    exact (update_of_ne (by omega) _ _).trans (h.freshGuild g (by omega))
  · intro c hc g hguild
    obtain ⟨guild, hg⟩ := Option.ne_none_iff_exists'.mp (h.pointed c hc g hguild)
    rw [hold g guild hg]
    exact fun heq => nomatch heq
  · intro g hg
    obtain ⟨guild, hguild⟩ := Option.ne_none_iff_exists'.mp hg
    rcases hcases g guild hguild with ⟨rfl, -⟩ | ⟨-, hguild⟩
    · exact Or.inl rfl
    · rcases h.held g (by rw [hguild]; exact fun heq => nomatch heq) with hpin | hheld
      · cases hpin
      · exact Or.inr hheld
  · intro g guild hg
    rcases hcases g guild hg with ⟨-, rfl⟩ | ⟨-, hg⟩
    · exact ⟨s, hs, rfl⟩
    · exact h.kept g guild hg
  · intro g guild hg
    rw [hcache, hcache]
    rcases hcases g guild hg with ⟨rfl, rfl⟩ | ⟨-, hg⟩
    · exact ⟨by rw [if_neg (tag_ne_name _ _), if_pos rfl], if_pos rfl⟩
    · obtain ⟨htag, hname⟩ := h.id_ne hs hkey hg
      rw [if_neg (tag_ne_name _ _), if_neg htag, if_neg hname, if_neg (tag_ne_name _ _).symm]
      exact h.cached g guild hg
  · intro key g hg
    rw [hcache] at hg
    split_ifs at hg with hname htag
    · exact ⟨_, Option.some.inj hg ▸ hself, Or.inr hname⟩
    · exact ⟨_, Option.some.inj hg ▸ hself, Or.inl htag⟩
    · obtain ⟨guild, hlive, hkeys⟩ := h.cache_live key g hg
      exact ⟨guild, hold g guild hlive, hkeys⟩
  · intro c hc hoff
    rw [hrankOf c hc]
    exact h.synced c hc hoff
  · intro g guild hg n
    rw [hcolumns]
    rcases hcases g guild hg with ⟨-, rfl⟩ | ⟨-, hg⟩
    · refine (entries_readMembers h s.id.tag n).trans ?_
      dsimp only
      by_cases hloaded : ∃ c ∈ w.loaded, (w.character c).name = n
      · obtain ⟨c, hc, rfl⟩ := hloaded
        have hrow : listed s.id.tag (w.character c).name (w.row (w.character c).name) = [] := by
          apply List.eq_nil_iff_forall_not_mem.mpr
          intro m hm
          exact hstale c hc _ (mem_listed.mp hm).2 rfl
        rw [hrow, h.columns_of_loaded hc]
        apply (List.eq_nil_iff_forall_not_mem.mpr _).symm
        intro m hm
        obtain ⟨guild, hguild, heq⟩ := Option.map_eq_some_iff.mp (mem_listed.mp hm).2
        obtain ⟨g', -, hlive⟩ := Option.bind_eq_some_iff.mp hguild
        injection heq with htag
        exact (h.id_ne hs hkey hlive).1 htag
      · rw [columns_of_unloaded fun c hc hname => hloaded ⟨c, hc, hname⟩]
    · exact h.entries g guild hg n

/-- A guild that is read only to see that it is there, and given up at once. -/
theorem sound_readGuild_release (h : w.Sound none) {s : StoredGuild} (hs : s ∈ w.stored)
    (hkey : w.cache s.id.tag = none ∨ w.cache s.id.name = none) :
    ((w.readGuild s).2.release none w.nextGuild).Sound none := by
  have hnot : ¬(none = some w.nextGuild ∨ (w.readGuild s).2.Held w.nextGuild) := by
    rintro (heq | hheld)
    · cases heq
    · exact h.not_held_next hheld
  have hguild : update (w.readGuild s).2.guild w.nextGuild none = w.guild := by
    unfold readGuild
    dsimp only
    rw [update_idem, ← h.freshGuild w.nextGuild (le_refl _), update_eq_self]
  have hcache : (fun key => if key = s.id.tag ∨ key = s.id.name then none
      else (w.readGuild s).2.cache key) = w.cache := by
    obtain ⟨htag, hname⟩ := h.cache_eq_none hs hkey
    funext key
    unfold readGuild
    dsimp only
    by_cases hown : key = s.id.tag ∨ key = s.id.name
    · rw [if_pos hown]
      rcases hown with rfl | rfl
      · exact htag.symm
      · exact hname.symm
    · obtain ⟨hne, hne'⟩ := not_or.mp hown
      rw [if_neg hown, update_of_ne hne', update_of_ne hne]
  have hself : (w.readGuild s).2.guild w.nextGuild =
      some ⟨s.id, w.readMembers s.id.tag, s.bank⟩ := update_self _ _ w.guild
  have hkept : ∀ g guild, w.guild g = some guild →
      ∃ y ∈ w.stored, y.id = guild.id ∧ y.id.tag ≠ s.id.tag := by
    intro g guild hg
    obtain ⟨y, hy, hid⟩ := h.kept g guild hg
    exact ⟨y, hy, hid, hid ▸ (h.id_ne hs hkey hg).1⟩
  unfold release
  rw [if_neg hnot]
  unfold deleteGuild
  rw [hself]
  dsimp only
  by_cases hempty : w.readMembers s.id.tag = []
  · have hno : ∀ n x, w.row n = some x → x.tag ≠ s.id.tag := by
      rintro n ⟨tag, rank⟩ hx rfl
      have hin : (⟨n, rank⟩ : GuildMember) ∈ (w.readMembers s.id.tag).filter (·.name = n) := by
        rw [entries_readMembers h, hx]
        exact mem_listed.mpr ⟨rfl, rfl⟩
      rw [hempty] at hin
      cases hin
    have hrow : (fun n => if (w.row n).any (·.tag = s.id.tag) then none else w.row n) = w.row := by
      funext n
      rw [if_neg]
      intro hany
      obtain ⟨x, hx, htag⟩ := Option.any_eq_true _ _ |>.mp hany
      exact hno n x hx (of_decide_eq_true htag)
    have hforgotten : Sound none { w with
        stored := w.stored.filter (·.id.tag ≠ s.id.tag), nextGuild := w.nextGuild + 1 } := by
      apply h.of_stored _ (Nat.le_succ _)
      · intro y hy y' hy'
        exact h.unique y (List.mem_of_mem_filter hy) y' (List.mem_of_mem_filter hy')
      · intro g guild hg
        obtain ⟨y, hy, hid, hne⟩ := hkept g guild hg
        exact ⟨y, List.mem_filter.mpr ⟨hy, decide_eq_true hne⟩, hid⟩
      · intro n x hx
        obtain ⟨y, hy, htag⟩ := (h.rows n x hx).2.2
        have hne := hno n x hx
        rw [← htag] at hne
        exact ⟨y, List.mem_filter.mpr ⟨hy, decide_eq_true hne⟩, htag⟩
    simp only [if_pos hempty, hguild, hcache]
    apply Same.sound _ hforgotten
    exact ⟨rfl, hrow, rfl, rfl, rfl, rfl, rfl, rfl, rfl, fun _ => rfl, fun _ => rfl, fun _ => rfl⟩
  · have hid : ∀ y : StoredGuild,
        (if y.id.tag = s.id.tag then { y with bank := s.bank } else y).id = y.id := by
      intro y
      split_ifs <;> rfl
    have hforgotten : Sound none { w with
        stored := w.stored.map fun y : StoredGuild =>
          if y.id.tag = s.id.tag then { y with bank := s.bank } else y
        nextGuild := w.nextGuild + 1 } := by
      apply h.of_stored _ (Nat.le_succ _)
      · intro x hx x' hx' heq
        obtain ⟨y, hy, rfl⟩ := List.mem_map.mp hx
        obtain ⟨y', hy', rfl⟩ := List.mem_map.mp hx'
        rw [hid, hid] at heq ⊢
        exact h.unique y hy y' hy' heq
      · intro g guild hg
        obtain ⟨y, hy, hid', -⟩ := hkept g guild hg
        exact ⟨_, List.mem_map_of_mem hy, (hid y).trans hid'⟩
      · intro n x hx
        obtain ⟨y, hy, htag⟩ := (h.rows n x hx).2.2
        exact ⟨_, List.mem_map_of_mem hy, (congrArg GuildId.tag (hid y)).trans htag⟩
    simp only [if_neg hempty, hguild, hcache]
    apply Same.sound _ hforgotten
    exact ⟨rfl, rfl, rfl, rfl, rfl, rfl, rfl, rfl, rfl, fun _ => rfl, fun _ => rfl, fun _ => rfl⟩

theorem findGuild_cases {key : List Char} {p : StoredGuild → Bool}
    (h : w.findGuild key p = some (g, w')) :
    w.cache key = some g ∧ w' = w ∨
      w.cache key = none ∧ ∃ s ∈ w.stored, p s = true ∧ (g, w') = w.readGuild s := by
  unfold findGuild at h
  cases hcache : w.cache key with
  | some g' =>
      rw [hcache] at h
      cases h
      exact Or.inl ⟨rfl, rfl⟩
  | none =>
      rw [hcache] at h
      obtain ⟨s, hs, heq⟩ := Option.map_eq_some_iff.mp h
      exact Or.inr ⟨rfl, s, List.mem_of_find?_eq_some hs, List.find?_some hs, heq.symm⟩

/-- To look for a guild changes nothing that matters. -/
theorem sound_findGuild_release (h : w.Sound none) {key : List Char} {p : StoredGuild → Bool}
    (hp : ∀ s, p s = true → s.id.tag = key ∨ s.id.name = key)
    (hfind : w.findGuild key p = some (g, w')) : (w'.release none g).Sound none := by
  rcases findGuild_cases hfind with ⟨-, rfl⟩ | ⟨hkey, s, hs, hps, heq⟩
  · exact sound_release (h.pinned _)
  · cases heq
    apply sound_readGuild_release h hs
    rcases hp s hps with htag | hname
    · exact Or.inl (htag ▸ hkey)
    · exact Or.inr (hname ▸ hkey)

end GuildWorld

end ArenaServ
