import ArenaServ.GuildCoherence

/-!
# Runs of calls on guilds

Every call of `GuildManager` and `Guild` keeps what holds in every run, and it keeps one object for
each guild if and only if it does not read a guild that is in memory. Where texts are compared and
given back byte by byte no call does that. A database that fills the tag up or that takes different
texts for the same makes the second of two readers read a second object.
-/

namespace ArenaServ.GuildServer
open Function RunSteps

variable {db : TextColumns} {s s' t : GuildServer} {g : ℕ} {guild : Guild}

/-! ## Calls -/

theorem map_eq_ok {α β : Type} {f : α → β} {x : Except GuildFailure α} {b : β}
    (h : x.map f = .ok b) : ∃ a, x = .ok a ∧ f a = b := by
  cases x with
  | error e => cases h
  | ok a => exact ⟨a, rfl, Except.ok.inj h⟩

/-- A call that is possible has happened. -/
theorem ok_of_ite {α : Type} {p : Prop} [Decidable p] {x : Except GuildFailure α} {b : α}
    (h : (if p then x else .error .impossible) = .ok b) : x = .ok b := by
  split at h
  · exact h
  · cases h

theorem eq_of_through (h : s.through g s' = .ok t) : s' = t := Except.ok.inj (ok_of_ite h)

theorem alike_saveAll {names : List (List Char)} (h : saveAll db names s = .ok s') :
    Alike s s' := by
  induction names generalizing s with
  | nil =>
      rw [← Except.ok.inj h]
      exact ⟨rfl, rfl, rfl⟩
  | cons key rest ih =>
      unfold saveAll at h
      cases hcache : s.cache key with
      | none =>
          rw [hcache] at h
          exact ih h
      | some g =>
          rw [hcache] at h
          dsimp only at h
          cases hlive : s.guild g with
          | none =>
              rw [hlive] at h
              cases h
          | some guild =>
              rw [hlive] at h
              exact (alike_save s guild).trans (ih h)

/-- A call looks for a guild, or makes one, or destroys some. -/
theorem call_cases {a : GuildCall} (h : s.call db a = .ok s') :
    (∃ key p tag found, s.findGuild db key p tag = .ok found ∧ found.2 = s' ∧
      (s.Kept db → s.Picks p) ∧ (s.Spelled db a ↔ s.Unread key p)) ∨
    (∃ create, s.createGuild db create = .ok s' ∧ s.Spelled db a) ∨
    Shrinks db s s' ∧ s.Spelled db a := by
  cases a with
  | getGuild tag =>
      obtain ⟨found, hfound, heq⟩ := map_eq_ok h
      unfold getGuild at hfound
      exact Or.inl ⟨_, _, _, found, hfound, heq, fun hk => hk.picks_tag _, Iff.rfl⟩
  | getGuildName name =>
      obtain ⟨found, hfound, heq⟩ := map_eq_ok h
      unfold getGuildName at hfound
      exact Or.inl ⟨_, _, _, found, hfound, heq, fun hk => hk.picks_name _, Iff.rfl⟩
  | createGuild create => exact Or.inr (Or.inl ⟨create, h, trivial⟩)
  | addMember g joined rank =>
      rw [← eq_of_through (ok_of_ite h)]
      exact Or.inr (Or.inr ⟨shrinks_addMember s g joined rank, trivial⟩)
  | delMember g clients kicked =>
      rw [← eq_of_through h]
      exact Or.inr (Or.inr ⟨shrinks_delMember db s g clients kicked, trivial⟩)
  | setMemberRank g clients name rank =>
      rw [← eq_of_through h]
      exact Or.inr (Or.inr ⟨.alike (alike_setMemberRank s g clients name rank), trivial⟩)
  | disband g clients =>
      rw [← eq_of_through h]
      exact Or.inr (Or.inr ⟨shrinks_disband s g clients, trivial⟩)
  | setBank g bank =>
      rw [← eq_of_through h]
      exact Or.inr (Or.inr ⟨.alike (alike_setBank s g bank), trivial⟩)
  | saveAll names => exact Or.inr (Or.inr ⟨.alike (alike_saveAll h), trivial⟩)
  | drop g =>
      rw [← Except.ok.inj (ok_of_ite h)]
      exact Or.inr (Or.inr ⟨shrinks_drop s g, trivial⟩)
  | load name playerId =>
      rw [← Except.ok.inj h]
      exact Or.inr (Or.inr ⟨.alike ⟨rfl, rfl, rfl⟩, trivial⟩)
  | enter c =>
      rw [← Except.ok.inj (ok_of_ite h)]
      exact Or.inr (Or.inr ⟨.alike ⟨rfl, rfl, rfl⟩, trivial⟩)
  | assign c g rank =>
      rw [← eq_of_through (ok_of_ite h)]
      exact Or.inr (Or.inr ⟨shrinks_assign s c (some g) rank, trivial⟩)
  | unload c =>
      rw [← Except.ok.inj (ok_of_ite h)]
      exact Or.inr (Or.inr ⟨shrinks_unload s c, trivial⟩)
  | write row =>
      rw [← Except.ok.inj h]
      exact Or.inr (Or.inr ⟨.alike ⟨rfl, rfl, rfl⟩, trivial⟩)

theorem cached_call (hc : s.Cached) {a : GuildCall} (h : s.call db a = .ok s') : s'.Cached := by
  rcases call_cases h with ⟨key, p, tag, found, hfound, rfl, -⟩ | ⟨create, hcreate, -⟩ |
    ⟨hshrinks, -⟩
  · exact cached_findGuild hc hfound
  · exact cached_createGuild hc hcreate
  · exact hshrinks.cached hc

theorem kept_call (hc : s.Cached) (hk : s.Kept db) {a : GuildCall} (h : s.call db a = .ok s')
    (hspelled : s.Spelled db a) : s'.Kept db := by
  rcases call_cases h with ⟨key, p, tag, found, hfound, rfl, -, hiff⟩ | ⟨create, hcreate, -⟩ |
    ⟨hshrinks, -⟩
  · exact kept_findGuild hc hk hfound (hiff.mp hspelled)
  · exact kept_createGuild hc hk hcreate
  · exact hshrinks.kept hk

theorem spelled_of_faithful (hc : s.Cached) (hk : s.Kept db) {a : GuildCall}
    (h : s.call db a = .ok s') (hfaithful : s'.objects.Faithful keys) : s.Spelled db a := by
  rcases call_cases h with ⟨key, p, tag, found, hfound, rfl, hpicks, hiff⟩ | ⟨create, -, hspelled⟩ |
    ⟨-, hspelled⟩
  · exact hiff.mpr (unread_of_faithful hc hk (hpicks hk) hfound hfaithful)
  · exact hspelled
  · exact hspelled

/-! ## No pointer has expired -/

theorem findGuild_eq_ok (db : TextColumns) (hc : s.Cached) (key : List Char) (p : GuildId → Bool)
    (tag : GuildId → List Char) : ∃ found, s.findGuild db key p tag = .ok found := by
  unfold findGuild
  cases hcache : s.cache key with
  | none => exact ⟨_, rfl⟩
  | some g =>
      dsimp only
      unfold lock
      rw [if_neg (hc.live hcache)]
      exact ⟨_, rfl⟩

theorem getGuild_eq_ok (db : TextColumns) (hc : s.Cached) (tag : List Char) :
    ∃ found, s.getGuild db tag = .ok found := by
  unfold getGuild
  exact findGuild_eq_ok db hc _ _ _

theorem getGuildName_eq_ok (db : TextColumns) (hc : s.Cached) (name : List Char) :
    ∃ found, s.getGuildName db name = .ok found := by
  unfold getGuildName
  exact findGuild_eq_ok db hc _ _ _

theorem saveAll_eq_ok (db : TextColumns) (hc : s.Cached) (names : List (List Char)) :
    ∃ s', saveAll db names s = .ok s' := by
  induction names generalizing s with
  | nil => exact ⟨s, rfl⟩
  | cons key rest ih =>
      unfold saveAll
      cases hcache : s.cache key with
      | none => exact ih hc
      | some g =>
          obtain ⟨guild, hlive⟩ := Option.ne_none_iff_exists'.mp (hc.live hcache)
          dsimp only
          rw [hlive, Option.elim_some]
          exact ih ((alike_save s guild).cached hc)

theorem ite_ne_badWeakPtr {α : Type} {p : Prop} [Decidable p] {x : Except GuildFailure α}
    (hx : x ≠ .error .badWeakPtr) :
    (if p then x else .error .impossible) ≠ .error .badWeakPtr := by
  split
  · exact hx
  · intro h
    cases h

theorem ok_ne_badWeakPtr {α : Type} (b : α) : Except.ok b ≠ .error GuildFailure.badWeakPtr := by
  intro h
  cases h

theorem through_ne_badWeakPtr (s : GuildServer) (g : ℕ) (s' : GuildServer) :
    s.through g s' ≠ .error .badWeakPtr := ite_ne_badWeakPtr (ok_ne_badWeakPtr s')

theorem createGuild_ne_badWeakPtr (hc : s.Cached) (create : GuildCreate) :
    s.createGuild db create ≠ .error .badWeakPtr := by
  obtain ⟨found, hfound⟩ := getGuild_eq_ok db (cached_insertGuild db hc create.id) create.id.tag
  unfold createGuild
  rw [hfound]
  split
  · intro h
    cases h
  · intro h
    cases h

/-- No entry of the cache has expired when it is looked up or saved. -/
theorem call_ne_badWeakPtr (hc : s.Cached) (a : GuildCall) :
    s.call db a ≠ .error .badWeakPtr := by
  intro h
  cases a with
  | getGuild tag =>
      obtain ⟨found, hfound⟩ := getGuild_eq_ok db hc tag
      unfold call at h
      dsimp only at h
      rw [hfound] at h
      cases h
  | getGuildName name =>
      obtain ⟨found, hfound⟩ := getGuildName_eq_ok db hc name
      unfold call at h
      dsimp only at h
      rw [hfound] at h
      cases h
  | createGuild create => exact createGuild_ne_badWeakPtr hc create h
  | saveAll names =>
      obtain ⟨s', hs'⟩ := saveAll_eq_ok db hc names
      unfold call at h
      dsimp only at h
      rw [hs'] at h
      cases h
  | delMember g clients kicked => exact through_ne_badWeakPtr s g _ h
  | setMemberRank g clients name rank => exact through_ne_badWeakPtr s g _ h
  | disband g clients => exact through_ne_badWeakPtr s g _ h
  | setBank g bank => exact through_ne_badWeakPtr s g _ h
  | load name playerId => cases h
  | write row => cases h
  | addMember g joined rank => exact ite_ne_badWeakPtr (through_ne_badWeakPtr s g _) h
  | assign c g rank => exact ite_ne_badWeakPtr (through_ne_badWeakPtr s g _) h
  | drop g => exact ite_ne_badWeakPtr (ok_ne_badWeakPtr _) h
  | enter c => exact ite_ne_badWeakPtr (ok_ne_badWeakPtr _) h
  | unload c => exact ite_ne_badWeakPtr (ok_ne_badWeakPtr _) h

/-! ## Runs -/

theorem findGuild_of_cache (hlive : s.guild g = some guild) {key : List Char}
    (hcache : s.cache key = some g) (p : GuildId → Bool) (tag : GuildId → List Char) :
    s.findGuild db key p tag = .ok (some g, { s with refs := g :: s.refs }) := by
  unfold findGuild
  rw [hcache]
  dsimp only
  unfold lock
  rw [if_neg]
  · rfl
  · rw [hlive]
    exact Option.some_ne_none guild

theorem cache_of_findGuild (hc : s.Cached) (hlive : s.guild g = some guild) {key : List Char}
    {p : GuildId → Bool} {tag : GuildId → List Char}
    (h : s.findGuild db key p tag = .ok (some g, t)) : s.cache key = some g := by
  rcases findGuild_cases hc h with ⟨g', hcache, heq⟩ | ⟨-, -, heq⟩ | ⟨x, -, -, heq⟩
  · rw [hcache]
    exact (congrArg Prod.fst heq).symm
  · cases congrArg Prod.fst heq
  · have hnext := Option.some.inj (congrArg Prod.fst heq)
    exact absurd hnext (Nat.ne_of_lt (hc.lt hlive))

/-- What is seen of the guilds is coherent if and only if each object has its two entries. -/
theorem coherent_iff (hc : s.Cached) : s.Coherent db ↔ s.objects.Faithful keys := by
  constructor
  · intro h g i hi key hkey
    obtain ⟨guild, hlive, rfl⟩ := guild_of_object hi
    rcases List.mem_pair.mp hkey with rfl | rfl
    · obtain ⟨t, ht⟩ := h.byTag g guild hlive
      unfold getGuild at ht
      dsimp only at ht
      rw [guild.id.upper] at ht
      exact cache_of_findGuild hc hlive ht
    · obtain ⟨t, ht⟩ := h.byName g guild hlive
      unfold getGuildName at ht
      dsimp only at ht
      rw [guild.id.lower] at ht
      exact cache_of_findGuild hc hlive ht
  · intro h
    refine ⟨?_, ?_, ?_, fun key g hkey => hc.live hkey, call_ne_badWeakPtr hc⟩
    · intro g g' guild guild' hlive hlive' htag
      exact h.eq_of_mem (object_of_guild hlive) (object_of_guild hlive') (tag_mem_keys guild.id)
        (htag ▸ tag_mem_keys guild'.id)
    · intro g guild hlive
      have hcache := h g guild.id (object_of_guild hlive) guild.id.tag (tag_mem_keys guild.id)
      unfold getGuild
      dsimp only
      rw [guild.id.upper, findGuild_of_cache hlive hcache]
      exact ⟨_, rfl⟩
    · intro g guild hlive
      have hcache := h g guild.id (object_of_guild hlive) guild.id.name (name_mem_keys guild.id)
      unfold getGuildName
      dsimp only
      rw [guild.id.lower, findGuild_of_cache hlive hcache]
      exact ⟨_, rfl⟩

theorem cached_start (tables : GuildTables db) : (start db tables).Cached where
  fresh _ _ := rfl
  pointed _ _ h := by cases h

theorem kept_start (tables : GuildTables db) : (start db tables).Kept db where
  faithful _ _ h := by cases h
  unique i hi j hj hsame := by
    obtain ⟨x, hx, rfl⟩ := List.mem_map.mp hi
    obtain ⟨y, hy, rfl⟩ := List.mem_map.mp hj
    exact tables.unique x hx y hy hsame
  kept _ _ h := by cases h

/-- A call that throws or cannot be made has not looked for a guild. -/
theorem spelled_of_none (hc : s.Cached) {a : GuildCall} (h : s.next db a = none) :
    s.Spelled db a := by
  cases a with
  | getGuild tag =>
      obtain ⟨found, hfound⟩ := getGuild_eq_ok db hc tag
      unfold next call at h
      dsimp only at h
      rw [hfound] at h
      cases h
  | getGuildName name =>
      obtain ⟨found, hfound⟩ := getGuildName_eq_ok db hc name
      unfold next call at h
      dsimp only at h
      rw [hfound] at h
      cases h
  | _ => trivial

theorem call_of_next {a : GuildCall} (h : s.next db a = some s') : s.call db a = .ok s' := by
  unfold next at h
  cases hcall : s.call db a with
  | error e =>
      rw [hcall] at h
      cases h
  | ok t =>
      rw [hcall] at h
      exact congrArg Except.ok (Option.some.inj h)

/-- The guilds are coherent in every state of a run, if and only if no call asks for a guild in
memory with a text that is not in the cache. -/
theorem coherent_of_reaches_iff (db : TextColumns) (tables : GuildTables db)
    (calls : List GuildCall) :
    (∀ s, Reaches (next db) (start db tables) calls s → s.Coherent db) ↔
      Every (next db) (Spelled db) (start db tables) calls := by
  have hcached := cached_start tables
  have hkept := kept_start tables
  rw [forall_reaches_iff]
  have hevery : Every (next db) (fun s a => ∀ s' ∈ next db s a, s'.Coherent db)
      (start db tables) calls ↔ Every (next db) (Spelled db) (start db tables) calls := by
    apply every_iff (fun s => s.Cached ∧ s.Kept db) _ _ ⟨hcached, hkept⟩
    · rintro s a ⟨hc, hk⟩
      constructor
      · intro hcoherent
        cases hnext : s.next db a with
        | none => exact spelled_of_none hc hnext
        | some s' =>
            have hcall := call_of_next hnext
            apply spelled_of_faithful hc hk hcall
            exact (coherent_iff (cached_call hc hcall)).mp (hcoherent s' hnext)
      · intro hspelled s' hnext
        have hcall := call_of_next hnext
        exact (coherent_iff (cached_call hc hcall)).mpr (kept_call hc hk hcall hspelled).faithful
    · rintro s a s' ⟨hc, hk⟩ hspelled hnext
      have hcall := call_of_next hnext
      exact ⟨cached_call hc hcall, kept_call hc hk hcall hspelled⟩
  rw [hevery]
  exact and_iff_right ((coherent_iff hcached).mpr hkept.faithful)

/-! ## Databases -/

/-- Byte by byte, what is not in the cache is not in memory. -/
theorem spelled_binary (hk : s.Kept .binary) (a : GuildCall) : s.Spelled .binary a := by
  cases a with
  | getGuild tag =>
      intro hnone g guild hlive
      by_contra hsame
      rw [Bool.not_eq_false] at hsame
      have hcache := hk.faithful g guild.id (object_of_guild hlive) _ (tag_mem_keys guild.id)
      rw [of_decide_eq_true hsame] at hcache
      cases hcache.symm.trans hnone
  | getGuildName name =>
      intro hnone g guild hlive
      by_contra hsame
      rw [Bool.not_eq_false] at hsame
      have hcache := hk.faithful g guild.id (object_of_guild hlive) _ (name_mem_keys guild.id)
      rw [of_decide_eq_true hsame] at hcache
      cases hcache.symm.trans hnone
  | _ => trivial

/-- Byte by byte, the destructor is that of the guilds of characters alone. -/
theorem toGuildWorld_deleteGuild (s : GuildServer) (g : ℕ) :
    (s.deleteGuild .binary g).toGuildWorld = s.toGuildWorld.deleteGuild g := by
  cases hlive : s.guild g with
  | none =>
      rw [deleteGuild_of_dead hlive]
      unfold GuildWorld.deleteGuild
      rw [hlive]
  | some guild =>
      have hfilter : (s.stored.filter fun x => !TextColumns.binary.same x.id.tag guild.id.tag) =
          s.stored.filter (·.id.tag ≠ guild.id.tag) :=
        List.filter_congr fun _ _ => decide_not.symm
      have hmap : (s.stored.map fun x : StoredGuild =>
          if TextColumns.binary.same x.id.tag guild.id.tag = true
            then { x with bank := guild.bank } else x) =
          s.stored.map fun x : StoredGuild =>
            if x.id.tag = guild.id.tag then { x with bank := guild.bank } else x :=
        List.map_congr_left fun _ _ => if_congr decide_eq_true_iff rfl rfl
      unfold deleteGuild GuildWorld.deleteGuild save
      rw [hlive, Option.elim_some]
      dsimp only
      split
      · rw [hfilter]
        rfl
      · rw [hmap]

theorem readMembers_binary (s : GuildServer) (tag : List Char) :
    s.readMembers .binary tag = s.toGuildWorld.readMembers tag := by
  have hmember : (fun n => (s.row n).bind fun r =>
      if TextColumns.binary.same r.tag tag = true then some (GuildMember.of n r.rank) else none) =
      fun n => (s.row n).bind fun r =>
        if r.tag = tag then some (GuildMember.of n r.rank) else none := by
    funext n
    congr 1
    funext r
    exact if_congr decide_eq_true_iff rfl rfl
  unfold readMembers GuildWorld.readMembers
  dsimp only
  rw [hmember]

/-- And so is what finds a guild. -/
theorem toGuildWorld_getGuild (hc : s.Cached) (tag : List Char) :
    ∃ found, s.getGuild .binary tag = .ok found ∧
      found.1 = (s.toGuildWorld.getGuild tag).map (·.1) ∧
      found.2.toGuildWorld = ((s.toGuildWorld.getGuild tag).map (·.2)).getD s.toGuildWorld := by
  obtain ⟨found, hfound⟩ := getGuild_eq_ok .binary hc tag
  refine ⟨found, hfound, ?_⟩
  unfold getGuild at hfound
  unfold GuildWorld.getGuild GuildWorld.findGuild
  rcases findGuild_cases hc hfound with ⟨g, hcache, rfl⟩ | ⟨hcache, hfind, rfl⟩ |
    ⟨x, hcache, hfind, rfl⟩
  · rw [hcache]
    exact ⟨rfl, rfl⟩
  · rw [hcache]
    dsimp only [TextColumns.binary] at hfind ⊢
    rw [hfind]
    exact ⟨rfl, rfl⟩
  · have hpx := List.find?_some hfind
    have htag := of_decide_eq_true hpx
    rw [hcache]
    dsimp only [TextColumns.binary] at hfind ⊢
    rw [hfind]
    refine ⟨rfl, ?_⟩
    rw [Option.map_some, Option.map_some, Option.getD_some, ← htag]
    unfold readGuild GuildWorld.readGuild
    dsimp only
    rw [← readMembers_binary]
    rfl

theorem coherent_binary (tables : GuildTables .binary) {calls : List GuildCall}
    (h : Reaches (next .binary) (start .binary tables) calls s) : s.Coherent .binary := by
  have hinvariant : s.Cached ∧ s.Kept .binary := by
    apply invariant_of_every (fun s => s.Cached ∧ s.Kept .binary) _
      ⟨cached_start tables, kept_start tables⟩ (every_of_forall (fun _ _ => trivial) _ calls) h
    rintro s a s' ⟨hc, hk⟩ - hnext
    have hcall := call_of_next hnext
    exact ⟨cached_call hc hcall, kept_call hc hk hcall (spelled_binary hk a)⟩
  exact (coherent_iff hinvariant.1).mpr hinvariant.2.faithful

end ArenaServ.GuildServer

namespace ArenaServ

/-- A guild with a tag of two letters, and one that asks for it again. -/
def Retold.id : GuildId where
  tag := ['A', 'B']
  name := ['a', 'l', 'f', 'a']
  upper := by decide
  lower := by decide
  short := by decide
  long := by decide

def Retold.tables : GuildTables .sqlServer where
  names := [RealName.of ['a']]
  nodup := List.nodup_singleton _
  row _ := none
  stored := []
  unique _ h := absurd h List.not_mem_nil

def Retold.calls : List GuildCall :=
  [.load (RealName.of ['a']) 1, .enter 0,
    .createGuild ⟨Retold.id, 0, [GuildMember.of (RealName.of ['a']) 0]⟩, .getGuild ['A', 'B']]

/-- Both objects are of the guild `AB`, whose tag the database gives back with a blank. -/
theorem GuildServer.not_coherent_retold :
    ¬ ∀ s, RunSteps.Reaches (GuildServer.next .sqlServer)
      (GuildServer.start .sqlServer Retold.tables) Retold.calls s → s.Coherent .sqlServer := by
  intro h
  have hrun : ((RunSteps.run (GuildServer.next .sqlServer)
      (GuildServer.start .sqlServer Retold.tables) Retold.calls).map fun s =>
        ((s.guild 0).map (·.id.tag), (s.guild 1).map (·.id.tag))) =
      some (some ['A', 'B', ' '], some ['A', 'B', ' ']) := by
    decide
  obtain ⟨s, hs, heq⟩ := Option.map_eq_some_iff.mp hrun
  obtain ⟨hfirst, hsecond⟩ := Prod.mk.inj heq
  obtain ⟨guild, hguild, htag⟩ := Option.map_eq_some_iff.mp hfirst
  obtain ⟨guild', hguild', htag'⟩ := Option.map_eq_some_iff.mp hsecond
  have hsingle := (h s (RunSteps.reaches_of_run hs)).single 0 1 guild guild' hguild hguild'
    (htag.trans htag'.symm)
  cases hsingle

end ArenaServ
