import ArenaServ.GuildInvariant
import ArenaServ.GuildReferences
import ArenaServ.RunSteps
import ArenaServ.SharedCache

/-!
# Coherence of the guild cache

A guild is cached under its tag and under its name, and its destructor removes what is found there.
So the cache never has a pointer that has expired. That a guild has one object only rests on the
texts that are asked for: a text that is not in the cache must not be, for the database, the tag or
the name of a guild in memory.
-/

namespace ArenaServ.GuildServer
open Function RunSteps

/-- There is one object for a tag, which is found under the tag and the name, and no pointer in
the cache has expired. -/
structure Coherent (db : TextColumns) (s : GuildServer) : Prop where
  single : ∀ g g' guild guild', s.guild g = some guild → s.guild g' = some guild' →
    guild.id.tag = guild'.id.tag → g = g'
  byTag : ∀ g guild, s.guild g = some guild → ∃ t, s.getGuild db guild.id.tag = .ok (some g, t)
  byName : ∀ g guild, s.guild g = some guild →
    ∃ t, s.getGuildName db guild.id.name = .ok (some g, t)
  unexpired : ∀ key g, s.cache key = some g → s.guild g ≠ none
  served : ∀ a, s.call db a ≠ .error .badWeakPtr

/-- A text that is not in the cache is not, for the database, that of a guild in memory. -/
def Unread (key : List Char) (p : GuildId → Bool) (s : GuildServer) : Prop :=
  s.cache key = none → ∀ g guild, s.guild g = some guild → p guild.id = false

def Spelled (db : TextColumns) (s : GuildServer) : GuildCall → Prop
  | .getGuild tag =>
      s.Unread (Letters.uppercase tag) fun id => db.same id.tag (Letters.uppercase tag)
  | .getGuildName name =>
      s.Unread (Letters.lowercase name) fun id => db.same id.name (Letters.lowercase name)
  | _ => True

/-! ## The guilds as a cache -/

def keys (id : GuildId) : List (List Char) := [id.tag, id.name]

def objects (s : GuildServer) : SharedCache GuildId (List Char) ℕ where
  object g := (s.guild g).map (·.id)
  entry := s.cache

def rowIds (s : GuildServer) : List GuildId := s.stored.map (·.id)

/-- What holds in every run. -/
structure Cached (s : GuildServer) : Prop where
  fresh : ∀ g, s.nextGuild ≤ g → s.guild g = none
  pointed : s.objects.Pointed keys

/-- What holds as long as no guild is read twice. -/
structure Kept (db : TextColumns) (s : GuildServer) : Prop where
  faithful : s.objects.Faithful keys
  unique : ∀ i ∈ s.rowIds, ∀ j ∈ s.rowIds,
    db.same i.tag j.tag = true ∨ db.same i.name j.name = true → i = j
  kept : ∀ g i, s.objects.object g = some i → i ∈ s.rowIds

variable {db : TextColumns} {s s' t : GuildServer} {g : ℕ} {guild : Guild}

theorem tag_mem_keys (id : GuildId) : id.tag ∈ keys id := List.mem_cons_self

theorem name_mem_keys (id : GuildId) : id.name ∈ keys id :=
  List.mem_cons_of_mem _ List.mem_cons_self

theorem object_of_guild (hlive : s.guild g = some guild) :
    s.objects.object g = some guild.id := by
  unfold objects
  dsimp only
  rw [hlive, Option.map_some]

theorem guild_of_object {i : GuildId} (h : s.objects.object g = some i) :
    ∃ guild, s.guild g = some guild ∧ guild.id = i :=
  Option.map_eq_some_iff.mp h

theorem Cached.live (h : s.Cached) {key : List Char} (hkey : s.cache key = some g) :
    s.guild g ≠ none := by
  intro hdead
  apply h.pointed.object_ne_none hkey
  unfold objects
  dsimp only
  rw [hdead]
  rfl

theorem Cached.lt (h : s.Cached) (hlive : s.guild g = some guild) : g < s.nextGuild := by
  by_contra hge
  rw [h.fresh g (Nat.le_of_not_lt hge)] at hlive
  cases hlive

/-- Two rows share no key. -/
theorem Kept.not_mem_keys (h : s.Kept db) {i j : GuildId} (hi : i ∈ s.rowIds) (hj : j ∈ s.rowIds)
    (hne : i ≠ j) : ∀ k ∈ keys i, k ∉ keys j := by
  intro k hk hk'
  rcases List.mem_pair.mp hk with rfl | rfl
  · rcases List.mem_pair.mp hk' with htag | hname
    · exact hne (h.unique i hi j hj (Or.inl (htag ▸ db.equivalence.refl i.tag)))
    · exact GuildWorld.tag_ne_name i j hname
  · rcases List.mem_pair.mp hk' with htag | hname
    · exact GuildWorld.tag_ne_name j i htag.symm
    · exact hne (h.unique i hi j hj (Or.inr (hname ▸ db.equivalence.refl i.name)))

/-! ## What changes no guild -/

/-- The guilds in memory, the cache and the keys of the rows are the same. -/
structure Alike (s s' : GuildServer) : Prop where
  objects : s'.objects = s.objects
  rowIds : s'.rowIds = s.rowIds
  nextGuild : s'.nextGuild = s.nextGuild

theorem Alike.trans (h : Alike s s') (h' : Alike s' t) : Alike s t where
  objects := h'.objects.trans h.objects
  rowIds := h'.rowIds.trans h.rowIds
  nextGuild := h'.nextGuild.trans h.nextGuild

theorem alike_setGuild {guild' : Guild} (hlive : s.guild g = some guild)
    (hid : guild'.id = guild.id) :
    Alike s { s with guild := update s.guild g (some guild') } where
  objects := by
    unfold GuildServer.objects
    dsimp only
    congr 1
    funext g'
    by_cases hg : g' = g
    · rw [hg, update_self, hlive, Option.map_some, Option.map_some, hid]
    · rw [update_of_ne hg]
  rowIds := rfl
  nextGuild := rfl

theorem alike_setMembers (hlive : s.guild g = some guild) (members : List GuildMember) :
    Alike s (s.setMembers g guild members) := alike_setGuild hlive rfl

theorem alike_point (s : GuildServer) (c : ℕ) (p : Option ℕ) (rank : ℕ) :
    Alike s (s.point c p rank) := ⟨rfl, rfl, rfl⟩

theorem alike_save (s : GuildServer) (guild : Guild) : Alike s (s.save db guild) where
  objects := rfl
  rowIds := by
    unfold GuildServer.rowIds save
    rw [List.map_map]
    apply List.map_congr_left
    intro x _
    rw [comp_apply]
    split
    · rfl
    · rfl
  nextGuild := rfl

theorem alike_regrade (name : List Char) (rank : ℕ) (clients : List (List ℕ)) :
    Alike s (regrade db name rank clients s) := by
  induction clients generalizing s with
  | nil => exact ⟨rfl, rfl, rfl⟩
  | cons client rest ih =>
      unfold regrade
      cases client.find? fun c => (s.character c).name.1 = name with
      | none => exact ih
      | some c =>
          dsimp only [Option.elim_some]
          split
          · exact alike_point s c _ rank
          · exact (alike_point s c _ rank).trans ih

theorem alike_setMemberRank (s : GuildServer) (g : ℕ) (clients : List (List ℕ))
    (name : List Char) (rank : ℕ) : Alike s (s.setMemberRank db g clients name rank) := by
  unfold setMemberRank
  cases hlive : s.guild g with
  | none => exact ⟨rfl, rfl, rfl⟩
  | some guild =>
      dsimp only [Option.elim_some]
      split
      · exact (alike_setMembers hlive _).trans (alike_regrade name rank clients)
      · exact ⟨rfl, rfl, rfl⟩

theorem alike_setBank (s : GuildServer) (g : ℕ) (bank : ℤ) : Alike s (s.setBank g bank) := by
  unfold setBank
  cases hlive : s.guild g with
  | none => exact ⟨rfl, rfl, rfl⟩
  | some guild => exact alike_setGuild hlive rfl

theorem Alike.cached (ha : Alike s s') (h : s.Cached) : s'.Cached where
  fresh g hg := by
    rw [ha.nextGuild] at hg
    have hobject : s'.objects.object g = s.objects.object g := by rw [ha.objects]
    unfold GuildServer.objects at hobject
    dsimp only at hobject
    rw [h.fresh g hg] at hobject
    exact Option.map_eq_none_iff.mp hobject
  pointed := by
    rw [ha.objects]
    exact h.pointed

theorem Alike.kept (ha : Alike s s') (h : s.Kept db) : s'.Kept db where
  faithful := by
    rw [ha.objects]
    exact h.faithful
  unique := by
    rw [ha.rowIds]
    exact h.unique
  kept := by
    rw [ha.objects, ha.rowIds]
    exact h.kept

/-! ## What destroys guilds -/

/-- Some guilds have been destroyed one after the other. -/
inductive Shrinks (db : TextColumns) : GuildServer → GuildServer → Prop
  | alike {s s' : GuildServer} (h : Alike s s') : Shrinks db s s'
  | delete (s : GuildServer) (g : ℕ) : Shrinks db s (s.deleteGuild db g)
  | trans {s s' t : GuildServer} (h : Shrinks db s s') (h' : Shrinks db s' t) : Shrinks db s t

theorem Shrinks.refl (s : GuildServer) : Shrinks db s s := .alike ⟨rfl, rfl, rfl⟩

theorem deleteGuild_of_dead (hdead : s.guild g = none) : s.deleteGuild db g = s := by
  unfold deleteGuild
  rw [hdead]
  rfl

theorem objects_deleteGuild (db : TextColumns) (s : GuildServer) (g : ℕ) :
    (s.deleteGuild db g).objects = s.objects.destroy keys g := by
  cases hlive : s.guild g with
  | none =>
      rw [deleteGuild_of_dead hlive, SharedCache.destroy_of_dead]
      unfold objects
      dsimp only
      rw [hlive, Option.map_none]
  | some guild =>
      have hlive' := object_of_guild hlive
      have hobject : ∀ g', (update s.guild g none g').map (·.id) =
          (s.objects.destroy keys g).object g' := by
        intro g'
        rw [SharedCache.destroy_of_live hlive']
        dsimp only
        by_cases hg : g' = g
        · rw [hg, update_self, update_self, Option.map_none]
        · rw [update_of_ne hg, update_of_ne hg]
          rfl
      have hentry : ∀ key, (if key = guild.id.tag ∨ key = guild.id.name then none
          else s.cache key) = (s.objects.destroy keys g).entry key := by
        intro key
        rw [SharedCache.destroy_of_live hlive']
        dsimp only
        by_cases hkey : key ∈ keys guild.id
        · rw [if_pos hkey, if_pos (List.mem_pair.mp hkey)]
        · rw [if_neg hkey, if_neg fun h => hkey (List.mem_pair.mpr h)]
          rfl
      unfold deleteGuild
      rw [hlive, Option.elim_some]
      dsimp only
      split
      · exact congrArg₂ SharedCache.mk (funext hobject) (funext hentry)
      · exact congrArg₂ SharedCache.mk (funext hobject) (funext hentry)

theorem nextGuild_deleteGuild (s : GuildServer) (g : ℕ) :
    (s.deleteGuild db g).nextGuild = s.nextGuild := by
  unfold deleteGuild
  cases s.guild g with
  | none => rfl
  | some guild =>
      dsimp only [Option.elim_some]
      split
      · rfl
      · rfl

/-- The rows that go have the tag of the guild. -/
theorem mem_rowIds_deleteGuild (hlive : s.guild g = some guild) {i : GuildId}
    (hi : i ∈ s.rowIds) (hne : db.same i.tag guild.id.tag = false) :
    i ∈ (s.deleteGuild db g).rowIds := by
  unfold deleteGuild
  rw [hlive, Option.elim_some]
  dsimp only
  split
  · obtain ⟨x, hx, rfl⟩ := List.mem_map.mp hi
    apply List.mem_map_of_mem
    rw [List.mem_filter, hne]
    exact ⟨hx, rfl⟩
  · rw [(alike_save _ guild).rowIds]
    exact hi

theorem rowIds_deleteGuild_subset (s : GuildServer) (g : ℕ) :
    (s.deleteGuild db g).rowIds ⊆ s.rowIds := by
  cases hlive : s.guild g with
  | none =>
      rw [deleteGuild_of_dead hlive]
      exact List.Subset.refl _
  | some guild =>
      unfold deleteGuild
      rw [hlive, Option.elim_some]
      dsimp only
      split
      · exact List.map_subset _ (List.filter_subset_self _)
      · rw [(alike_save _ guild).rowIds]
        exact List.Subset.refl _

theorem cached_deleteGuild (h : s.Cached) (g : ℕ) : (s.deleteGuild db g).Cached where
  fresh g' hg' := by
    rw [nextGuild_deleteGuild] at hg'
    by_contra hlive
    have hobject : (s.deleteGuild db g).objects.object g' ≠ none := by
      intro hnone
      exact hlive (Option.map_eq_none_iff.mp hnone)
    rw [objects_deleteGuild] at hobject
    apply hobject
    have hdead : s.objects.object g' = none := by
      unfold objects
      dsimp only
      rw [h.fresh g' hg', Option.map_none]
    cases hg : s.objects.object g with
    | none => rw [SharedCache.destroy_of_dead hg, hdead]
    | some i =>
        rw [SharedCache.destroy_of_live hg]
        dsimp only
        by_cases heq : g' = g
        · rw [heq, update_self]
        · rw [update_of_ne heq, hdead]
  pointed := by
    rw [objects_deleteGuild]
    exact SharedCache.pointed_destroy h.pointed g

theorem kept_deleteGuild (h : s.Kept db) (g : ℕ) : (s.deleteGuild db g).Kept db where
  faithful := by
    rw [objects_deleteGuild]
    exact SharedCache.faithful_destroy h.faithful g
  unique i hi j hj :=
    h.unique i (rowIds_deleteGuild_subset s g hi) j (rowIds_deleteGuild_subset s g hj)
  kept g' i hi := by
    rw [objects_deleteGuild] at hi
    cases hlive : s.guild g with
    | none =>
        rw [deleteGuild_of_dead hlive]
        rw [← objects_deleteGuild db, deleteGuild_of_dead hlive] at hi
        exact h.kept g' i hi
    | some guild =>
        have hobject := object_of_guild hlive
        rw [SharedCache.destroy_of_live hobject] at hi
        dsimp only at hi
        by_cases hg : g' = g
        · rw [hg, update_self] at hi
          cases hi
        · rw [update_of_ne hg] at hi
          have hrow := h.kept g' i hi
          apply mem_rowIds_deleteGuild hlive hrow
          -- the row is not that of the guild that goes, or the two would be one object
          by_contra hsame
          rw [Bool.not_eq_false] at hsame
          have hid := h.unique i hrow guild.id (h.kept g guild.id hobject) (Or.inl hsame)
          rw [hid] at hi
          exact hg (h.faithful.eq_of_mem hi hobject (tag_mem_keys _) (tag_mem_keys _))

theorem Shrinks.cached (hs : Shrinks db s s') (h : s.Cached) : s'.Cached := by
  induction hs with
  | alike ha => exact ha.cached h
  | delete s g => exact cached_deleteGuild h g
  | trans _ _ ih ih' => exact ih' (ih h)

theorem Shrinks.kept (hs : Shrinks db s s') (h : s.Kept db) : s'.Kept db := by
  induction hs with
  | alike ha => exact ha.kept h
  | delete s g => exact kept_deleteGuild h g
  | trans _ _ ih ih' => exact ih' (ih h)

theorem shrinks_release (s : GuildServer) (g : ℕ) : Shrinks db s (s.release db g) := by
  unfold release
  split
  · exact Shrinks.refl s
  · exact Shrinks.delete s g

theorem Alike.shrinks_release (ha : Alike s s') (g : ℕ) : Shrinks db s (s'.release db g) :=
  (Shrinks.alike ha).trans (GuildServer.shrinks_release s' g)

theorem shrinks_drop (s : GuildServer) (g : ℕ) : Shrinks db s (s.drop db g) := by
  have hrefs : Alike s { s with refs := s.refs.erase g } := ⟨rfl, rfl, rfl⟩
  exact hrefs.shrinks_release g

theorem shrinks_assign (s : GuildServer) (c : ℕ) (p : Option ℕ) (rank : ℕ) :
    Shrinks db s (s.assign db c p rank) := by
  unfold assign
  cases (s.character c).guild with
  | none => exact .alike (alike_point s c p rank)
  | some old => exact (alike_point s c p rank).shrinks_release old

theorem shrinks_addMember (s : GuildServer) (g joined rank : ℕ) :
    Shrinks db s (s.addMember db g joined rank) := by
  unfold addMember
  dsimp only
  cases hlive : (s.assign db joined (some g) rank).guild g with
  | none => exact shrinks_assign s joined (some g) rank
  | some guild =>
      exact (shrinks_assign s joined (some g) rank).trans (.alike (alike_setMembers hlive _))

theorem shrinks_expel (kicked : RealName) (clients : List (List ℕ)) :
    Shrinks db s (expel db kicked clients s) := by
  induction clients generalizing s with
  | nil => exact .alike ⟨rfl, rfl, rfl⟩
  | cons client rest ih =>
      unfold expel
      cases client.find? fun c => (s.character c).name = kicked with
      | none => exact ih
      | some c =>
          dsimp only [Option.elim_some]
          split
          · exact shrinks_assign s c none 0
          · exact (shrinks_assign s c none 0).trans ih

theorem shrinks_delMember (db : TextColumns) (s : GuildServer) (g : ℕ)
    (clients : List (List ℕ)) (kicked : List Char) :
    Shrinks db s (s.delMember db g clients kicked) := by
  unfold delMember
  cases hlive : s.guild g with
  | none => exact Shrinks.refl s
  | some guild => exact (Shrinks.alike (alike_setMembers hlive _)).trans (shrinks_expel _ clients)

theorem shrinks_foldl {α : Type*} {f : GuildServer → α → GuildServer}
    (hf : ∀ s a, Shrinks db s (f s a)) (l : List α) (s : GuildServer) :
    Shrinks db s (l.foldl f s) := by
  induction l generalizing s with
  | nil => exact Shrinks.refl s
  | cons a l ih => exact (hf s a).trans (ih (f s a))

theorem shrinks_disband (s : GuildServer) (g : ℕ) (clients : List (List ℕ)) :
    Shrinks db s (s.disband db g clients) := by
  unfold disband
  cases s.guild g with
  | none => exact Shrinks.refl s
  | some guild =>
      have hpin : Alike s { s with refs := g :: s.refs } := ⟨rfl, rfl, rfl⟩
      have hmembers := shrinks_foldl
        (fun (s : GuildServer) (m : GuildMember) => shrinks_delMember db s g clients m.name.1)
        guild.members { s with refs := g :: s.refs }
      exact ((Shrinks.alike hpin).trans hmembers).trans (shrinks_drop _ g)

theorem shrinks_join (s : GuildServer) (create : GuildCreate) (g : ℕ) :
    Shrinks db s (s.join db create g) := by
  apply shrinks_foldl
  intro s m
  cases s.getCharacterReal m.name.1 with
  | none => exact Shrinks.refl s
  | some c => exact shrinks_addMember s g c _

theorem shrinks_unload (s : GuildServer) (c : ℕ) : Shrinks db s (s.unload db c) := by
  have hgone : Alike s { s with
      loaded := s.loaded.filter (· ≠ c)
      characters := s.characters.filter (· ≠ c) } := ⟨rfl, rfl, rfl⟩
  unfold unload
  dsimp only
  cases (s.character c).guild with
  | none => exact .alike hgone
  | some g => exact hgone.shrinks_release g

/-! ## What makes guilds -/

theorem objects_readGuild (s : GuildServer) (x : StoredGuild) (tag : List Char) :
    (s.readGuild db x tag).objects = s.objects.insert keys s.nextGuild x.id := by
  have hobject : ∀ g, (update s.guild s.nextGuild
      (some ⟨x.id, s.readMembers db tag, x.bank⟩) g).map (·.id) =
        (s.objects.insert keys s.nextGuild x.id).object g := by
    intro g
    unfold SharedCache.insert
    dsimp only
    by_cases hg : g = s.nextGuild
    · rw [hg, update_self, update_self, Option.map_some]
    · rw [update_of_ne hg, update_of_ne hg]
      rfl
  have hentry : ∀ key, update (update s.cache x.id.tag (some s.nextGuild)) x.id.name
      (some s.nextGuild) key = (s.objects.insert keys s.nextGuild x.id).entry key := by
    intro key
    unfold SharedCache.insert
    dsimp only
    by_cases hkey : key ∈ keys x.id
    · rw [if_pos hkey]
      rcases List.mem_pair.mp hkey with rfl | rfl
      · rw [update_of_ne (GuildWorld.tag_ne_name x.id x.id), update_self]
      · rw [update_self]
    · have hnot := not_or.mp (mt List.mem_pair.mpr hkey)
      rw [if_neg hkey, update_of_ne hnot.2, update_of_ne hnot.1]
      rfl
  exact congrArg₂ SharedCache.mk (funext hobject) (funext hentry)

theorem cached_readGuild (h : s.Cached) (x : StoredGuild) (tag : List Char) :
    (s.readGuild db x tag).Cached where
  fresh g hg := by
    unfold readGuild at hg ⊢
    dsimp only at hg ⊢
    have hne : g ≠ s.nextGuild := by omega
    rw [update_of_ne hne]
    exact h.fresh g (by omega)
  pointed := by
    rw [objects_readGuild]
    apply SharedCache.pointed_insert h.pointed
    unfold objects
    dsimp only
    rw [h.fresh s.nextGuild (Nat.le_refl _), Option.map_none]

/-- The row of a guild that is not in memory. -/
theorem kept_readGuild (h : s.Kept db) {x : StoredGuild} (hx : x ∈ s.stored) (tag : List Char)
    (hnew : ∀ g guild, s.guild g = some guild → guild.id ≠ x.id) :
    (s.readGuild db x tag).Kept db where
  faithful := by
    rw [objects_readGuild]
    apply SharedCache.faithful_insert h.faithful
    intro g i hi
    obtain ⟨guild, hlive, rfl⟩ := guild_of_object hi
    exact h.not_mem_keys (h.kept g guild.id hi) (List.mem_map_of_mem hx) (hnew g guild hlive)
  unique := h.unique
  kept g i hi := by
    rw [objects_readGuild] at hi
    by_cases hg : g = s.nextGuild
    · rw [hg, SharedCache.object_insert_self] at hi
      rw [← Option.some.inj hi]
      exact List.mem_map_of_mem hx
    · rw [SharedCache.object_insert_of_ne hg] at hi
      exact h.kept g i hi

theorem findGuild_cases (h : s.Cached) {key : List Char} {p : GuildId → Bool}
    {tag : GuildId → List Char} {found : Option ℕ × GuildServer}
    (hfound : s.findGuild db key p tag = .ok found) :
    (∃ g, s.cache key = some g ∧ found = (some g, { s with refs := g :: s.refs })) ∨
    (s.cache key = none ∧ s.stored.find? (p ·.id) = none ∧ found = (none, s)) ∨
    ∃ x, s.cache key = none ∧ s.stored.find? (p ·.id) = some x ∧
      found = (some s.nextGuild, s.readGuild db x (tag x.id)) := by
  unfold findGuild at hfound
  cases hcache : s.cache key with
  | some g =>
      rw [hcache] at hfound
      dsimp only at hfound
      unfold lock at hfound
      rw [if_neg (h.live hcache)] at hfound
      exact Or.inl ⟨g, rfl, (Except.ok.inj hfound).symm⟩
  | none =>
      rw [hcache] at hfound
      dsimp only at hfound
      cases hfind : s.stored.find? (p ·.id) with
      | none =>
          rw [hfind] at hfound
          exact Or.inr (Or.inl ⟨rfl, rfl, (Except.ok.inj hfound).symm⟩)
      | some x =>
          rw [hfind] at hfound
          exact Or.inr (Or.inr ⟨x, rfl, rfl, (Except.ok.inj hfound).symm⟩)

theorem cached_findGuild (h : s.Cached) {key : List Char} {p : GuildId → Bool}
    {tag : GuildId → List Char} {found : Option ℕ × GuildServer}
    (hfound : s.findGuild db key p tag = .ok found) : found.2.Cached := by
  rcases findGuild_cases h hfound with ⟨g, -, rfl⟩ | ⟨-, -, rfl⟩ | ⟨x, -, -, rfl⟩
  · have hrefs : Alike s { s with refs := g :: s.refs } := ⟨rfl, rfl, rfl⟩
    exact hrefs.cached h
  · exact h
  · exact cached_readGuild h x _

/-- A text picks one row at most. -/
def Picks (s : GuildServer) (p : GuildId → Bool) : Prop :=
  ∀ i ∈ s.rowIds, ∀ j ∈ s.rowIds, p i = true → p j = true → i = j

/-- A guild that is not in memory is read. -/
theorem kept_findGuild (hc : s.Cached) (h : s.Kept db) {key : List Char} {p : GuildId → Bool}
    {tag : GuildId → List Char} {found : Option ℕ × GuildServer}
    (hfound : s.findGuild db key p tag = .ok found) (hunread : s.Unread key p) :
    found.2.Kept db := by
  rcases findGuild_cases hc hfound with ⟨g, -, rfl⟩ | ⟨-, -, rfl⟩ | ⟨x, hcache, hfind, rfl⟩
  · have hrefs : Alike s { s with refs := g :: s.refs } := ⟨rfl, rfl, rfl⟩
    exact hrefs.kept h
  · exact h
  · apply kept_readGuild h (List.mem_of_find?_eq_some hfind)
    intro g guild hlive hid
    have hnot := hunread hcache g guild hlive
    have hpx := List.find?_some hfind
    rw [← hid, hnot] at hpx
    cases hpx

/-- A guild that has one object has not been read while it was in memory. -/
theorem unread_of_faithful (hc : s.Cached) (h : s.Kept db) {key : List Char} {p : GuildId → Bool}
    (hp : s.Picks p) {tag : GuildId → List Char} {found : Option ℕ × GuildServer}
    (hfound : s.findGuild db key p tag = .ok found)
    (hfaithful : found.2.objects.Faithful keys) : s.Unread key p := by
  intro hnone g guild hlive
  have hobject := object_of_guild hlive
  have hrow := h.kept g guild.id hobject
  rcases findGuild_cases hc hfound with ⟨g', hcache, -⟩ | ⟨-, hfind, -⟩ | ⟨x, -, hfind, rfl⟩
  · rw [hcache] at hnone
    cases hnone
  · obtain ⟨x, hx, hid⟩ := List.mem_map.mp hrow
    have hnot := List.find?_eq_none.mp hfind x hx
    rw [hid, Bool.not_eq_true] at hnot
    exact hnot
  · by_contra hsame
    rw [Bool.not_eq_false] at hsame
    have hx : x.id ∈ s.rowIds := List.mem_map_of_mem (List.mem_of_find?_eq_some hfind)
    have hpx := List.find?_some hfind
    have hid := hp guild.id hrow x.id hx hsame hpx
    rw [hid] at hobject
    rw [objects_readGuild] at hfaithful
    exact SharedCache.not_faithful_insert (tag_mem_keys x.id) (Nat.ne_of_lt (hc.lt hlive)) hobject
      hfaithful

theorem Kept.picks_tag (h : s.Kept db) (key : List Char) :
    s.Picks fun id => db.same id.tag key := fun i hi j hj hi' hj' =>
  h.unique i hi j hj (Or.inl (db.equivalence.trans hi' (db.equivalence.symm hj')))

theorem Kept.picks_name (h : s.Kept db) (key : List Char) :
    s.Picks fun id => db.same id.name key := fun i hi j hj hi' hj' =>
  h.unique i hi j hj (Or.inr (db.equivalence.trans hi' (db.equivalence.symm hj')))

/-! ## New guilds -/

theorem not_same_of_not_isStored {id i : GuildId} (hnot : s.isStored db id = false)
    (hi : i ∈ s.rowIds) : db.same i.tag id.tag = false ∧ db.same i.name id.name = false := by
  obtain ⟨x, hx, rfl⟩ := List.mem_map.mp hi
  have hx' := List.any_eq_false.mp hnot x hx
  rw [Bool.not_eq_true] at hx'
  exact Bool.or_eq_false_iff.mp hx'

theorem rowIds_insertGuild (s : GuildServer) (id : GuildId) :
    (s.insertGuild db id).rowIds = s.rowIds ++ [db.column id] := by
  unfold rowIds insertGuild
  rw [List.map_append]
  rfl

theorem cached_insertGuild (db : TextColumns) (h : s.Cached) (id : GuildId) :
    (s.insertGuild db id).Cached :=
  ⟨h.fresh, h.pointed⟩

theorem kept_insertGuild (h : s.Kept db) {id : GuildId} (hnot : s.isStored db id = false) :
    (s.insertGuild db id).Kept db where
  faithful := h.faithful
  unique := by
    have hnew : ∀ i ∈ s.rowIds, ¬(db.same i.tag (db.column id).tag = true ∨
        db.same i.name (db.column id).name = true) := by
      rintro i hi (htag | hname)
      · have hsame := db.equivalence.trans htag (db.same_tag id)
        rw [(not_same_of_not_isStored hnot hi).1] at hsame
        cases hsame
      · have hsame := db.equivalence.trans hname (db.same_name id)
        rw [(not_same_of_not_isStored hnot hi).2] at hsame
        cases hsame
    rw [rowIds_insertGuild]
    intro i hi j hj hsame
    rcases List.mem_append.mp hi with hi | hi <;> rcases List.mem_append.mp hj with hj | hj
    · exact h.unique i hi j hj hsame
    · rw [List.mem_singleton.mp hj] at hsame
      exact absurd hsame (hnew i hi)
    · rw [List.mem_singleton.mp hi] at hsame
      exact absurd (hsame.imp db.equivalence.symm db.equivalence.symm) (hnew j hj)
    · rw [List.mem_singleton.mp hi, List.mem_singleton.mp hj]
  kept g i hi := by
    rw [rowIds_insertGuild]
    exact List.mem_append_left _ (h.kept g i hi)

theorem createGuild_eq_ok {create : GuildCreate} (hcreate : s.createGuild db create = .ok s') :
    s.isStored db create.id = false ∧
      ∃ found, (s.insertGuild db create.id).getGuild db create.id.tag = .ok found ∧
        Shrinks db found.2 s' := by
  unfold createGuild at hcreate
  cases hstored : s.isStored db create.id with
  | true =>
      rw [hstored, if_pos rfl] at hcreate
      cases hcreate
  | false =>
      rw [hstored, if_neg Bool.false_ne_true] at hcreate
      cases hget : (s.insertGuild db create.id).getGuild db create.id.tag with
      | error e =>
          rw [hget] at hcreate
          cases hcreate
      | ok found =>
          rw [hget] at hcreate
          refine ⟨rfl, found, rfl, ?_⟩
          rw [← Except.ok.inj hcreate]
          dsimp only
          cases found.1 with
          | none => exact Shrinks.refl _
          | some g => exact shrinks_join found.2 create g

theorem cached_createGuild (h : s.Cached) {create : GuildCreate}
    (hcreate : s.createGuild db create = .ok s') : s'.Cached := by
  obtain ⟨-, found, hfound, hshrinks⟩ := createGuild_eq_ok hcreate
  unfold getGuild at hfound
  exact hshrinks.cached (cached_findGuild (cached_insertGuild db h create.id) hfound)

/-- The guild that is read is the new one, which nobody has in memory. -/
theorem kept_createGuild (hc : s.Cached) (h : s.Kept db) {create : GuildCreate}
    (hcreate : s.createGuild db create = .ok s') : s'.Kept db := by
  obtain ⟨hstored, found, hfound, hshrinks⟩ := createGuild_eq_ok hcreate
  have hinsert := kept_insertGuild h hstored
  unfold getGuild at hfound
  apply hshrinks.kept
  apply kept_findGuild (cached_insertGuild db hc create.id) hinsert hfound
  intro _ g guild hlive
  rw [create.id.upper]
  exact (not_same_of_not_isStored hstored (h.kept g guild.id (object_of_guild hlive))).1

end ArenaServ.GuildServer
