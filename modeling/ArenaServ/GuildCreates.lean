import ArenaServ.GuildMembership
import ArenaServ.WeakCache

/-!
# Guilds that are being created

A `Guild_Create` is alive as long as its leader points to it, and `create_cache` knows it by its
tag. Its destructor removes the tag, so a request for a tag that is already requested loses one of
the two: the older one, or the newer one when both are of the same character.
-/

namespace ArenaServ.GuildWorld
open Function

/-! ## What is promised -/

/-- `GetCreate` returns each `Guild_Create` that is alive for its tag, and nothing for a tag
without one. -/
structure CreatesListed (w : GuildWorld) : Prop where
  live : ∀ k create, w.creating k = some create → w.getCreate create.id.tag = some (k, create)
  none : ∀ tag, (∀ k create, w.creating k = some create → create.id.tag ≠ Letters.uppercase tag) →
    w.getCreate tag = none

section
variable (cfg : GuildConfig) (w : GuildWorld)

/-- A request gets as far as `BeginCreate`. -/
def Begins (c : ℕ) (scene : GuildScene) (tag name : List Char) : Prop :=
  ¬(3 < tag.length ∨ Letters.toSize cfg.guildMaxNameLength < name.length) ∧
    ¬(scene.atMaster = false ∨ (w.character c).guild.isSome ∨ cfg.guildCreateMembers ≤ 0) ∧
    (w.getGuild tag).isNone ∧ (w.getGuildName name).isNone ∧
    (GuildManager.validTag tag = true ∧ GuildManager.validName cfg name = true) ∧
    cfg.guildPrice ≤ scene.gold

/-- Nobody begins to create a guild with a tag for which there is a request already. -/
def Unrequested : GuildStep → Prop
  | .request c scene tag name => c ∈ w.characters → w.Begins cfg c scene tag name →
      ∀ k create, w.creating k = some create → create.id.tag ≠ Letters.uppercase tag
  | _ => True

end

/-! ## What most steps leave alone -/

/-- Neither a request nor a pointer to one is different. -/
structure KeepsCreates (w w' : GuildWorld) : Prop where
  loaded : w'.loaded = w.loaded
  characters : w'.characters = w.characters
  nextCharacter : w'.nextCharacter = w.nextCharacter
  creating : w'.creating = w.creating
  createCache : w'.createCache = w.createCache
  nextCreate : w'.nextCreate = w.nextCreate
  create : ∀ c, (w'.character c).create = (w.character c).create

variable {w w' : GuildWorld} {c d g k : ℕ}

theorem KeepsCreates.refl (w : GuildWorld) : KeepsCreates w w :=
  ⟨rfl, rfl, rfl, rfl, rfl, rfl, fun _ => rfl⟩

theorem KeepsCreates.trans {w'' : GuildWorld} (h : KeepsCreates w w') (h' : KeepsCreates w' w'') :
    KeepsCreates w w'' where
  loaded := h'.loaded.trans h.loaded
  characters := h'.characters.trans h.characters
  nextCharacter := h'.nextCharacter.trans h.nextCharacter
  creating := h'.creating.trans h.creating
  createCache := h'.createCache.trans h.createCache
  nextCreate := h'.nextCreate.trans h.nextCreate
  create c := (h'.create c).trans (h.create c)

theorem create_setCharacter (w : GuildWorld) (c d : ℕ) {f : GuildCharacter → GuildCharacter}
    (hf : ∀ x, (f x).create = x.create) :
    ((w.setCharacter c f).character d).create = (w.character d).create := by
  unfold setCharacter
  dsimp only
  by_cases hd : d = c
  · rw [hd, update_self]
    exact hf _
  · rw [update_of_ne hd]

theorem keepsCreates_setCharacter (w : GuildWorld) (c : ℕ) {f : GuildCharacter → GuildCharacter}
    (hf : ∀ x, (f x).create = x.create) : KeepsCreates w (w.setCharacter c f) :=
  ⟨rfl, rfl, rfl, rfl, rfl, rfl, fun d => create_setCharacter w c d hf⟩

theorem keepsCreates_deleteGuild (w : GuildWorld) (g : ℕ) : KeepsCreates w (w.deleteGuild g) := by
  unfold deleteGuild
  cases w.guild g with
  | none => exact KeepsCreates.refl w
  | some guild =>
      dsimp only
      split_ifs
      · exact ⟨rfl, rfl, rfl, rfl, rfl, rfl, fun _ => rfl⟩
      · exact ⟨rfl, rfl, rfl, rfl, rfl, rfl, fun _ => rfl⟩

theorem keepsCreates_release (w : GuildWorld) (pin : Option ℕ) (g : ℕ) :
    KeepsCreates w (w.release pin g) := by
  unfold release
  split_ifs
  · exact KeepsCreates.refl w
  · exact keepsCreates_deleteGuild w g

theorem keepsCreates_findGuild {key : List Char} {p : StoredGuild → Bool}
    (h : w.findGuild key p = some (g, w')) : KeepsCreates w w' := by
  rcases findGuild_cases h with ⟨-, rfl⟩ | ⟨-, s, -, -, heq⟩
  · exact KeepsCreates.refl w'
  · cases heq
    exact ⟨rfl, rfl, rfl, rfl, rfl, rfl, fun _ => rfl⟩

theorem keepsCreates_point (w : GuildWorld) (pin : Option ℕ) (c : ℕ) (p : Option ℕ) (rank : ℕ) :
    KeepsCreates w (w.point pin c p rank) := by
  have hset := keepsCreates_setCharacter w c (f := ({ · with guild := p, rank := rank }))
    (fun _ => rfl)
  unfold point
  cases (w.character c).guild with
  | none => exact hset
  | some old => exact hset.trans (keepsCreates_release _ pin old)

theorem keepsCreates_addMember (w : GuildWorld) (pin : Option ℕ) (g joined rank : ℕ) :
    KeepsCreates w (w.addMember pin g joined rank) := by
  have hpoint := keepsCreates_point w pin joined (some g) rank
  unfold addMember
  dsimp only
  cases (w.point pin joined (some g) rank).guild g with
  | none => exact hpoint
  | some guild => exact hpoint.trans ⟨rfl, rfl, rfl, rfl, rfl, rfl, fun _ => rfl⟩

theorem keepsCreates_expel (pin : Option ℕ) (kicked : RealName) (l : List ℕ) :
    ∀ w : GuildWorld, KeepsCreates w (w.expel pin kicked l) := by
  induction l with
  | nil => exact fun w => ⟨rfl, rfl, rfl, rfl, rfl, rfl, fun _ => rfl⟩
  | cons c rest ih =>
      intro w
      unfold expel
      dsimp only
      have hpoint := keepsCreates_point w pin c none 0
      split_ifs
      · exact hpoint
      · exact hpoint.trans (ih _)
      · exact ih w

theorem keepsCreates_delMember (w : GuildWorld) (pin : Option ℕ) (g : ℕ) (kicked : List Char) :
    KeepsCreates w (w.delMember pin g kicked) := by
  unfold delMember
  dsimp only
  cases w.guild g with
  | none => exact KeepsCreates.refl w
  | some guild =>
      apply KeepsCreates.trans _ (keepsCreates_expel pin _ _ _)
      exact ⟨rfl, rfl, rfl, rfl, rfl, rfl, fun _ => rfl⟩

theorem keepsCreates_disband (w : GuildWorld) (g : ℕ) : KeepsCreates w (w.disband g) := by
  unfold disband
  cases w.guild g with
  | none => exact KeepsCreates.refl w
  | some guild =>
      apply KeepsCreates.trans _ (keepsCreates_release _ none g)
      have hfold : ∀ (members : List GuildMember) (v : GuildWorld),
          KeepsCreates v (members.foldl (fun w m => w.delMember (some g) g m.name.1) v) := by
        intro members
        induction members with
        | nil => exact KeepsCreates.refl
        | cons m rest ih =>
            exact fun v => (keepsCreates_delMember v (some g) g m.name.1).trans (ih _)
      exact hfold guild.members w

theorem keepsCreates_save (w : GuildWorld) (c : ℕ) : KeepsCreates w (w.save c) :=
  ⟨rfl, rfl, rfl, rfl, rfl, rfl, fun _ => rfl⟩

/-! ## The handlers that know nothing of requests -/

section
variable (cfg : GuildConfig)

theorem keepsCreates_remove (w : GuildWorld) (c : ℕ) (scene : GuildScene) :
    KeepsCreates w (w.remove c scene) := by
  unfold remove
  split_ifs
  · cases (w.character c).guild with
    | none => exact KeepsCreates.refl w
    | some g => exact keepsCreates_delMember w none g _
  · exact KeepsCreates.refl w

theorem keepsCreates_player (w : GuildWorld) (c : ℕ) (scene : GuildScene)
    (tag recruiterName : List Char) : KeepsCreates w (w.player cfg c scene tag recruiterName) := by
  unfold player
  dsimp only
  split_ifs
  · exact KeepsCreates.refl w
  · exact KeepsCreates.refl w
  · cases w.getCharacterReal (Letters.lowercase recruiterName) with
    | none => exact KeepsCreates.refl w
    | some recruiter =>
        dsimp only
        split_ifs
        · exact keepsCreates_setCharacter w c fun _ => rfl
        · exact KeepsCreates.refl w

theorem keepsCreates_use (w : GuildWorld) (c : ℕ) (scene : GuildScene) (pid : ℕ) :
    KeepsCreates w (w.use cfg c scene pid) := by
  unfold use
  split
  · rename_i joiner g _ _
    have hadd := keepsCreates_addMember w none g joiner 9
    cases w.guild g with
    | none => exact KeepsCreates.refl w
    | some guild =>
        dsimp only
        split_ifs
        · cases (w.addMember none g joiner 9).guild g with
          | none => exact hadd
          | some guild' =>
              dsimp only
              split_ifs
              · exact hadd.trans ⟨rfl, rfl, rfl, rfl, rfl, rfl, fun _ => rfl⟩
              · exact hadd
        · exact KeepsCreates.refl w
        · exact KeepsCreates.refl w
  · exact KeepsCreates.refl w

theorem keepsCreates_buy (w : GuildWorld) (c : ℕ) (scene : GuildScene) (gold : ℤ) :
    KeepsCreates w (w.buy cfg c scene gold) := by
  unfold buy
  split_ifs
  · exact KeepsCreates.refl w
  · cases (w.character c).guild with
    | none => exact KeepsCreates.refl w
    | some g =>
        dsimp only
        cases w.guild g with
        | none => exact KeepsCreates.refl w
        | some guild =>
            dsimp only
            split_ifs
            · exact KeepsCreates.refl w
            · exact ⟨rfl, rfl, rfl, rfl, rfl, rfl, fun _ => rfl⟩
            · exact KeepsCreates.refl w

theorem keepsCreates_junk (w : GuildWorld) (c : ℕ) (scene : GuildScene) :
    KeepsCreates w (w.junk cfg c scene) := by
  unfold junk
  cases (w.character c).guild with
  | none =>
      rw [ite_self]
      exact KeepsCreates.refl w
  | some g =>
      dsimp only
      split_ifs
      · exact keepsCreates_disband w g
      · exact KeepsCreates.refl w
      · exact KeepsCreates.refl w

theorem keepsCreates_kick (w : GuildWorld) (c : ℕ) (scene : GuildScene) (name : List Char) :
    KeepsCreates w (w.kick cfg c scene name) := by
  unfold kick
  cases (w.character c).guild with
  | none =>
      rw [ite_self]
      exact KeepsCreates.refl w
  | some g =>
      dsimp only
      cases w.guild g with
      | none =>
          rw [ite_self]
          exact KeepsCreates.refl w
      | some guild =>
          dsimp only
          cases guild.members.find? (·.name = RealName.of name) with
          | none =>
              rw [ite_self, ite_self]
              exact KeepsCreates.refl w
          | some target =>
              dsimp only
              split_ifs
              · exact KeepsCreates.refl w
              · exact keepsCreates_delMember w none g name
              · exact KeepsCreates.refl w
              · exact KeepsCreates.refl w

end

/-! ## Requests -/

/-- The requests that are alive by their tags, and what is cached. -/
def creates (w : GuildWorld) : WeakCache (List Char) ℕ where
  key := Option.map (·.id.tag) ∘ w.creating
  entry := w.createCache

theorem key_creates {tag : List Char} : w.creates.key k = some tag ↔
    ∃ create, w.creating k = some create ∧ create.id.tag = tag := Option.map_eq_some_iff

theorem KeepsCreates.creates (h : KeepsCreates w w') : w'.creates = w.creates := by
  unfold GuildWorld.creates
  rw [h.creating, h.createCache]

theorem creates_beginCreate (w : GuildWorld) (id : GuildId) (c : ℕ) :
    (w.beginCreate id c).creates = w.creates.insert w.nextCreate id.tag := by
  unfold GuildWorld.creates beginCreate WeakCache.insert
  rw [comp_update]
  rfl

theorem creates_deleteCreate (w : GuildWorld) (k : ℕ) :
    (w.deleteCreate k).creates = w.creates.destroy k := by
  unfold deleteCreate
  cases hk : w.creating k with
  | none =>
      have hdead : w.creates.key k = none :=
        congrArg (Option.map fun create : GuildCreate => create.id.tag) hk
      rw [WeakCache.destroy_of_dead hdead]
  | some create =>
      rw [WeakCache.destroy_of_live (key_creates.mpr ⟨create, hk, rfl⟩)]
      unfold GuildWorld.creates
      rw [comp_update]
      rfl

theorem creates_setCreate (w : GuildWorld) (c : ℕ) (k : Option ℕ) :
    (w.setCreate c k).creates = w.creates.release (w.character c).create := by
  unfold setCreate
  cases (w.character c).create with
  | none => rfl
  | some old => exact creates_deleteCreate _ old

theorem creates_insertGuild (w : GuildWorld) (id : GuildId) :
    (w.insertGuild id).creates = w.creates.erase id.tag := rfl

theorem getCreate_eq_some {tag : List Char} {create : GuildCreate}
    (h : w.getCreate tag = some (k, create)) :
    w.createCache (Letters.uppercase tag) = some k ∧ w.creating k = some create := by
  obtain ⟨k', hk', heq⟩ := Option.bind_eq_some_iff.mp h
  obtain ⟨create', hlive, heq⟩ := Option.map_eq_some_iff.mp heq
  cases heq
  exact ⟨hk', hlive⟩

theorem createsListed_iff (hpointed : w.creates.Pointed) :
    w.CreatesListed ↔ w.creates.Faithful := by
  have hget : ∀ k create, w.creating k = some create →
      (w.getCreate create.id.tag = some (k, create) ↔ w.createCache create.id.tag = some k) := by
    intro k create hk
    constructor
    · intro h
      have hcache := (getCreate_eq_some h).1
      rw [create.id.upper] at hcache
      exact hcache
    · intro h
      unfold getCreate
      rw [create.id.upper, h, Option.bind_some, hk]
      rfl
  constructor
  · intro h k tag hk
    obtain ⟨create, hcreate, rfl⟩ := key_creates.mp hk
    exact (hget k create hcreate).mp (h.live k create hcreate)
  · intro h
    refine ⟨fun k create hk => (hget k create hk).mpr (h k _ (key_creates.mpr ⟨create, hk, rfl⟩)),
      ?_⟩
    intro tag htag
    have hentry : w.createCache (Letters.uppercase tag) = Option.none := by
      apply WeakCache.Pointed.entry_eq_none hpointed
      intro k hk
      obtain ⟨create, hcreate, heq⟩ := key_creates.mp hk
      exact htag k create hcreate heq
    unfold getCreate
    rw [hentry]
    rfl

/-! ## Whose requests they are -/

/-- The invariant. Whoever leads a request is in memory and points to it. -/
structure Owned (w : GuildWorld) : Prop where
  online : w.characters ⊆ w.loaded
  freshCharacter : ∀ c ∈ w.loaded, c < w.nextCharacter
  freshCreate : ∀ k, w.nextCreate ≤ k → w.creating k = none
  allotted : ∀ c ∈ w.loaded, ∀ k, (w.character c).create = some k → k < w.nextCreate
  owner : ∀ k create, w.creating k = some create →
    create.leader ∈ w.loaded ∧ (w.character create.leader).create = some k
  pointed : w.creates.Pointed

theorem KeepsCreates.owned (hk : KeepsCreates w w') (h : w.Owned) : w'.Owned where
  online := by
    rw [hk.characters, hk.loaded]
    exact h.online
  freshCharacter := by
    rw [hk.loaded, hk.nextCharacter]
    exact h.freshCharacter
  freshCreate := by
    rw [hk.nextCreate, hk.creating]
    exact h.freshCreate
  allotted := by
    simp only [hk.loaded, hk.create, hk.nextCreate]
    exact h.allotted
  owner := by
    simp only [hk.creating, hk.loaded, hk.create]
    exact h.owner
  pointed := by
    rw [hk.creates]
    exact h.pointed

theorem character_deleteCreate (w : GuildWorld) (k : ℕ) :
    (w.deleteCreate k).character = w.character := by
  unfold deleteCreate
  cases w.creating k with
  | none => rfl
  | some create => rfl

theorem nextCreate_deleteCreate (w : GuildWorld) (k : ℕ) :
    (w.deleteCreate k).nextCreate = w.nextCreate := by
  unfold deleteCreate
  cases w.creating k with
  | none => rfl
  | some create => rfl

theorem creating_deleteCreate (w : GuildWorld) (k j : ℕ) :
    (w.deleteCreate k).creating j = if k = j then none else w.creating j := by
  unfold deleteCreate
  cases hk : w.creating k with
  | none =>
      dsimp only
      split_ifs with hj
      · rw [← hj, hk]
      · rfl
  | some create =>
      dsimp only
      split_ifs with hj
      · rw [hj, update_self]
      · rw [update_of_ne (Ne.symm hj)]

theorem create_setCreate (w : GuildWorld) (c d : ℕ) (k : Option ℕ) :
    ((w.setCreate c k).character d).create = if d = c then k else (w.character d).create := by
  have hset : ((w.setCharacter c ({ · with create := k })).character d).create =
      if d = c then k else (w.character d).create := by
    unfold setCharacter
    dsimp only
    split_ifs with hd
    · rw [hd, update_self]
    · rw [update_of_ne hd]
  unfold setCreate
  cases (w.character c).create with
  | none => exact hset
  | some old =>
      dsimp only
      rw [character_deleteCreate]
      exact hset

theorem nextCreate_setCreate (w : GuildWorld) (c : ℕ) (k : Option ℕ) :
    (w.setCreate c k).nextCreate = w.nextCreate := by
  unfold setCreate
  cases (w.character c).create with
  | none => rfl
  | some old => exact nextCreate_deleteCreate _ old

theorem creating_setCreate (w : GuildWorld) (c j : ℕ) (k : Option ℕ) :
    (w.setCreate c k).creating j =
      if (w.character c).create = some j then none else w.creating j := by
  unfold setCreate
  cases (w.character c).create with
  | none => rfl
  | some old =>
      dsimp only
      rw [creating_deleteCreate]
      exact if_congr (Option.some_inj).symm rfl rfl

/-- The old request of a character is not the one that it begins. -/
theorem Owned.create_ne (h : w.Owned) (hc : c ∈ w.loaded) :
    (w.character c).create ≠ some w.nextCreate := by
  intro heq
  exact absurd (h.allotted c hc _ heq) (lt_irrefl _)

theorem owned_begun (h : w.Owned) (hc : c ∈ w.loaded) (id : GuildId) :
    ((w.beginCreate id c).setCreate c w.nextCreate).Owned := by
  have hsame := same_setCreate (w.beginCreate id c) c w.nextCreate
  have hcreating := fun j => creating_setCreate (w.beginCreate id c) c j w.nextCreate
  have hcreate := fun d => create_setCreate (w.beginCreate id c) c d w.nextCreate
  refine ⟨?_, ?_, ?_, ?_, ?_, ?_⟩
  · rw [hsame.characters, hsame.loaded]
    exact h.online
  · rw [hsame.loaded, hsame.nextCharacter]
    exact h.freshCharacter
  · intro k hk
    rw [nextCreate_setCreate] at hk
    have hlt : w.nextCreate < k := hk
    rw [hcreating k]
    split_ifs
    · rfl
    · exact (update_of_ne (by omega) _ _).trans (h.freshCreate k (by omega))
  · intro d hd k hk
    rw [hsame.loaded] at hd
    rw [hcreate d] at hk
    rw [nextCreate_setCreate]
    have hgoal : k < w.nextCreate + 1 := by
      split_ifs at hk with hdc
      · rw [← Option.some.inj hk]
        exact Nat.lt_succ_self _
      · have hlt := h.allotted d hd k hk
        omega
    exact hgoal
  · intro k create hk
    rw [hcreating k] at hk
    split_ifs at hk with hold
    rw [hsame.loaded, hcreate]
    by_cases hnew : k = w.nextCreate
    · have hself : (w.beginCreate id c).creating w.nextCreate =
          some ⟨id, c, [GuildMember.of (w.character c).name 0]⟩ := update_self _ _ _
      rw [hnew, hself] at hk
      rw [← Option.some.inj hk, hnew]
      exact ⟨hc, if_pos rfl⟩
    · have hlive : w.creating k = some create := (update_of_ne hnew _ _).symm.trans hk
      obtain ⟨hleader, hpointer⟩ := h.owner k create hlive
      have hne : create.leader ≠ c := fun heq => hold (heq ▸ hpointer)
      rw [if_neg hne]
      exact ⟨hleader, hpointer⟩
  · rw [creates_setCreate, creates_beginCreate]
    apply WeakCache.pointed_release
    apply WeakCache.pointed_insert h.pointed
    exact congrArg (Option.map fun create : GuildCreate => create.id.tag)
      (h.freshCreate _ (le_refl _))

/-- A character does not lead a request any more, or is not in memory any more. -/
structure Dropped (c : ℕ) (w w' : GuildWorld) : Prop where
  online : w'.characters ⊆ w'.loaded
  loaded : ∀ d, d ∈ w'.loaded → d ∈ w.loaded
  others : ∀ d ∈ w.loaded, d ≠ c → d ∈ w'.loaded
  nextCharacter : w'.nextCharacter = w.nextCharacter
  nextCreate : w'.nextCreate = w.nextCreate
  creating : ∀ k create, w'.creating k = some create →
    w.creating k = some create ∧ create.leader ≠ c
  create : ∀ d, (w'.character d).create = (w.character d).create ∨
    (w'.character d).create = none
  same : ∀ d, d ≠ c → (w'.character d).create = (w.character d).create
  pointed : w'.creates.Pointed

theorem Dropped.owned (hd : Dropped c w w') (h : w.Owned) : w'.Owned where
  online := hd.online
  freshCharacter d hmem := by
    rw [hd.nextCharacter]
    exact h.freshCharacter d (hd.loaded d hmem)
  freshCreate k hk := by
    rw [hd.nextCreate] at hk
    cases hlive : w'.creating k with
    | none => rfl
    | some create =>
        have hbefore := (hd.creating k create hlive).1
        rw [h.freshCreate k hk] at hbefore
        cases hbefore
  allotted d hmem k hk := by
    rw [hd.nextCreate]
    rcases hd.create d with heq | heq
    · exact h.allotted d (hd.loaded d hmem) k (heq ▸ hk)
    · rw [heq] at hk
      cases hk
  owner k create hk := by
    obtain ⟨hlive, hne⟩ := hd.creating k create hk
    obtain ⟨hleader, hpointer⟩ := h.owner k create hlive
    exact ⟨hd.others _ hleader hne, (hd.same _ hne).trans hpointer⟩
  pointed := hd.pointed

end ArenaServ.GuildWorld
