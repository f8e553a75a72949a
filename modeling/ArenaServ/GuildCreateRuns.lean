import ArenaServ.GuildCreates

/-!
# Runs of requests for guilds

A request takes the place of the one that its character had, a guild that is created and a
character that goes take theirs with them, and no other step changes one. So the requests are known
by their tags as long as nobody asks for a tag that is asked for already.
-/

namespace ArenaServ.GuildWorld
open Function RunSteps

variable {w w' : GuildWorld} {c d g k : ℕ}

/-! ## The handlers of requests -/

section
variable (cfg : GuildConfig)

theorem keepsCreates_request {scene : GuildScene} {tag name : List Char}
    (hnot : ¬w.Begins cfg c scene tag name) : KeepsCreates w (w.request cfg c scene tag name) := by
  unfold request
  by_cases hlong : 3 < tag.length ∨ Letters.toSize cfg.guildMaxNameLength < name.length
  · rw [if_pos hlong]
    exact KeepsCreates.refl w
  rw [if_neg hlong]
  by_cases hplace : scene.atMaster = false ∨ (w.character c).guild.isSome ∨
      cfg.guildCreateMembers ≤ 0
  · rw [if_pos hplace]
    exact KeepsCreates.refl w
  rw [if_neg hplace]
  cases htag : w.getGuild tag with
  | some found => exact (keepsCreates_findGuild htag).trans (keepsCreates_release _ none found.1)
  | none =>
      cases hname : w.getGuildName name with
      | some found =>
          exact (keepsCreates_findGuild hname).trans (keepsCreates_release _ none found.1)
      | none =>
          dsimp only
          split_ifs with hvalid hprice
          · exact absurd ⟨hlong, hplace, Option.isNone_iff_eq_none.mpr htag,
              Option.isNone_iff_eq_none.mpr hname, hvalid, hprice⟩ hnot
          · exact KeepsCreates.refl w
          · exact KeepsCreates.refl w

theorem keepsCreates_request_begun {scene : GuildScene} {tag name : List Char}
    (hvalid : GuildManager.validTag tag = true ∧ GuildManager.validName cfg name = true)
    (h : w.Begins cfg c scene tag name) :
    KeepsCreates ((w.beginCreate (GuildId.of cfg tag name hvalid) c).setCreate c w.nextCreate)
      (w.request cfg c scene tag name) := by
  obtain ⟨hlong, hplace, htag, hname, -, hprice⟩ := h
  unfold request
  rw [if_neg hlong, if_neg hplace, Option.isNone_iff_eq_none.mp htag,
    Option.isNone_iff_eq_none.mp hname]
  dsimp only
  rw [dif_pos hvalid, if_pos hprice]
  refine ⟨rfl, rfl, rfl, rfl, rfl, rfl, ?_⟩
  intro d
  dsimp only
  split_ifs
  · rfl
  · rfl

/-- A request has other members. -/
def setMembers (w : GuildWorld) (k : ℕ) (create : GuildCreate) (members : List GuildMember) :
    GuildWorld :=
  { w with creating := update w.creating k (some { create with members := members }) }

theorem accept_cases (w : GuildWorld) (c : ℕ) : KeepsCreates w (w.accept c) ∨
    ∃ k create members, w.creating k = some create ∧
      KeepsCreates (w.setMembers k create members) (w.accept c) := by
  unfold accept
  split_ifs
  · exact Or.inl (KeepsCreates.refl w)
  · dsimp only
    cases hget : w.getCreate (w.character c).invite with
    | none => exact Or.inl (keepsCreates_setCharacter w c fun _ => rfl)
    | some found =>
        obtain ⟨k, create⟩ := found
        exact Or.inr ⟨k, create, _, (getCreate_eq_some hget).2,
          keepsCreates_setCharacter _ c fun _ => rfl⟩

theorem creates_setMembers {create : GuildCreate} (hlive : w.creating k = some create)
    (members : List GuildMember) : (w.setMembers k create members).creates = w.creates := by
  unfold GuildWorld.creates setMembers
  rw [comp_update]
  have hkey : (Option.map fun create : GuildCreate => create.id.tag) (w.creating k) =
      some create.id.tag := congrArg _ hlive
  exact congrArg (WeakCache.mk · w.createCache) (update_eq_self_iff.mpr hkey.symm)

theorem owned_setMembers {create : GuildCreate} (h : w.Owned) (hlive : w.creating k = some create)
    (members : List GuildMember) : (w.setMembers k create members).Owned := by
  refine { h with freshCreate := ?_, owner := ?_, pointed := ?_ }
  · intro j hj
    have hne : j ≠ k := by
      rintro rfl
      rw [h.freshCreate j hj] at hlive
      cases hlive
    exact (update_of_ne hne _ _).trans (h.freshCreate j hj)
  · intro j create' hj
    unfold setMembers at hj
    dsimp only at hj
    by_cases hjk : j = k
    · rw [hjk, update_self] at hj
      rw [← Option.some.inj hj, hjk]
      exact h.owner k create hlive
    · rw [update_of_ne hjk] at hj
      exact h.owner j create' hj
  · rw [creates_setMembers hlive]
    exact h.pointed

theorem creates_accept (w : GuildWorld) (c : ℕ) : (w.accept c).creates = w.creates := by
  rcases accept_cases w c with hkeep | ⟨k, create, members, hlive, hkeep⟩
  · exact hkeep.creates
  · exact hkeep.creates.trans (creates_setMembers hlive members)

theorem owned_accept (h : w.Owned) (c : ℕ) : (w.accept c).Owned := by
  rcases accept_cases w c with hkeep | ⟨k, create, members, hlive, hkeep⟩
  · exact hkeep.owned h
  · exact hkeep.owned (owned_setMembers h hlive members)

theorem keepsCreates_createGuild {create : GuildCreate} (h : w.createGuild create = some w') :
    KeepsCreates (w.insertGuild create.id) w' := by
  unfold createGuild at h
  split_ifs at h
  dsimp only at h
  cases hget : (w.insertGuild create.id).getGuild create.id.tag with
  | none =>
      rw [hget] at h
      rw [← Option.some.inj h]
      exact KeepsCreates.refl _
  | some found =>
      obtain ⟨g, v⟩ := found
      rw [hget] at h
      rw [← Option.some.inj h]
      apply ((keepsCreates_findGuild hget).trans _).trans (keepsCreates_release _ none g)
      generalize create.members = members
      clear hget h
      induction members generalizing v with
      | nil => exact KeepsCreates.refl v
      | cons m rest ih =>
          rw [List.foldl_cons]
          cases v.getCharacterReal m.name.1 with
          | none => exact ih v
          | some d => exact (keepsCreates_addMember v (some g) g d _).trans (ih _)

/-- What is left of a request when its guild has been created. -/
theorem create_cases (w : GuildWorld) (c : ℕ) (scene : GuildScene)
    (tag name description : List Char) : w.create cfg c scene tag name description = w ∨
    ∃ k create v, w.creating k = some create ∧ create.leader = c ∧
      KeepsCreates (w.insertGuild create.id) v ∧
      w.create cfg c scene tag name description = v.setCreate c none := by
  unfold create
  cases hcreation : w.creation cfg c scene tag name description with
  | none => exact Or.inl rfl
  | some create =>
      rw [Option.bind_some]
      cases hguild : w.createGuild create with
      | none => exact Or.inl rfl
      | some v =>
          unfold creation at hcreation
          split_ifs at hcreation with hlong hplace
          obtain ⟨⟨k, create'⟩, hget, hleader⟩ := Option.bind_eq_some_iff.mp hcreation
          dsimp only at hleader
          split_ifs at hleader with hready
          cases hleader
          exact Or.inr ⟨k, create, v, (getCreate_eq_some hget).2, hready.1,
            keepsCreates_createGuild hguild, rfl⟩

theorem creates_create (h : w.Owned) (c : ℕ) (scene : GuildScene)
    (tag name description : List Char) :
    w.create cfg c scene tag name description = w ∨
    ∃ k, (w.create cfg c scene tag name description).creates = w.creates.destroy k ∧
      Dropped c w (w.create cfg c scene tag name description) := by
  rcases create_cases cfg w c scene tag name description with heq | ⟨k, create, v, hlive, hleader,
    hkeep, heq⟩
  · exact Or.inl heq
  refine Or.inr ⟨k, ?_⟩
  rw [heq]
  have hpointer : (v.character c).create = some k := by
    rw [hkeep.create, ← hleader]
    exact (h.owner k create hlive).2
  have hcreates : (v.setCreate c none).creates = w.creates.destroy k := by
    rw [creates_setCreate, hpointer, WeakCache.release, hkeep.creates, creates_insertGuild]
    exact WeakCache.destroy_erase (key_creates.mpr ⟨create, hlive, rfl⟩)
  have hsame := same_setCreate v c none
  have hloaded : (v.setCreate c none).loaded = w.loaded := hsame.loaded.trans hkeep.loaded
  refine ⟨hcreates, ?_, ?_, ?_, ?_, ?_, ?_, ?_, ?_, ?_⟩
  · rw [hloaded, hsame.characters, hkeep.characters]
    exact h.online
  · intro d hd
    rw [← hloaded]
    exact hd
  · intro d hd _
    rw [hloaded]
    exact hd
  · exact hsame.nextCharacter.trans hkeep.nextCharacter
  · exact (nextCreate_setCreate v c none).trans hkeep.nextCreate
  · intro j create' hj
    rw [creating_setCreate, hpointer] at hj
    split_ifs at hj with hjk
    rw [hkeep.creating] at hj
    refine ⟨hj, ?_⟩
    intro hleader'
    have hj' := (h.owner j create' hj).2
    rw [hleader', ← hleader, (h.owner k create hlive).2] at hj'
    exact hjk hj'
  · intro d
    rw [create_setCreate]
    split_ifs
    · exact Or.inr rfl
    · exact Or.inl (hkeep.create d)
  · intro d hd
    rw [create_setCreate, if_neg hd]
    exact hkeep.create d
  · rw [hcreates]
    exact WeakCache.pointed_destroy h.pointed

end

/-! ## Characters that come and go -/

/-- The object that a character points to is destroyed, if there is one. -/
def dropCreate (w : GuildWorld) (k : Option ℕ) : GuildWorld := k.elim w w.deleteCreate

theorem same_dropCreate (w : GuildWorld) (k : Option ℕ) : Same w (w.dropCreate k) := by
  cases k with
  | none => exact Same.refl w
  | some k => exact same_deleteCreate w k

theorem character_dropCreate (w : GuildWorld) (k : Option ℕ) :
    (w.dropCreate k).character = w.character := by
  cases k with
  | none => rfl
  | some k => exact character_deleteCreate w k

theorem nextCreate_dropCreate (w : GuildWorld) (k : Option ℕ) :
    (w.dropCreate k).nextCreate = w.nextCreate := by
  cases k with
  | none => rfl
  | some k => exact nextCreate_deleteCreate w k

theorem creating_dropCreate (w : GuildWorld) (k : Option ℕ) (j : ℕ) :
    (w.dropCreate k).creating j = if k = some j then none else w.creating j := by
  cases k with
  | none => rfl
  | some k => exact (creating_deleteCreate w k j).trans (if_congr (Option.some_inj).symm rfl rfl)

theorem creates_dropCreate (w : GuildWorld) (k : Option ℕ) :
    (w.dropCreate k).creates = w.creates.release k := by
  cases k with
  | none => rfl
  | some k => exact creates_deleteCreate w k

/-- The world without a character. -/
def without (w : GuildWorld) (c : ℕ) : GuildWorld :=
  { w with
    loaded := w.loaded.filter (· ≠ c)
    characters := w.characters.filter (· ≠ c) }

theorem keepsCreates_destroy (w : GuildWorld) (c : ℕ) :
    KeepsCreates ((w.without c).dropCreate (w.character c).create) (w.destroy c) := by
  unfold destroy
  cases (w.character c).create with
  | none =>
      cases (w.character c).guild with
      | none => exact KeepsCreates.refl _
      | some g => exact keepsCreates_release _ none g
  | some k =>
      cases (w.character c).guild with
      | none => exact KeepsCreates.refl _
      | some g => exact keepsCreates_release _ none g

theorem dropped_without (h : w.Owned) (c : ℕ) :
    Dropped c w ((w.without c).dropCreate (w.character c).create) := by
  have hsame := same_dropCreate (w.without c) (w.character c).create
  refine ⟨?_, ?_, ?_, ?_, ?_, ?_, ?_, ?_, ?_⟩
  · rw [hsame.characters, hsame.loaded]
    intro d hd
    obtain ⟨hd, hne⟩ := List.mem_filter.mp hd
    exact List.mem_filter.mpr ⟨h.online hd, hne⟩
  · intro d hd
    rw [hsame.loaded] at hd
    exact (List.mem_filter.mp hd).1
  · intro d hd hne
    rw [hsame.loaded]
    exact List.mem_filter.mpr ⟨hd, decide_eq_true hne⟩
  · exact hsame.nextCharacter
  · exact nextCreate_dropCreate _ _
  · intro k create hk
    rw [creating_dropCreate] at hk
    split_ifs at hk with hold
    refine ⟨hk, ?_⟩
    intro hleader
    exact hold (hleader ▸ (h.owner k create hk).2)
  · intro d
    rw [character_dropCreate]
    exact Or.inl rfl
  · intro d _
    rw [character_dropCreate]
    rfl
  · rw [creates_dropCreate]
    exact WeakCache.pointed_release h.pointed _

theorem creates_unload (w : GuildWorld) (c : ℕ) :
    (w.unload c).creates = w.creates.release (w.character c).create := by
  unfold unload
  rw [(keepsCreates_destroy _ c).creates, creates_dropCreate]
  split_ifs
  · rfl
  · rfl

theorem owned_unload (h : w.Owned) (c : ℕ) : (w.unload c).Owned := by
  unfold unload
  apply (keepsCreates_destroy _ c).owned
  split_ifs
  · have hsave := (keepsCreates_save w c).owned h
    exact (dropped_without hsave c).owned hsave
  · exact (dropped_without h c).owned h

/-- The world with one character more. -/
def addCharacter (w : GuildWorld) (character : GuildCharacter) : GuildWorld :=
  { w with
    loaded := w.loaded ++ [w.nextCharacter]
    character := update w.character w.nextCharacter character
    nextCharacter := w.nextCharacter + 1 }

theorem load_cases (w : GuildWorld) (name : RealName) (playerId : ℕ) :
    ∃ v character, KeepsCreates w v ∧ character.create = none ∧
      w.load name playerId = v.addCharacter character := by
  unfold load
  cases w.row name with
  | none => exact ⟨w, _, KeepsCreates.refl w, rfl, rfl⟩
  | some s =>
      dsimp only
      cases hget : w.getGuild s.tag with
      | none => exact ⟨w, _, KeepsCreates.refl w, rfl, rfl⟩
      | some found => exact ⟨found.2, _, keepsCreates_findGuild hget, rfl, rfl⟩

theorem owned_addCharacter (h : w.Owned) {character : GuildCharacter}
    (hcreate : character.create = none) : (w.addCharacter character).Owned := by
  have hold : ∀ d ∈ w.loaded, (w.addCharacter character).character d = w.character d := by
    intro d hd
    exact update_of_ne (h.freshCharacter d hd).ne _ _
  refine ⟨?_, ?_, h.freshCreate, ?_, ?_, h.pointed⟩
  · exact fun d hd => List.mem_append_left _ (h.online hd)
  · intro d hd
    have hle : d < w.nextCharacter + 1 := by
      rcases List.mem_append.mp hd with hd | hd
      · exact Nat.lt_succ_of_lt (h.freshCharacter d hd)
      · rw [List.mem_singleton.mp hd]
        exact Nat.lt_succ_self _
    exact hle
  · intro d hd k hk
    rcases List.mem_append.mp hd with hd | hd
    · rw [hold d hd] at hk
      exact h.allotted d hd k hk
    · have hnew : (w.addCharacter character).character d = character := by
        rw [List.mem_singleton.mp hd]
        exact update_self _ _ _
      rw [hnew, hcreate] at hk
      cases hk
  · intro k create hk
    obtain ⟨hleader, hpointer⟩ := h.owner k create hk
    rw [hold _ hleader]
    exact ⟨List.mem_append_left _ hleader, hpointer⟩

theorem creates_load (w : GuildWorld) (name : RealName) (playerId : ℕ) :
    (w.load name playerId).creates = w.creates := by
  obtain ⟨v, character, hkeep, -, heq⟩ := load_cases w name playerId
  rw [heq]
  exact hkeep.creates

theorem owned_load (h : w.Owned) (name : RealName) (playerId : ℕ) :
    (w.load name playerId).Owned := by
  obtain ⟨v, character, hkeep, hcreate, heq⟩ := load_cases w name playerId
  rw [heq]
  exact owned_addCharacter (hkeep.owned h) hcreate

/-! ## Steps -/

section
variable (cfg : GuildConfig)

/-- What a step does to the requests: one of them goes, or none, or one takes the place of the one
that its leader had. -/
inductive CreatesEffect (w w' : GuildWorld) : GuildStep → Prop where
  | dropped {a : GuildStep} (unrequested : w.Unrequested cfg a) (k : Option ℕ)
      (creates : w'.creates = w.creates.release k) : CreatesEffect w w' a
  | begun {c : ℕ} {scene : GuildScene} {tag name : List Char} (online : c ∈ w.characters)
      (begins : w.Begins cfg c scene tag name)
      (creates : w'.creates = (w.creates.insert w.nextCreate (Letters.uppercase tag)).release
        (w.character c).create) : CreatesEffect w w' (.request c scene tag name)

variable {cfg}

theorem KeepsCreates.effect (hkeep : KeepsCreates w w') (h : w.Owned) {a : GuildStep}
    (ha : w.Unrequested cfg a) : w'.Owned ∧ CreatesEffect cfg w w' a :=
  ⟨hkeep.owned h, .dropped ha none hkeep.creates⟩

theorem effect_request (h : w.Owned) (hc : c ∈ w.characters) (scene : GuildScene)
    (tag name : List Char) : (w.request cfg c scene tag name).Owned ∧
      CreatesEffect cfg w (w.request cfg c scene tag name) (.request c scene tag name) := by
  by_cases hbegins : w.Begins cfg c scene tag name
  · have hkeep := keepsCreates_request_begun cfg hbegins.2.2.2.2.1 hbegins
    refine ⟨hkeep.owned (owned_begun h (h.online hc) _), .begun hc hbegins ?_⟩
    rw [hkeep.creates, creates_setCreate, creates_beginCreate]
    rfl
  · exact (keepsCreates_request cfg hbegins).effect h fun _ hbegins' => absurd hbegins' hbegins

theorem effect_create (h : w.Owned) (c : ℕ) (scene : GuildScene)
    (tag name description : List Char) :
    (w.create cfg c scene tag name description).Owned ∧
      CreatesEffect cfg w (w.create cfg c scene tag name description)
        (.create c scene tag name description) := by
  rcases creates_create cfg h c scene tag name description with heq | ⟨k, hcreates, hdropped⟩
  · rw [heq]
    exact (KeepsCreates.refl w).effect h trivial
  · exact ⟨hdropped.owned h, .dropped trivial (some k) hcreates⟩

theorem effect_next (h : w.Owned) {a : GuildStep} (hnext : w.next cfg a = some w') :
    w'.Owned ∧ CreatesEffect cfg w w' a := by
  cases a with
  | request c scene tag name =>
      obtain ⟨hc, rfl⟩ := whenOnline_eq_some hnext
      exact effect_request h hc scene tag name
  | accept c =>
      obtain ⟨-, rfl⟩ := whenOnline_eq_some hnext
      exact ⟨owned_accept h c, .dropped trivial none (creates_accept w c)⟩
  | remove c scene =>
      obtain ⟨-, rfl⟩ := whenOnline_eq_some hnext
      exact (keepsCreates_remove w c scene).effect h trivial
  | create c scene tag name description =>
      obtain ⟨-, rfl⟩ := whenOnline_eq_some hnext
      exact effect_create h c scene tag name description
  | player c scene tag recruiterName =>
      obtain ⟨-, rfl⟩ := whenOnline_eq_some hnext
      exact (keepsCreates_player cfg w c scene tag recruiterName).effect h trivial
  | use c scene pid =>
      obtain ⟨-, rfl⟩ := whenOnline_eq_some hnext
      exact (keepsCreates_use cfg w c scene pid).effect h trivial
  | buy c scene gold =>
      obtain ⟨-, rfl⟩ := whenOnline_eq_some hnext
      exact (keepsCreates_buy cfg w c scene gold).effect h trivial
  | junk c scene =>
      obtain ⟨-, rfl⟩ := whenOnline_eq_some hnext
      exact (keepsCreates_junk cfg w c scene).effect h trivial
  | kick c scene name =>
      obtain ⟨-, rfl⟩ := whenOnline_eq_some hnext
      exact (keepsCreates_kick cfg w c scene name).effect h trivial
  | load name playerId =>
      rw [next] at hnext
      split_ifs at hnext
      rw [← Option.some.inj hnext]
      exact ⟨owned_load h name playerId, .dropped trivial none (creates_load w name playerId)⟩
  | enter c =>
      rw [next] at hnext
      split_ifs at hnext with hc
      rw [← Option.some.inj hnext]
      refine ⟨{ h with online := ?_ }, .dropped trivial none rfl⟩
      intro d hd
      rcases List.mem_append.mp hd with hd | hd
      · exact h.online hd
      · rw [List.mem_singleton.mp hd]
        exact hc.1
  | save c =>
      obtain ⟨-, rfl⟩ := whenOnline_eq_some hnext
      exact (keepsCreates_save w c).effect h trivial
  | unload c =>
      rw [next] at hnext
      split_ifs at hnext
      rw [← Option.some.inj hnext]
      exact ⟨owned_unload h c, .dropped trivial _ (creates_unload w c)⟩

theorem faithful_next_iff (h : w.Owned) (hfaithful : w.creates.Faithful) {a : GuildStep}
    (hnext : w.next cfg a = some w') : w'.creates.Faithful ↔ w.Unrequested cfg a := by
  cases (effect_next h hnext).2 with
  | dropped hun k hcreates =>
      rw [hcreates]
      exact ⟨fun _ => hun, fun _ => WeakCache.faithful_release hfaithful k⟩
  | begun hc hbegins hcreates =>
      have hfresh : w.creates.key w.nextCreate = none :=
        congrArg (Option.map fun create : GuildCreate => create.id.tag)
          (h.freshCreate _ (le_refl _))
      rw [hcreates, WeakCache.faithful_replace_iff hfaithful hfresh (h.create_ne (h.online hc))]
      constructor
      · exact fun hunused _ _ k create hk heq => hunused k (key_creates.mpr ⟨create, hk, heq⟩)
      · intro hun k hk
        obtain ⟨create, hlive, heq⟩ := key_creates.mp hk
        exact hun hc hbegins k create hlive heq

theorem unrequested_of_none {a : GuildStep} (hnext : w.next cfg a = none) :
    w.Unrequested cfg a := by
  cases a with
  | request c scene tag name =>
      intro hc
      rw [next, whenOnline, if_pos hc] at hnext
      cases hnext
  | _ => trivial

theorem owned_start (names : List RealName) (nodup : names.Nodup) : (start names nodup).Owned where
  online := List.nil_subset _
  freshCharacter _ h := absurd h List.not_mem_nil
  freshCreate _ _ := rfl
  allotted _ h := absurd h List.not_mem_nil
  owner _ _ h := absurd h (Option.some_ne_none _).symm
  pointed _ _ h := absurd h (Option.some_ne_none _).symm

theorem faithful_start (names : List RealName) (nodup : names.Nodup) :
    (start names nodup).creates.Faithful := fun _ _ h => absurd h (Option.some_ne_none _).symm

/-- In every state of a run `GetCreate` knows the requests that are alive, if and only if nobody
begins one for a tag for which there is one. -/
theorem createsListed_of_reaches_iff (cfg : GuildConfig) {names : List RealName}
    (nodup : names.Nodup) (steps : List GuildStep) :
    (∀ w, Reaches (next cfg) (start names nodup) steps w → w.CreatesListed) ↔
      Every (next cfg) (Unrequested cfg) (start names nodup) steps := by
  have hstart := owned_start names nodup
  rw [forall_reaches_iff]
  have hevery : Every (next cfg) (fun w a => ∀ w' ∈ next cfg w a, w'.CreatesListed)
      (start names nodup) steps ↔
      Every (next cfg) (Unrequested cfg) (start names nodup) steps := by
    apply every_iff (fun w => w.Owned ∧ w.creates.Faithful) _ _
      ⟨hstart, faithful_start names nodup⟩
    · rintro w a ⟨howned, hfaithful⟩
      constructor
      · intro hlisted
        cases hnext : w.next cfg a with
        | none => exact unrequested_of_none hnext
        | some w' =>
            apply (faithful_next_iff howned hfaithful hnext).mp
            exact (createsListed_iff (effect_next howned hnext).1.pointed).mp (hlisted w' hnext)
      · intro hun w' hnext
        apply (createsListed_iff (effect_next howned hnext).1.pointed).mpr
        exact (faithful_next_iff howned hfaithful hnext).mpr hun
    · rintro w a w' ⟨howned, hfaithful⟩ hun hnext
      exact ⟨(effect_next howned hnext).1, (faithful_next_iff howned hfaithful hnext).mpr hun⟩
  rw [hevery]
  exact and_iff_right ((createsListed_iff hstart.pointed).mpr (faithful_start names nodup))

end

end ArenaServ.GuildWorld

namespace ArenaServ

/-- The first request of all is for a tag without one. -/
theorem GuildWorld.every_unrequested_begun : RunSteps.Every (GuildWorld.next Pending.config)
    (GuildWorld.Unrequested Pending.config)
    (GuildWorld.start Pending.names Pending.names_nodup) Pending.begun := by
  rw [← List.take_append_drop 6 Pending.begun]
  apply RunSteps.every_append
  · exact ⟨trivial, fun _ _ => ⟨trivial, fun _ _ => ⟨trivial, fun _ _ => ⟨trivial, fun _ _ =>
      ⟨trivial, fun _ _ => ⟨trivial, fun _ _ => trivial⟩⟩⟩⟩⟩⟩
  · intro t ht
    have hnone : (RunSteps.run (GuildWorld.next Pending.config)
        (GuildWorld.start Pending.names Pending.names_nodup) (Pending.begun.take 6)).map
          (·.creating) = some fun _ => none := rfl
    rw [ht] at hnone
    have hcreating : t.creating = fun _ => none := Option.some.inj hnone
    refine ⟨?_, fun _ _ => ⟨trivial, fun _ _ => trivial⟩⟩
    intro _ _ k create hk
    rw [hcreating] at hk
    cases hk

theorem GuildWorld.createsListed_begun : ∃ w : GuildWorld,
    (w.getCreate ['A', 'A', 'A']).map (·.1) = some 0 ∧ w.CreatesListed := by
  have hrun : ((RunSteps.run (GuildWorld.next Pending.config)
      (GuildWorld.start Pending.names Pending.names_nodup) Pending.begun).map fun w =>
        (w.getCreate ['A', 'A', 'A']).map (·.1)) = some (some 0) := by
    decide
  obtain ⟨w, hw, hfound⟩ := Option.map_eq_some_iff.mp hrun
  exact ⟨w, hfound, (GuildWorld.createsListed_of_reaches_iff Pending.config Pending.names_nodup
    Pending.begun).mpr GuildWorld.every_unrequested_begun w (RunSteps.reaches_of_run hw)⟩

/-- A character that is online asks for the same guild twice. -/
def Pending.again : List GuildStep :=
  [.load (RealName.of ['a']) 1, .enter 0,
    .request 0 scene ['A', 'A', 'A'] ['a', 'l', 'f', 'a'],
    .request 0 scene ['A', 'A', 'A'] ['a', 'l', 'f', 'a']]

/-- The second request is alive, and is not found. -/
theorem GuildWorld.not_createsListed_again :
    ¬ ∀ w, RunSteps.Reaches (GuildWorld.next Pending.config)
      (GuildWorld.start Pending.names Pending.names_nodup) Pending.again w → w.CreatesListed := by
  intro h
  have hrun : ((RunSteps.run (GuildWorld.next Pending.config)
      (GuildWorld.start Pending.names Pending.names_nodup) Pending.again).map fun w =>
        ((w.creating 1).map (·.id.tag), (w.getCreate ['A', 'A', 'A']).isNone)) =
      some (some ['A', 'A', 'A'], true) := by
    decide
  obtain ⟨w, hw, heq⟩ := Option.map_eq_some_iff.mp hrun
  obtain ⟨hlive, hnone⟩ := Prod.mk.inj heq
  obtain ⟨create, hcreate, htag⟩ := Option.map_eq_some_iff.mp hlive
  have hfound := (h w (RunSteps.reaches_of_run hw)).live 1 create hcreate
  rw [htag, Option.isNone_iff_eq_none.mp hnone] at hfound
  cases hfound

end ArenaServ
