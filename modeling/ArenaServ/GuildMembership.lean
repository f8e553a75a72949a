import ArenaServ.GuildInvariant
import ArenaServ.RunSteps
import Mathlib.Data.List.Find

/-!
# Guild membership

The lists of the guilds in memory agree with the pointers of the characters in every state of a
run in which no one who is pending for a new guild has joined another one by the time it is
created, and in which no guild is read from the database while the row of a character in memory
still names it.
-/

namespace ArenaServ
open Function RunSteps

namespace GuildWorld

variable {w w' : GuildWorld} {c d g : ℕ} {n : RealName} {pin : Option ℕ} {guild : Guild}

/-! ## Characters -/

/-- A character is saved with its columns. -/
theorem sound_save (h : w.Sound pin) (hc : c ∈ w.characters) : (w.save c).Sound pin := by
  have hloaded := h.online hc
  have hself : (w.save c).row (w.character c).name = w.rankOf c := update_self _ _ w.row
  have hother : ∀ m, m ≠ (w.character c).name → (w.save c).row m = w.row m :=
    fun m hm => update_of_ne hm _ _
  have hcolumns : ∀ m, (w.save c).columns m = w.columns m := by
    intro m
    by_cases hm : ∃ d ∈ w.loaded, (w.character d).name = m
    · obtain ⟨d, hd, rfl⟩ := hm
      have hfind := h.find_loaded hd
      unfold columns
      have hfind' : ((w.save c).loaded.find? fun e =>
          ((w.save c).character e).name = (w.character d).name) = some d := hfind
      rw [hfind, hfind']
      rfl
    · have hunloaded : ∀ d ∈ w.loaded, (w.character d).name ≠ m := fun d hd heq => hm ⟨d, hd, heq⟩
      rw [columns_of_unloaded hunloaded, columns_of_unloaded (w := w.save c) hunloaded]
      exact hother m (hunloaded c hloaded).symm
  refine ⟨h.nodup, h.distinct, h.known, h.online, h.freshCharacter, h.freshGuild, h.pointed, h.held,
    h.unique, h.kept, h.cached, h.cache_live, h.ranks, ?_, ?_, ?_⟩
  · intro m s hs
    by_cases hm : m = (w.character c).name
    · rw [hm, hself] at hs
      obtain ⟨guild, hguild, heq⟩ := Option.map_eq_some_iff.mp hs
      obtain ⟨g, -, hlive⟩ := Option.bind_eq_some_iff.mp hguild
      obtain ⟨x, hx, hid⟩ := h.kept g guild hlive
      rw [hm, ← heq]
      exact ⟨h.known c hloaded, h.ranks c hloaded, x, hx, congrArg GuildId.tag hid⟩
    · rw [hother m hm] at hs
      exact h.rows m s hs
  · intro d hd hoff
    have hne : (w.character d).name ≠ (w.character c).name := by
      intro heq
      rw [h.distinct d hd c hloaded heq] at hoff
      exact hoff hc
    exact (hother _ hne).trans (h.synced d hd hoff)
  · intro g guild hg m
    rw [hcolumns]
    exact h.entries g guild hg m

/-- A character is forgotten whose row has its columns. -/
theorem sound_forget (h : w.Sound none) (hc : c ∈ w.loaded)
    (hrow : w.row (w.character c).name = w.rankOf c) :
    Sound (w.character c).guild { w with
      loaded := w.loaded.filter (· ≠ c)
      characters := w.characters.filter (· ≠ c) } := by
  have hmem : ∀ d, d ∈ w.loaded.filter (· ≠ c) → d ∈ w.loaded ∧ d ≠ c := by
    intro d hd
    obtain ⟨hd, hne⟩ := List.mem_filter.mp hd
    exact ⟨hd, of_decide_eq_true hne⟩
  have hcolumns : ∀ m, columns { w with
      loaded := w.loaded.filter (· ≠ c)
      characters := w.characters.filter (· ≠ c) } m = w.columns m := by
    intro m
    by_cases hm : ∃ d ∈ w.loaded, (w.character d).name = m
    · obtain ⟨d, hd, rfl⟩ := hm
      rw [h.columns_of_loaded hd]
      by_cases hdc : d = c
      · rw [hdc, columns_of_unloaded]
        · exact hrow
        · intro e he heq
          obtain ⟨he, hne⟩ := hmem e he
          exact hne (h.distinct e he c hc heq)
      · have hfind : ((w.loaded.filter (· ≠ c)).find? fun e =>
            (w.character e).name = (w.character d).name) = some d := by
          apply FirstMatch.find?_key
          · exact fun e he heq => h.distinct e (hmem e he).1 d hd heq
          · exact List.mem_filter.mpr ⟨hd, decide_eq_true hdc⟩
        unfold columns
        dsimp only
        rw [hfind]
        rfl
    · have hunloaded : ∀ d ∈ w.loaded, (w.character d).name ≠ m := fun d hd heq => hm ⟨d, hd, heq⟩
      rw [columns_of_unloaded hunloaded, columns_of_unloaded]
      exact fun d hd => hunloaded d (hmem d hd).1
  refine ⟨h.nodup.filter _, ?_, ?_, ?_, ?_, h.freshGuild, ?_, ?_, h.unique, h.kept, h.cached,
    h.cache_live, ?_, h.rows, ?_, ?_⟩
  · exact fun d hd e he => h.distinct d (hmem d hd).1 e (hmem e he).1
  · exact fun d hd => h.known d (hmem d hd).1
  · intro d hd
    obtain ⟨hd, hne⟩ := List.mem_filter.mp hd
    exact List.mem_filter.mpr ⟨h.online hd, hne⟩
  · exact fun d hd => h.freshCharacter d (hmem d hd).1
  · exact fun d hd => h.pointed d (hmem d hd).1
  · intro g hg
    rcases h.held g hg with hpin | ⟨d, hd, hguild⟩
    · cases hpin
    · by_cases hdc : d = c
      · rw [← hdc]
        exact Or.inl hguild
      · exact Or.inr ⟨d, List.mem_filter.mpr ⟨hd, decide_eq_true hdc⟩, hguild⟩
  · exact fun d hd => h.ranks d (hmem d hd).1
  · intro d hd hoff
    obtain ⟨hd, hne⟩ := hmem d hd
    apply h.synced d hd
    intro hon
    exact hoff (List.mem_filter.mpr ⟨hon, decide_eq_true hne⟩)
  · intro g guild hg m
    rw [hcolumns]
    exact h.entries g guild hg m

theorem sound_destroy (h : w.Sound none) (hc : c ∈ w.loaded)
    (hrow : w.row (w.character c).name = w.rankOf c) : (w.destroy c).Sound none := by
  have hforgot := sound_forget h hc hrow
  unfold destroy
  dsimp only
  cases hguild : (w.character c).guild with
  | none =>
      rw [hguild] at hforgot
      cases (w.character c).create with
      | none => exact hforgot
      | some k => exact (same_deleteCreate _ k).sound hforgot
  | some g =>
      rw [hguild] at hforgot
      apply sound_release
      cases (w.character c).create with
      | none => exact hforgot
      | some k => exact (same_deleteCreate _ k).sound hforgot

theorem sound_unload (h : w.Sound none) (hc : c ∈ w.loaded) : (w.unload c).Sound none := by
  unfold unload
  split_ifs with hon
  · exact sound_destroy (sound_save h hon) hc (update_self _ _ w.row)
  · exact sound_destroy h hc (h.synced c hc hon)

/-- A character comes into memory with the columns of its row. -/
theorem sound_addCharacter (h : w.Sound pin) (hn : n ∈ w.names)
    (hunloaded : ∀ c ∈ w.loaded, (w.character c).name ≠ n) {character : GuildCharacter}
    (hname : character.name = n) (hrank : character.rank ≤ 9)
    (hpoints : ∀ g, character.guild = some g → w.guild g ≠ none)
    (hpin : ∀ g, pin = some g → character.guild = some g)
    (hrow : w.row n = (character.guild.bind w.guild).map fun guild =>
      ⟨guild.id.tag, character.rank⟩) :
    Sound none { w with
      loaded := w.loaded ++ [w.nextCharacter]
      character := update w.character w.nextCharacter character
      nextCharacter := w.nextCharacter + 1 } := by
  have hold : ∀ c ∈ w.loaded, update w.character w.nextCharacter character c = w.character c := by
    intro c hc
    have hlt := h.freshCharacter c hc
    exact update_of_ne (by omega) _ _
  have hself : update w.character w.nextCharacter character w.nextCharacter = character :=
    update_self _ _ _
  have hnew : ∀ c ∈ w.loaded ++ [w.nextCharacter], c ∈ w.loaded ∨ c = w.nextCharacter := by
    intro c hc
    rcases List.mem_append.mp hc with hc | hc
    · exact Or.inl hc
    · exact Or.inr (List.mem_singleton.mp hc)
  have hoff : w.nextCharacter ∉ w.characters := by
    intro hon
    have hlt := h.freshCharacter _ (h.online hon)
    omega
  have hcolumns : ∀ m, columns { w with
      loaded := w.loaded ++ [w.nextCharacter]
      character := update w.character w.nextCharacter character
      nextCharacter := w.nextCharacter + 1 } m = w.columns m := by
    intro m
    have hfind : ((w.loaded ++ [w.nextCharacter]).find? fun c =>
        (update w.character w.nextCharacter character c).name = m) =
        (w.loaded.find? fun c => (w.character c).name = m).or
          (if character.name = m then some w.nextCharacter else none) := by
      rw [List.find?_append, List.find?_congr fun c hc => by rw [hold c hc], List.find?_singleton]
      simp only [hself, decide_eq_true_eq]
    unfold columns
    dsimp only
    rw [hfind]
    cases hfound : w.loaded.find? fun c => (w.character c).name = m with
    | some c =>
        rw [Option.some_or]
        dsimp only [rankOf]
        rw [hold c (List.mem_of_find?_eq_some hfound)]
    | none =>
        rw [Option.none_or]
        by_cases hm : character.name = m
        · rw [if_pos hm, ← hm, hname, hrow]
          dsimp only [rankOf]
          rw [hself]
        · rw [if_neg hm]
  refine ⟨?_, ?_, ?_, ?_, ?_, h.freshGuild, ?_, ?_, h.unique, h.kept, h.cached, h.cache_live, ?_,
    h.rows, ?_, ?_⟩
  · apply h.nodup.append (List.nodup_singleton _)
    apply List.disjoint_singleton.mpr
    intro hin
    have hlt := h.freshCharacter _ hin
    omega
  · intro c hc d hd heq
    dsimp only at heq
    rcases hnew c hc with hc | rfl <;> rcases hnew d hd with hd | rfl
    · rw [hold c hc, hold d hd] at heq
      exact h.distinct c hc d hd heq
    · rw [hold c hc, hself, hname] at heq
      exact absurd heq (hunloaded c hc)
    · rw [hold d hd, hself, hname] at heq
      exact absurd heq.symm (hunloaded d hd)
    · rfl
  · intro c hc
    dsimp only
    rcases hnew c hc with hc | rfl
    · rw [hold c hc]
      exact h.known c hc
    · rw [hself, hname]
      exact hn
  · exact fun c hc => List.mem_append_left _ (h.online hc)
  · intro c hc
    dsimp only
    rcases hnew c hc with hc | rfl
    · have hlt := h.freshCharacter c hc
      omega
    · omega
  · intro c hc g hguild
    dsimp only at hguild
    rcases hnew c hc with hc | rfl
    · rw [hold c hc] at hguild
      exact h.pointed c hc g hguild
    · rw [hself] at hguild
      exact hpoints g hguild
  · intro g hg
    rcases h.held g hg with hpin' | ⟨c, hc, hguild⟩
    · refine Or.inr ⟨w.nextCharacter, List.mem_append_right _ List.mem_cons_self, ?_⟩
      exact (congrArg GuildCharacter.guild hself).trans (hpin g hpin')
    · refine Or.inr ⟨c, List.mem_append_left _ hc, ?_⟩
      exact (congrArg GuildCharacter.guild (hold c hc)).trans hguild
  · intro c hc
    dsimp only
    rcases hnew c hc with hc | rfl
    · rw [hold c hc]
      exact h.ranks c hc
    · rw [hself]
      exact hrank
  · intro c hc hnoton
    dsimp only [rankOf]
    rcases hnew c hc with hc | rfl
    · rw [hold c hc]
      exact h.synced c hc hnoton
    · rw [hself, hname]
      exact hrow
  · intro g guild hg m
    rw [hcolumns]
    exact h.entries g guild hg m

/-- The constructor reads the guild of the row, unless another character has it in memory. -/
theorem sound_load (h : w.Sound none) (hn : n ∈ w.names)
    (hunloaded : ∀ c ∈ w.loaded, (w.character c).name ≠ n) (playerId : ℕ)
    (hstale : ∀ s, w.row n = some s → w.cache s.tag = none →
      ∀ c ∈ w.loaded, ∀ x, w.row (w.character c).name = some x → x.tag ≠ s.tag) :
    (w.load n playerId).Sound none := by
  unfold load
  cases hrow : w.row n with
  | none =>
      apply sound_addCharacter h hn hunloaded rfl (Nat.zero_le 9)
      · intro g heq
        cases heq
      · intro g heq
        cases heq
      · exact hrow
  | some s =>
      obtain ⟨-, hrank, x, hx, htag⟩ := h.rows n s hrow
      have hupper : Letters.uppercase s.tag = s.tag := htag ▸ x.id.upper
      unfold getGuild findGuild
      dsimp only
      rw [hupper]
      cases hcache : w.cache s.tag with
      | some g =>
          obtain ⟨guild, hlive, hkey | hkey⟩ := h.cache_live _ g hcache
          · apply sound_addCharacter h hn hunloaded rfl hrank
            · rintro g' heq
              rw [← Option.some.inj heq, hlive]
              exact fun heq => nomatch heq
            · exact fun _ heq => nomatch heq
            · dsimp only
              rw [hrow, Option.bind_some, hlive, Option.map_some, ← hkey]
          · rw [← htag] at hkey
            exact absurd hkey (tag_ne_name _ _)
      | none =>
          have hfound : (w.stored.find? fun y => y.id.tag = s.tag).isSome = true := by
            rw [List.find?_isSome]
            exact ⟨x, hx, decide_eq_true htag⟩
          obtain ⟨y, hy⟩ := Option.isSome_iff_exists.mp hfound
          have hytag := List.find?_some hy
          rw [decide_eq_true_iff] at hytag
          have hread := sound_readGuild h (List.mem_of_find?_eq_some hy)
            (Or.inl (hytag ▸ hcache)) (hytag ▸ hstale s hrow hcache)
          have hself : (w.readGuild y).2.guild w.nextGuild =
              some ⟨y.id, w.readMembers y.id.tag, y.bank⟩ := update_self _ _ w.guild
          dsimp only
          rw [hy]
          apply sound_addCharacter hread hn hunloaded rfl hrank
          · rintro g' heq
            rw [← Option.some.inj heq]
            exact fun hnone => nomatch hself.symm.trans hnone
          · exact fun _ heq => heq
          · refine hrow.trans ?_
            have hbind : ((some w.nextGuild).bind (w.readGuild y).2.guild) =
                some ⟨y.id, w.readMembers y.id.tag, y.bank⟩ := hself
            refine Eq.trans ?_ (congrArg _ hbind).symm
            rw [Option.map_some, hytag]
            rfl

/-! ## A new guild -/

/-- The characters that are online of those who are pending for a new guild. -/
def joiners (w : GuildWorld) (create : GuildCreate) : List ℕ :=
  create.members.filterMap fun m => w.getCharacterReal m.name.1

theorem mem_of_getCharacterReal {name : List Char} (h : w.getCharacterReal name = some c) :
    c ∈ w.characters := List.mem_of_find?_eq_some h

/-- Those who are pending join one after the other, when none of them has a guild. -/
theorem sound_joinAll (create : GuildCreate) {members : List GuildMember} (h : w.Sound (some g))
    (hlive : w.guild g = some guild)
    (hnodup : (members.filterMap fun m => w.getCharacterReal m.name.1).Nodup)
    (hfree : ∀ c ∈ members.filterMap fun m => w.getCharacterReal m.name.1,
      (w.character c).guild = none) :
    (members.foldl (fun (w : GuildWorld) m =>
      match w.getCharacterReal m.name.1 with
      | none => w
      | some c => w.addMember (some g) g c (if c = create.leader then 0 else 9)) w).Sound
        (some g) := by
  induction members generalizing w guild with
  | nil => exact h
  | cons m rest ih =>
      rw [List.foldl_cons]
      cases hc : w.getCharacterReal m.name.1 with
      | none =>
          rw [List.filterMap_cons_none (f := fun m : GuildMember => w.getCharacterReal m.name.1) hc]
            at hnodup hfree
          exact ih h hlive hnodup hfree
      | some c =>
          rw [List.filterMap_cons_some (f := fun m : GuildMember => w.getCharacterReal m.name.1) hc]
            at hnodup hfree
          obtain ⟨hnotin, hnodup⟩ := List.nodup_cons.mp hnodup
          have hnone := hfree c List.mem_cons_self
          have hrank : (if c = create.leader then 0 else 9) ≤ 9 := by
            split_ifs <;> decide
          have hnext := sound_addMember h (mem_of_getCharacterReal hc) hnone hlive hrank
          have hsettle := addMember_of_none (some g) hnone hlive
            (if c = create.leader then 0 else 9)
          have hframed : FramedOthers (w.character c).name w (w.addMember (some g) g c
              (if c = create.leader then 0 else 9)) := by
            rw [hsettle]
            exact framedOthers_settle (fun _ _ => rfl)
          -- the names are the same, and so are those who come next
          have hsame : ∀ name, (w.addMember (some g) g c
              (if c = create.leader then 0 else 9)).getCharacterReal name =
                w.getCharacterReal name := by
            intro name
            unfold getCharacterReal
            rw [hframed.characters]
            simp only [hframed.name]
          dsimp only
          apply ih hnext
          · rw [hsettle]
            exact update_self _ _ _
          · simp only [hsame]
            exact hnodup
          · intro d hd
            simp only [hsame] at hd
            have hne : d ≠ c := fun heq => hnotin (heq ▸ hd)
            rw [hsettle, character_settle_of_ne hne]
            exact hfree d (List.mem_cons_of_mem _ hd)

/-- The row of a guild whose tag and name no other has. -/
theorem sound_insertGuild (h : w.Sound none) {id : GuildId}
    (hother : ∀ s ∈ w.stored, s.id.tag ≠ id.tag ∧ s.id.name ≠ id.name) :
    (w.insertGuild id).Sound none := by
  have hstored : Sound none { w with
      stored := w.stored ++ [⟨id, 0⟩], nextGuild := w.nextGuild } := by
    apply h.of_stored _ (le_refl _)
    · intro s hs s' hs' heq
      rcases List.mem_append.mp hs with hs | hs <;> rcases List.mem_append.mp hs' with hs' | hs'
      · exact h.unique s hs s' hs' heq
      · rw [List.mem_singleton.mp hs'] at heq
        obtain ⟨htag, hname⟩ := hother s hs
        exact absurd heq (not_or.mpr ⟨htag, hname⟩)
      · rw [List.mem_singleton.mp hs] at heq
        obtain ⟨htag, hname⟩ := hother s' hs'
        exact absurd heq (not_or.mpr ⟨htag.symm, hname.symm⟩)
      · rw [List.mem_singleton.mp hs, List.mem_singleton.mp hs']
    · intro g guild hg
      obtain ⟨s, hs, hid⟩ := h.kept g guild hg
      exact ⟨s, List.mem_append_left _ hs, hid⟩
    · intro n s hs
      obtain ⟨x, hx, htag⟩ := (h.rows n s hs).2.2
      exact ⟨x, List.mem_append_left _ hx, htag⟩
  apply Same.sound _ hstored
  exact ⟨rfl, rfl, rfl, rfl, rfl, rfl, rfl, rfl, rfl, fun _ => rfl, fun _ => rfl, fun _ => rfl⟩

/-- The new guild is read without members. -/
theorem getGuild_insertGuild (h : w.Sound none) {id : GuildId}
    (hother : ∀ s ∈ w.stored, s.id.tag ≠ id.tag ∧ s.id.name ≠ id.name) :
    w.cache id.tag = none ∧
      (w.insertGuild id).getGuild id.tag = some ((w.insertGuild id).readGuild ⟨id, 0⟩) := by
  have hcache : w.cache id.tag = none := by
    by_contra hne
    obtain ⟨g, hg⟩ := Option.ne_none_iff_exists'.mp hne
    obtain ⟨guild, hlive, htag | hname⟩ := h.cache_live _ g hg
    · obtain ⟨s, hs, hid⟩ := h.kept g guild hlive
      exact (hother s hs).1 (hid ▸ htag.symm)
    · exact tag_ne_name _ _ hname
  have hcache' : (w.insertGuild id).cache id.tag = none := hcache
  have hfind : (w.insertGuild id).stored.find? (fun s => s.id.tag = id.tag) = some ⟨id, 0⟩ := by
    unfold insertGuild
    dsimp only
    rw [List.find?_append, List.find?_eq_none.mpr, Option.none_or, List.find?_singleton]
    · exact if_pos (decide_eq_true rfl)
    · intro s hs
      rw [decide_eq_true_iff]
      exact (hother s hs).1
  refine ⟨hcache, ?_⟩
  unfold getGuild findGuild
  rw [id.upper, hcache']
  dsimp only
  rw [hfind]
  rfl

theorem ne_of_not_isStored {id : GuildId} (h : ¬w.isStored id = true) :
    ∀ s ∈ w.stored, s.id.tag ≠ id.tag ∧ s.id.name ≠ id.name := by
  intro s hs
  constructor <;> intro heq <;> apply h <;> exact List.any_eq_true.mpr ⟨s, hs, by simp [heq]⟩

theorem sound_createGuild (h : w.Sound none) {create : GuildCreate}
    (hfree : w.isStored create.id = false →
      (w.joiners create).Nodup ∧ ∀ c ∈ w.joiners create, (w.character c).guild = none)
    (hcreate : w.createGuild create = some w') : w'.Sound none := by
  unfold createGuild at hcreate
  by_cases hany : w.isStored create.id = true
  · rw [if_pos hany] at hcreate
    cases hcreate
  · rw [if_neg hany] at hcreate
    obtain ⟨hnodup, hfree⟩ := hfree (Bool.eq_false_iff.mpr hany)
    have hother := ne_of_not_isStored hany
    have hinserted := sound_insertGuild h hother
    obtain ⟨hcache, hget⟩ := getGuild_insertGuild h hother
    dsimp only at hcreate
    rw [hget] at hcreate
    -- no row has the tag yet, so the guild has no members
    have hread := sound_readGuild hinserted (s := ⟨create.id, 0⟩)
      (List.mem_append_right _ List.mem_cons_self) (Or.inl hcache) (by
        intro c hc x hx htag
        obtain ⟨y, hy, hytag⟩ := (h.rows _ x hx).2.2
        exact (hother y hy).1 (hytag.trans htag))
    rw [← Option.some.inj hcreate]
    exact sound_release (sound_joinAll create hread (update_self _ _ _) hnodup hfree)

/-! ## Handlers -/

variable (cfg : GuildConfig)

theorem sound_getGuild_release (h : w.Sound none) {tag : List Char}
    (hget : w.getGuild tag = some (g, w')) : (w'.release none g).Sound none := by
  apply sound_findGuild_release h _ hget
  intro s hs
  exact Or.inl (of_decide_eq_true hs)

theorem sound_getGuildName_release (h : w.Sound none) {name : List Char}
    (hget : w.getGuildName name = some (g, w')) : (w'.release none g).Sound none := by
  apply sound_findGuild_release h _ hget
  intro s hs
  exact Or.inr (of_decide_eq_true hs)

theorem same_beginCreate (w : GuildWorld) (id : GuildId) (c : ℕ) : Same w (w.beginCreate id c) :=
  ⟨rfl, rfl, rfl, rfl, rfl, rfl, rfl, rfl, rfl, fun _ => rfl, fun _ => rfl, fun _ => rfl⟩

theorem sound_request (h : w.Sound none) (c : ℕ) (scene : GuildScene) (tag name : List Char) :
    (w.request cfg c scene tag name).Sound none := by
  unfold request
  by_cases hlong : 3 < tag.length ∨ Letters.toSize cfg.guildMaxNameLength < name.length
  · rw [if_pos hlong]
    exact h
  rw [if_neg hlong]
  by_cases haway : scene.atMaster = false ∨ (w.character c).guild.isSome ∨
      cfg.guildCreateMembers ≤ 0
  · rw [if_pos haway]
    exact h
  rw [if_neg haway]
  cases htag : w.getGuild tag with
  | some x => exact sound_getGuild_release h htag
  | none =>
      cases hname : w.getGuildName name with
      | some x => exact sound_getGuildName_release h hname
      | none =>
          dsimp only
          by_cases hvalid : GuildManager.validTag tag = true ∧
              GuildManager.validName cfg name = true
          · rw [dif_pos hvalid]
            by_cases hpays : cfg.guildPrice ≤ scene.gold
            · rw [if_pos hpays]
              have hbegun := (same_beginCreate w (GuildId.of cfg tag name hvalid) c).trans
                (same_setCreate _ c w.nextCreate)
              apply Same.sound _ (hbegun.sound h)
              refine ⟨rfl, rfl, rfl, rfl, rfl, rfl, rfl, rfl, rfl, ?_, ?_, ?_⟩ <;> intro d <;>
                dsimp only <;> split_ifs <;> rfl
            · rw [if_neg hpays]
              exact h
          · rw [dif_neg hvalid]
            exact h

theorem sound_accept (h : w.Sound none) (c : ℕ) : (w.accept c).Sound none := by
  unfold accept
  by_cases hinvite : (w.character c).invite = []
  · rw [if_pos hinvite]
    exact h
  · rw [if_neg hinvite]
    refine (same_setCharacter _ c ?_ ?_ ?_).sound ?_
    · exact fun _ => rfl
    · exact fun _ => rfl
    · exact fun _ => rfl
    · cases w.getCreate (w.character c).invite with
      | none => exact h
      | some x =>
          apply Same.sound _ h
          exact ⟨rfl, rfl, rfl, rfl, rfl, rfl, rfl, rfl, rfl, fun _ => rfl, fun _ => rfl,
            fun _ => rfl⟩

/-- The columns of a character that points to a guild have its tag. -/
theorem Sound.columns_of_guild (h : w.Sound pin) (hc : c ∈ w.loaded)
    (hguild : (w.character c).guild = some g) (hlive : w.guild g = some guild) :
    w.columns (RealName.of (w.character c).name.1) =
      some ⟨guild.id.tag, (w.character c).rank⟩ := by
  rw [RealName.of_val, h.columns_of_loaded hc]
  exact rankOf_of_guild hguild hlive

theorem sound_remove (h : w.Sound none) (hc : c ∈ w.characters) (scene : GuildScene) :
    (w.remove c scene).Sound none := by
  unfold remove
  split_ifs with hmaster
  · cases hguild : (w.character c).guild with
    | none => exact h
    | some g =>
        have hloaded := h.online hc
        obtain ⟨guild, hlive⟩ := Option.ne_none_iff_exists'.mp (h.pointed c hloaded g hguild)
        exact (sound_delMember h (Or.inl rfl) hlive
          (h.columns_of_guild hloaded hguild hlive)).1
  · exact h

theorem sound_create (h : w.Sound none) (c : ℕ) (scene : GuildScene)
    (tag name description : List Char)
    (hfree : ∀ create ∈ w.creation cfg c scene tag name description,
      w.isStored create.id = false →
        (w.joiners create).Nodup ∧ ∀ d ∈ w.joiners create, (w.character d).guild = none) :
    (w.create cfg c scene tag name description).Sound none := by
  unfold create
  cases hcreate : (w.creation cfg c scene tag name description).bind w.createGuild with
  | none => exact h
  | some v =>
      obtain ⟨create, hcreation, hv⟩ := Option.bind_eq_some_iff.mp hcreate
      exact (same_setCreate v c none).sound (sound_createGuild h (hfree create hcreation) hv)

theorem sound_player (h : w.Sound none) (c : ℕ) (scene : GuildScene)
    (tag recruiterName : List Char) : (w.player cfg c scene tag recruiterName).Sound none := by
  unfold player
  dsimp only
  by_cases hlong : 3 < (Letters.uppercase tag).length ∨
      12 < (Letters.lowercase recruiterName).length
  · rw [if_pos hlong]
    exact h
  rw [if_neg hlong]
  by_cases haway : scene.atMaster = false ∨ (w.character c).guild.isSome
  · rw [if_pos haway]
    exact h
  rw [if_neg haway]
  cases w.getCharacterReal (Letters.lowercase recruiterName) with
  | none => exact h
  | some recruiter =>
      dsimp only
      split_ifs with hrecruits
      · exact (same_setCharacter w c (f := ({ · with join := Letters.uppercase tag }))
          (fun _ => rfl) (fun _ => rfl) (fun _ => rfl)).sound h
      · exact h

theorem sound_use (h : w.Sound none) (c : ℕ) (scene : GuildScene) (pid : ℕ) :
    (w.use cfg c scene pid).Sound none := by
  unfold use
  cases hjoiner : w.getCharacterPID pid with
  | none => exact h
  | some joiner =>
      cases hguild : (w.character c).guild with
      | none => exact h
      | some g =>
          dsimp only
          cases hlive : w.guild g with
          | none => exact h
          | some guild =>
              dsimp only
              split_ifs with hallowed hpays
              · have hon : joiner ∈ w.characters := List.mem_of_find?_eq_some hjoiner
                have hadded := sound_addMember h hon hallowed.2.1 hlive (le_refl 9)
                cases hlive' : (w.addMember none g joiner 9).guild g with
                | none => exact hadded
                | some guild' =>
                    dsimp only
                    split_ifs with hcost
                    · exact sound_setBank hadded hlive' _
                    · exact hadded
              · exact h
              · exact h

theorem sound_buy (h : w.Sound none) (c : ℕ) (scene : GuildScene) (gold : ℤ) :
    (w.buy cfg c scene gold).Sound none := by
  unfold buy
  split_ifs with haway
  · exact h
  · cases (w.character c).guild with
    | none => exact h
    | some g =>
        cases hlive : w.guild g with
        | none =>
            dsimp only
            rw [hlive]
            exact h
        | some guild =>
            dsimp only
            rw [hlive]
            dsimp only
            split_ifs
            · exact h
            · exact sound_setBank h hlive _
            · exact h

theorem sound_junk (h : w.Sound none) (c : ℕ) (scene : GuildScene) :
    (w.junk cfg c scene).Sound none := by
  unfold junk
  cases (w.character c).guild with
  | none => split_ifs <;> exact h
  | some g =>
      dsimp only
      split_ifs with hmaster hrank
      · exact sound_disband h
      · exact h
      · exact h

theorem sound_kick (h : w.Sound none) (c : ℕ) (scene : GuildScene) (name : List Char) :
    (w.kick cfg c scene name).Sound none := by
  unfold kick
  by_cases haway : 12 < name.length ∨ scene.atMaster = false
  · rw [if_pos haway]
    exact h
  rw [if_neg haway]
  cases (w.character c).guild with
  | none => exact h
  | some g =>
      cases hlive : w.guild g with
      | none =>
          dsimp only
          rw [hlive]
          exact h
      | some guild =>
          dsimp only
          rw [hlive]
          cases hfind : guild.members.find? (·.name = RealName.of name) with
          | none =>
              dsimp only
              rw [hfind]
              split_ifs <;> exact h
          | some target =>
              dsimp only
              rw [hfind]
              dsimp only
              split_ifs with hkicks hrank
              · have hname := List.find?_some hfind
                rw [decide_eq_true_iff] at hname
                have hmember := h.columns_of_mem hlive (List.mem_of_find?_eq_some hfind)
                rw [hname] at hmember
                exact (sound_delMember h (Or.inl rfl) hlive hmember).1
              · exact h
              · exact h

/-! ## Runs -/

/-- Nobody who is pending for a guild that is created is in another one or is pending twice, and
a guild is read from the database only while no character in memory has it in its row. -/
def Unclaimed (w : GuildWorld) : GuildStep → Prop
  | .create c scene tag name description =>
      ∀ create ∈ w.creation cfg c scene tag name description, w.isStored create.id = false →
        (w.joiners create).Nodup ∧ ∀ d ∈ w.joiners create, (w.character d).guild = none
  | .load n _ => ∀ s ∈ w.row n, w.cache s.tag = none →
      ∀ c ∈ w.loaded, ∀ x ∈ w.row (w.character c).name, x.tag ≠ s.tag
  | _ => True

instance (w : GuildWorld) : DecidablePred (Unclaimed cfg w)
  | .create c scene tag name description => inferInstanceAs (Decidable
      (∀ create ∈ w.creation cfg c scene tag name description, w.isStored create.id = false → _))
  | .load n _ => inferInstanceAs (Decidable (∀ s ∈ w.row n, w.cache s.tag = none → _))
  | .request .. | .accept .. | .remove .. | .player .. | .use .. | .buy .. | .junk .. | .kick ..
  | .enter .. | .save .. | .unload .. => isTrue trivial

theorem whenOnline_eq_some {v : GuildWorld} (h : w.whenOnline c v = some w') :
    c ∈ w.characters ∧ v = w' := by
  unfold whenOnline at h
  split_ifs at h with hc
  exact ⟨hc, Option.some.inj h⟩

theorem sound_next (h : w.Sound none) {a : GuildStep} (hfree : w.Unclaimed cfg a)
    (hnext : w.next cfg a = some w') : w'.Sound none := by
  cases a with
  | request c scene tag name =>
      obtain ⟨-, rfl⟩ := whenOnline_eq_some hnext
      exact sound_request cfg h c scene tag name
  | accept c =>
      obtain ⟨-, rfl⟩ := whenOnline_eq_some hnext
      exact sound_accept h c
  | remove c scene =>
      obtain ⟨hc, rfl⟩ := whenOnline_eq_some hnext
      exact sound_remove h hc scene
  | create c scene tag name description =>
      obtain ⟨-, rfl⟩ := whenOnline_eq_some hnext
      exact sound_create cfg h c scene tag name description hfree
  | player c scene tag recruiterName =>
      obtain ⟨-, rfl⟩ := whenOnline_eq_some hnext
      exact sound_player cfg h c scene tag recruiterName
  | use c scene pid =>
      obtain ⟨-, rfl⟩ := whenOnline_eq_some hnext
      exact sound_use cfg h c scene pid
  | buy c scene gold =>
      obtain ⟨-, rfl⟩ := whenOnline_eq_some hnext
      exact sound_buy cfg h c scene gold
  | junk c scene =>
      obtain ⟨-, rfl⟩ := whenOnline_eq_some hnext
      exact sound_junk cfg h c scene
  | kick c scene name =>
      obtain ⟨-, rfl⟩ := whenOnline_eq_some hnext
      exact sound_kick cfg h c scene name
  | load n playerId =>
      rw [next] at hnext
      split_ifs at hnext with hnew
      rw [← Option.some.inj hnext]
      exact sound_load h hnew.1 hnew.2 playerId hfree
  | enter c =>
      rw [next] at hnext
      split_ifs at hnext with hc
      rw [← Option.some.inj hnext]
      refine { h with online := ?_, synced := ?_ }
      · intro d hd
        rcases List.mem_append.mp hd with hd | hd
        · exact h.online hd
        · rw [List.mem_singleton.mp hd]
          exact hc.1
      · intro d hd hoff
        exact h.synced d hd fun hon => hoff (List.mem_append_left _ hon)
  | save c =>
      obtain ⟨hc, rfl⟩ := whenOnline_eq_some hnext
      exact sound_save h hc
  | unload c =>
      rw [next] at hnext
      split_ifs at hnext with hc
      rw [← Option.some.inj hnext]
      exact sound_unload h hc

theorem sound_start (names : List RealName) (nodup : names.Nodup) :
    (start names nodup).Sound none where
  nodup := List.nodup_nil
  distinct _ h := nomatch h
  known _ h := nomatch h
  online := List.nil_subset _
  freshCharacter _ h := nomatch h
  freshGuild _ _ := rfl
  pointed _ h := nomatch h
  held _ h := absurd rfl h
  unique _ h := nomatch h
  kept _ _ h := nomatch h
  cached _ _ h := nomatch h
  cache_live _ _ h := nomatch h
  ranks _ h := nomatch h
  rows _ _ h := nomatch h
  synced _ h := nomatch h
  entries _ _ h := nomatch h

/-- In every state of a run the lists of the guilds and the pointers agree, if no one is in
another guild who is pending for one that is created, and no guild is read that a character in
memory still has in its row. -/
theorem consistent_of_every_unclaimed {names : List RealName} (nodup : names.Nodup)
    {steps : List GuildStep} (h : Every (next cfg) (Unclaimed cfg) (start names nodup) steps)
    (hreach : Reaches (next cfg) (start names nodup) steps w) : w.Consistent :=
  (invariant_of_every (Sound none) (fun _ _ _ hs hfree hnext => sound_next cfg hs hfree hnext)
    (sound_start names nodup) h hreach).consistent

end GuildWorld

/-! ## Two guilds with one member -/

namespace Pending

def config : GuildConfig where
  guildMaxNameLength := 24
  guildMaxDescLength := 240
  guildCreateMembers := 2
  guildPrice := 50000
  guildRecruitRank := 2
  recruitCost := 1000
  guildMaxMembers := 5000
  guildKickRank := 1
  guildDisbandRank := 0
  guildBankMax := 2000000000
  guildMinDeposit := 1000

def scene : GuildScene := ⟨true, 50000, fun _ => true⟩

def names : List RealName := [RealName.of ['a'], RealName.of ['b'], RealName.of ['c']]

theorem names_nodup : names.Nodup := by decide

/-- Everyone is online, the first begins a guild and the second accepts. -/
def begun : List GuildStep :=
  [.load (RealName.of ['a']) 1, .load (RealName.of ['b']) 2, .load (RealName.of ['c']) 3,
    .enter 0, .enter 1, .enter 2,
    .request 0 scene ['A', 'A', 'A'] ['a', 'l', 'f', 'a'], .accept 1]

def created : GuildStep := .create 0 scene ['A', 'A', 'A'] ['a', 'l', 'f', 'a'] []

/-- The third begins another one, which the second accepts as well, before both are created. -/
def steps : List GuildStep :=
  begun ++ [.request 2 scene ['C', 'C', 'C'] ['c', 'e', 't', 'a'], .accept 1, created,
    .create 2 scene ['C', 'C', 'C'] ['c', 'e', 't', 'a'] []]

end Pending

theorem GuildWorld.consistent_founded :
    ∃ w : GuildWorld, (w.guild 0).map (·.members) =
      some [GuildMember.of (RealName.of ['a']) 0, GuildMember.of (RealName.of ['b']) 9] ∧
        w.Consistent := by
  have hrun : ((run (GuildWorld.next Pending.config)
      (GuildWorld.start Pending.names Pending.names_nodup) (Pending.begun ++ [Pending.created])).map
        fun w => (w.guild 0).map (·.members)) =
      some (some [GuildMember.of (RealName.of ['a']) 0, GuildMember.of (RealName.of ['b']) 9]) := by
    decide
  obtain ⟨w, hw, hmembers⟩ := Option.map_eq_some_iff.mp hrun
  exact ⟨w, hmembers, GuildWorld.consistent_of_every_unclaimed Pending.config
    Pending.names_nodup (by decide) (reaches_of_run hw)⟩

/-- The second is in the lists of both guilds. -/
theorem GuildWorld.not_consistent_pending :
    ¬ ∀ w, Reaches (GuildWorld.next Pending.config)
      (GuildWorld.start Pending.names Pending.names_nodup) Pending.steps w → w.Consistent := by
  intro h
  have hrun : ((run (GuildWorld.next Pending.config)
      (GuildWorld.start Pending.names Pending.names_nodup) Pending.steps).map fun w =>
        ((w.guild 0).map (·.members), (w.guild 1).map (·.members))) =
      some (some [GuildMember.of (RealName.of ['a']) 0, GuildMember.of (RealName.of ['b']) 9],
        some [GuildMember.of (RealName.of ['c']) 0, GuildMember.of (RealName.of ['b']) 9]) := by
    decide
  obtain ⟨w, hw, heq⟩ := Option.map_eq_some_iff.mp hrun
  obtain ⟨hfirst, hsecond⟩ := Prod.mk.inj heq
  obtain ⟨guild, hguild, hmembers⟩ := Option.map_eq_some_iff.mp hfirst
  obtain ⟨guild', hguild', hmembers'⟩ := Option.map_eq_some_iff.mp hsecond
  have hin : GuildMember.of (RealName.of ['b']) 9 ∈ guild.members := by
    rw [hmembers]
    decide
  have hin' : GuildMember.of (RealName.of ['b']) 9 ∈ guild'.members := by
    rw [hmembers']
    decide
  exact absurd ((h w (reaches_of_run hw)).one 0 1 guild guild' hguild hguild' _ hin _ hin' rfl)
    (by decide)

end ArenaServ
