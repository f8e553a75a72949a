import ArenaServ.GuildInvariant
import ArenaServ.RunSteps

/-!
# Ranks in a guild

`Guild_Rank` changes the rank of a member, in the list of the guild and in the `Character`
object, or else in the row. Who may do that, and who may remove a member by `Guild_Kick`, depends
on the rank of the `Character` object of who asks for it.
-/

namespace ArenaServ
open Function

/-- What the configuration says about ranks. -/
structure RankConfig where
  guildPromoteRank : ℤ
  guildDemoteRank : ℤ
  guildPromoteSameRank : ℤ
  guildMultipleFounders : Bool

def GuildMember.regraded (rank : ℕ) (m : GuildMember) : GuildMember := { m with rank := rank }

namespace GuildWorld

/-- The characters in memory with a name, up to one that is online. Without one that is online
the database is changed. -/
def regrade (name : RealName) (rank : ℕ) : List ℕ → GuildWorld → GuildWorld
  | [], w => { w with row := update w.row name ((w.row name).map ({ · with rank := rank })) }
  | c :: rest, w =>
      if (w.character c).name = name then
        let w' := w.setCharacter c ({ · with rank := rank })
        if c ∈ w.characters then w' else regrade name rank rest w'
      else regrade name rank rest w

def setMemberRank (g : ℕ) (name : RealName) (rank : ℕ) (w : GuildWorld) : GuildWorld :=
  match w.guild g with
  | none => w
  | some guild =>
      if guild.members.any (·.name = name) then
        let w := w.setGuild g { guild with
          members := FirstMatch.alterFirst (·.name = name) (fun m => some (m.regraded rank))
            guild.members }
        w.regrade name rank w.loaded
      else w

/-- Whether a member may be given a rank other than 0. -/
def mayRank (cfg : RankConfig) (own target rank : ℕ) : Bool :=
  (if rank ≤ target then decide ((own : ℤ) ≤ cfg.guildPromoteRank)
    else decide ((own : ℤ) ≤ cfg.guildDemoteRank)) &&
  (decide (own = 0) || decide (own < target)) &&
  (decide (own < rank) ||
    (decide ((own : ℤ) ≤ cfg.guildPromoteSameRank) && decide (own ≤ rank)))

/-- `Guild_Rank`. The rank is a byte of the packet. -/
def rank (cfg : RankConfig) (c : ℕ) (scene : GuildScene) (rank : ℕ) (name : List Char)
    (w : GuildWorld) : GuildWorld :=
  if 10 < rank ∨ 12 < name.length ∨ scene.atMaster = false then w
  else
    match (w.character c).guild with
    | none => w
    | some g =>
        match w.guild g with
        | none => w
        | some guild =>
            match guild.members.find? (·.name = RealName.of name) with
            | none => w
            | some target =>
                if target.rank = 0 then w
                else if rank = 0 then
                  if (w.character c).rank = 0 ∧ cfg.guildMultipleFounders then
                    w.setMemberRank g target.name 0
                  else w
                else if mayRank cfg (w.character c).rank target.rank rank then
                  w.setMemberRank g target.name rank
                else w

end GuildWorld

/-- A request, with what the configuration is then. -/
inductive RankStep where
  | rank (cfg : RankConfig) (c : ℕ) (scene : GuildScene) (rank : ℕ) (name : List Char)
  | kick (cfg : GuildConfig) (c : ℕ) (scene : GuildScene) (name : List Char)

def RankStep.actor : RankStep → ℕ
  | .rank _ c _ _ _ => c
  | .kick _ c _ _ => c

namespace GuildWorld

/-- A request by a member of a guild that is online. -/
def rankStep (g : ℕ) (w : GuildWorld) (a : RankStep) : Option GuildWorld :=
  if a.actor ∈ w.characters ∧ (w.character a.actor).guild = some g then
    match a with
    | .rank cfg c scene r name => some (w.rank cfg c scene r name)
    | .kick cfg c scene name => some (w.kick cfg c scene name)
  else none

/-- The list of a guild agrees with the characters in memory that point to it. -/
structure Graded (g : ℕ) (guild : Guild) (w : GuildWorld) : Prop where
  live : w.guild g = some guild
  loaded : w.loaded.Nodup
  distinct : ∀ c ∈ w.loaded, ∀ d ∈ w.loaded, (w.character c).name = (w.character d).name → c = d
  online : w.characters ⊆ w.loaded
  names : (guild.members.map (·.name)).Nodup
  graded : ∀ c ∈ w.loaded, (w.character c).guild = some g →
    (⟨(w.character c).name, (w.character c).rank⟩ : GuildMember) ∈ guild.members

variable {g c : ℕ} {guild : Guild} {w w' : GuildWorld} {n : RealName} {r : ℕ}

/-- The only member with a name is the one that is found. -/
theorem Graded.find (h : w.Graded g guild) {m : GuildMember} (hm : m ∈ guild.members) :
    guild.members.find? (·.name = m.name) = some m := by
  apply FirstMatch.find?_key _ hm
  intro m' hm' heq
  exact List.inj_on_of_nodup_map h.names hm' hm heq

/-! ## The rank of a member is set -/

/-- The list with another rank for a name. -/
def regradedList (n : RealName) (r : ℕ) (members : List GuildMember) : List GuildMember :=
  members.map fun m => if m.name = n then m.regraded r else m

theorem alterFirst_regraded {members : List GuildMember} (h : (members.map (·.name)).Nodup) :
    FirstMatch.alterFirst (·.name = n) (fun m => some (m.regraded r)) members =
      regradedList n r members := by
  induction members with
  | nil => rfl
  | cons m rest ih =>
      obtain ⟨hm, hrest⟩ := List.nodup_cons.mp h
      rw [FirstMatch.alterFirst, regradedList, List.map_cons]
      by_cases hn : m.name = n
      · have hsame : rest.map (fun m => if m.name = n then m.regraded r else m) = rest := by
          apply (List.map_congr_left _).trans (List.map_id rest)
          intro m' hm'
          rw [if_neg]
          · rfl
          intro hn'
          apply hm
          change m.name ∈ _
          rw [hn, ← hn']
          exact List.mem_map_of_mem hm'
        rw [if_pos (decide_eq_true hn), if_pos hn, hsame]
        rfl
      · rw [if_neg (by simpa using hn), if_neg hn, ih hrest]
        rfl

theorem map_name_regradedList (n : RealName) (r : ℕ) (members : List GuildMember) :
    (regradedList n r members).map (·.name) = members.map (·.name) := by
  unfold regradedList
  rw [List.map_map]
  apply List.map_congr_left
  intro m _
  dsimp only [Function.comp_apply]
  split_ifs <;> rfl

/-- What the loop over the characters changes. -/
structure Regraded (n : RealName) (r : ℕ) (w w' : GuildWorld) : Prop where
  guild : w'.guild = w.guild
  loaded : w'.loaded = w.loaded
  characters : w'.characters = w.characters
  others : ∀ c, (w.character c).name ≠ n → w'.character c = w.character c
  same : ∀ c, (w'.character c).name = (w.character c).name ∧
    (w'.character c).guild = (w.character c).guild

theorem Regraded.refl (n : RealName) (r : ℕ) (w : GuildWorld) : Regraded n r w w :=
  ⟨rfl, rfl, rfl, fun _ _ => rfl, fun _ => ⟨rfl, rfl⟩⟩

theorem regraded_setCharacter (hc : (w.character c).name = n) :
    Regraded n r w (w.setCharacter c ({ · with rank := r })) := by
  refine ⟨rfl, rfl, rfl, ?_, ?_⟩
  · intro d hd
    apply update_of_ne
    rintro rfl
    exact hd hc
  · intro d
    unfold setCharacter
    dsimp only
    by_cases hd : d = c
    · rw [hd, update_self]
      exact ⟨rfl, rfl⟩
    · rw [update_of_ne hd]
      exact ⟨rfl, rfl⟩

theorem Regraded.trans {w'' : GuildWorld} (h : Regraded n r w w') (h' : Regraded n r w' w'') :
    Regraded n r w w'' where
  guild := h'.guild.trans h.guild
  loaded := h'.loaded.trans h.loaded
  characters := h'.characters.trans h.characters
  others c hc := by
    rw [h'.others c (by rw [(h.same c).1]; exact hc), h.others c hc]
  same c := ⟨(h'.same c).1.trans (h.same c).1, (h'.same c).2.trans (h.same c).2⟩

theorem regraded_regrade (n : RealName) (r : ℕ) (l : List ℕ) :
    Regraded n r w (w.regrade n r l) := by
  induction l generalizing w with
  | nil => exact ⟨rfl, rfl, rfl, fun _ _ => rfl, fun _ => ⟨rfl, rfl⟩⟩
  | cons c rest ih =>
      rw [regrade]
      by_cases hc : (w.character c).name = n
      · rw [if_pos hc]
        dsimp only
        split_ifs
        · exact regraded_setCharacter hc
        · exact (regraded_setCharacter hc).trans ih
      · rw [if_neg hc]
        exact ih

theorem character_regrade_of_forall {l : List ℕ} (h : ∀ d ∈ l, (w.character d).name ≠ n) :
    (w.regrade n r l).character = w.character := by
  induction l with
  | nil => rfl
  | cons d rest ih =>
      rw [regrade, if_neg (h d List.mem_cons_self)]
      exact ih fun e he => h e (List.mem_cons_of_mem _ he)

/-- The character in memory with the name has the rank then. -/
theorem rank_regrade {l : List ℕ} (hnodup : l.Nodup)
    (honly : ∀ d ∈ l, (w.character d).name = n → d = c) (hc : c ∈ l)
    (hname : (w.character c).name = n) : ((w.regrade n r l).character c).rank = r := by
  induction l with
  | nil => cases hc
  | cons d rest ih =>
      obtain ⟨hnotin, hnodup⟩ := List.nodup_cons.mp hnodup
      rw [regrade]
      by_cases hd : (w.character d).name = n
      · have heq := honly d List.mem_cons_self hd
        subst heq
        have hself : ((w.setCharacter d ({ · with rank := r })).character d).rank = r := by
          unfold setCharacter
          dsimp only
          rw [update_self]
        rw [if_pos hd]
        dsimp only
        split_ifs
        · exact hself
        · rw [character_regrade_of_forall]
          · exact hself
          · intro e he hen
            rw [((regraded_setCharacter (r := r) hd).same e).1] at hen
            exact hnotin (honly e (List.mem_cons_of_mem _ he) hen ▸ he)
      · rw [if_neg hd]
        apply ih hnodup fun e he => honly e (List.mem_cons_of_mem _ he)
        rcases List.mem_cons.mp hc with rfl | hc
        · exact absurd hname hd
        · exact hc

theorem graded_setMemberRank (h : w.Graded g guild) (hn : n ∈ guild.members.map (·.name)) :
    (w.setMemberRank g n r).Graded g
      { guild with members := regradedList n r guild.members } := by
  have hany : guild.members.any (·.name = n) = true := by
    obtain ⟨m, hm, hmn⟩ := List.mem_map.mp hn
    exact List.any_eq_true.mpr ⟨m, hm, decide_eq_true hmn⟩
  have heq : w.setMemberRank g n r =
      (w.setGuild g { guild with members := regradedList n r guild.members }).regrade n r
        w.loaded := by
    unfold setMemberRank
    rw [h.live]
    dsimp only
    rw [if_pos hany, alterFirst_regraded h.names]
    rfl
  have hr := regraded_regrade (w := w.setGuild g { guild with
    members := regradedList n r guild.members }) n r w.loaded
  rw [heq]
  have hname : ∀ c, (((w.setGuild g
      { guild with members := regradedList n r guild.members }).regrade n r w.loaded).character
        c).name = (w.character c).name := fun c => (hr.same c).1
  constructor
  · rw [hr.guild]
    exact update_self ..
  · rw [hr.loaded]
    exact h.loaded
  · rw [hr.loaded]
    intro c hc d hd hcd
    rw [hname, hname] at hcd
    exact h.distinct c hc d hd hcd
  · rw [hr.characters, hr.loaded]
    exact h.online
  · rw [map_name_regradedList]
    exact h.names
  · intro c hc hcg
    rw [hr.loaded] at hc
    rw [(hr.same c).2] at hcg
    have hold := h.graded c hc hcg
    by_cases hcn : (w.character c).name = n
    · have hrank := rank_regrade (r := r) (w := w.setGuild g { guild with
        members := regradedList n r guild.members }) (l := w.loaded) h.loaded
        (fun d hd hdn => h.distinct d hd c hc (hdn.trans hcn.symm)) hc hcn
      rw [hname, hrank]
      refine List.mem_map.mpr ⟨_, hold, ?_⟩
      rw [if_pos hcn]
      rfl
    · have hsame := hr.others c hcn
      rw [hsame]
      refine List.mem_map.mpr ⟨_, hold, ?_⟩
      rw [if_neg hcn]
      rfl

/-! ## A member is removed -/

theorem guild_release_of_ne {old : ℕ} (hne : g ≠ old) (pin : Option ℕ) :
    (w.release pin old).guild g = w.guild g := by
  unfold release
  split_ifs
  · rfl
  · unfold deleteGuild
    cases hold : w.guild old with
    | none => rfl
    | some guild =>
        dsimp only
        split_ifs
        · exact update_of_ne hne ..
        · exact update_of_ne hne ..

/-- A character that is expelled points to no guild, and the guild is kept by another one. -/
theorem point_none {d : ℕ} (hd : d ≠ c) (hc : c ∈ w.loaded)
    (hguild : (w.character c).guild = some g) :
    (w.point none d none 0).guild g = w.guild g ∧
      (w.point none d none 0).character =
        update w.character d { w.character d with guild := none, rank := 0 } ∧
      (w.point none d none 0).loaded = w.loaded ∧
      (w.point none d none 0).characters = w.characters := by
  unfold point
  cases hold : (w.character d).guild with
  | none => exact ⟨rfl, rfl, rfl, rfl⟩
  | some old =>
      dsimp only
      obtain ⟨hcharacter, hloaded, hcharacters⟩ :=
        character_release (w.setCharacter d ({ · with guild := none, rank := 0 })) none old
      refine ⟨?_, hcharacter, hloaded, hcharacters⟩
      by_cases hne : g = old
      · have hheld : (w.setCharacter d ({ · with guild := none, rank := 0 })).Held old := by
          refine ⟨c, hc, ?_⟩
          unfold setCharacter
          dsimp only
          rw [update_of_ne hd.symm, hguild, hne]
        unfold release
        rw [if_pos (Or.inr hheld)]
        rfl
      · exact guild_release_of_ne hne none

theorem graded_delMember (h : w.Graded g guild) (hc : c ∈ w.loaded)
    (hguild : (w.character c).guild = some g) {name : List Char}
    (hname : (w.character c).name ≠ RealName.of name) :
    (w.delMember none g name).Graded g (Guild.without guild (RealName.of name)) := by
  have heq : w.delMember none g name =
      (w.setGuild g (Guild.without guild (RealName.of name))).expel none (RealName.of name)
        w.loaded := by
    unfold delMember
    rw [h.live]
    rfl
  have hmembers : ∀ m ∈ guild.members, m.name ≠ RealName.of name →
      m ∈ (Guild.without guild (RealName.of name)).members := by
    intro m hm hne
    exact (List.mem_eraseP_of_neg (by simpa using hne)).mpr hm
  have hnames : ((Guild.without guild (RealName.of name)).members.map (·.name)).Nodup :=
    (List.eraseP_sublist.map _).nodup h.names
  have hlive : (w.setGuild g (Guild.without guild (RealName.of name))).guild g =
      some (Guild.without guild (RealName.of name)) := update_self ..
  rw [heq]
  by_cases hd : ∃ d ∈ w.loaded, (w.character d).name = RealName.of name
  · obtain ⟨d, hd, hdn⟩ := hd
    have hdc : d ≠ c := by
      rintro rfl
      exact hname hdn
    obtain ⟨hkept, hcharacter, hloaded, hcharacters⟩ :=
      point_none (w := w.setGuild g (Guild.without guild (RealName.of name))) hdc hc hguild
    have hgraded : ∀ row, Graded g (Guild.without guild (RealName.of name))
        { (w.setGuild g (Guild.without guild (RealName.of name))).point none d none 0 with
          row := row } := by
      intro row
      have hsame : ∀ e, e ≠ d → ((w.setGuild g (Guild.without guild (RealName.of name))).point
          none d none 0).character e = w.character e := by
        intro e he
        rw [hcharacter]
        exact update_of_ne he ..
      have hnamed : ∀ e, (((w.setGuild g (Guild.without guild (RealName.of name))).point
          none d none 0).character e).name = (w.character e).name := fun e => name_point _ _ _ _ _ e
      refine ⟨hkept.trans hlive, hloaded ▸ h.loaded, ?_, ?_, hnames, ?_⟩
      · intro e he e' he' hee
        dsimp only at he he' hee
        rw [hloaded] at he he'
        rw [hnamed, hnamed] at hee
        exact h.distinct e he e' he' hee
      · dsimp only
        rw [hcharacters, hloaded]
        exact h.online
      · intro e he heg
        dsimp only at he heg ⊢
        rw [hloaded] at he
        by_cases hed : e = d
        · subst hed
          rw [hcharacter, update_self] at heg
          cases heg
        · rw [hsame e hed] at heg ⊢
          apply hmembers _ (h.graded e he heg)
          intro hen
          exact hed (h.distinct e he d hd (hen.trans hdn.symm))
    have hexpel := expel_of_mem (w := w.setGuild g (Guild.without guild (RealName.of name))) none
      h.loaded (fun e he hen => h.distinct e he d hd (hen.trans hdn.symm)) hd hdn
    rw [hexpel]
    split_ifs
    · exact hgraded _
    · exact hgraded _
  · have hforall : ∀ d ∈ w.loaded, (w.character d).name ≠ RealName.of name :=
      fun d hdl hdn => hd ⟨d, hdl, hdn⟩
    have hexpel := @expel_of_forall (w.setGuild g (Guild.without guild (RealName.of name)))
      (RealName.of name) none w.loaded hforall
    rw [hexpel]
    refine ⟨hlive, h.loaded, h.distinct, h.online, hnames, ?_⟩
    intro e he heg
    exact hmembers _ (h.graded e he heg) (hforall e he)

end GuildWorld

end ArenaServ
