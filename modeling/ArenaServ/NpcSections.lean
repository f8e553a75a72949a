import ArenaServ.NpcLoading

/-!
# What the loading of an NPC loses

Each section stores what is in its own list, and a list with a wrong number of fields keeps all
the sections behind it from being read.
-/

namespace ArenaServ.NpcLoading.NpcData
open Util

/-! ## Lists of groups -/

section Groups
variable {n : ℕ} {text : Option (List Char)}

theorem groups_ne_nil {parts : List (List Char)} (hlength : 1 < parts.length)
    (hmod : parts.length % n = 0) : groups n parts ≠ [] := by
  have hle : n ≤ parts.length := Nat.le_of_dvd (by omega) (Nat.dvd_of_mod_eq_zero hmod)
  have hpos : 0 < n := by
    rcases Nat.eq_zero_or_pos n with rfl | hpos
    · rw [Nat.mod_zero] at hmod
      omega
    · exact hpos
  have hdiv : parts.length / n ≠ 0 := (Nat.div_pos hle hpos).ne'
  simp [groups, hdiv]

theorem groupsOf_of_malformed (h : Malformed n text) : groupsOf n text = [] := by
  obtain ⟨t, rfl, -, hmod⟩ := h
  rw [groupsOf, Option.elim_some, if_neg (fun hboth => hmod hboth.2)]

theorem loadGroups_of_malformed (h : Malformed n text)
    (store : List (ℕ → List Char) → NpcData → NpcData) (npc : NpcData) :
    npc.loadGroups n text store = (npc, false) := by
  obtain ⟨t, rfl, hlength, hmod⟩ := h
  rw [loadGroups, Option.elim_some, if_pos hlength, if_pos hmod]

/-- A list is stored as far as there is one. -/
theorem loadGroups_fst (n : ℕ) (text : Option (List Char))
    (store : List (ℕ → List Char) → NpcData → NpcData) (npc : NpcData) :
    (npc.loadGroups n text store).1 =
      if groupsOf n text = [] then npc else store (groupsOf n text) npc := by
  cases text with
  | none => simp [loadGroups, groupsOf]
  | some t =>
      rw [loadGroups, groupsOf, Option.elim_some, Option.elim_some]
      by_cases hlength : 1 < (explode ',' t).length
      · by_cases hmod : (explode ',' t).length % n = 0
        · have hne := groups_ne_nil hlength hmod
          simp [hlength, hmod, hne]
        · simp [hlength, hmod]
      · simp [hlength]

/-- Only a wrong number of fields stops the loading. -/
theorem loadGroups_snd (n : ℕ) (text : Option (List Char))
    (store : List (ℕ → List Char) → NpcData → NpcData) (npc : NpcData) :
    (npc.loadGroups n text store).2 = true ↔ ¬ Malformed n text := by
  cases text with
  | none => simp [loadGroups, Malformed]
  | some t =>
      rw [loadGroups, Option.elim_some]
      by_cases hlength : 1 < (explode ',' t).length
      · by_cases hmod : (explode ',' t).length % n = 0
        · simp [Malformed, hlength, hmod]
        · simp [Malformed, hlength, hmod]
      · simp [Malformed, hlength]

end Groups

/-! ## The loop over the homes -/

section Homes
variable {vend vendor : Int16} {all : List (List Char × List Char)}

theorem storeAt_eq_none_iff {texts : Vector (List Char) 3} {index : ℤ} {text : List Char} :
    storeAt texts index text = none ↔ ¬ (0 ≤ index ∧ index < 3) := by
  unfold storeAt
  split_ifs with h
  · constructor
    · intro hnone
      cases hnone
    · intro hnot
      exact absurd ⟨h.1, by omega⟩ hnot
  · exact ⟨fun _ hin => h ⟨hin.1, by omega⟩, fun _ => rfl⟩

theorem home_storeAnswer {c c' : NpcCitizenship} {parts : List (List Char)} {text : List Char}
    (h : storeAnswer c parts text = some c') : c'.home = c.home := by
  simp only [storeAnswer] at h
  split_ifs at h
  · obtain ⟨questions, -, rfl⟩ := Option.map_eq_some_iff.mp h
    rfl
  · obtain ⟨answers, -, rfl⟩ := Option.map_eq_some_iff.mp h
    rfl
  · exact congrArg NpcCitizenship.home (Option.some.inj h).symm

theorem storeAnswer_eq_none_iff {c : NpcCitizenship} {entry : List Char × List Char}
    (hparts : 2 ≤ (explode '.' entry.1).length) :
    storeAnswer c (explode '.' entry.1) entry.2 = none ↔ ¬ AnswerFits c.home entry := by
  simp only [storeAnswer]
  split_ifs with hquestion hanswer
  · rw [Option.map_eq_none_iff, storeAt_eq_none_iff]
    exact not_congr
      ⟨fun h _ _ _ => h, fun h => h hparts hquestion.1 (Or.inl hquestion.2)⟩
  · rw [Option.map_eq_none_iff, storeAt_eq_none_iff]
    exact not_congr ⟨fun h _ _ _ => h, fun h => h hparts hanswer.1 (Or.inr hanswer.2)⟩
  · have hfits : AnswerFits c.home entry := fun _ hhome hpart =>
      (hpart.elim (fun h => hquestion ⟨hhome, h⟩) fun h => hanswer ⟨hhome, h⟩).elim
    constructor
    · intro hnone
      cases hnone
    · exact fun hnot => absurd hfits hnot

/-- Once the home is known, the loop stores every answer, or writes beyond an array. -/
theorem citizenLoop_some_iff (entries : List (List Char × List Char)) (c : NpcCitizenship)
    (homes : List Home) (r : Option NpcCitizenship × List Home) :
    citizenLoop vend vendor all entries (some c) homes = some r ↔
      (∀ entry ∈ entries, AnswerFits c.home entry) ∧
        (some (entries.foldl answer c), homes) = r := by
  induction entries generalizing c with
  | nil => simp [citizenLoop]
  | cons entry rest ih =>
      rw [citizenLoop, List.foldl_cons, List.forall_mem_cons]
      by_cases hparts : (explode '.' entry.1).length < 2
      · have hfits : AnswerFits c.home entry := fun h => absurd h (Nat.not_le.mpr hparts)
        rw [if_pos hparts, ih, answer, if_pos hparts]
        exact ⟨fun h => ⟨⟨hfits, h.1⟩, h.2⟩, fun h => ⟨h.1.2, h.2⟩⟩
      · rw [if_neg hparts, answer, if_neg hparts]
        have hiff := storeAnswer_eq_none_iff (c := c) (Nat.le_of_not_lt hparts)
        cases hstore : storeAnswer c (explode '.' entry.1) entry.2 with
        | none =>
            rw [Option.bind_none]
            constructor
            · intro h
              cases h
            · intro h
              exact absurd h.1.1 (hiff.mp hstore)
        | some c' =>
            have hfits : AnswerFits c.home entry := by
              by_contra hnot
              rw [hiff.mpr hnot] at hstore
              cases hstore
            rw [Option.bind_some, ih, home_storeAnswer hstore, Option.getD_some]
            exact ⟨fun h => ⟨⟨hfits, h.1⟩, h.2⟩, fun h => ⟨h.1.2, h.2⟩⟩

/-- The first round of the loop looks for the home. -/
theorem citizenLoop_none (entries : List (List Char × List Char)) (homes : List Home) :
    citizenLoop vend vendor all entries none homes =
      (entries.find? (namesInnkeeper vend)).elim (some (none, homes)) fun entry =>
        citizenLoop vend vendor all all (some (.new ((explode '.' entry.1).getD 0 [])))
          (setInnkeeper ((explode '.' entry.1).getD 0 []) vendor homes) := by
  induction entries with
  | nil => simp [citizenLoop]
  | cons entry rest ih =>
      rw [citizenLoop]
      by_cases hparts : (explode '.' entry.1).length < 2
      · have hnot : namesInnkeeper vend entry = false := by
          have hpart : (explode '.' entry.1).getD 1 [] = [] := by
            rw [List.getD_eq_getElem?_getD, List.getElem?_eq_none (by omega), Option.getD_none]
          rw [namesInnkeeper, hpart]
          rfl
        rw [if_pos hparts, ih, List.find?_cons_of_neg (by simp [hnot])]
      · rw [if_neg hparts]
        by_cases hnames : namesInnkeeper vend entry = true
        · rw [if_pos hnames, List.find?_cons_of_pos hnames, Option.elim_some]
        · rw [if_neg hnames, ih, List.find?_cons_of_neg (by simpa using hnames)]

end Homes

/-! ## The sections one after the other -/

section Stages
variable (w : NpcWorld) (npc : NpcData)

/-- The data with its drops. -/
def dropped : NpcData :=
  { npc.unload with
    drops := dropsFrom 0 (groupsOf 4 (npc.dropsText w))
    dropsChanceTotal :=
      if groupsOf 4 (npc.dropsText w) = [] then 0
      else chanceTotal (groupsOf 4 (npc.dropsText w)) }

/-- The data with its shop. -/
def shopped : NpcData :=
  { npc.dropped w with
    shopName :=
      if npc.IsShop w then w.shopsConfig.value (key (npc.vendId w w.shopsConfig) ".name")
      else npc.shopName
    shopTrade := if npc.IsShop w then (groupsOf 3 (npc.tradeText w)).map tradeItem else []
    shopCraft := if npc.IsShop w then (groupsOf 9 (npc.craftText w)).map craftItem else [] }

/-- The data with its skills. -/
def taught : NpcData :=
  { npc.shopped w with
    skillName :=
      if npc.IsTeacher w then w.skillsConfig.value (key (npc.vendId w w.skillsConfig) ".name")
      else npc.skillName
    skillLearn :=
      if npc.IsTeacher w then (groupsOf 14 (npc.learnText w)).map learnSkill else [] }

theorem fst_loadDrops : (npc.unload.loadDrops w).1 = npc.dropped w := by
  rw [loadDrops, loadGroups_fst, dropped]
  change (if groupsOf 4 (npc.dropsText w) = [] then _ else _) = _
  split_ifs with hnil
  · rw [hnil]
    rfl
  · rfl

theorem snd_loadDrops :
    (npc.unload.loadDrops w).2 = true ↔ ¬ Malformed 4 (npc.dropsText w) :=
  loadGroups_snd ..

/-- The data with the name of its shop only. -/
def named : NpcData :=
  { npc.dropped w with
    shopName := w.shopsConfig.value (key (npc.vendId w w.shopsConfig) ".name") }

variable {w npc}

theorem shopped_of_not (h : ¬ npc.IsShop w) : npc.shopped w = npc.dropped w := by
  rw [shopped, if_neg h, if_neg h, if_neg h]
  rfl

theorem loadShop_of_not (h : ¬ npc.IsShop w) :
    (npc.dropped w).loadShop w = (npc.shopped w, true) := by
  rw [shopped_of_not h]
  exact if_neg h

theorem loadShop_of_malformed (h : npc.IsShop w) (htrade : Malformed 3 (npc.tradeText w)) :
    (npc.dropped w).loadShop w = (npc.named w, false) := by
  have htraded := loadGroups_of_malformed htrade
    (fun parts npc => { npc with shopTrade := parts.map tradeItem }) (npc.named w)
  refine (if_pos h).trans ?_
  change (if (loadGroups 3 (npc.tradeText w) _ (npc.named w)).2 = true then _
    else loadGroups 3 (npc.tradeText w) _ (npc.named w)) = _
  rw [htraded]
  rfl

theorem loadShop_of_trade (h : npc.IsShop w) (htrade : ¬ Malformed 3 (npc.tradeText w)) :
    ((npc.dropped w).loadShop w).1 = npc.shopped w ∧
      (((npc.dropped w).loadShop w).2 = true ↔ ¬ Malformed 9 (npc.craftText w)) := by
  have hgo := (loadGroups_snd 3 (npc.tradeText w)
    (fun parts npc => { npc with shopTrade := parts.map tradeItem }) (npc.named w)).mpr htrade
  have hload : (npc.dropped w).loadShop w =
      loadGroups 9 (npc.craftText w)
        (fun parts npc => { npc with shopCraft := parts.map craftItem })
        (loadGroups 3 (npc.tradeText w)
          (fun parts npc => { npc with shopTrade := parts.map tradeItem }) (npc.named w)).1 :=
    (if_pos h).trans (if_pos hgo)
  rw [hload]
  refine ⟨?_, loadGroups_snd ..⟩
  rw [loadGroups_fst, loadGroups_fst, shopped, if_pos h, if_pos h, if_pos h]
  split_ifs with hcraft htraded htraded
  · rw [hcraft, htraded]
    rfl
  · rw [hcraft]
    rfl
  · rw [htraded]
    rfl
  · rfl

theorem loadSkills_of_not (h : ¬ npc.IsTeacher w) :
    (npc.shopped w).loadSkills w = (npc.taught w, true) := by
  rw [taught, if_neg h, if_neg h]
  exact if_neg h

theorem loadSkills_of_teacher (h : npc.IsTeacher w) :
    ((npc.shopped w).loadSkills w).1 = npc.taught w ∧
      (((npc.shopped w).loadSkills w).2 = true ↔ ¬ Malformed 14 (npc.learnText w)) := by
  have hload : (npc.shopped w).loadSkills w = _ := if_pos h
  rw [hload]
  refine ⟨?_, loadGroups_snd ..⟩
  rw [loadGroups_fst, taught, if_pos h, if_pos h]
  change (if groupsOf 14 (npc.learnText w) = [] then _ else _) = _
  split_ifs with hlearn
  · rw [hlearn]
    rfl
  · rfl

theorem innHome_of_not (h : ¬ npc.IsInnkeeper w) : npc.innHome w = none := if_neg h

/-- The data with the questions of the home. -/
theorem loadCitizenship_eq_some_iff (r : NpcData × List Home) :
    (npc.taught w).loadCitizenship w = some r ↔
      (∀ home, npc.innHome w = some home → ∀ entry ∈ w.homeConfig.entries, AnswerFits home entry) ∧
        ({ npc.taught w with citizenship := (npc.innHome w).map (citizenshipOf w) },
          (npc.innHome w).elim w.homes
            fun home => setInnkeeper home (w.getEnf npc.id).vendorId w.homes) = r := by
  by_cases hinn : npc.IsInnkeeper w
  · have hload : (npc.taught w).loadCitizenship w = _ := if_pos hinn
    have hhome : npc.innHome w = _ := if_pos hinn
    rw [hload, hhome]
    change (citizenLoop (npc.vendId w w.homeConfig) (w.getEnf npc.id).vendorId w.homeConfig.entries
      w.homeConfig.entries none w.homes).map _ = _ ↔ _
    rw [citizenLoop_none]
    cases hfind : w.homeConfig.entries.find? (namesInnkeeper (npc.vendId w w.homeConfig)) with
    | none =>
        rw [Option.elim_none, Option.map_some, Option.map_none, Option.some.injEq]
        exact ⟨fun h => ⟨fun home hnone => absurd hnone.symm (Option.some_ne_none home), h⟩,
          fun h => h.2⟩
    | some entry =>
        rw [Option.elim_some, Option.map_some, Option.map_some, Option.elim_some,
          Option.map_eq_some_iff]
        simp only [citizenLoop_some_iff, Option.some.injEq]
        constructor
        · rintro ⟨_, ⟨hfits, rfl⟩, rfl⟩
          exact ⟨fun home hhome => hhome ▸ hfits, rfl⟩
        · rintro ⟨hfits, rfl⟩
          exact ⟨_, ⟨hfits _ rfl, rfl⟩, rfl⟩
  · have hload : (npc.taught w).loadCitizenship w = some (npc.taught w, w.homes) := if_neg hinn
    rw [hload, innHome_of_not hinn, Option.some.injEq]
    exact ⟨fun h => ⟨fun home hnone => absurd hnone.symm (Option.some_ne_none home), h⟩,
      fun h => h.2⟩

/-! ## What is lost -/

theorem phrasesFrom_eq_nil_iff (config : NpcConfig) (id : Int16) (fuel i : ℕ) :
    phrasesFrom config id (fuel + 1) i = [] ↔
      config.find (key id ".speech." ++ (toString i).toList) = none := by
  rw [phrasesFrom]
  cases config.find (key id ".speech." ++ (toString i).toList) <;> simp

/-- Nothing is said behind the skills where there is no home and no speech. -/
theorem taught_eq_iff : (npc.taught w, w.homes) = npc.loadEach w ↔ npc.TalkSilent w := by
  have hphrases : phrasesFrom w.speechConfig npc.id (w.speechConfig.entries.length + 1) 1 = [] ↔
      w.speechConfig.find (key npc.id ".speech." ++ "1".toList) = none :=
    phrasesFrom_eq_nil_iff ..
  constructor
  · intro h
    have hhome : none = (npc.innHome w).map (citizenshipOf w) := congrArg (·.1.citizenship) h
    have hspeed : 0 = tdparse (w.speechConfig.value (key npc.id ".frequency")) :=
      congrArg (·.1.talkSpeed) h
    have hchance : 0 = tdparse (w.speechConfig.value (key npc.id ".chance")) :=
      congrArg (·.1.talkChance) h
    have htalk : [] = phrasesFrom w.speechConfig npc.id (w.speechConfig.entries.length + 1) 1 :=
      congrArg (·.1.talkPhrases) h
    exact ⟨Option.map_eq_none_iff.mp hhome.symm, hspeed.symm, hchance.symm, hphrases.mp htalk.symm⟩
  · rintro ⟨hhome, hspeed, hchance, hphrase⟩
    rw [loadEach, hhome, hspeed, hchance, hphrases.mpr hphrase]
    rfl

theorem taught_of_silent (h : npc.SkillsSilent w) : npc.taught w = npc.shopped w := by
  by_cases hteacher : npc.IsTeacher w
  · obtain ⟨hname, hlearn⟩ := h hteacher
    rw [taught, hname, hlearn, ite_self, List.map_nil, ite_self]
    rfl
  · rw [taught, if_neg hteacher, if_neg hteacher]
    rfl

theorem shopped_eq_iff :
    (npc.shopped w, w.homes) = npc.loadEach w ↔ npc.SkillsSilent w ∧ npc.TalkSilent w := by
  constructor
  · intro h
    have hsilent : npc.SkillsSilent w := by
      intro hteacher
      have hname : npc.skillName = if npc.IsTeacher w then _ else npc.skillName :=
        congrArg (·.1.skillName) h
      have hlearn : [] = if npc.IsTeacher w then (groupsOf 14 (npc.learnText w)).map learnSkill
          else [] := congrArg (·.1.skillLearn) h
      rw [if_pos hteacher] at hname hlearn
      exact ⟨hname.symm, List.map_eq_nil_iff.mp hlearn.symm⟩
    rw [← taught_of_silent hsilent] at h
    exact ⟨hsilent, taught_eq_iff.mp h⟩
  · rintro ⟨hskills, htalk⟩
    rw [← taught_of_silent hskills]
    exact taught_eq_iff.mpr htalk

theorem named_eq_iff (hshop : npc.IsShop w) (htrade : Malformed 3 (npc.tradeText w)) :
    (npc.named w, w.homes) = npc.loadEach w ↔
      groupsOf 9 (npc.craftText w) = [] ∧ npc.SkillsSilent w ∧ npc.TalkSilent w := by
  have hnamed : groupsOf 9 (npc.craftText w) = [] → npc.shopped w = npc.named w := by
    intro hcraft
    rw [shopped, if_pos hshop, groupsOf_of_malformed htrade, hcraft, List.map_nil, List.map_nil,
      ite_self, ite_self]
    rfl
  constructor
  · intro h
    have hcraft : [] = if npc.IsShop w then (groupsOf 9 (npc.craftText w)).map craftItem else [] :=
      congrArg (·.1.shopCraft) h
    rw [if_pos hshop] at hcraft
    have hnil := List.map_eq_nil_iff.mp hcraft.symm
    rw [← hnamed hnil] at h
    exact ⟨hnil, shopped_eq_iff.mp h⟩
  · rintro ⟨hcraft, hrest⟩
    rw [← hnamed hcraft]
    exact shopped_eq_iff.mpr hrest

theorem shopped_of_silent (h : npc.ShopSilent w) : npc.shopped w = npc.dropped w := by
  by_cases hshop : npc.IsShop w
  · obtain ⟨hname, htrade, hcraft⟩ := h hshop
    rw [shopped, hname, htrade, hcraft, ite_self, List.map_nil, List.map_nil, ite_self, ite_self]
    rfl
  · exact shopped_of_not hshop

theorem dropped_eq_iff : (npc.dropped w, w.homes) = npc.loadEach w ↔
    npc.ShopSilent w ∧ npc.SkillsSilent w ∧ npc.TalkSilent w := by
  constructor
  · intro h
    have hsilent : npc.ShopSilent w := by
      intro hshop
      have hname : npc.shopName = if npc.IsShop w then _ else npc.shopName :=
        congrArg (·.1.shopName) h
      have htrade : [] = if npc.IsShop w then (groupsOf 3 (npc.tradeText w)).map tradeItem
          else [] := congrArg (·.1.shopTrade) h
      have hcraft : [] = if npc.IsShop w then (groupsOf 9 (npc.craftText w)).map craftItem
          else [] := congrArg (·.1.shopCraft) h
      rw [if_pos hshop] at hname htrade hcraft
      exact ⟨hname.symm, List.map_eq_nil_iff.mp htrade.symm, List.map_eq_nil_iff.mp hcraft.symm⟩
    rw [← shopped_of_silent hsilent] at h
    exact ⟨hsilent, shopped_eq_iff.mp h⟩
  · rintro ⟨hshop, hrest⟩
    rw [← shopped_of_silent hshop]
    exact shopped_eq_iff.mpr hrest

/-! ## The whole of it -/

theorem load_of_malformed (h : Malformed 4 (npc.dropsText w)) :
    npc.load w = some (npc.dropped w, w.homes) := by
  have hstop : (npc.unload.loadDrops w).2 ≠ true := fun hgo => (snd_loadDrops w npc).mp hgo h
  rw [load]
  dsimp only
  rw [if_neg hstop, fst_loadDrops]

theorem load_of_drops (h : ¬ Malformed 4 (npc.dropsText w)) :
    npc.load w =
      if ((npc.dropped w).loadShop w).2 then
        if (((npc.dropped w).loadShop w).1.loadSkills w).2 then
          ((((npc.dropped w).loadShop w).1.loadSkills w).1.loadCitizenship w).map
            fun r => (r.1.loadSpeech w, r.2)
        else some ((((npc.dropped w).loadShop w).1.loadSkills w).1, w.homes)
      else some (((npc.dropped w).loadShop w).1, w.homes) := by
  rw [load]
  dsimp only
  rw [if_pos ((snd_loadDrops w npc).mpr h), fst_loadDrops]

theorem keys_of_talkSilent (h : npc.TalkSilent w) (home : List Char)
    (hhome : npc.innHome w = some home) :
    ∀ entry ∈ w.homeConfig.entries, AnswerFits home entry := by
  rw [h.1] at hhome
  cases hhome

/-- What `Load` does behind the shop. -/
theorem behindShop_iff :
    (if ((npc.shopped w).loadSkills w).2 then
        (((npc.shopped w).loadSkills w).1.loadCitizenship w).map fun r => (r.1.loadSpeech w, r.2)
      else some (((npc.shopped w).loadSkills w).1, w.homes)) = some (npc.loadEach w) ↔
      (npc.IsTeacher w → Malformed 14 (npc.learnText w) → npc.TalkSilent w) ∧
        ∀ home, npc.innHome w = some home → ∀ entry ∈ w.homeConfig.entries,
          AnswerFits home entry := by
  by_cases hcut : npc.IsTeacher w ∧ Malformed 14 (npc.learnText w)
  · obtain ⟨hdata, hgo⟩ := loadSkills_of_teacher hcut.1
    rw [if_neg (fun htrue => hgo.mp htrue hcut.2), hdata, Option.some.injEq, taught_eq_iff]
    exact ⟨fun h => ⟨fun _ _ => h, keys_of_talkSilent h⟩, fun h => h.1 hcut.1 hcut.2⟩
  · have hwhole : ((npc.shopped w).loadSkills w).1 = npc.taught w ∧
        ((npc.shopped w).loadSkills w).2 = true := by
      by_cases hteacher : npc.IsTeacher w
      · obtain ⟨hdata, hgo⟩ := loadSkills_of_teacher hteacher
        exact ⟨hdata, hgo.mpr fun hbad => hcut ⟨hteacher, hbad⟩⟩
      · rw [loadSkills_of_not hteacher]
        exact ⟨rfl, rfl⟩
    rw [if_pos hwhole.2, hwhole.1, Option.map_eq_some_iff]
    constructor
    · rintro ⟨r, hr, -⟩
      exact ⟨fun hteacher hbad => absurd ⟨hteacher, hbad⟩ hcut,
        ((loadCitizenship_eq_some_iff r).mp hr).1⟩
    · intro h
      exact ⟨_, (loadCitizenship_eq_some_iff _).mpr ⟨h.2, rfl⟩, rfl⟩

/-- `Load` does what each section says exactly where nothing is behind a list that stops it, and no
question or answer is beyond the third. -/
theorem load_eq_loadEach_iff (w : NpcWorld) (npc : NpcData) :
    npc.load w = some (npc.loadEach w) ↔ npc.LosesNothing w := by
  by_cases hdrops : Malformed 4 (npc.dropsText w)
  · rw [load_of_malformed hdrops, Option.some.injEq, dropped_eq_iff]
    constructor
    · rintro ⟨hshop, hskills, htalk⟩
      exact ⟨fun _ => ⟨hshop, hskills, htalk⟩, fun h _ => ⟨(hshop h).2.2, hskills, htalk⟩,
        fun _ _ => ⟨hskills, htalk⟩, fun _ _ => htalk, keys_of_talkSilent htalk⟩
    · exact fun h => h.drops hdrops
  · rw [load_of_drops hdrops]
    by_cases hshop : npc.IsShop w
    · by_cases htrade : Malformed 3 (npc.tradeText w)
      · rw [loadShop_of_malformed hshop htrade, if_neg Bool.false_ne_true, Option.some.injEq,
          named_eq_iff hshop htrade]
        constructor
        · rintro ⟨hcraft, hskills, htalk⟩
          exact ⟨fun h => absurd h hdrops, fun _ _ => ⟨hcraft, hskills, htalk⟩,
            fun _ _ => ⟨hskills, htalk⟩, fun _ _ => htalk, keys_of_talkSilent htalk⟩
        · exact fun h => h.trade hshop htrade
      · obtain ⟨hdata, hgo⟩ := loadShop_of_trade hshop htrade
        rw [hdata]
        by_cases hcraft : Malformed 9 (npc.craftText w)
        · rw [if_neg (fun htrue => hgo.mp htrue hcraft), Option.some.injEq, shopped_eq_iff]
          constructor
          · rintro ⟨hskills, htalk⟩
            exact ⟨fun h => absurd h hdrops, fun _ h => absurd h htrade,
              fun _ _ => ⟨hskills, htalk⟩, fun _ _ => htalk, keys_of_talkSilent htalk⟩
          · exact fun h => h.craft hshop hcraft
        · rw [if_pos (hgo.mpr hcraft), behindShop_iff]
          exact ⟨fun h => ⟨fun h => absurd h hdrops, fun _ h => absurd h htrade,
            fun _ h => absurd h hcraft, h.1, h.2⟩, fun h => ⟨h.skills, h.keys⟩⟩
    · rw [loadShop_of_not hshop, if_pos rfl, behindShop_iff]
      exact ⟨fun h => ⟨fun h => absurd h hdrops, fun h => absurd h hshop, fun h => absurd h hshop,
        h.1, h.2⟩, fun h => ⟨h.skills, h.keys⟩⟩

theorem loadsEach_iff_losesNothing (w : NpcWorld) (npc : NpcData) :
    npc.LoadsEach w ↔ npc.LosesNothing w :=
  load_eq_loadEach_iff w npc

/-- NPC 1 with two fields for a drop and a phrase, which gets lost. -/
def phraseWorld : NpcWorld where
  dropsConfig := ⟨[(['1'], ['1', ',', '2'])], fun _ => ['0']⟩
  shopsConfig := ⟨[], fun _ => ['0']⟩
  skillsConfig := ⟨[], fun _ => ['0']⟩
  homeConfig := ⟨[], fun _ => ['0']⟩
  speechConfig := ⟨[("1.speech.1".toList, "hello".toList)], fun _ => ['0']⟩
  enf := []
  homes := []

theorem not_loadsEach_phrase : ¬ ∀ w npc, LoadsEach w npc := by
  intro h
  have hloses := (load_eq_loadEach_iff phraseWorld
    ⟨1, [], 0, [], [], [], [], [], none, 0, 0, []⟩).mp (h _ _)
  obtain ⟨-, -, -, -, -, hphrase⟩ := hloses.drops ⟨['1', ',', '2'], by decide, by decide, by decide⟩
  exact absurd hphrase (by decide)

end Stages

end ArenaServ.NpcLoading.NpcData
