import ArenaServ.CharacterTexts
import ArenaServ.Experience
import Mathlib.Algebra.BigOperators.Group.List.Basic
import Mathlib.Algebra.Order.BigOperators.Group.List
import Mathlib.Data.List.Nodup
import Mathlib.Tactic.Linarith

/-!
# Training

Each level gives a character points for its stats and for its spells. They are spent one at a
time, and a reset gives back what the levels have given.
-/

namespace ArenaServ

structure TrainRules extends ExpRules where
  maxSkillLevel : Int32
  /-- The size of the spell file. -/
  spells : ℕ

/-- What all levels together give fits in a `short`, and a spell's level in a byte. -/
structure TrainRules.Fits (rules : TrainRules) : Prop where
  stat_nonneg : 0 ≤ rules.statPerLevel.toInt
  skill_nonneg : 0 ≤ rules.skillPerLevel.toInt
  stat_lt : rules.maxLevel * rules.statPerLevel.toInt < 2 ^ 15
  skill_lt : rules.maxLevel * rules.skillPerLevel.toInt < 2 ^ 15
  maxSkillLevel_le : rules.maxSkillLevel.toInt ≤ 255

/-- The last field is history: the points that went into spells since forgotten. -/
structure Trainee extends Earner where
  str : Int16
  intl : Int16
  wis : Int16
  agi : Int16
  con : Int16
  cha : Int16
  spells : List CharacterSpell
  forgotten : ℕ
  deriving DecidableEq

namespace Trainee

variable (rules : TrainRules) (t : Trainee)

/-- `Character::HasSpell`. -/
def hasSpell (spell : Int16) : Bool := t.spells.any (·.id = spell)

/-- `Character::SpellLevel`. -/
def spellLevel (spell : Int16) : ℕ :=
  ((t.spells.find? (·.id = spell)).map (·.level.toNat)).getD 0

/-- `Character::AddSpell`. -/
def addSpell (spell : Int16) : Trainee :=
  if spell ≤ 0 ∨ rules.spells ≤ spell.toInt.toNat then t
  else if t.hasSpell spell then t
  else { t with spells := t.spells ++ [⟨spell, 0⟩] }

/-- `Character::DelSpell`. -/
def delSpell (spell : Int16) : Trainee :=
  { t with
    spells := t.spells.filter (·.id ≠ spell)
    forgotten := t.forgotten + ((t.spells.filter (·.id = spell)).map (·.level.toNat)).sum }

/-- `StatSkill_Add` of a stat. -/
def trainStat (statId : UInt16) : Trainee :=
  if t.statpoints ≤ 0 then t
  else
    let spent := { t with statpoints := t.statpoints - 1 }
    match statId.toNat with
    | 1 => { spent with str := t.str + 1 }
    | 2 => { spent with intl := t.intl + 1 }
    | 3 => { spent with wis := t.wis + 1 }
    | 4 => { spent with agi := t.agi + 1 }
    | 5 => { spent with con := t.con + 1 }
    | 6 => { spent with cha := t.cha + 1 }
    | _ => t

/-- `StatSkill_Add` of a spell, which is asked for as a `short` and trained as an `int`. -/
def trainSkill (statId : UInt16) : Trainee :=
  let spell := statId.toInt16
  if t.skillpoints ≤ 0 ∨ t.hasSpell spell = false ∨
      rules.maxSkillLevel.toInt ≤ t.spellLevel spell then t
  else
    { t with
      spells := t.spells.map fun s =>
        if s.id.toInt = (statId.toNat : ℤ) then { s with level := s.level + 1 } else s
      skillpoints :=
        t.skillpoints - Int16.ofNat (t.spells.countP fun s => s.id.toInt = (statId.toNat : ℤ)) }

/-- `StatSkill_Add`; what is neither `TRAIN_STAT` nor `TRAIN_SKILL` is passed over. -/
def statSkillAdd (action : UInt8) (statId : UInt16) : Trainee :=
  if action = 1 then t.trainStat statId
  else if action = 2 then t.trainSkill rules statId
  else t

/-- `Character::Reset`. -/
def reset : Trainee :=
  { t with
    str := 0, intl := 0, wis := 0, agi := 0, con := 0, cha := 0
    spells := []
    statpoints := (Int32.ofNat t.level * rules.statPerLevel).toInt16
    skillpoints := (Int32.ofNat t.level * rules.skillPerLevel).toInt16
    forgotten := 0 }

end Trainee

/-- `master` when the character talks to one who teaches skills. -/
inductive TrainEvent where
  | award (award : Earner.ExpAward)
  | add (action : UInt8) (statId : UInt16)
  | learn (spell : Int16)
  | forget (spell : Int16)
  | remove (master : Bool) (spell : Int16)
  | junk (master : Bool)

namespace Trainee

variable (rules : TrainRules) (t : Trainee)

/-- A teacher has a spell learned, and so does a command that names no level. -/
def step (t : Trainee) : TrainEvent → Trainee
  | .award award => { t with toEarner := award.give rules.toExpRules t.toEarner }
  | .add action statId => t.statSkillAdd rules action statId
  | .learn spell => t.addSpell rules spell
  | .forget spell => t.delSpell spell
  | .remove master spell => if master then t.delSpell spell else t
  | .junk master => if master then t.reset rules else t

def run (t : Trainee) (events : List TrainEvent) : Trainee := events.foldl (step rules) t

def stats : List Int16 := [t.str, t.intl, t.wis, t.agi, t.con, t.cha]

/-- The points a character has and those it has spent are what its levels have given. -/
structure Balanced : Prop where
  level : t.level ≤ rules.maxLevel
  stats_nonneg : ∀ stat ∈ t.stats, 0 ≤ stat.toInt
  statpoints_nonneg : 0 ≤ t.statpoints.toInt
  statpoints : t.statpoints.toInt + (t.stats.map Int16.toInt).sum =
    t.level * rules.statPerLevel.toInt
  skillpoints_nonneg : 0 ≤ t.skillpoints.toInt
  skillpoints : t.skillpoints.toInt + (t.spells.map fun s => (s.level.toNat : ℤ)).sum +
    t.forgotten = t.level * rules.skillPerLevel.toInt
  ids : (t.spells.map CharacterSpell.id).Nodup
  known : ∀ s ∈ t.spells, 0 < s.id.toInt ∧ s.id.toInt < rules.spells
  levels : ∀ s ∈ t.spells, s.level.toNat ≤ rules.maxSkillLevel.toInt.toNat

variable {rules} {t}

/-! ## Points as integers -/

theorem toInt_succ {points : Int16} (h : 0 ≤ points.toInt) (hlt : points.toInt + 1 < 2 ^ 15) :
    (points + 1).toInt = points.toInt + 1 := by
  rw [Int16.toInt_add]
  change (points.toInt + 1).bmod (2 ^ 16) = _
  exact Int.bmod_eq_of_le (by omega) (by omega)

theorem toInt_pred {points : Int16} (h : 0 < points.toInt) :
    (points - 1).toInt = points.toInt - 1 := by
  have hlt := points.toInt_lt
  rw [Int16.toInt_sub]
  change (points.toInt - 1).bmod (2 ^ 16) = _
  exact Int.bmod_eq_of_le (by omega) (by omega)

/-- The points of some levels, which are added as `short`s. -/
theorem toInt_points {points : Int16} {perLevel : Int32} {k : ℕ}
    (h : 0 ≤ points.toInt + k * perLevel.toInt)
    (hlt : points.toInt + k * perLevel.toInt < 2 ^ 15) :
    (points + Int16.ofNat k * perLevel.toInt16).toInt = points.toInt + k * perLevel.toInt := by
  rw [Int16.toInt_add, Int16.toInt_mul, Int16.toInt_ofNat', Int32.toInt_toInt16, Int.bmod_mul_bmod,
    Int.mul_bmod_bmod, Int.add_bmod_bmod]
  exact Int.bmod_eq_of_le (by omega) (by omega)

/-- What a level has given, which a reset multiplies as an `int`. -/
theorem toInt_reset {perLevel : Int32} {level : ℕ} (hlevel : level < 254)
    (h : 0 ≤ level * perLevel.toInt) (hlt : level * perLevel.toInt < 2 ^ 15) :
    (Int32.ofNat level * perLevel).toInt16.toInt = level * perLevel.toInt := by
  rw [Int32.toInt_toInt16, Int32.toInt_mul, Int32.toInt_ofNat_of_lt (by omega),
    Int.bmod_eq_of_le (m := 2 ^ 32) (by omega) (by omega)]
  exact Int.bmod_eq_of_le (by omega) (by omega)

/-- An id in the file is the same as a `short` and as an `int`. -/
theorem id_eq_iff {id : Int16} {statId : UInt16} (h : 0 < id.toInt) :
    id.toInt = (statId.toNat : ℤ) ↔ id = statId.toInt16 := by
  have hlt := id.toInt_lt
  have hnat : statId.toInt16.toInt =
      if 2 * statId.toNat < 2 ^ 16 then (statId.toNat : ℤ) else statId.toNat - 2 ^ 16 :=
    BitVec.toInt_eq_toNat_cond statId.toBitVec
  have hbound := statId.toNat_lt
  rw [← Int16.toInt_inj, hnat]
  split_ifs with hsmall <;> omega

theorem points_lt {level maxLevel : ℕ} {perLevel : ℤ} (hlevel : level ≤ maxLevel)
    (h : 0 ≤ perLevel) (hlt : maxLevel * perLevel < 2 ^ 15) : level * perLevel < 2 ^ 15 :=
  (mul_le_mul_of_nonneg_right (Int.ofNat_le.mpr hlevel) h).trans_lt hlt

/-! ## What each step keeps -/

/-- Points move between a character and its stats. -/
theorem Balanced.move {t' : Trainee} (h : t.Balanced rules) (hlevel : t'.level = t.level)
    (hspells : t'.spells = t.spells) (hskillpoints : t'.skillpoints = t.skillpoints)
    (hforgotten : t'.forgotten = t.forgotten) (hstats : ∀ stat ∈ t'.stats, 0 ≤ stat.toInt)
    (hstatpoints : 0 ≤ t'.statpoints.toInt)
    (hsum : t'.statpoints.toInt + (t'.stats.map Int16.toInt).sum =
      t.statpoints.toInt + (t.stats.map Int16.toInt).sum) : t'.Balanced rules where
  level := hlevel ▸ h.level
  stats_nonneg := hstats
  statpoints_nonneg := hstatpoints
  statpoints := by rw [hsum, hlevel, h.statpoints]
  skillpoints_nonneg := hskillpoints ▸ h.skillpoints_nonneg
  skillpoints := by rw [hskillpoints, hspells, hforgotten, hlevel, h.skillpoints]
  ids := hspells ▸ h.ids
  known := hspells ▸ h.known
  levels := hspells ▸ h.levels

theorem Balanced.trainStat (h : t.Balanced rules) (hfits : rules.Fits) (statId : UInt16) :
    (t.trainStat statId).Balanced rules := by
  rw [Trainee.trainStat]
  split_ifs with hnone
  · exact h
  have hpos : 0 < t.statpoints.toInt := by
    rw [Int16.not_le, Int16.lt_iff_toInt_lt] at hnone
    exact hnone
  have hpred := toInt_pred hpos
  have hlt := points_lt h.level hfits.stat_nonneg hfits.stat_lt
  have hsum := h.statpoints
  have hstats := h.stats_nonneg
  simp only [stats, List.mem_cons, List.not_mem_nil, or_false, forall_eq_or_imp, forall_eq,
    List.map_cons, List.map_nil, List.sum_cons, List.sum_nil] at hsum hstats
  obtain ⟨hstr, hintl, hwis, hagi, hcon, hcha⟩ := hstats
  have hsucc {stat : Int16} (hnonneg : 0 ≤ stat.toInt)
      (hle : stat.toInt + t.statpoints.toInt < 2 ^ 15) : (stat + 1).toInt = stat.toInt + 1 :=
    toInt_succ hnonneg (by omega)
  have hstr' := hsucc hstr (by omega)
  have hintl' := hsucc hintl (by omega)
  have hwis' := hsucc hwis (by omega)
  have hagi' := hsucc hagi (by omega)
  have hcon' := hsucc hcon (by omega)
  have hcha' := hsucc hcha (by omega)
  dsimp only
  split
  case h_7 => exact h
  all_goals refine h.move rfl rfl rfl rfl ?_ ?_ ?_
  all_goals simp only [stats, List.mem_cons, List.not_mem_nil, or_false, forall_eq_or_imp,
    forall_eq, List.map_cons, List.map_nil, List.sum_cons, List.sum_nil]
  all_goals omega

/-- The spells around the one of an id, which is trained. -/
theorem map_train {front back : List CharacterSpell} {s : CharacterSpell}
    {f : CharacterSpell → CharacterSpell}
    (hnodup : ((front ++ s :: back).map CharacterSpell.id).Nodup) :
    (front ++ s :: back).map (fun s' => if s'.id = s.id then f s' else s') =
        front ++ f s :: back ∧
      (front ++ s :: back).countP (fun s' => s'.id = s.id) = 1 := by
  rw [List.map_append, List.map_cons, List.nodup_append, List.nodup_cons] at hnodup
  obtain ⟨-, ⟨hback, -⟩, hfront⟩ := hnodup
  have hne {s' : CharacterSpell} (hs' : s' ∈ front ∨ s' ∈ back) : s'.id ≠ s.id := by
    rcases hs' with hs' | hs'
    · exact hfront _ (List.mem_map_of_mem hs') _ List.mem_cons_self
    · exact fun heq => hback (heq ▸ List.mem_map_of_mem hs')
  have hkeep {l : List CharacterSpell} (hl : ∀ s' ∈ l, s'.id ≠ s.id) :
      l.map (fun s' => if s'.id = s.id then f s' else s') = l ∧
        l.countP (fun s' => s'.id = s.id) = 0 := by
    constructor
    · rw [List.map_congr_left fun s' hs' => if_neg (hl s' hs'), List.map_id']
    · rw [List.countP_eq_zero]
      exact fun s' hs' => by simpa using hl s' hs'
  obtain ⟨hmapFront, hcountFront⟩ := hkeep fun s' hs' => hne (.inl hs')
  obtain ⟨hmapBack, hcountBack⟩ := hkeep fun s' hs' => hne (.inr hs')
  constructor
  · rw [List.map_append, List.map_cons, hmapFront, hmapBack, if_pos rfl]
  · rw [List.countP_append, List.countP_cons_of_pos (by simp), hcountFront, hcountBack]

theorem Balanced.trainSkill (h : t.Balanced rules) (hfits : rules.Fits) (statId : UInt16) :
    (t.trainSkill rules statId).Balanced rules := by
  rw [Trainee.trainSkill]
  split_ifs with hrefused
  · exact h
  rw [not_or, not_or] at hrefused
  obtain ⟨hpoints, hhas, hlevel⟩ := hrefused
  have hpos : 0 < t.skillpoints.toInt := by
    rw [Int16.not_le, Int16.lt_iff_toInt_lt] at hpoints
    exact hpoints
  cases hfind : t.spells.find? (·.id = statId.toInt16) with
  | none =>
    rw [List.find?_eq_none] at hfind
    refine absurd ?_ hhas
    rw [hasSpell, List.any_eq_false]
    exact hfind
  | some s =>
    obtain ⟨hid, front, back, hsplit, -⟩ := List.find?_eq_some_iff_append.mp hfind
    have hid : s.id = statId.toInt16 := of_decide_eq_true hid
    rw [spellLevel, hfind, Option.map_some, Option.getD_some] at hlevel
    have hsame : ∀ s' ∈ t.spells, s'.id.toInt = (statId.toNat : ℤ) ↔ s'.id = s.id :=
      fun s' hs' => hid ▸ id_eq_iff (h.known s' hs').1
    obtain ⟨hmap, hcount⟩ := map_train (f := fun s => { s with level := s.level + 1 })
      (hsplit ▸ h.ids)
    rw [← hsplit] at hmap hcount
    have hspells : (t.spells.map fun s' =>
        if s'.id.toInt = (statId.toNat : ℤ) then { s' with level := s'.level + 1 } else s') =
        front ++ { s with level := s.level + 1 } :: back := by
      rw [← hmap]
      exact List.map_congr_left fun s' hs' => by simp only [hsame s' hs']
    have hone : t.spells.countP (fun s' => s'.id.toInt = (statId.toNat : ℤ)) = 1 := by
      rw [← hcount]
      exact List.countP_congr fun s' hs' => by simp only [decide_eq_true_eq, hsame s' hs']
    have hmax := hfits.maxSkillLevel_le
    have hnext : (s.level + 1).toNat = s.level.toNat + 1 := by
      rw [UInt8.toNat_add]
      change (s.level.toNat + 1) % 256 = _
      omega
    have hids := h.ids
    have hsum := h.skillpoints
    have hknown := h.known
    have hlevels := h.levels
    simp only [hspells, hone]
    rw [hsplit] at hids hsum hknown hlevels
    rw [List.forall_mem_append, List.forall_mem_cons] at hknown hlevels
    refine ⟨h.level, h.stats_nonneg, h.statpoints_nonneg, h.statpoints, ?_, ?_, ?_, ?_, ?_⟩
    · change 0 ≤ (t.skillpoints - 1).toInt
      rw [toInt_pred hpos]
      omega
    · change (t.skillpoints - 1).toInt + _ + _ = _
      rw [toInt_pred hpos]
      simp only [List.map_append, List.map_cons, List.sum_append, List.sum_cons, hnext] at hsum ⊢
      push_cast
      linarith
    · simpa using hids
    · rw [List.forall_mem_append, List.forall_mem_cons]
      exact ⟨hknown.1, hknown.2.1, hknown.2.2⟩
    · rw [List.forall_mem_append, List.forall_mem_cons]
      refine ⟨hlevels.1, ?_, hlevels.2.2⟩
      change (s.level + 1).toNat ≤ _
      omega

theorem Balanced.addSpell (h : t.Balanced rules) (spell : Int16) :
    (t.addSpell rules spell).Balanced rules := by
  rw [Trainee.addSpell]
  split_ifs with hunknown hhas
  · exact h
  · exact h
  rw [not_or] at hunknown
  obtain ⟨hpos, hlt⟩ := hunknown
  rw [Int16.not_le, Int16.lt_iff_toInt_lt] at hpos
  refine ⟨h.level, h.stats_nonneg, h.statpoints_nonneg, h.statpoints, h.skillpoints_nonneg, ?_, ?_,
    ?_, ?_⟩
  · have hsum := h.skillpoints
    simpa using hsum
  · rw [List.map_append, List.nodup_append]
    refine ⟨h.ids, List.nodup_singleton _, ?_⟩
    intro id hid id' hid' heq
    obtain ⟨s, hs, rfl⟩ := List.mem_map.mp hid
    refine hhas (List.any_eq_true.mpr ⟨s, hs, decide_eq_true ?_⟩)
    simpa using heq.trans (by simpa using hid')
  · rw [List.forall_mem_append, List.forall_mem_singleton]
    have hlast : spell.toInt < rules.spells := by omega
    exact ⟨h.known, hpos, hlast⟩
  · rw [List.forall_mem_append, List.forall_mem_singleton]
    exact ⟨h.levels, Nat.zero_le _⟩

/-- What is forgotten and what is not are all spells together. -/
theorem sum_forgotten (spells : List CharacterSpell) (spell : Int16) :
    ((spells.filter (·.id ≠ spell)).map fun s => (s.level.toNat : ℤ)).sum +
        (((spells.filter (·.id = spell)).map (·.level.toNat)).sum : ℕ) =
      (spells.map fun s => (s.level.toNat : ℤ)).sum := by
  induction spells with
  | nil => rfl
  | cons s rest ih =>
    by_cases hid : s.id = spell
    · simp only [List.filter_cons, hid, ne_eq, not_true, decide_true, decide_false, if_true,
        List.map_cons, List.sum_cons, Bool.false_eq_true, if_false]
      rw [← ih]
      push_cast
      ring
    · simp only [List.filter_cons, hid, ne_eq, not_false_eq_true, decide_true, decide_false,
        if_true, List.map_cons, List.sum_cons, Bool.false_eq_true, if_false]
      rw [← ih]
      ring

theorem Balanced.delSpell (h : t.Balanced rules) (spell : Int16) :
    (t.delSpell spell).Balanced rules where
  level := h.level
  stats_nonneg := h.stats_nonneg
  statpoints_nonneg := h.statpoints_nonneg
  statpoints := h.statpoints
  skillpoints_nonneg := h.skillpoints_nonneg
  skillpoints := by
    have hsum := h.skillpoints
    rw [← sum_forgotten t.spells spell] at hsum
    rw [Trainee.delSpell, Int.natCast_add]
    linarith
  ids := h.ids.sublist (List.filter_sublist.map CharacterSpell.id)
  known := fun s hs => h.known s (List.mem_of_mem_filter hs)
  levels := fun s hs => h.levels s (List.mem_of_mem_filter hs)

theorem Balanced.reset (h : t.Balanced rules) (hfits : rules.Fits) :
    (t.reset rules).Balanced rules := by
  have hlevel : t.level < 254 := h.level.trans_lt rules.maxLevel_lt
  have hstat := mul_nonneg (Int.natCast_nonneg t.level) hfits.stat_nonneg
  have hskill := mul_nonneg (Int.natCast_nonneg t.level) hfits.skill_nonneg
  have hstatpoints := toInt_reset hlevel hstat
    (points_lt h.level hfits.stat_nonneg hfits.stat_lt)
  have hskillpoints := toInt_reset hlevel hskill
    (points_lt h.level hfits.skill_nonneg hfits.skill_lt)
  refine ⟨h.level, ?_, ?_, ?_, ?_, ?_, List.nodup_nil, ?_, ?_⟩
  · simp [stats, Trainee.reset]
  · exact hstatpoints ▸ hstat
  · simpa [stats, Trainee.reset] using hstatpoints
  · exact hskillpoints ▸ hskill
  · simpa [Trainee.reset] using hskillpoints
  · exact fun _ hs => nomatch hs
  · exact fun _ hs => nomatch hs

/-- An award raises the level of a character whose experience it has changed. -/
theorem raised_give (expRules : ExpRules) (c : Earner) (award : Earner.ExpAward) :
    ∃ exp, Earner.Raised expRules { c with exp := exp } (award.give expRules c) := by
  cases award with
  | killed reward =>
    by_cases hpos : 0 < reward.toInt
    · refine ⟨((c.addExp reward).capExp expRules).exp, ?_⟩
      rw [Earner.ExpAward.give, Earner.killed, if_pos hpos]
      exact (Earner.levelLoop_raised expRules _).1
    · refine ⟨(c.capExp expRules).exp, ?_⟩
      rw [Earner.ExpAward.give, Earner.killed, if_neg hpos]
      exact (Earner.levelLoop_raised expRules _).1
  | share reward =>
    refine ⟨(c.addExp reward).exp, ?_⟩
    rw [Earner.ExpAward.give, Earner.share]
    split_ifs with hcan
    · exact Earner.raised_levelUp hcan
    · exact Earner.raised_self
  | useExpReward expreward =>
    exact ⟨((c.addExp expreward).capExp expRules).exp, (Earner.levelLoop_raised expRules _).1⟩
  | giveexp amount =>
    exact ⟨((c.addExp amount).capExp expRules).exp, (Earner.levelLoop_raised expRules _).1⟩

/-- Points that levels have given one after the other are those that the levels give. -/
theorem toInt_raised {points points' : Int16} {perLevel : Int32} {spent : ℤ}
    {level level' maxLevel : ℕ} (hle : level ≤ level') (hmax : level' ≤ maxLevel)
    (hnonneg : 0 ≤ perLevel.toInt) (hlt : maxLevel * perLevel.toInt < 2 ^ 15)
    (hpoints : 0 ≤ points.toInt) (hspent : 0 ≤ spent)
    (hsum : points.toInt + spent = level * perLevel.toInt)
    (hgiven : points' = points + Int16.ofNat (level' - level) * perLevel.toInt16) :
    0 ≤ points'.toInt ∧ points'.toInt + spent = level' * perLevel.toInt := by
  have hall := points_lt hmax hnonneg hlt
  have hgain : ((level' - level : ℕ) : ℤ) * perLevel.toInt =
      level' * perLevel.toInt - level * perLevel.toInt := by
    rw [Int.ofNat_sub hle]
    ring
  have hmore : 0 ≤ ((level' - level : ℕ) : ℤ) * perLevel.toInt :=
    mul_nonneg (Int.natCast_nonneg _) hnonneg
  have hint := @toInt_points points perLevel (level' - level) (by omega) (by omega)
  rw [hgiven, hint]
  omega

theorem Balanced.award (h : t.Balanced rules) (hfits : rules.Fits) (award : Earner.ExpAward) :
    Balanced rules { t with toEarner := award.give rules.toExpRules t.toEarner } := by
  obtain ⟨exp, hraised⟩ := raised_give rules.toExpRules t.toEarner award
  have hle : t.level ≤ (award.give rules.toExpRules t.toEarner).level := hraised.level
  have hmax : (award.give rules.toExpRules t.toEarner).level ≤ rules.maxLevel := by
    rcases hle.eq_or_lt with heq | hlt
    · exact heq ▸ h.level
    · exact (hraised.reached hlt).1
  have hstats : 0 ≤ (t.stats.map Int16.toInt).sum := List.sum_nonneg fun x hx => by
    obtain ⟨stat, hstat, rfl⟩ := List.mem_map.mp hx
    exact h.stats_nonneg stat hstat
  have hspells : 0 ≤ (t.spells.map fun s => (s.level.toNat : ℤ)).sum + t.forgotten :=
    add_nonneg (List.sum_nonneg fun x hx => by
      obtain ⟨s, -, rfl⟩ := List.mem_map.mp hx
      exact Int.natCast_nonneg _) (Int.natCast_nonneg _)
  have hstat := toInt_raised hle hmax hfits.stat_nonneg hfits.stat_lt h.statpoints_nonneg hstats
    h.statpoints hraised.statpoints
  have hskill := toInt_raised hle hmax hfits.skill_nonneg hfits.skill_lt h.skillpoints_nonneg
    hspells (by rw [← add_assoc]; exact h.skillpoints) hraised.skillpoints
  exact ⟨hmax, h.stats_nonneg, hstat.1, hstat.2, hskill.1, by rw [add_assoc]; exact hskill.2,
    h.ids, h.known, h.levels⟩

theorem Balanced.step (h : t.Balanced rules) (hfits : rules.Fits) (event : TrainEvent) :
    (t.step rules event).Balanced rules := by
  cases event with
  | award award => exact h.award hfits award
  | add action statId =>
    rw [Trainee.step, statSkillAdd]
    split_ifs
    · exact h.trainStat hfits statId
    · exact h.trainSkill hfits statId
    · exact h
  | learn spell => exact h.addSpell spell
  | forget spell => exact h.delSpell spell
  | remove master spell =>
    cases master with
    | true => exact h.delSpell spell
    | false => exact h
  | junk master =>
    cases master with
    | true => exact h.reset hfits
    | false => exact h

/-- Over every run of training, the points and what has been trained are what the levels give. -/
theorem balanced_of_run (h : t.Balanced rules) (hfits : rules.Fits) (events : List TrainEvent) :
    (t.run rules events).Balanced rules := by
  induction events generalizing t with
  | nil => exact h
  | cons event rest ih => exact ih (h.step hfits event)

def shippedTraining : TrainRules := { Earner.shippedRules with maxSkillLevel := 100, spells := 40 }

def newTrainee : Trainee := { Earner.newEarner with
  str := 0, intl := 0, wis := 0, agi := 0, con := 0, cha := 0, spells := [], forgotten := 0 }

theorem balanced_newTrainee : newTrainee.Balanced shippedTraining where
  level := by decide
  stats_nonneg := by
    intro stat hstat
    have hzero : stat = 0 := by simpa [stats, newTrainee] using hstat
    rw [hzero, Int16.toInt_zero]
  statpoints_nonneg := by decide
  statpoints := by decide
  skillpoints_nonneg := by decide
  skillpoints := by decide
  ids := List.nodup_nil
  known := fun _ hs => nomatch hs
  levels := fun _ hs => nomatch hs

/-- A level, which gives three points for a stat and three for a spell. -/
theorem balanced_run_newTrainee :
    (newTrainee.run shippedTraining
      [.award (.giveexp 1), .learn 5, .add 1 1, .add 2 5, .junk true]).Balanced
        shippedTraining :=
  balanced_of_run balanced_newTrainee ⟨by decide, by decide, by decide, by decide, by decide⟩ _

end Trainee

end ArenaServ
