import ArenaServ.Inventory
import Mathlib.Algebra.Order.Ring.Int
import Mathlib.Data.Nat.Find

/-!
# Experience and levels

Four places award experience and raise the level. Three of them cut the experience off at
`MaxExp` and raise the level as long as the table allows it; the shares of a party are added
without a limit and raise the level once.
-/

namespace ArenaServ

/-- The configuration and the table that the awards read. `MaxLevel` is a level of the table,
as its comment in the configuration asks. -/
structure ExpRules where
  maxExp : Int32
  maxLevel : ℕ
  statPerLevel : Int32
  skillPerLevel : Int32
  expTable : Vector Int32 254
  maxLevel_lt : maxLevel < 254

namespace ExpRules

variable (rules : ExpRules)

/-- The experience of a level. -/
def levelExp (level : ℕ) : ℤ := (rules.expTable[level]?.getD 0).toInt

def Increasing : Prop :=
  ∀ level, level + 1 < 254 → rules.levelExp level ≤ rules.levelExp (level + 1)

/-- The largest level not above `MaxLevel` that an experience is enough for. -/
def levelOf (exp : ℤ) : ℕ :=
  Nat.findGreatest (fun level => rules.levelExp level ≤ exp) rules.maxLevel

variable {rules}

theorem Increasing.levelExp_mono (h : rules.Increasing) {l l' : ℕ} (hle : l ≤ l')
    (hl' : l' < 254) : rules.levelExp l ≤ rules.levelExp l' := by
  induction l', hle using Nat.le_induction with
  | base => exact le_rfl
  | succ l' hle ih => exact (ih (by omega)).trans (h l' hl')

/-- The next level is out of reach. -/
def Stops (rules : ExpRules) (exp : ℤ) (level : ℕ) : Prop :=
  ¬ (level < rules.maxLevel ∧ rules.levelExp (level + 1) ≤ exp)

theorem levelOf_le_iff (h : rules.Increasing) {exp : ℤ} {level : ℕ} :
    rules.levelOf exp ≤ level ↔ rules.Stops exp level := by
  have hmax : rules.levelOf exp ≤ rules.maxLevel := Nat.findGreatest_le _
  have hlt := rules.maxLevel_lt
  constructor
  · rintro hle ⟨hlevel, hexp⟩
    have hgreatest : level + 1 ≤ rules.levelOf exp := Nat.le_findGreatest hlevel hexp
    omega
  · intro hstops
    by_contra hnot
    have hne : rules.levelOf exp ≠ 0 := by omega
    have hexp : rules.levelExp (rules.levelOf exp) ≤ exp := Nat.findGreatest_of_ne_zero rfl hne
    have hmono : rules.levelExp (level + 1) ≤ rules.levelExp (rules.levelOf exp) :=
      h.levelExp_mono (by omega) (by omega)
    exact hstops ⟨by omega, hmono.trans hexp⟩

/-- Levels that were all reached, and no further one. -/
theorem eq_max_levelOf (h : rules.Increasing) {exp : ℤ} {level level' : ℕ}
    (hle : level ≤ level')
    (hreached : level < level' → level' ≤ rules.maxLevel ∧ rules.levelExp level' ≤ exp) :
    level' = max level (rules.levelOf exp) ↔ rules.Stops exp level' := by
  rw [← levelOf_le_iff h]
  constructor
  · intro heq
    rw [heq]
    exact le_max_right _ _
  · intro hstops
    rcases hle.eq_or_lt with rfl | hlt
    · exact (max_eq_left hstops).symm
    · obtain ⟨hmax, hexp⟩ := hreached hlt
      have hgreatest : level' ≤ rules.levelOf exp := Nat.le_findGreatest hmax hexp
      rw [le_antisymm hstops hgreatest, max_eq_right hle]

end ExpRules

/-- What a character has earned. -/
structure Earner where
  exp : Int32
  level : ℕ
  statpoints : Int16
  skillpoints : Int16
  deriving DecidableEq, Repr

namespace Earner

variable (rules : ExpRules) (c : Earner)

/-! ## The awards -/

/-- `exp += amount`. -/
def addExp (amount : Int32) : Earner := { c with exp := c.exp + amount }

/-- `exp = std::min(exp, MaxExp)`. -/
def capExp : Earner :=
  { c with exp := if rules.maxExp.toInt < c.exp.toInt then rules.maxExp else c.exp }

/-- `CalculateStats`, which follows, sets the derived stats. Awards of the quest rules that it
runs are awards of their own. -/
def levelUp : Earner :=
  { c with
    level := c.level + 1
    statpoints := c.statpoints + rules.statPerLevel.toInt16
    skillpoints := c.skillpoints + rules.skillPerLevel.toInt16 }

def CanLevelUp : Prop := c.level < rules.maxLevel ∧ rules.levelExp (c.level + 1) ≤ c.exp.toInt

instance : Decidable (CanLevelUp rules c) := inferInstanceAs (Decidable (_ ∧ _))

def levelLoop (c : Earner) : Earner :=
  if CanLevelUp rules c then levelLoop (levelUp rules c) else c
  termination_by rules.maxLevel - c.level
  decreasing_by
    rename_i h
    have hlevel : (levelUp rules c).level = c.level + 1 := rfl
    have hlt := h.1
    omega

/-- What `NPC::Killed` does with an attacker that gets `reward` itself. -/
def killed (reward : Int32) : Earner :=
  levelLoop rules (capExp rules (if 0 < reward.toInt then c.addExp reward else c))

/-- What `Party::ShareEXP` does with a member that gets `reward`. -/
def share (reward : Int32) : Earner :=
  if CanLevelUp rules (c.addExp reward) then levelUp rules (c.addExp reward)
  else c.addExp reward

/-- `Item_Use` of an item with `EIF::EXPReward`. -/
def useExpReward (expreward : Int32) : Earner :=
  levelLoop rules (capExp rules (c.addExp expreward))

/-- `giveexp` of a quest. -/
def giveexp (amount : Int32) : Earner :=
  levelLoop rules (capExp rules (c.addExp amount))

inductive ExpAward where
  | killed (reward : Int32)
  | share (reward : Int32)
  | useExpReward (expreward : Int32)
  | giveexp (amount : Int32)

def ExpAward.amount : ExpAward → Int32
  | .killed reward => reward
  | .share reward => reward
  | .useExpReward expreward => expreward
  | .giveexp amount => amount

def ExpAward.give : ExpAward → Earner
  | .killed reward => Earner.killed rules c reward
  | .share reward => Earner.share rules c reward
  | .useExpReward expreward => Earner.useExpReward rules c expreward
  | .giveexp amount => Earner.giveexp rules c amount

/-! ## What is promised of an award -/

/-- The experience is within its bounds, and no level is due. -/
structure Settled : Prop where
  nonneg : 0 ≤ c.exp.toInt
  capped : c.exp.toInt ≤ rules.maxExp.toInt
  stops : ¬ CanLevelUp rules c

/-- The level follows the experience, and points come with each level. -/
structure Follows (c' : Earner) : Prop where
  nonneg : 0 ≤ c'.exp.toInt
  capped : c'.exp.toInt ≤ rules.maxExp.toInt
  level : c'.level = max c.level (rules.levelOf c'.exp.toInt)
  statpoints : c'.statpoints =
    c.statpoints + Int16.ofNat (c'.level - c.level) * rules.statPerLevel.toInt16
  skillpoints : c'.skillpoints =
    c.skillpoints + Int16.ofNat (c'.level - c.level) * rules.skillPerLevel.toInt16

/-- The experience fits in an `int`; a share stays within `MaxExp` and below the experience of
the level after the next. -/
def Takes : ExpAward → Prop
  | .share reward =>
      c.exp.toInt + reward.toInt ≤ rules.maxExp.toInt ∧
        (c.level + 1 < rules.maxLevel →
          c.exp.toInt + reward.toInt < rules.levelExp (c.level + 2))
  | award => c.exp.toInt + award.amount.toInt < 2 ^ 31

/-! ## Levels -/

/-- Levels that were raised one by one, with what comes with them. -/
structure Raised (c' : Earner) : Prop where
  exp : c'.exp = c.exp
  level : c.level ≤ c'.level
  reached : c.level < c'.level →
    c'.level ≤ rules.maxLevel ∧ rules.levelExp c'.level ≤ c'.exp.toInt
  statpoints : c'.statpoints =
    c.statpoints + Int16.ofNat (c'.level - c.level) * rules.statPerLevel.toInt16
  skillpoints : c'.skillpoints =
    c.skillpoints + Int16.ofNat (c'.level - c.level) * rules.skillPerLevel.toInt16

variable {rules c} {c' : Earner}

theorem points_succ (points perLevel : Int16) {l l' : ℕ} (h : l + 1 ≤ l') :
    points + perLevel + Int16.ofNat (l' - (l + 1)) * perLevel =
      points + Int16.ofNat (l' - l) * perLevel := by
  have hsub : l' - l = l' - (l + 1) + 1 := by omega
  rw [hsub, Int16.ofNat_add, show Int16.ofNat 1 = 1 from rfl]
  grind

theorem raised_self : Raised rules c c where
  exp := rfl
  level := le_rfl
  reached h := absurd h (lt_irrefl _)
  statpoints := by rw [Nat.sub_self]; grind
  skillpoints := by rw [Nat.sub_self]; grind

theorem Raised.of_levelUp (hcan : CanLevelUp rules c) (h : Raised rules (levelUp rules c) c') :
    Raised rules c c' where
  exp := h.exp
  level := (Nat.le_succ _).trans h.level
  reached _ := by
    rcases h.level.eq_or_lt with heq | hlt
    · rw [← heq, h.exp]
      exact hcan
    · exact h.reached hlt
  statpoints := h.statpoints.trans (points_succ _ _ h.level)
  skillpoints := h.skillpoints.trans (points_succ _ _ h.level)

theorem raised_levelUp (hcan : CanLevelUp rules c) : Raised rules c (levelUp rules c) :=
  raised_self.of_levelUp hcan

theorem levelLoop_raised (rules : ExpRules) (c : Earner) :
    Raised rules c (levelLoop rules c) ∧ ¬ CanLevelUp rules (levelLoop rules c) := by
  induction c using levelLoop.induct rules with
  | case1 c hcan ih =>
      rw [levelLoop, if_pos hcan]
      exact ⟨ih.1.of_levelUp hcan, ih.2⟩
  | case2 c hnot =>
      rw [levelLoop, if_neg hnot]
      exact ⟨raised_self, hnot⟩

/-- After levels were raised, all that is left to ask is whether the experience is within its
bounds and no level is due. -/
theorem Raised.follows_iff (hrules : rules.Increasing) {exp : Int32}
    (h : Raised rules { c with exp := exp } c') :
    Follows rules c c' ↔
      0 ≤ exp.toInt ∧ exp.toInt ≤ rules.maxExp.toInt ∧ ¬ CanLevelUp rules c' := by
  have hexp : c'.exp = exp := h.exp
  have hlevel := ExpRules.eq_max_levelOf hrules h.level h.reached
  rw [CanLevelUp, ← hexp]
  exact ⟨fun hf => ⟨hf.nonneg, hf.capped, hlevel.mp hf.level⟩, fun ⟨hnonneg, hcapped, hstops⟩ =>
    ⟨hnonneg, hcapped, hlevel.mpr hstops, h.statpoints, h.skillpoints⟩⟩

/-! ## The two kinds of awards -/

variable {amount : Int32}

/-- An experience that does not fit in an `int` is negative. -/
theorem toInt_add_cases {exp : Int32} (hamount : 0 ≤ amount.toInt) (hexp : 0 ≤ exp.toInt) :
    (exp + amount).toInt = exp.toInt + amount.toInt ∧ exp.toInt + amount.toInt < 2 ^ 31 ∨
      (exp + amount).toInt < 0 ∧ 2 ^ 31 ≤ exp.toInt + amount.toInt := by
  have hmax := exp.toInt_lt
  have hmax' := amount.toInt_lt
  by_cases hover : exp.toInt + amount.toInt < 2 ^ 31
  · exact Or.inl ⟨Inventory.toInt_add_of_lt (by omega) hover, hover⟩
  · right
    have hwrap : (exp + amount).toInt = exp.toInt + amount.toInt - 2 ^ 32 := by
      rw [Int32.toInt_add, Int.bmod_def]
      split_ifs <;> omega
    omega

theorem toInt_capExp (c : Earner) :
    (capExp rules c).exp.toInt = min c.exp.toInt rules.maxExp.toInt := by
  rw [capExp]
  split_ifs with h
  · exact (min_eq_right h.le).symm
  · exact (min_eq_left (not_lt.mp h)).symm

/-- An award that is cut off and raises all levels goes wrong only in the addition. -/
theorem award_follows_iff (hrules : rules.Increasing) (h : Settled rules c)
    (hamount : 0 ≤ amount.toInt) :
    Follows rules c (levelLoop rules (capExp rules (c.addExp amount))) ↔
      c.exp.toInt + amount.toInt < 2 ^ 31 := by
  obtain ⟨hraised, hstops⟩ := levelLoop_raised rules (capExp rules (c.addExp amount))
  have hcap : (capExp rules (c.addExp amount)).exp.toInt =
      min (c.exp + amount).toInt rules.maxExp.toInt := toInt_capExp (c.addExp amount)
  have hnonneg := h.nonneg
  have hmaxExp := h.nonneg.trans h.capped
  have hfollows : Follows rules c (levelLoop rules (capExp rules (c.addExp amount))) ↔
      0 ≤ (capExp rules (c.addExp amount)).exp.toInt ∧
        (capExp rules (c.addExp amount)).exp.toInt ≤ rules.maxExp.toInt ∧
        ¬ CanLevelUp rules (levelLoop rules (capExp rules (c.addExp amount))) :=
    Raised.follows_iff hrules hraised
  rw [hfollows, hcap]
  rcases toInt_add_cases hamount hnonneg with ⟨hadd, hlt⟩ | ⟨hneg, hge⟩
  · rw [hadd]
    exact iff_of_true ⟨by omega, by omega, hstops⟩ hlt
  · constructor
    · rintro ⟨hpos, -, -⟩
      omega
    · intro hlt
      omega

/-- A reward that is not positive is not added. -/
theorem killed_eq (rules : ExpRules) (c : Earner) (hamount : 0 ≤ amount.toInt) :
    killed rules c amount = levelLoop rules (capExp rules (c.addExp amount)) := by
  rw [killed]
  split_ifs with hpos
  · rfl
  · have hzero : amount = 0 := by
      rw [← Int32.toInt_inj, Int32.toInt_zero]
      omega
    rw [hzero, addExp, Int32.add_zero]

/-- A share that would raise two levels raises one. -/
theorem share_follows_iff (hrules : rules.Increasing) (h : Settled rules c)
    (hamount : 0 ≤ amount.toInt) :
    Follows rules c (share rules c amount) ↔
      c.exp.toInt + amount.toInt ≤ rules.maxExp.toInt ∧
        (c.level + 1 < rules.maxLevel →
          c.exp.toInt + amount.toInt < rules.levelExp (c.level + 2)) := by
  have hmaxExp := rules.maxExp.toInt_lt
  have hlt := rules.maxLevel_lt
  have hnonneg := h.nonneg
  have hraised : Raised rules (c.addExp amount) (share rules c amount) := by
    rw [share]
    split_ifs with hcan
    · exact raised_levelUp hcan
    · exact raised_self
  have hfollows : Follows rules c (share rules c amount) ↔
      0 ≤ (c.exp + amount).toInt ∧ (c.exp + amount).toInt ≤ rules.maxExp.toInt ∧
        ¬ CanLevelUp rules (share rules c amount) := Raised.follows_iff hrules hraised
  have hcan : CanLevelUp rules (c.addExp amount) ↔
      c.level < rules.maxLevel ∧ rules.levelExp (c.level + 1) ≤ (c.exp + amount).toInt := Iff.rfl
  have hcan' : CanLevelUp rules (levelUp rules (c.addExp amount)) ↔
      c.level + 1 < rules.maxLevel ∧
        rules.levelExp (c.level + 2) ≤ (c.exp + amount).toInt := Iff.rfl
  rw [hfollows]
  rcases toInt_add_cases hamount hnonneg with ⟨hadd, hfits⟩ | ⟨hneg, hge⟩
  · rw [hadd] at hcan hcan' ⊢
    have hstops : ¬ CanLevelUp rules (share rules c amount) ↔
        (c.level + 1 < rules.maxLevel →
          c.exp.toInt + amount.toInt < rules.levelExp (c.level + 2)) := by
      rw [share]
      split_ifs with hup
      · rw [hcan', not_and, not_le]
      · rw [hcan] at hup
        apply iff_of_true (mt hcan.mp hup)
        intro hlevel
        -- not even the next level is reached
        have hmono : rules.levelExp (c.level + 1) ≤ rules.levelExp (c.level + 2) :=
          hrules (c.level + 1) (by omega)
        omega
    rw [hstops, and_iff_right (by omega)]
  · constructor
    · rintro ⟨hpos, -, -⟩
      omega
    · rintro ⟨hcapped, -⟩
      omega

/-- The level follows the experience after an award exactly when the addition does not
overflow and, for a share, nothing is cut off and no second level is due. -/
theorem follows_give_iff (rules : ExpRules) (hrules : rules.Increasing) (c : Earner)
    (h : Settled rules c) (award : ExpAward) (hamount : 0 ≤ award.amount.toInt) :
    Follows rules c (award.give rules c) ↔ Takes rules c award := by
  cases award with
  | killed reward =>
      have heq : killed rules c reward = _ := killed_eq rules c hamount
      rw [ExpAward.give, heq]
      exact award_follows_iff hrules h hamount
  | share reward => exact share_follows_iff hrules h hamount
  | useExpReward expreward => exact award_follows_iff hrules h hamount
  | giveexp amount => exact award_follows_iff hrules h hamount

/-- The configuration as it is shipped, with a table that takes one more for each level. -/
def shippedRules : ExpRules where
  maxExp := 2000000000
  maxLevel := 250
  statPerLevel := 3
  skillPerLevel := 3
  expTable := Vector.ofFn fun level => Int32.ofNat level.val
  maxLevel_lt := by decide

theorem levelExp_shippedRules {level : ℕ} (h : level < 254) :
    shippedRules.levelExp level = level := by
  rw [ExpRules.levelExp, shippedRules, Vector.getElem?_ofFn, dif_pos h, Option.getD_some]
  exact Int32.toInt_ofNat_of_lt (by omega)

theorem increasing_shippedRules : shippedRules.Increasing := by
  intro level hlevel
  rw [levelExp_shippedRules hlevel, levelExp_shippedRules (by omega)]
  omega

/-- A character without experience. -/
def newEarner : Earner := ⟨0, 0, 0, 0⟩

theorem settled_newEarner : Settled shippedRules newEarner where
  nonneg := by decide
  capped := by decide
  stops h := by
    have hlevel := h.2
    rw [levelExp_shippedRules (by decide)] at hlevel
    exact absurd hlevel (by decide)

theorem follows_give_newEarner :
    Follows shippedRules newEarner (ExpAward.give shippedRules newEarner (.giveexp 7)) ↔
      Takes shippedRules newEarner (.giveexp 7) :=
  follows_give_iff shippedRules increasing_shippedRules newEarner settled_newEarner (.giveexp 7)
    (by decide)

/-- A share that is enough for two levels. -/
theorem not_follows_share :
    Settled shippedRules newEarner ∧
      ¬ Follows shippedRules newEarner (ExpAward.give shippedRules newEarner (.share 2)) := by
  refine ⟨settled_newEarner, ?_⟩
  intro h
  have htakes := (share_follows_iff increasing_shippedRules settled_newEarner (by decide)).mp h
  have hlevel := htakes.2 (by decide)
  rw [levelExp_shippedRules (by decide)] at hlevel
  exact absurd hlevel (by decide)

end Earner

end ArenaServ
