import Mathlib.Data.Int.Notation
import Mathlib.Data.Nat.Notation
import Mathlib.Logic.Function.Basic
import Mathlib.Tactic.SplitIfs
import ArenaServ.RunSteps

/-!
# Health, spell points and karma

All of them are 16-bit numbers. A gain is added as a wider number and the sum is cut to 16
bits; then it is compared with the maximum, unless the gain was limited before. What comes
from a formula or a rate of the configuration is an input here.
-/

namespace ArenaServ

structure Vitals where
  hp : Int16
  maxhp : Int16
  tp : Int16
  maxtp : Int16
  karma : Int16
  deriving DecidableEq, Repr

/-- The types of spells that have an effect. -/
inductive SpellType where
  | heal | damage | other
  deriving DecidableEq, Repr

/-- `ESF_Data`; there is no spell with the number 0. -/
structure SpellData where
  id : ℕ
  type : SpellType
  tp : Int16
  hp : Int16
  deriving DecidableEq, Repr

/-- Numbers of a data file are read into fields of 16 bits. -/
structure HealItem where
  hp : Int16
  tp : Int16
  deriving DecidableEq, Repr

structure VitalRules where
  limitDamage : Bool
  /-- `maxhp * DeathRecover / 100`, as an integer. -/
  deathRecover : Int16 → ℤ
  /-- What a timer adds to the hp and tp of a character that sits, or does not. -/
  hpRecover : Bool → Int16 → Int16
  tpRecover : Bool → Int16 → Int16
  /-- Spikes hurt only where the rate is positive. -/
  spikeDamage : Int16 → ℕ
  drainHPDamage : Int16 → ℤ
  drainTPDamage : Int16 → ℕ

/-- `std::min` of two short numbers. -/
def minShort (a b : Int16) : Int16 := if a.toInt ≤ b.toInt then a else b

/-- What is gained of `value`; the limit is what is missing. -/
def limitedGain (limit : Bool) (value now maximum : Int16) : ℤ :=
  max (if limit then min value.toInt (maximum.toInt - now.toInt) else value.toInt) 0

/-- Where the gain is not limited, the sum is. -/
def raise (limit : Bool) (now maximum : Int16) (gain : ℤ) : Int16 :=
  let sum := Int16.ofInt (now.toInt + gain)
  if limit then sum else minShort sum maximum

namespace Vitals

variable (rules : VitalRules) (v : Vitals)

def payTp (cost : Int16) : Vitals := { v with tp := v.tp - cost }

/-- The gain of a heal; only 1 for others where the caster may not fight. -/
def healGain (hp : Int16) (restricted : Bool) : ℤ :=
  let gain := limitedGain rules.limitDamage hp v.hp v.maxhp
  if restricted then min gain 1 else gain

def heal (hp : Int16) (restricted : Bool) : Vitals :=
  { v with hp := raise rules.limitDamage v.hp v.maxhp (v.healGain rules hp restricted) }

/-- `SpellSelf` limits the sum in any case. -/
def healSelf (hp : Int16) : Vitals :=
  { v with hp := raise false v.hp v.maxhp (v.healGain rules hp false) }

/-- The amount of a formula is not negative, and no more than there is. -/
def hurt (amount : ℤ) : Vitals :=
  { v with hp := Int16.ofInt (v.hp.toInt - min (max amount 0) v.hp.toInt) }

/-- `DeathRespawn`, if the last hit has killed. -/
def respawn : Vitals :=
  if v.hp = 0 then { v with hp := Int16.ofInt (rules.deathRecover v.maxhp) } else v

def useHeal (item : HealItem) : Vitals :=
  let hpgain := limitedGain rules.limitDamage item.hp v.hp v.maxhp
  let tpgain := limitedGain rules.limitDamage item.tp v.tp v.maxtp
  if hpgain = 0 ∧ tpgain = 0 then v
  else
    { v with
      hp := raise rules.limitDamage v.hp v.maxhp hpgain
      tp := raise rules.limitDamage v.tp v.maxtp tpgain }

/-- `world_recover`, for hp and for tp. -/
def recovered (now maximum gain : Int16) : Int16 :=
  if now ≠ maximum then minShort (now + gain) maximum else now

def recover (sitting : Bool) : Vitals :=
  { v with
    hp := recovered v.hp v.maxhp (rules.hpRecover sitting v.maxhp)
    tp := recovered v.tp v.maxtp (rules.tpRecover sitting v.maxtp) }

def drainHP : Vitals :=
  let amount := max (min (rules.drainHPDamage v.maxhp) (v.hp.toInt - 1)) 0
  { v with hp := Int16.ofInt (v.hp.toInt - amount) }

def drainTP : Vitals :=
  { v with tp := Int16.ofInt (v.tp.toInt - min (rules.drainTPDamage v.maxtp : ℤ) v.tp.toInt) }

def removeKarma (amount : Int32) : Vitals :=
  let karma := Int16.ofInt (v.karma.toInt - amount.toInt)
  { v with karma := if karma.toInt < 0 then 0 else karma }

def giveKarma (amount : Int32) : Vitals :=
  let karma := Int16.ofInt (v.karma.toInt + amount.toInt)
  { v with karma := if 2000 < karma.toInt then 2000 else karma }

end Vitals

/-! ## Numbers of 16 bits -/

theorem bmod_short (n : ℤ) : n.bmod 65536 = (n + 32768) % 65536 - 32768 := by
  rw [Int.bmod_def]
  split <;> omega

theorem toInt_short (n : ℤ) : (Int16.ofInt n).toInt = (n + 32768) % 65536 - 32768 :=
  (Int16.toInt_ofInt ..).trans (bmod_short n)

theorem toInt_sub_short (a b : Int16) :
    (a - b).toInt = (a.toInt - b.toInt + 32768) % 65536 - 32768 :=
  (Int16.toInt_sub ..).trans (bmod_short _)

theorem toInt_add_short (a b : Int16) :
    (a + b).toInt = (a.toInt + b.toInt + 32768) % 65536 - 32768 :=
  (Int16.toInt_add ..).trans (bmod_short _)

theorem toInt_minShort (a b : Int16) : (minShort a b).toInt = min a.toInt b.toInt := by
  unfold minShort
  split_ifs <;> omega

theorem short_bounds (a : Int16) : -32768 ≤ a.toInt ∧ a.toInt ≤ 32767 := by
  have hle := a.le_toInt
  have hlt := a.toInt_lt
  omega

def Within (now maximum : Int16) : Prop := 0 ≤ now.toInt ∧ now.toInt ≤ maximum.toInt

theorem limitedGain_nonneg (limit : Bool) (value now maximum : Int16) :
    0 ≤ limitedGain limit value now maximum := by
  unfold limitedGain
  omega

theorem limitedGain_le (limit : Bool) (value now maximum : Int16) :
    limitedGain limit value now maximum ≤ 32767 := by
  have hvalue := short_bounds value
  unfold limitedGain
  split_ifs <;> omega

/-- A limited gain does not go beyond the maximum. -/
theorem add_limitedGain_le {now maximum : Int16} (h : Within now maximum) (value : Int16) :
    now.toInt + limitedGain true value now maximum ≤ maximum.toInt := by
  unfold Within at h
  unfold limitedGain
  rw [if_pos rfl]
  omega

/-- A sum that needs more than 16 bits is negative. -/
theorem within_raise_iff {limit : Bool} {now maximum : Int16} {gain : ℤ} (h : Within now maximum)
    (hgain : 0 ≤ gain) (hle : gain ≤ 32767)
    (hlimit : limit = true → now.toInt + gain ≤ maximum.toInt) :
    Within (raise limit now maximum gain) maximum ↔ now.toInt + gain ≤ 32767 := by
  have hmax := short_bounds maximum
  unfold Within at h ⊢
  unfold raise
  cases limit with
  | true =>
      have hroom := hlimit rfl
      simp only [if_true, toInt_short]
      omega
  | false =>
      simp only [Bool.false_eq_true, if_false, toInt_minShort, toInt_short]
      omega

theorem within_recovered_iff {now maximum : Int16} (h : Within now maximum) (gain : Int16) :
    Within (Vitals.recovered now maximum gain) maximum ↔
      (now ≠ maximum → 0 ≤ now.toInt + gain.toInt ∧ now.toInt + gain.toInt ≤ 32767) := by
  have hg := short_bounds gain
  have hm := short_bounds maximum
  unfold Vitals.recovered
  split_ifs with hne
  · rw [imp_iff_right hne]
    unfold Within at h ⊢
    rw [toInt_minShort, toInt_add_short]
    omega
  · exact iff_of_true h fun hne' => absurd hne' hne

namespace Vitals

variable {rules : VitalRules} {v : Vitals}

def HpBounded (v : Vitals) : Prop := Within v.hp v.maxhp

def TpBounded (v : Vitals) : Prop := Within v.tp v.maxtp

def KarmaBounded (v : Vitals) : Prop := 0 ≤ v.karma.toInt ∧ v.karma.toInt ≤ 2000

/-- A negative cost gives tp. -/
theorem tpBounded_payTp_iff (h : v.TpBounded) {cost : Int16} (hcost : cost.toInt ≤ v.tp.toInt) :
    (v.payTp cost).TpBounded ↔ v.tp.toInt - cost.toInt ≤ v.maxtp.toInt := by
  have hc := short_bounds cost
  have hm := short_bounds v.maxtp
  unfold TpBounded Within at h ⊢
  unfold payTp
  simp only [toInt_sub_short]
  omega

theorem healGain_nonneg (rules : VitalRules) (v : Vitals) (hp : Int16) (restricted : Bool) :
    0 ≤ v.healGain rules hp restricted := by
  have hgain := limitedGain_nonneg rules.limitDamage hp v.hp v.maxhp
  unfold healGain
  dsimp only
  split_ifs <;> omega

theorem healGain_le (rules : VitalRules) (v : Vitals) (hp : Int16) (restricted : Bool) :
    v.healGain rules hp restricted ≤ limitedGain rules.limitDamage hp v.hp v.maxhp := by
  unfold healGain
  dsimp only
  split_ifs <;> omega

theorem hpBounded_heal_iff (h : v.HpBounded) (hp : Int16) (restricted : Bool) :
    (v.heal rules hp restricted).HpBounded ↔
      v.hp.toInt + v.healGain rules hp restricted ≤ 32767 := by
  have hle := healGain_le rules v hp restricted
  apply within_raise_iff h (healGain_nonneg rules v hp restricted)
    (Int.le_trans hle (limitedGain_le ..))
  intro hlimit
  have hroom := add_limitedGain_le h hp
  rw [hlimit] at hle
  omega

theorem hpBounded_healSelf_iff (h : v.HpBounded) (hp : Int16) :
    (v.healSelf rules hp).HpBounded ↔ v.hp.toInt + v.healGain rules hp false ≤ 32767 := by
  apply within_raise_iff h (healGain_nonneg rules v hp false)
    (Int.le_trans (healGain_le rules v hp false) (limitedGain_le ..))
  intro hlimit
  cases hlimit

theorem hpBounded_hurt (h : v.HpBounded) (amount : ℤ) : (v.hurt amount).HpBounded := by
  have hm := short_bounds v.maxhp
  unfold HpBounded Within at h ⊢
  unfold hurt
  simp only [toInt_short]
  omega

theorem hp_hurt_eq_zero_iff (h : v.HpBounded) (amount : ℤ) :
    (v.hurt amount).hp = 0 ↔ v.hp.toInt ≤ max amount 0 := by
  have hm := short_bounds v.maxhp
  unfold HpBounded Within at h
  rw [← Int16.toInt_inj]
  unfold hurt
  simp only [toInt_short]
  change _ = 0 ↔ _
  omega

/-- The part of the maximum that is recovered, cut to 16 bits. -/
theorem hpBounded_respawn_iff (h : v.HpBounded) :
    (v.respawn rules).HpBounded ↔
      (v.hp = 0 → rules.deathRecover v.maxhp % 65536 ≤ v.maxhp.toInt) := by
  have hm := short_bounds v.maxhp
  unfold respawn
  split_ifs with hzero
  · rw [imp_iff_right hzero]
    unfold HpBounded Within at h ⊢
    simp only [toInt_short]
    omega
  · exact iff_of_true h fun hz => absurd hz hzero

theorem within_useHeal_iff {value now maximum : Int16} (h : Within now maximum) (limit : Bool) :
    Within (raise limit now maximum (limitedGain limit value now maximum)) maximum ↔
      now.toInt + limitedGain limit value now maximum ≤ 32767 := by
  apply within_raise_iff h (limitedGain_nonneg ..) (limitedGain_le ..)
  intro hlimit
  rw [hlimit]
  exact add_limitedGain_le h value

theorem hpBounded_useHeal_iff (h : v.HpBounded) (item : HealItem) :
    (v.useHeal rules item).HpBounded ↔
      v.hp.toInt + limitedGain rules.limitDamage item.hp v.hp v.maxhp ≤ 32767 := by
  unfold useHeal
  dsimp only
  split_ifs with hnone
  · rw [hnone.1]
    have hm := short_bounds v.hp
    exact iff_of_true h (by omega)
  · exact within_useHeal_iff h _

theorem tpBounded_useHeal_iff (h : v.TpBounded) (item : HealItem) :
    (v.useHeal rules item).TpBounded ↔
      v.tp.toInt + limitedGain rules.limitDamage item.tp v.tp v.maxtp ≤ 32767 := by
  unfold useHeal
  dsimp only
  split_ifs with hnone
  · rw [hnone.2]
    have hm := short_bounds v.tp
    exact iff_of_true h (by omega)
  · exact within_useHeal_iff h _

theorem hpBounded_drainHP (h : v.HpBounded) : (v.drainHP rules).HpBounded := by
  have hm := short_bounds v.maxhp
  unfold HpBounded Within at h ⊢
  unfold drainHP
  simp only [toInt_short]
  omega

theorem tpBounded_drainTP (h : v.TpBounded) : (v.drainTP rules).TpBounded := by
  have hm := short_bounds v.maxtp
  unfold TpBounded Within at h ⊢
  unfold drainTP
  simp only [toInt_short]
  omega

/-- What is left is cut to 16 bits before it is compared with 0. -/
theorem karmaBounded_removeKarma_iff (amount : Int32) :
    (v.removeKarma amount).KarmaBounded ↔
      (v.karma.toInt - amount.toInt) % 65536 ≤ 2000 ∨
        32768 ≤ (v.karma.toInt - amount.toInt) % 65536 := by
  unfold KarmaBounded removeKarma
  dsimp only
  split_ifs with hneg
  · rw [toInt_short] at hneg
    change 0 ≤ (0 : ℤ) ∧ (0 : ℤ) ≤ 2000 ↔ _
    omega
  · rw [toInt_short] at hneg ⊢
    omega

theorem karmaBounded_giveKarma_iff (amount : Int32) :
    (v.giveKarma amount).KarmaBounded ↔ (v.karma.toInt + amount.toInt) % 65536 ≤ 32767 := by
  unfold KarmaBounded giveKarma
  dsimp only
  split_ifs with hmore
  · rw [toInt_short] at hmore
    change 0 ≤ (2000 : ℤ) ∧ (2000 : ℤ) ≤ 2000 ↔ _
    omega
  · rw [toInt_short] at hmore ⊢
    omega

end Vitals

end ArenaServ
