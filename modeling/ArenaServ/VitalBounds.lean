import Mathlib.Data.List.Basic
import ArenaServ.Vitals

/-!
# The bounds of the vitals

Each way to change the vitals of a character keeps them in their bounds exactly where no sum
needs more than 16 bits, no cost is negative enough to exceed the maximum, and what is
recovered after a death is no more than the maximum.
-/

namespace ArenaServ

structure VitalWorld where
  rules : VitalRules
  characters : ℕ → Vitals

/-- What happens to the characters. Amounts of damage come from formulas, and the flags from
the map and the states of the characters. -/
inductive VitalEvent where
  | configure (rules : VitalRules)
  | spellSelf (c : ℕ) (spell : SpellData)
  /-- Against an NPC, which may be alive and of the right kind. -/
  | spellAttack (c : ℕ) (spell : SpellData) (hits : Bool)
  | spellAttackPK (c victim : ℕ) (spell : SpellData) (pk canFight restricted : Bool)
      (amount : ℤ)
  /-- The members of the party are those on the map of the caster. -/
  | spellGroup (c : ℕ) (spell : SpellData) (members : List ℕ) (restricted : Bool)
  /-- By an NPC, or by another character. -/
  | attack (victim : ℕ) (amount : ℤ)
  | spikes (c : ℕ)
  | useHeal (c : ℕ) (item : HealItem)
  | recover (c : ℕ) (sitting : Bool)
  | drainHP (c : ℕ)
  | drainTP (c : ℕ)
  | removeKarma (c : ℕ) (amount : Int32)
  | giveKarma (c : ℕ) (amount : Int32)

def SpellData.castable (spell : SpellData) (v : Vitals) : Bool :=
  spell.id ≠ 0 && decide (spell.tp.toInt ≤ v.tp.toInt)

namespace VitalWorld

variable (w : VitalWorld)

/-- Each of `members` changes on its own. -/
def on (members : List ℕ) (f : Vitals → Vitals) : VitalWorld :=
  { w with characters := fun c => if c ∈ members then f (w.characters c) else w.characters c }

def spellSelf (c : ℕ) (spell : SpellData) : VitalWorld :=
  if spell.castable (w.characters c) && spell.type = .heal then
    w.on [c] fun v => (v.payTp spell.tp).healSelf w.rules spell.hp
  else w

def spellAttack (c : ℕ) (spell : SpellData) (hits : Bool) : VitalWorld :=
  if spell.castable (w.characters c) && spell.type = .damage && hits then
    w.on [c] (·.payTp spell.tp)
  else w

def spellAttackPK (c victim : ℕ) (spell : SpellData) (pk canFight restricted : Bool)
    (amount : ℤ) : VitalWorld :=
  if spell.castable (w.characters c) then
    match spell.type with
    | .damage =>
        if pk && canFight then
          (w.on [c] (·.payTp spell.tp)).on [victim] fun v => (v.hurt amount).respawn w.rules
        else w
    | .heal =>
        (w.on [c] (·.payTp spell.tp)).on [victim] (·.heal w.rules spell.hp restricted)
    | .other => w
  else w

def spellGroup (c : ℕ) (spell : SpellData) (members : List ℕ) (restricted : Bool) : VitalWorld :=
  if spell.castable (w.characters c) && spell.type = .heal then
    (w.on [c] (·.payTp spell.tp)).on members (·.heal w.rules spell.hp restricted)
  else w

def step (w : VitalWorld) : VitalEvent → Option VitalWorld
  | .configure rules => some { w with rules := rules }
  | .spellSelf c spell => some (w.spellSelf c spell)
  | .spellAttack c spell hits => some (w.spellAttack c spell hits)
  | .spellAttackPK c victim spell pk canFight restricted amount =>
      some (w.spellAttackPK c victim spell pk canFight restricted amount)
  | .spellGroup c spell members restricted => some (w.spellGroup c spell members restricted)
  | .attack victim amount => some (w.on [victim] fun v => (v.hurt amount).respawn w.rules)
  | .spikes c =>
      some (w.on [c] fun v => (v.hurt (w.rules.spikeDamage v.maxhp)).respawn w.rules)
  | .useHeal c item => some (w.on [c] (·.useHeal w.rules item))
  | .recover c sitting => some (w.on [c] (·.recover w.rules sitting))
  | .drainHP c => some (w.on [c] (·.drainHP w.rules))
  | .drainTP c => some (w.on [c] (·.drainTP w.rules))
  | .removeKarma c amount => some (w.on [c] (·.removeKarma amount))
  | .giveKarma c amount => some (w.on [c] (·.giveKarma amount))

/-! ## Bounds -/

structure InBounds (w : VitalWorld) : Prop where
  hp : ∀ c, (w.characters c).HpBounded
  tp : ∀ c, (w.characters c).TpBounded
  karma : ∀ c, (w.characters c).KarmaBounded

/-- The cost is not so negative that the tp exceed their maximum. -/
def PayFits (v : Vitals) (spell : SpellData) : Prop :=
  v.tp.toInt - spell.tp.toInt ≤ v.maxtp.toInt

def HealFits (rules : VitalRules) (v : Vitals) (spell : SpellData) (restricted : Bool) : Prop :=
  v.hp.toInt + v.healGain rules spell.hp restricted ≤ 32767

/-- After a deadly hit, what is recovered is a part of the maximum. -/
def HurtFits (rules : VitalRules) (v : Vitals) (amount : ℤ) : Prop :=
  v.hp.toInt ≤ max amount 0 → rules.deathRecover v.maxhp % 65536 ≤ v.maxhp.toInt

def RecoverFits (now maximum gain : Int16) : Prop :=
  now ≠ maximum → 0 ≤ now.toInt + gain.toInt ∧ now.toInt + gain.toInt ≤ 32767

def UseFits (limit : Bool) (value now maximum : Int16) : Prop :=
  now.toInt + limitedGain limit value now maximum ≤ 32767

def SpellSelfFits (w : VitalWorld) (c : ℕ) (spell : SpellData) : Prop :=
  spell.castable (w.characters c) ∧ spell.type = .heal →
    PayFits (w.characters c) spell ∧ HealFits w.rules (w.characters c) spell false

def SpellAttackFits (w : VitalWorld) (c : ℕ) (spell : SpellData) (hits : Bool) : Prop :=
  spell.castable (w.characters c) ∧ spell.type = .damage ∧ hits →
    PayFits (w.characters c) spell

def SpellAttackPKFits (w : VitalWorld) (c victim : ℕ) (spell : SpellData)
    (pk canFight restricted : Bool) (amount : ℤ) : Prop :=
  spell.castable (w.characters c) →
    (spell.type = .damage ∧ pk ∧ canFight →
      PayFits (w.characters c) spell ∧ HurtFits w.rules (w.characters victim) amount) ∧
    (spell.type = .heal →
      PayFits (w.characters c) spell ∧ HealFits w.rules (w.characters victim) spell restricted)

def SpellGroupFits (w : VitalWorld) (c : ℕ) (spell : SpellData) (members : List ℕ)
    (restricted : Bool) : Prop :=
  spell.castable (w.characters c) ∧ spell.type = .heal →
    PayFits (w.characters c) spell ∧
      ∀ m ∈ members, HealFits w.rules (w.characters m) spell restricted

/-- No sum needs more than 16 bits, and no cost or amount goes the wrong way. -/
def Fits (w : VitalWorld) : VitalEvent → Prop
  | .spellSelf c spell => w.SpellSelfFits c spell
  | .spellAttack c spell hits => w.SpellAttackFits c spell hits
  | .spellAttackPK c victim spell pk canFight restricted amount =>
      w.SpellAttackPKFits c victim spell pk canFight restricted amount
  | .spellGroup c spell members restricted => w.SpellGroupFits c spell members restricted
  | .attack victim amount => HurtFits w.rules (w.characters victim) amount
  | .spikes c =>
      HurtFits w.rules (w.characters c) (w.rules.spikeDamage (w.characters c).maxhp)
  | .useHeal c item =>
      let v := w.characters c
      UseFits w.rules.limitDamage item.hp v.hp v.maxhp ∧
        UseFits w.rules.limitDamage item.tp v.tp v.maxtp
  | .recover c sitting =>
      let v := w.characters c
      RecoverFits v.hp v.maxhp (w.rules.hpRecover sitting v.maxhp) ∧
        RecoverFits v.tp v.maxtp (w.rules.tpRecover sitting v.maxtp)
  | .removeKarma c amount =>
      let karma := ((w.characters c).karma.toInt - amount.toInt) % 65536
      karma ≤ 2000 ∨ 32768 ≤ karma
  | .giveKarma c amount => ((w.characters c).karma.toInt + amount.toInt) % 65536 ≤ 32767
  | _ => True

variable {w}

/-- A change of some characters keeps a bound that they have, if the changed ones have it. -/
theorem forall_on_iff {P : Vitals → Prop} (h : ∀ c, P (w.characters c)) (members : List ℕ)
    (f : Vitals → Vitals) :
    (∀ c, P ((w.on members f).characters c)) ↔ ∀ c ∈ members, P (f (w.characters c)) := by
  unfold on
  constructor
  · intro hall c hc
    have := hall c
    simp only [if_pos hc] at this
    exact this
  · intro hall c
    dsimp only
    split_ifs with hc
    · exact hall c hc
    · exact h c

theorem forall_on_of_iff {P : Vitals → Prop} {f : Vitals → Vitals} (hf : ∀ v, P (f v) ↔ P v)
    (members : List ℕ) :
    (∀ c, P ((w.on members f).characters c)) ↔ ∀ c, P (w.characters c) := by
  unfold on
  apply forall_congr'
  intro c
  dsimp only
  split_ifs
  · exact hf _
  · exact Iff.rfl

/-- A change of one character that may change each of its three numbers. -/
theorem inBounds_on_singleton_iff (h : w.InBounds) (c : ℕ) (f : Vitals → Vitals) :
    (w.on [c] f).InBounds ↔ (f (w.characters c)).HpBounded ∧ (f (w.characters c)).TpBounded ∧
      (f (w.characters c)).KarmaBounded := by
  have hhp := forall_on_iff h.hp [c] f
  have htp := forall_on_iff h.tp [c] f
  have hkarma := forall_on_iff h.karma [c] f
  simp only [List.forall_mem_singleton] at hhp htp hkarma
  constructor
  · intro hbounds
    exact ⟨hhp.mp hbounds.hp, htp.mp hbounds.tp, hkarma.mp hbounds.karma⟩
  · rintro ⟨hp, tp, karma⟩
    exact ⟨hhp.mpr hp, htp.mpr tp, hkarma.mpr karma⟩

theorem hpBounded_payTp (cost : Int16) (v : Vitals) :
    (v.payTp cost).HpBounded ↔ v.HpBounded := Iff.rfl

theorem karmaBounded_payTp (cost : Int16) (v : Vitals) :
    (v.payTp cost).KarmaBounded ↔ v.KarmaBounded := Iff.rfl

/-- The caster pays, and then the hp of some characters change. -/
theorem inBounds_pay_on_iff (h : w.InBounds) {c : ℕ} {spell : SpellData}
    (hcast : spell.castable (w.characters c) = true) (members : List ℕ) (f : Vitals → Vitals)
    (htp : ∀ v, (f v).TpBounded ↔ v.TpBounded) (hkarma : ∀ v, (f v).KarmaBounded ↔ v.KarmaBounded)
    (hpay : ∀ v cost, (f (v.payTp cost)).HpBounded ↔ (f v).HpBounded) :
    ((w.on [c] (·.payTp spell.tp)).on members f).InBounds ↔
      PayFits (w.characters c) spell ∧ ∀ m ∈ members, (f (w.characters m)).HpBounded := by
  have hcost : spell.tp.toInt ≤ (w.characters c).tp.toInt := by
    unfold SpellData.castable at hcast
    rw [Bool.and_eq_true, decide_eq_true_iff, decide_eq_true_iff] at hcast
    exact hcast.2
  have hpaid : ∀ d, ((w.on [c] (·.payTp spell.tp)).characters d).HpBounded :=
    (forall_on_of_iff (hpBounded_payTp spell.tp) [c]).mpr h.hp
  have htps := forall_on_iff h.tp [c] (·.payTp spell.tp)
  rw [List.forall_mem_singleton, Vitals.tpBounded_payTp_iff (h.tp c) hcost] at htps
  have hsame : ∀ m, (f ((w.on [c] (·.payTp spell.tp)).characters m)).HpBounded ↔
      (f (w.characters m)).HpBounded := by
    intro m
    unfold on
    dsimp only
    split_ifs
    · exact hpay _ _
    · exact Iff.rfl
  constructor
  · intro hbounds
    refine ⟨htps.mp ((forall_on_of_iff htp members).mp hbounds.tp), ?_⟩
    intro m hm
    exact (hsame m).mp ((forall_on_iff hpaid members f).mp hbounds.hp m hm)
  · rintro ⟨hfits, hhps⟩
    constructor
    · exact (forall_on_iff hpaid members f).mpr fun m hm => (hsame m).mpr (hhps m hm)
    · exact (forall_on_of_iff htp members).mpr (htps.mpr hfits)
    · have hkept := (forall_on_of_iff (karmaBounded_payTp spell.tp) [c]).mpr h.karma
      exact (forall_on_of_iff hkarma members).mpr hkept

theorem hpBounded_hurt_respawn_iff {rules : VitalRules} {v : Vitals} (h : v.HpBounded)
    (amount : ℤ) : ((v.hurt amount).respawn rules).HpBounded ↔ HurtFits rules v amount := by
  rw [Vitals.hpBounded_respawn_iff (Vitals.hpBounded_hurt h amount),
    Vitals.hp_hurt_eq_zero_iff h amount]
  exact Iff.rfl

theorem tp_respawn (rules : VitalRules) (v : Vitals) :
    (v.respawn rules).tp = v.tp ∧ (v.respawn rules).maxtp = v.maxtp ∧
      (v.respawn rules).karma = v.karma := by
  unfold Vitals.respawn
  split_ifs
  · exact ⟨rfl, rfl, rfl⟩
  · exact ⟨rfl, rfl, rfl⟩

theorem tpBounded_hurt_respawn (rules : VitalRules) (amount : ℤ) (v : Vitals) :
    ((v.hurt amount).respawn rules).TpBounded ↔ v.TpBounded := by
  obtain ⟨htp, hmaxtp, -⟩ := tp_respawn rules (v.hurt amount)
  unfold Vitals.TpBounded
  rw [htp, hmaxtp]
  exact Iff.rfl

theorem karmaBounded_hurt_respawn (rules : VitalRules) (amount : ℤ) (v : Vitals) :
    ((v.hurt amount).respawn rules).KarmaBounded ↔ v.KarmaBounded := by
  obtain ⟨-, -, hkarma⟩ := tp_respawn rules (v.hurt amount)
  unfold Vitals.KarmaBounded
  rw [hkarma]
  exact Iff.rfl

theorem hpBounded_payTp_hurt_respawn (rules : VitalRules) (amount : ℤ) (v : Vitals)
    (cost : Int16) : (((v.payTp cost).hurt amount).respawn rules).HpBounded ↔
      ((v.hurt amount).respawn rules).HpBounded := by
  unfold Vitals.respawn
  change (if (v.hurt amount).hp = 0 then _ else _ : Vitals).HpBounded ↔ _
  split_ifs
  · exact Iff.rfl
  · exact Iff.rfl

theorem inBounds_hurt_iff (h : w.InBounds) (c : ℕ) (amount : Vitals → ℤ) :
    (w.on [c] fun v => (v.hurt (amount v)).respawn w.rules).InBounds ↔
      HurtFits w.rules (w.characters c) (amount (w.characters c)) := by
  rw [inBounds_on_singleton_iff h, hpBounded_hurt_respawn_iff (h.hp c), tpBounded_hurt_respawn,
    karmaBounded_hurt_respawn]
  constructor
  · exact fun hall => hall.1
  · exact fun hfits => ⟨hfits, h.tp c, h.karma c⟩

theorem cost_le_of_castable {spell : SpellData} {v : Vitals} (h : spell.castable v = true) :
    spell.tp.toInt ≤ v.tp.toInt := by
  unfold SpellData.castable at h
  rw [Bool.and_eq_true, decide_eq_true_iff, decide_eq_true_iff] at h
  exact h.2

theorem inBounds_spellSelf_iff (h : w.InBounds) (c : ℕ) (spell : SpellData) :
    (w.spellSelf c spell).InBounds ↔ w.SpellSelfFits c spell := by
  unfold spellSelf SpellSelfFits
  split_ifs with hcast
  · rw [Bool.and_eq_true, decide_eq_true_iff] at hcast
    rw [imp_iff_right hcast, inBounds_on_singleton_iff h]
    have hhp : (((w.characters c).payTp spell.tp).healSelf w.rules spell.hp).HpBounded ↔
        HealFits w.rules (w.characters c) spell false :=
      Vitals.hpBounded_healSelf_iff (h.hp c) spell.hp
    have htp : (((w.characters c).payTp spell.tp).healSelf w.rules spell.hp).TpBounded ↔
        PayFits (w.characters c) spell :=
      Vitals.tpBounded_payTp_iff (h.tp c) (cost_le_of_castable hcast.1)
    rw [hhp, htp]
    constructor
    · exact fun hall => ⟨hall.2.1, hall.1⟩
    · exact fun hfits => ⟨hfits.2, hfits.1, h.karma c⟩
  · rw [Bool.and_eq_true, decide_eq_true_iff] at hcast
    exact iff_of_true h fun hyes => absurd hyes hcast

theorem inBounds_spellAttack_iff (h : w.InBounds) (c : ℕ) (spell : SpellData) (hits : Bool) :
    (w.spellAttack c spell hits).InBounds ↔ w.SpellAttackFits c spell hits := by
  unfold spellAttack SpellAttackFits
  split_ifs with hcast
  · rw [Bool.and_eq_true, Bool.and_eq_true, decide_eq_true_iff, and_assoc] at hcast
    rw [imp_iff_right hcast, inBounds_on_singleton_iff h, hpBounded_payTp, karmaBounded_payTp,
      Vitals.tpBounded_payTp_iff (h.tp c) (cost_le_of_castable hcast.1)]
    constructor
    · exact fun hall => hall.2.1
    · exact fun hfits => ⟨h.hp c, hfits, h.karma c⟩
  · rw [Bool.and_eq_true, Bool.and_eq_true, decide_eq_true_iff, and_assoc] at hcast
    exact iff_of_true h fun hyes => absurd hyes hcast

theorem inBounds_pay_heal_iff (h : w.InBounds) {c : ℕ} {spell : SpellData}
    (hcast : spell.castable (w.characters c) = true) (members : List ℕ) (restricted : Bool) :
    ((w.on [c] (·.payTp spell.tp)).on members (·.heal w.rules spell.hp restricted)).InBounds ↔
      PayFits (w.characters c) spell ∧
        ∀ m ∈ members, HealFits w.rules (w.characters m) spell restricted := by
  rw [inBounds_pay_on_iff h hcast members (·.heal w.rules spell.hp restricted)
    (fun _ => Iff.rfl) (fun _ => Iff.rfl) (fun _ _ => Iff.rfl)]
  apply and_congr_right'
  apply forall₂_congr
  intro m _
  exact Vitals.hpBounded_heal_iff (h.hp m) spell.hp restricted

theorem inBounds_spellGroup_iff (h : w.InBounds) (c : ℕ) (spell : SpellData)
    (members : List ℕ) (restricted : Bool) :
    (w.spellGroup c spell members restricted).InBounds ↔
      w.SpellGroupFits c spell members restricted := by
  unfold spellGroup SpellGroupFits
  split_ifs with hcast
  · rw [Bool.and_eq_true, decide_eq_true_iff] at hcast
    rw [imp_iff_right hcast]
    exact inBounds_pay_heal_iff h hcast.1 members restricted
  · rw [Bool.and_eq_true, decide_eq_true_iff] at hcast
    exact iff_of_true h fun hyes => absurd hyes hcast

theorem inBounds_spellAttackPK_iff (h : w.InBounds) (c victim : ℕ) (spell : SpellData)
    (pk canFight restricted : Bool) (amount : ℤ) :
    (w.spellAttackPK c victim spell pk canFight restricted amount).InBounds ↔
      w.SpellAttackPKFits c victim spell pk canFight restricted amount := by
  unfold spellAttackPK SpellAttackPKFits
  by_cases hcast : spell.castable (w.characters c) = true
  · rw [if_pos hcast, imp_iff_right hcast]
    cases htype : spell.type with
    | damage =>
        dsimp only
        split_ifs with hfight
        · rw [Bool.and_eq_true] at hfight
          rw [inBounds_pay_on_iff h hcast [victim]
            (fun v => (v.hurt amount).respawn w.rules) (tpBounded_hurt_respawn w.rules amount)
            (karmaBounded_hurt_respawn w.rules amount)
            (hpBounded_payTp_hurt_respawn w.rules amount), List.forall_mem_singleton,
            hpBounded_hurt_respawn_iff (h.hp victim)]
          constructor
          · exact fun hfits => ⟨fun _ => hfits, (fun hheal => by cases hheal)⟩
          · exact fun hfits => hfits.1 ⟨rfl, hfight⟩
        · rw [Bool.and_eq_true] at hfight
          exact iff_of_true h ⟨fun hyes => absurd hyes.2 hfight, (fun hheal => by cases hheal)⟩
    | heal =>
        dsimp only
        rw [inBounds_pay_heal_iff h hcast [victim] restricted, List.forall_mem_singleton]
        constructor
        · intro hfits
          refine ⟨?_, fun _ => hfits⟩
          intro hdamage
          cases hdamage.1
        · exact fun hfits => hfits.2 rfl
    | other =>
        refine iff_of_true h ⟨?_, ?_⟩
        · intro hdamage
          cases hdamage.1
        · intro hheal
          cases hheal
  · rw [if_neg hcast]
    exact iff_of_true h fun hyes => absurd hyes hcast

/-- A step keeps the bounds exactly where it fits. -/
theorem inBounds_step_iff (h : w.InBounds) (e : VitalEvent) :
    (∀ w' ∈ w.step e, w'.InBounds) ↔ w.Fits e := by
  have hsome : ∀ u : VitalWorld, (∀ w' ∈ some u, w'.InBounds) ↔ u.InBounds := by
    intro u
    simp
  cases e with
  | configure rules =>
      rw [step, hsome]
      exact iff_of_true ⟨h.hp, h.tp, h.karma⟩ trivial
  | spellSelf c spell =>
      rw [step, hsome]
      exact inBounds_spellSelf_iff h c spell
  | spellAttack c spell hits =>
      rw [step, hsome]
      exact inBounds_spellAttack_iff h c spell hits
  | spellAttackPK c victim spell pk canFight restricted amount =>
      rw [step, hsome]
      exact inBounds_spellAttackPK_iff h c victim spell pk canFight restricted amount
  | spellGroup c spell members restricted =>
      rw [step, hsome]
      exact inBounds_spellGroup_iff h c spell members restricted
  | attack victim amount =>
      rw [step, hsome]
      exact inBounds_hurt_iff h victim fun _ => amount
  | spikes c =>
      rw [step, hsome]
      exact inBounds_hurt_iff h c fun v => (w.rules.spikeDamage v.maxhp : ℤ)
  | useHeal c item =>
      rw [step, hsome, inBounds_on_singleton_iff h, Vitals.hpBounded_useHeal_iff (h.hp c),
        Vitals.tpBounded_useHeal_iff (h.tp c)]
      have hkarma : ((w.characters c).useHeal w.rules item).KarmaBounded := by
        have hkept := h.karma c
        unfold Vitals.useHeal
        dsimp only
        split_ifs
        · exact hkept
        · exact hkept
      constructor
      · exact fun hall => ⟨hall.1, hall.2.1⟩
      · exact fun hfits => ⟨hfits.1, hfits.2, hkarma⟩
  | recover c sitting =>
      rw [step, hsome, inBounds_on_singleton_iff h]
      have hhp : ((w.characters c).recover w.rules sitting).HpBounded ↔ _ :=
        within_recovered_iff (h.hp c) (w.rules.hpRecover sitting (w.characters c).maxhp)
      have htp : ((w.characters c).recover w.rules sitting).TpBounded ↔ _ :=
        within_recovered_iff (h.tp c) (w.rules.tpRecover sitting (w.characters c).maxtp)
      rw [hhp, htp]
      constructor
      · exact fun hall => ⟨hall.1, hall.2.1⟩
      · exact fun hfits => ⟨hfits.1, hfits.2, h.karma c⟩
  | drainHP c =>
      rw [step, hsome, inBounds_on_singleton_iff h]
      exact iff_of_true ⟨Vitals.hpBounded_drainHP (h.hp c), h.tp c, h.karma c⟩ trivial
  | drainTP c =>
      rw [step, hsome, inBounds_on_singleton_iff h]
      exact iff_of_true ⟨h.hp c, Vitals.tpBounded_drainTP (h.tp c), h.karma c⟩ trivial
  | removeKarma c amount =>
      rw [step, hsome, inBounds_on_singleton_iff h, Vitals.karmaBounded_removeKarma_iff]
      constructor
      · exact fun hall => hall.2.2
      · exact fun hfits => ⟨h.hp c, h.tp c, hfits⟩
  | giveKarma c amount =>
      rw [step, hsome, inBounds_on_singleton_iff h, Vitals.karmaBounded_giveKarma_iff]
      constructor
      · exact fun hall => hall.2.2
      · exact fun hfits => ⟨h.hp c, h.tp c, hfits⟩

/-- A run keeps the bounds in each state that it reaches exactly where each step fits. -/
theorem inBounds_iff_fits (h : w.InBounds) (steps : List VitalEvent) :
    (∀ u, RunSteps.Reaches step w steps u → u.InBounds) ↔ RunSteps.Every step Fits w steps := by
  rw [RunSteps.forall_reaches_iff]
  constructor
  · rintro ⟨-, hall⟩
    exact (RunSteps.every_iff InBounds (fun u e hu => inBounds_step_iff hu e)
      (fun u e u' hu hfits hu' => (inBounds_step_iff hu e).mpr hfits u' hu') h).mp hall
  · intro hfits
    exact ⟨h, (RunSteps.every_iff InBounds (fun u e hu => inBounds_step_iff hu e)
      (fun u e u' hu hf hu' => (inBounds_step_iff hu e).mpr hf u' hu') h).mpr hfits⟩

/-- Half is recovered after a death, a tenth by a timer, and spikes take a fifth. -/
def plainRules (limitDamage : Bool) : VitalRules where
  limitDamage := limitDamage
  deathRecover m := m.toInt / 2
  hpRecover _ m := Int16.ofInt (m.toInt / 10)
  tpRecover _ m := Int16.ofInt (m.toInt / 10)
  spikeDamage m := (m.toInt / 5).toNat
  drainHPDamage m := m.toInt / 5
  drainTPDamage m := (m.toInt / 5).toNat

/-- A world of characters with the same vitals. -/
def crowd (limitDamage : Bool) (v : Vitals) : VitalWorld := ⟨plainRules limitDamage, fun _ => v⟩

def strong : Vitals := ⟨31000, 32000, 10, 20, 1000⟩

theorem strong_inBounds (limitDamage : Bool) : (crowd limitDamage strong).InBounds :=
  ⟨fun _ => by change 0 ≤ (31000 : ℤ) ∧ (31000 : ℤ) ≤ 32000; omega,
    fun _ => by change 0 ≤ (10 : ℤ) ∧ (10 : ℤ) ≤ 20; omega,
    fun _ => by change 0 ≤ (1000 : ℤ) ∧ (1000 : ℤ) ≤ 2000; omega⟩

theorem inBounds_iff_fits_potion :
    (∀ u, RunSteps.Reaches step (crowd true strong) [.useHeal 0 ⟨2000, 0⟩] u → u.InBounds) ↔
      RunSteps.Every step Fits (crowd true strong) [.useHeal 0 ⟨2000, 0⟩] :=
  inBounds_iff_fits (strong_inBounds true) _

/-- A potion for 2000 hp, where the gain is not limited and 1000 hp are missing. -/
theorem not_inBounds :
    ¬ ∀ w : VitalWorld, w.InBounds →
      (∀ c, 0 < (w.characters c).maxhp.toInt ∧ 0 < (w.characters c).maxtp.toInt) →
      ∀ steps u, RunSteps.Reaches step w steps u → u.InBounds := by
  intro hall
  have hpositive : ∀ c, 0 < ((crowd false strong).characters c).maxhp.toInt ∧
      0 < ((crowd false strong).characters c).maxtp.toInt := by
    intro c
    change 0 < (32000 : ℤ) ∧ 0 < (20 : ℤ)
    omega
  have hbounds := hall (crowd false strong) (strong_inBounds false) hpositive
    [.useHeal 0 ⟨2000, 0⟩] _ (Or.inr ⟨_, rfl, rfl⟩)
  have hhp := (hbounds.hp 0).1
  revert hhp
  decide

end VitalWorld

end ArenaServ
