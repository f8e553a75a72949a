import ArenaServ.Shops

/-!
# Deposits into the bank of a guild

`Guild_Buy` cuts what is deposited off at what the bank has room for, takes it from the character,
and has it added to the bank by `AddBank`, which does nothing when the sum is negative.
-/

namespace ArenaServ
open Inventory

namespace PlayingCharacter

variable (config : PlayConfig)

/-- `AddBank`. -/
def guildAddBank (bank gold : Int32) : Int32 :=
  if 0 < gold ∧ 0 ≤ bank + gold then min (bank + gold) config.guildBankMax else bank

/-- What is deposited of what is asked for. -/
def deposited (gold bank : Int32) : Int32 := min gold (config.guildBankMax - bank)

/-- A deposit is accepted. -/
def MayDeposit (p : PlayingCharacter) (gold bank : Int32) : Prop :=
  p.trading = false ∧ p.canInteractItems = true ∧ 0 ≤ gold ∧ p.npcType = .guild ∧
    p.hasGuild = true ∧ 0 < config.guildBankMax - bank ∧
    config.guildMinDeposit ≤ deposited config gold bank ∧
    deposited config gold bank ≤ p.hasItem 1 false

instance (p : PlayingCharacter) (gold bank : Int32) : Decidable (p.MayDeposit config gold bank) :=
  inferInstanceAs (Decidable (_ ∧ _))

/-- `Guild_Buy`: the character after it, the bank of the guild, and the gold in the answer. -/
def guildDeposit (p : PlayingCharacter) (gold bank : Int32) :
    PlayingCharacter × Int32 × Option Int32 :=
  if p.MayDeposit config gold bank then
    let q := p.delItem config.carry 1 (deposited config gold bank)
    (q, guildAddBank config bank (deposited config gold bank), some (q.hasItem 1 false))
  else (p, bank, none)

/-- A deposit keeps the gold, the bank is within its bounds after it, and nothing changes when it is
refused. -/
structure DepositExact (p : PlayingCharacter) (bank : Int32) (q : PlayingCharacter)
    (bank' : Int32) (answer : Option Int32) : Prop where
  conserved : q.total 1 + bank'.toInt = p.total 1 + bank.toInt
  bounded : bank' ≠ bank → 0 ≤ bank' ∧ bank' ≤ config.guildBankMax
  refused : answer = none → q = p ∧ bank' = bank

/-- There is something to deposit only if the bank is not negative with it. -/
def BankFits (p : PlayingCharacter) (gold bank : Int32) : Prop :=
  p.MayDeposit config gold bank → deposited config gold bank = 0 ∨
    0 ≤ bank.toInt + (deposited config gold bank).toInt ∧
      bank.toInt + (deposited config gold bank).toInt ≤ config.guildBankMax.toInt

variable {config} {p : PlayingCharacter} {gold bank : Int32}

/-- It is `guildBuy`, for the character. -/
theorem guildBuy_eq (p : PlayingCharacter) (reader : PacketReader) (bank : Int32) :
    p.guildBuy config reader bank = if p.trading then some p
      else if !p.canInteractItems then some p
      else reader.getInt.bind fun session => session.2.getInt.map fun gold =>
        (p.guildDeposit config (Int32.ofNat gold.1) bank).1 := by
  unfold guildBuy
  split_ifs with htrading hinteract
  · rfl
  · rfl
  · cases reader.getInt with
    | none => rfl
    | some session =>
        change Option.bind session.2.getInt _ = Option.map _ session.2.getInt
        cases session.2.getInt with
        | none => rfl
        | some gold =>
            dsimp only [Option.map_some, Option.bind_some]
            generalize Int32.ofNat gold.1 = gold
            have hmay : p.MayDeposit config gold bank ↔
                ¬ (gold < 0 ∨ p.npcType ≠ .guild ∨ (!p.hasGuild) = true ∨
                  config.guildBankMax - bank ≤ 0 ∨
                  min gold (config.guildBankMax - bank) < config.guildMinDeposit ∨
                  p.hasItem 1 false < min gold (config.guildBankMax - bank)) := by
              rw [Bool.not_eq_true] at htrading
              rw [Bool.not_eq_true, Bool.not_eq_false'] at hinteract
              unfold MayDeposit deposited
              rw [htrading, hinteract]
              simp only [not_or, Int32.not_lt, Int32.not_le, not_not, Bool.not_eq_true',
                Bool.not_eq_false, true_and]
            unfold guildDeposit
            by_cases hrefused : p.MayDeposit config gold bank
            · rw [if_pos hrefused, if_neg (hmay.mp hrefused)]
              rfl
            · rw [if_neg hrefused, if_pos (not_not.mp (mt hmay.mpr hrefused))]
              rfl

/-! ## What a deposit does -/

/-- The bank gets the sum if and only if it is within the bounds. -/
theorem toInt_guildAddBank_iff (hgold : 0 < gold) (bank : Int32) :
    (guildAddBank config bank gold).toInt = bank.toInt + gold.toInt ↔
      0 ≤ bank.toInt + gold.toInt ∧ bank.toInt + gold.toInt ≤ config.guildBankMax.toInt := by
  have hmax := config.guildBankMax.toInt_lt
  have hgold' : 0 < gold.toInt := by
    rwa [Int32.lt_iff_toInt_lt, Int32.toInt_zero] at hgold
  have hneg := @add_lt_zero_iff bank gold hgold'
  unfold guildAddBank
  by_cases hover : bank + gold < 0
  · have hout := hneg.mp hover
    rw [if_neg (fun h => Int32.not_le.mpr hover h.2)]
    omega
  · have hin := mt hneg.mpr hover
    have hsum : (bank + gold).toInt = bank.toInt + gold.toInt :=
      toInt_add_of_lt (by omega) (by omega)
    rw [if_pos ⟨hgold, Int32.not_lt.mp hover⟩, toInt_min, hsum]
    omega

theorem hasItem_of_not_trading (htrading : p.trading = false) (item : Int16) :
    p.hasItem item true = p.hasItem item false := by
  unfold hasItem Inventory.hasItem
  rw [htrading]
  rfl

/-- A deposit is exact if and only if the bank is not negative with it. -/
theorem depositExact_iff (config : PlayConfig) (p : PlayingCharacter) (gold bank : Int32) :
    p.DepositExact config bank (p.guildDeposit config gold bank).1
        (p.guildDeposit config gold bank).2.1 (p.guildDeposit config gold bank).2.2 ↔
      p.BankFits config gold bank := by
  unfold guildDeposit BankFits
  by_cases hmay : p.MayDeposit config gold bank
  · rw [if_pos hmay, imp_iff_right hmay]
    obtain ⟨htrading, -, hgold, -, -, hroom, -, hheld⟩ := hmay
    dsimp only
    have hnonneg : 0 ≤ deposited config gold bank := by
      rw [Int32.le_iff_toInt_le, Int32.toInt_zero] at hgold ⊢
      rw [Int32.lt_iff_toInt_lt, Int32.toInt_zero] at hroom
      unfold deposited
      rw [toInt_min]
      omega
    have hpaid := (@total_delItem_iff p config.carry (deposited config gold bank) 1).mpr
      ⟨hnonneg, fun _ => by rwa [hasItem_of_not_trading htrading]⟩
    by_cases hzero : deposited config gold bank = 0
    · have hbank : guildAddBank config bank (deposited config gold bank) = bank := by
        unfold guildAddBank
        rw [hzero, if_neg (fun h => absurd h.1 (by decide))]
      have htotal : (0 : Int32).toInt = 0 := Int32.toInt_zero
      refine iff_of_true ?_ (Or.inl hzero)
      rw [hzero, htotal] at hpaid
      exact
        { conserved := by rw [hbank, hzero]; omega
          bounded := fun h => absurd hbank h
          refused := fun h => by cases h }
    · have hpos : 0 < deposited config gold bank := by
        apply Int32.lt_of_le_of_ne hnonneg
        exact Ne.symm hzero
      have hsum := @toInt_guildAddBank_iff config _ hpos bank
      rw [or_iff_right hzero, ← hsum]
      constructor
      · intro h
        have hconserved := h.conserved
        omega
      · intro h
        have hbounds := hsum.mp h
        refine ⟨by omega, fun _ => ?_, fun h => by cases h⟩
        rw [Int32.le_iff_toInt_le, Int32.le_iff_toInt_le, Int32.toInt_zero, h]
        exact hbounds
  · rw [if_neg hmay]
    refine iff_of_true ?_ (fun h => absurd h hmay)
    exact ⟨rfl, fun h => absurd rfl h, fun _ => ⟨rfl, rfl⟩⟩

/-- A bank that is not negative is never the worse for a deposit. -/
theorem bankFits_of_nonneg (hmax : 0 ≤ config.guildBankMax) (hbank : 0 ≤ bank) :
    p.BankFits config gold bank := by
  intro hmay
  obtain ⟨-, -, hgold, -, -, hroom, -, -⟩ := hmay
  rw [Int32.le_iff_toInt_le, Int32.toInt_zero] at hmax hbank hgold
  rw [Int32.lt_iff_toInt_lt, Int32.toInt_zero] at hroom
  have hle := config.guildBankMax.toInt_lt
  have hlow := bank.toInt_lt
  have hsub : (config.guildBankMax - bank).toInt = config.guildBankMax.toInt - bank.toInt :=
    toInt_sub_of_le (by omega) (by omega)
  right
  unfold deposited
  rw [toInt_min]
  omega

/-! ## A bank in debt -/

/-- Somebody with ten pieces of gold, who is at the guild master. -/
def depositor : PlayingCharacter :=
  { Ground.walker 1 [⟨1, 10⟩] with npcType := .guild, hasGuild := true }

/-- The gold is gone, and the bank has not got it. -/
theorem not_depositExact_depositor :
    ¬ depositor.DepositExact fair (-100) (depositor.guildDeposit fair 5 (-100)).1
      (depositor.guildDeposit fair 5 (-100)).2.1 (depositor.guildDeposit fair 5 (-100)).2.2 := by
  intro h
  exact absurd h.conserved (by decide)

end PlayingCharacter

end ArenaServ
