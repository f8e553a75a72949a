import ArenaServ.BankLocker
import ArenaServ.GroundConservation

/-!
# When gold accounts and lockers are conserved

Paying gold in never changes how much there is. Paying it out, putting items into the
locker and taking them out do not exactly when the receiving side has room.
-/

namespace ArenaServ
open RunSteps

namespace PlayingCharacter

/-- Gold in the inventory and on the account. -/
def gold (p : PlayingCharacter) : ℤ := p.total 1 + p.goldbank.toInt

/-- An item in the inventory and in the locker. -/
def belongings (p : PlayingCharacter) (item : Int16) : ℤ :=
  p.total item + (p.bank.map fun it => if it.id = item then it.amount.toInt else 0).sum

/-- A bank step keeps the gold, a locker step keeps every item. -/
def Conserves (config : BankConfig) (m : MapTiles) (p : PlayingCharacter) : BankStep → Prop
  | .bankAdd reader => Keeps (bankStep config m) gold p (.bankAdd reader)
  | .bankTake reader => Keeps (bankStep config m) gold p (.bankTake reader)
  | .lockerAdd reader => Keeps (bankStep config m) belongings p (.lockerAdd reader)
  | .lockerTake reader => Keeps (bankStep config m) belongings p (.lockerTake reader)

/-- There is room for what comes out of the bank and the locker, and the stack that something
is put to is not above `MaxBank` already. -/
def BankRoom (config : BankConfig) (m : MapTiles) (p : PlayingCharacter) : BankStep → Prop
  | .bankAdd _ => True
  | .bankTake reader => ∀ amount, p.bankTaken reader = some (some amount) →
      p.HasRoom config.toCarryConfig 1 amount
  | .lockerAdd reader => ∀ item amount bank,
      p.lockerAdded config m reader = some (some (item, amount, bank)) →
      ∀ it ∈ Inventory.stack p.bank item, it.amount ≤ config.maxBank
  | .lockerTake reader => ∀ item taken, p.lockerTaken config m reader = some (some (item, taken)) →
      0 < taken → p.HasRoom config.toCarryConfig item taken

/-- Neither the account nor a stack in the locker is negative. -/
structure NoDebt (p : PlayingCharacter) : Prop where
  goldbank : 0 ≤ p.goldbank.toInt
  bank : ∀ it ∈ p.bank, 0 ≤ it.amount.toInt

variable {config : BankConfig} {m : MapTiles} {p : PlayingCharacter} {reader : PacketReader}
  {item : Int16} {amount : Int32}

theorem toInt_nonneg {n : Int32} : 0 ≤ n ↔ 0 ≤ n.toInt := by
  rw [Int32.le_iff_toInt_le, Int32.toInt_zero]

/-! ## Paying in and out -/

/-- A sum that is not below a nonnegative summand is the sum. -/
theorem toInt_add_of_not_lt {x a : Int32} (hx : 0 ≤ x.toInt) (h : ¬ x + a < x) :
    0 ≤ a.toInt ∧ (x + a).toInt = x.toInt + a.toInt := by
  have hx' := x.toInt_lt
  have ha := a.le_toInt
  have ha' := a.toInt_lt
  rw [Int32.lt_iff_toInt_lt, Int32.toInt_add, Int.bmod_def] at h
  rw [Int32.toInt_add, Int.bmod_def]
  split_ifs at h ⊢ <;> omega

theorem bankAdded_spec (h : p.bankAdded config reader = some (some amount))
    (hdebt : p.NoDebt) : 0 ≤ amount.toInt ∧
      (p.goldbank + amount).toInt = p.goldbank.toInt + amount.toInt ∧
      (0 < amount.toInt → Inventory.Covers (Inventory.held p.inventory 1) amount) := by
  unfold bankAdded at h
  by_cases htrading : p.trading = true
  · rw [if_pos htrading] at h
    cases h
  rw [if_neg htrading] at h
  simp only [Option.bind_eq_bind, Option.bind_eq_some_iff, Option.pure_def, Option.some.injEq,
    Option.ite_none_left_eq_some, not_or] at h
  obtain ⟨asked, -, ⟨-, -, hless, -⟩, rfl⟩ := h
  obtain ⟨hnonneg, hsum⟩ := toInt_add_of_not_lt hdebt.goldbank hless
  refine ⟨hnonneg, hsum, ?_⟩
  intro hpos
  apply covers_of_le_hasItem (Bool.eq_false_iff.mpr htrading) hpos
  rw [Int32.le_iff_toInt_le, Inventory.toInt_min]
  exact Int.min_le_right _ _

theorem bankTaken_spec (h : p.bankTaken reader = some (some amount)) (hdebt : p.NoDebt) :
    0 < amount.toInt ∧ 0 ≤ (p.goldbank - amount).toInt ∧
      (p.goldbank - amount).toInt = p.goldbank.toInt - amount.toInt := by
  simp only [bankTaken, Option.bind_eq_bind, Option.bind_eq_some_iff, Option.pure_def,
    Option.some.injEq, Option.ite_none_left_eq_some, not_or] at h
  obtain ⟨asked, -, ⟨hpos, -, -, hneg⟩, rfl⟩ := h
  rw [Int32.le_iff_toInt_le, Int32.toInt_zero, not_le] at hpos
  rw [Int32.lt_iff_toInt_lt, Int32.toInt_zero, not_lt] at hneg
  have hgold := hdebt.goldbank
  have hlt := p.goldbank.toInt_lt
  have hlt' := (Int32.ofNat asked.1).toInt_lt
  exact ⟨hpos, hneg, Inventory.toInt_sub_of_le (by omega) (by omega)⟩

theorem total_delItem_of_nonneg {config : CarryConfig} (ha : 0 ≤ amount.toInt)
    (hcov : 0 < amount.toInt → Inventory.Covers (Inventory.held p.inventory item) amount) :
    (p.delItem config item amount).total item = p.total item - amount.toInt := by
  rcases ha.lt_or_eq with hpos | hzero
  · exact total_delItem hpos (hcov hpos)
  · have hle : amount ≤ 0 := by
      rw [Int32.le_iff_toInt_le, Int32.toInt_zero]
      omega
    rw [total, delItem_inventory, Inventory.delItem, if_pos hle, ← hzero, sub_zero]
    rfl

theorem keeps_bankAdd (hdebt : p.NoDebt) (reader : PacketReader) :
    Keeps (bankStep config m) gold p (.bankAdd reader) := by
  have hstep : bankStep config m p (.bankAdd reader) = (p.bankAdded config reader).map fun taken =>
      taken.elim p fun amount =>
        { p.delItem config.toCarryConfig 1 amount with goldbank := p.goldbank + amount } := by
    simp only [bankStep, bankAdd, Option.bind_eq_bind]
    rcases p.bankAdded config reader with _ | _ | amount
    · rfl
    · rfl
    · rfl
  rw [keeps_iff_of_map hstep rfl]
  intro amount hamount
  obtain ⟨hnonneg, hsum, hcov⟩ := bankAdded_spec hamount hdebt
  change (p.delItem config.toCarryConfig 1 amount).total 1 + (p.goldbank + amount).toInt =
    p.total 1 + p.goldbank.toInt
  rw [total_delItem_of_nonneg hnonneg hcov, hsum]
  omega

theorem goldbank_addItem (config : CarryConfig) (p : PlayingCharacter) (item : Int16)
    (amount : Int32) :
    (p.addItem config item amount).goldbank = p.goldbank := by
  unfold addItem
  cases Inventory.addItem config.items p.inventory item amount with
  | none => rfl
  | some inventory => rfl

theorem keeps_bankTake_iff (hdebt : p.NoDebt) (reader : PacketReader) :
    Keeps (bankStep config m) gold p (.bankTake reader) ↔
      p.BankRoom config m (.bankTake reader) := by
  have hstep : bankStep config m p (.bankTake reader) = (p.bankTaken reader).map fun taken =>
      taken.elim p fun amount =>
        { p with goldbank := p.goldbank - amount }.addItem config.toCarryConfig 1 amount := by
    simp only [bankStep, bankTake, Option.bind_eq_bind]
    rcases p.bankTaken reader with _ | _ | amount
    · rfl
    · rfl
    · rfl
  rw [keeps_iff_of_map hstep rfl]
  unfold BankRoom
  apply forall₂_congr
  intro amount hamount
  obtain ⟨hpos, -, hsub⟩ := bankTaken_spec hamount hdebt
  set paid : PlayingCharacter := { p with goldbank := p.goldbank - amount } with hpaid
  have hroom : _ ↔ paid.HasRoom config.toCarryConfig 1 amount := total_addItem_iff hpos
  have htotal : paid.total 1 = p.total 1 := rfl
  have hgold : (paid.addItem config.toCarryConfig 1 amount).goldbank = p.goldbank - amount :=
    goldbank_addItem _ paid 1 amount
  change (paid.addItem config.toCarryConfig 1 amount).gold = p.gold ↔
    paid.HasRoom config.toCarryConfig 1 amount
  rw [← hroom, htotal, gold, gold, hgold, hsub]
  omega

/-! ## The locker -/

/-- The share of one stack. -/
def share (item : Int16) (it : CharacterItem) : ℤ := if it.id = item then it.amount.toInt else 0

theorem toInt_min_sub {n x : Int32} (asked : Int32) (hn : 0 ≤ n.toInt) (hx : 0 ≤ x.toInt) :
    (min asked (n - x)).toInt = min asked.toInt (n.toInt - x.toInt) := by
  have hn' := n.toInt_lt
  have hx' := x.toInt_lt
  rw [Inventory.toInt_min, Inventory.toInt_sub_of_le (by omega) (by omega)]

theorem stored_spec {asked : Int32} {bank : List CharacterItem}
    (h : p.stored config item asked = some (amount, bank)) (hasked : 0 < asked.toInt)
    (hdebt : p.NoDebt) :
    amount.toInt ≤ asked.toInt ∧
      (∀ other, (bank.map (share other)).sum =
        (p.bank.map (share other)).sum + if item = other then amount.toInt else 0) ∧
      (0 ≤ amount.toInt ↔ ∀ it ∈ Inventory.stack p.bank item, it.amount ≤ config.maxBank) ∧
      ∀ it ∈ bank, 0 ≤ it.amount.toInt := by
  have hmax := toInt_nonneg.mp config.maxBank_nonneg
  unfold stored at h
  cases hstack : Inventory.stack p.bank item with
  | none =>
      rw [hstack] at h
      dsimp only at h
      rw [Option.ite_none_left_eq_some, Option.some.injEq, Prod.mk.injEq] at h
      obtain ⟨-, rfl, rfl⟩ := h
      rw [Inventory.toInt_min]
      refine ⟨by omega, ?_, by simp; omega, ?_⟩
      · intro other
        rw [List.map_append, List.sum_append, List.map_singleton, List.sum_singleton, share,
          Inventory.toInt_min]
      · intro it hit
        rcases List.mem_append.mp hit with hold | hnew
        · exact hdebt.bank it hold
        · rw [List.mem_singleton] at hnew
          rw [hnew]
          change 0 ≤ (min asked config.maxBank).toInt
          rw [Inventory.toInt_min]
          omega
  | some it =>
      rw [hstack] at h
      dsimp only at h
      rw [Option.ite_none_left_eq_some, Option.some.injEq, Prod.mk.injEq] at h
      obtain ⟨hover, rfl, rfl⟩ := h
      obtain ⟨hmem, hid⟩ := Inventory.stack_eq_some hstack
      have hit := hdebt.bank it hmem
      have hneg := mt (Inventory.add_lt_zero_iff (x := it.amount) hasked).mpr hover
      have hamount := toInt_min_sub asked hmax hit
      have hsum : (it.amount + min asked (config.maxBank - it.amount)).toInt =
          it.amount.toInt + min asked.toInt (config.maxBank.toInt - it.amount.toInt) := by
        rw [Inventory.toInt_add_of_lt (by omega) (by omega), hamount]
      rw [hamount]
      refine ⟨by omega, ?_, ?_, ?_⟩
      · intro other
        rw [FirstMatch.sum_alterFirst _ hstack, Option.toList_some, List.map_singleton,
          List.sum_singleton, share, share, hid]
        dsimp only
        rw [hsum]
        split_ifs <;> omega
      · simp only [Option.mem_some_iff, forall_eq', Int32.le_iff_toInt_le]
        omega
      · intro u hu
        rcases FirstMatch.mem_of_mem_alterFirst hu with hold | ⟨x, hx, hnew⟩
        · exact hdebt.bank u hold
        · rw [Option.some.injEq] at hnew
          obtain rfl : it = x := Option.some.inj (hstack.symm.trans hx)
          rw [← hnew]
          change 0 ≤ (it.amount + min asked (config.maxBank - it.amount)).toInt
          omega

theorem lockerAdded_spec {bank : List CharacterItem}
    (h : p.lockerAdded config m reader = some (some (item, amount, bank))) :
    ∃ asked : Int32, 0 < asked.toInt ∧
      Inventory.Covers (Inventory.held p.inventory item) asked ∧
      p.stored config item asked = some (amount, bank) := by
  unfold lockerAdded at h
  by_cases htrading : p.trading = true
  · rw [if_pos htrading] at h
    cases h
  rw [if_neg htrading] at h
  simp only [Option.bind_eq_bind, Option.bind_eq_some_iff, Option.pure_def] at h
  obtain ⟨x, -, y, -, id, -, n, -, h⟩ := h
  by_cases hrefused : Int16.ofNat id.1 = 1 ∨ Int32.ofNat n.1 ≤ 0 ∨
      p.hasItem (Int16.ofNat id.1) false < Int32.ofNat n.1 ∨ ¬ p.AtVault m x.1 y.1
  · rw [if_pos hrefused] at h
    cases h
  rw [if_neg hrefused] at h
  simp only [Option.some.injEq, Option.map_eq_some_iff, Prod.mk.injEq] at h
  obtain ⟨⟨amount', bank'⟩, hstored, rfl, rfl, rfl⟩ := h
  simp only [not_or] at hrefused
  obtain ⟨-, hpos, hhas, -⟩ := hrefused
  rw [Int32.le_iff_toInt_le, Int32.toInt_zero, not_le] at hpos
  refine ⟨_, hpos, ?_, hstored⟩
  apply covers_of_le_hasItem (Bool.eq_false_iff.mpr htrading) hpos
  rw [Int32.lt_iff_toInt_lt] at hhas
  rw [Int32.le_iff_toInt_le]
  omega

theorem covers_of_le {amounts : List Int32} {asked : Int32} (h : Inventory.Covers amounts asked)
    (hle : amount.toInt ≤ asked.toInt) : Inventory.Covers amounts amount := by
  obtain ⟨x, hx, hasked⟩ := h
  refine ⟨x, hx, ?_⟩
  rw [Int32.le_iff_toInt_le] at hasked ⊢
  omega

theorem bank_delItem (config : CarryConfig) (p : PlayingCharacter) (item : Int16) (amount : Int32) :
    (p.delItem config item amount).bank = p.bank := by
  unfold delItem
  cases Inventory.delItem p.inventory item amount with
  | none => rfl
  | some inventory => rfl

theorem keeps_lockerAdd_iff (hdebt : p.NoDebt) (reader : PacketReader) :
    Keeps (bankStep config m) belongings p (.lockerAdd reader) ↔
      p.BankRoom config m (.lockerAdd reader) := by
  have hstep : bankStep config m p (.lockerAdd reader) =
      (p.lockerAdded config m reader).map fun added =>
        added.elim p fun (item, amount, bank) => calculateStats config.toCarryConfig
          ({ p with bank := bank }.delItem config.toCarryConfig item amount) := by
    simp only [bankStep, lockerAdd, Option.bind_eq_bind]
    rcases p.lockerAdded config m reader with _ | _ | ⟨item, amount, bank⟩
    · rfl
    · rfl
    · rfl
  rw [keeps_iff_of_map hstep rfl]
  simp only [BankRoom, Prod.forall]
  apply forall₄_congr
  intro item amount bank hadded
  rw [Option.elim_some]
  obtain ⟨asked, hasked, hcov, hstored⟩ := lockerAdded_spec hadded
  obtain ⟨hle, hsum, hnonneg, -⟩ := stored_spec hstored hasked hdebt
  rw [← hnonneg]
  set q : PlayingCharacter := { p with bank := bank } with hq
  have hcov' : Inventory.Covers (Inventory.held q.inventory item) amount := covers_of_le hcov hle
  have hbelongings : ∀ other, belongings (calculateStats config.toCarryConfig
      (q.delItem config.toCarryConfig item amount)) other =
        (q.delItem config.toCarryConfig item amount).total other +
          (bank.map (share other)).sum := by
    intro other
    change _ + (((q.delItem config.toCarryConfig item amount).bank).map (share other)).sum = _
    rw [bank_delItem]
    rfl
  have hbefore : ∀ other, p.belongings other = q.total other + (p.bank.map (share other)).sum :=
    fun _ => rfl
  constructor
  · intro h
    by_contra hneg
    have hle0 : amount ≤ 0 := by
      rw [Int32.le_iff_toInt_le, Int32.toInt_zero]
      omega
    have hnone : q.delItem config.toCarryConfig item amount = q := by
      rw [delItem, Inventory.delItem, if_pos hle0]
    have hsame := congrFun h item
    rw [hbelongings, hbefore, hnone, hsum, if_pos rfl] at hsame
    omega
  · intro h
    funext other
    rw [hbelongings, hbefore, hsum]
    by_cases hid : item = other
    · rw [if_pos hid, ← hid, total_delItem_of_nonneg h (fun _ => hcov')]
      omega
    · rw [if_neg hid, total_delItem_of_ne hid]
      omega

theorem toInt_div_nonneg {x y : Int32} (hx : 0 ≤ x.toInt) (hy : 0 ≤ y.toInt) :
    0 ≤ (x / y).toInt := by
  have hx' := x.toInt_lt
  have hle := Int.tdiv_le_self y.toInt hx
  have hnonneg := Int.tdiv_nonneg hx hy
  rw [Int32.toInt_div, Int.bmod_eq_of_le (by omega) (by omega)]
  exact hnonneg

theorem toInt_weight_nonneg (weight : UInt8) : 0 ≤ weight.toUInt32.toInt32.toInt := by
  have hlt := weight.toNat_lt
  have hval : weight.toUInt32.toInt32.toInt = (weight.toNat : ℤ) := by
    change weight.toUInt32.toBitVec.toInt = _
    rw [BitVec.toInt_eq_toNat_of_lt]
    · rfl
    · change 2 * weight.toUInt32.toNat < 2 ^ 32
      rw [UInt8.toNat_toUInt32]
      omega
  omega

/-- The weight never allows a negative part of a nonnegative amount. -/
theorem weightAllows_nonneg {config : CarryConfig} {n : Int32} (hamount : 0 ≤ amount.toInt)
    (h : p.weightAllows config item amount = some n) : 0 ≤ n.toInt := by
  rw [weightAllows] at h
  by_cases henforce : 2 ≤ config.enforceWeight ∧ p.admin < config.unlimitedweight
  · rw [if_pos henforce, Option.map_eq_some_iff] at h
    obtain ⟨info, -, rfl⟩ := h
    split_ifs with hover hfree
    · exact Int32.toInt_zero.ge
    · exact hamount
    · rw [Int16.lt_iff_toInt_lt, not_lt] at hover
      have hmax := p.maxweight.toInt_lt
      have hweight := p.weight.le_toInt
      have hfree : 0 ≤ (p.maxweight.toInt32 - p.weight.toInt32).toInt := by
        rw [Inventory.toInt_sub_of_le] <;> simp only [Int16.toInt_toInt32] <;> omega
      have hdiv := toInt_div_nonneg hfree (toInt_weight_nonneg info.weight)
      rw [Inventory.toInt_min]
      omega
  · rw [if_neg henforce, Option.some.injEq] at h
    rw [← h]
    exact hamount

theorem lockerTaken_spec {taken : Int32}
    (h : p.lockerTaken config m reader = some (some (item, taken))) (hdebt : p.NoDebt) :
    ∃ it, Inventory.stack p.bank item = some it ∧ 0 ≤ taken.toInt ∧
      taken.toInt ≤ it.amount.toInt := by
  unfold lockerTaken at h
  by_cases htrading : p.trading = true
  · rw [if_pos htrading] at h
    cases h
  rw [if_neg htrading] at h
  simp only [Option.bind_eq_bind, Option.bind_eq_some_iff, Option.pure_def] at h
  obtain ⟨x, -, y, -, id, -, h⟩ := h
  by_cases hvault : p.AtVault m x.1 y.1
  swap
  · rw [if_pos hvault] at h
    cases h
  rw [if_neg (not_not.mpr hvault)] at h
  cases hstack : Inventory.stack p.bank (Int16.ofNat id.1) with
  | none =>
      rw [hstack] at h
      cases h
  | some it =>
      simp only [hstack, Option.bind_eq_some_iff, Option.some.injEq, Prod.mk.injEq] at h
      obtain ⟨n, hn, rfl, rfl⟩ := h
      have hit := hdebt.bank it (Inventory.stack_eq_some hstack).1
      have hmax := toInt_nonneg.mp config.maxItem_nonneg
      refine ⟨it, hstack, ?_, ?_⟩
      · rw [canHoldItem, Option.map_eq_some_iff] at hn
        obtain ⟨allowed, hallowed, rfl⟩ := hn
        have := weightAllows_nonneg hit hallowed
        rw [Inventory.toInt_min]
        omega
      · by_cases hpos : 0 < n.toInt
        · exact canHoldItem_le hn hpos
        · omega

/-- What is taken out of the locker is gone from it. -/
theorem sum_withdrawn {it : CharacterItem} {taken : Int32}
    (hstack : Inventory.stack p.bank item = some it) (htaken : 0 ≤ taken.toInt)
    (hle : taken.toInt ≤ it.amount.toInt) (other : Int16) :
    ((p.withdrawn item taken).map (share other)).sum =
      (p.bank.map (share other)).sum - if item = other then taken.toInt else 0 := by
  have hid := (Inventory.stack_eq_some hstack).2
  have hlt := it.amount.toInt_lt
  have hsub : (it.amount - taken).toInt = it.amount.toInt - taken.toInt :=
    Inventory.toInt_sub_of_le (by omega) (by omega)
  unfold withdrawn
  rw [FirstMatch.sum_alterFirst _ hstack, share, hid]
  by_cases hgone : it.amount - taken ≤ 0
  · rw [if_pos hgone, Option.toList_none, List.map_nil, List.sum_nil]
    rw [Int32.le_iff_toInt_le, hsub, Int32.toInt_zero] at hgone
    split_ifs <;> omega
  · rw [if_neg hgone, Option.toList_some, List.map_singleton, List.sum_singleton, share]
    dsimp only
    rw [hsub]
    split_ifs <;> omega

theorem bank_addItem (config : CarryConfig) (p : PlayingCharacter) (item : Int16) (amount : Int32) :
    (p.addItem config item amount).bank = p.bank := by
  unfold addItem
  cases Inventory.addItem config.items p.inventory item amount with
  | none => rfl
  | some inventory => rfl

theorem keeps_lockerTake_iff (hdebt : p.NoDebt) (reader : PacketReader) :
    Keeps (bankStep config m) belongings p (.lockerTake reader) ↔
      p.BankRoom config m (.lockerTake reader) := by
  have hstep : bankStep config m p (.lockerTake reader) =
      (p.lockerTaken config m reader).map fun taken =>
        taken.elim p fun (item, taken) =>
          { calculateStats config.toCarryConfig (p.addItem config.toCarryConfig item taken) with
            bank := (calculateStats config.toCarryConfig
              (p.addItem config.toCarryConfig item taken)).withdrawn item taken } := by
    simp only [bankStep, lockerTake, Option.bind_eq_bind]
    rcases p.lockerTaken config m reader with _ | _ | ⟨item, taken⟩
    · rfl
    · rfl
    · rfl
  rw [keeps_iff_of_map hstep rfl]
  simp only [BankRoom, Prod.forall]
  apply forall₃_congr
  intro item taken htaken
  rw [Option.elim_some]
  obtain ⟨it, hstack, hnonneg, hle⟩ := lockerTaken_spec htaken hdebt
  have hbank : (calculateStats config.toCarryConfig
      (p.addItem config.toCarryConfig item taken)).withdrawn item taken =
        p.withdrawn item taken := by
    change FirstMatch.alterFirst _ _ (p.addItem config.toCarryConfig item taken).bank = _
    rw [bank_addItem]
    rfl
  have hafter : ∀ other, belongings
      { calculateStats config.toCarryConfig (p.addItem config.toCarryConfig item taken) with
        bank := (calculateStats config.toCarryConfig
          (p.addItem config.toCarryConfig item taken)).withdrawn item taken } other =
      (p.addItem config.toCarryConfig item taken).total other +
        ((p.bank.map (share other)).sum - if item = other then taken.toInt else 0) := by
    intro other
    rw [← sum_withdrawn hstack hnonneg hle, ← hbank]
    rfl
  have hbefore : ∀ other, p.belongings other = p.total other + (p.bank.map (share other)).sum :=
    fun _ => rfl
  have hother : ∀ other, item ≠ other →
      (p.addItem config.toCarryConfig item taken).total other = p.total other :=
    fun other hne => total_addItem_of_ne hne
  rw [Int32.lt_iff_toInt_lt, Int32.toInt_zero]
  constructor
  · intro h hpos
    rw [← total_addItem_iff hpos]
    have hsame := congrFun h item
    rw [hafter, hbefore, if_pos rfl] at hsame
    omega
  · intro h
    funext other
    rw [hafter, hbefore]
    by_cases hid : item = other
    · have harrived : (p.addItem config.toCarryConfig item taken).total item =
          p.total item + taken.toInt := by
        rcases hnonneg.lt_or_eq with hpos | hzero
        · exact (total_addItem_iff hpos).mpr (h hpos)
        · have hle0 : taken ≤ 0 := by
            rw [Int32.le_iff_toInt_le, Int32.toInt_zero]
            omega
          rw [addItem, Inventory.addItem, if_pos hle0, ← hzero, add_zero]
      rw [if_pos hid, ← hid, harrived]
      omega
    · rw [if_neg hid, hother other hid]
      omega

/-! ## Runs -/

theorem goldbank_delItem (config : CarryConfig) (p : PlayingCharacter) (item : Int16)
    (amount : Int32) :
    (p.delItem config item amount).goldbank = p.goldbank := by
  unfold delItem
  cases Inventory.delItem p.inventory item amount with
  | none => rfl
  | some inventory => rfl

theorem noDebt_withdrawn {it : CharacterItem} {taken : Int32} (hdebt : p.NoDebt)
    (hstack : Inventory.stack p.bank item = some it) (htaken : 0 ≤ taken.toInt)
    (hle : taken.toInt ≤ it.amount.toInt) :
    ∀ u ∈ p.withdrawn item taken, 0 ≤ u.amount.toInt := by
  intro u hu
  rcases FirstMatch.mem_of_mem_alterFirst hu with hold | ⟨x, hx, hnew⟩
  · exact hdebt.bank u hold
  · obtain rfl : it = x := Option.some.inj (hstack.symm.trans hx)
    rw [Option.ite_none_left_eq_some, Option.some.injEq] at hnew
    obtain ⟨-, rfl⟩ := hnew
    have hlt := it.amount.toInt_lt
    have hsub : (it.amount - taken).toInt = it.amount.toInt - taken.toInt :=
      Inventory.toInt_sub_of_le (by omega) (by omega)
    change 0 ≤ (it.amount - taken).toInt
    omega

theorem NoDebt.bankStep (hdebt : p.NoDebt) {s : BankStep} {q : PlayingCharacter}
    (h : p.bankStep config m s = some q) : q.NoDebt := by
  cases s with
  | bankAdd reader =>
      simp only [PlayingCharacter.bankStep, bankAdd, Option.bind_eq_bind,
        Option.bind_eq_some_iff] at h
      obtain ⟨_ | amount, hadded, h⟩ := h
      · cases h
        exact hdebt
      · obtain ⟨hnonneg, hsum, -⟩ := bankAdded_spec hadded hdebt
        have hgold := hdebt.goldbank
        cases h
        refine ⟨?_, ?_⟩
        · change 0 ≤ (p.goldbank + amount).toInt
          omega
        · change ∀ it ∈ (p.delItem config.toCarryConfig 1 amount).bank, _
          rw [bank_delItem]
          exact hdebt.bank
  | bankTake reader =>
      simp only [PlayingCharacter.bankStep, bankTake, Option.bind_eq_bind,
        Option.bind_eq_some_iff] at h
      obtain ⟨_ | amount, htaken, h⟩ := h
      · cases h
        exact hdebt
      · obtain ⟨-, hnonneg, -⟩ := bankTaken_spec htaken hdebt
        cases h
        refine ⟨?_, ?_⟩
        · rw [goldbank_addItem]
          exact hnonneg
        · rw [bank_addItem]
          exact hdebt.bank
  | lockerAdd reader =>
      simp only [PlayingCharacter.bankStep, lockerAdd, Option.bind_eq_bind,
        Option.bind_eq_some_iff] at h
      obtain ⟨_ | ⟨item, amount, bank⟩, hadded, h⟩ := h
      · cases h
        exact hdebt
      · obtain ⟨asked, hasked, -, hstored⟩ := lockerAdded_spec hadded
        obtain ⟨-, -, -, hbank⟩ := stored_spec hstored hasked hdebt
        cases h
        refine ⟨?_, ?_⟩
        · change 0 ≤ ((delItem config.toCarryConfig _ item amount).goldbank).toInt
          rw [goldbank_delItem]
          exact hdebt.goldbank
        · change ∀ it ∈ (delItem config.toCarryConfig _ item amount).bank, _
          rw [bank_delItem]
          exact hbank
  | lockerTake reader =>
      simp only [PlayingCharacter.bankStep, lockerTake, Option.bind_eq_bind,
        Option.bind_eq_some_iff] at h
      obtain ⟨_ | ⟨item, taken⟩, htaken, h⟩ := h
      · cases h
        exact hdebt
      · obtain ⟨it, hstack, hnonneg, hle⟩ := lockerTaken_spec htaken hdebt
        cases h
        refine ⟨?_, ?_⟩
        · change 0 ≤ ((p.addItem config.toCarryConfig item taken).goldbank).toInt
          rw [goldbank_addItem]
          exact hdebt.goldbank
        · change ∀ u ∈ FirstMatch.alterFirst _ _ (p.addItem config.toCarryConfig item taken).bank, _
          rw [bank_addItem]
          exact noDebt_withdrawn hdebt hstack hnonneg hle

/-- In a run of bank and locker requests each bank step keeps the gold and each locker step
keeps every item exactly when there is room for what is moved. -/
theorem conserves_iff_bankRoom (config : BankConfig) (m : MapTiles) (p : PlayingCharacter)
    (hdebt : p.NoDebt) (steps : List BankStep) :
    Every (PlayingCharacter.bankStep config m) (Conserves config m) p steps ↔
      Every (PlayingCharacter.bankStep config m) (BankRoom config m) p steps := by
  apply every_iff NoDebt _ (fun _ _ _ hp _ h => hp.bankStep h) hdebt
  intro p s hdebt
  cases s with
  | bankAdd reader => exact iff_of_true (keeps_bankAdd hdebt reader) trivial
  | bankTake reader => exact keeps_bankTake_iff hdebt reader
  | lockerAdd reader => exact keeps_lockerAdd_iff hdebt reader
  | lockerTake reader => exact keeps_lockerTake_iff hdebt reader

/-! ## At the counter -/

def savings : BankConfig where
  toCarryConfig := Ground.square.toCarryConfig
  maxBankGold := 1000
  baseBankSize := 20
  bankSizeStep := 5
  maxBank := 200
  maxItem_nonneg := by decide
  maxBank_nonneg := by decide

/-- Eight gold of at most ten in the pocket, and five on the account. -/
def customer : PlayingCharacter := { Ground.walker 1 [⟨1, 8⟩] with npcType := .bank, goldbank := 5 }

def vault : MapTiles where
  width := 10
  height := 10
  tilespec := fun _ _ => .bankVault
  occupied := fun _ _ => false

theorem conserves_customer :
    Every (PlayingCharacter.bankStep savings vault) (Conserves savings vault) customer
      [.bankTake (tradePacket [3, 254, 254, 254])] := by
  apply (conserves_iff_bankRoom savings vault customer ⟨by decide, by decide⟩ _).mpr
  refine ⟨?_, fun _ _ => trivial⟩
  intro amount htaken
  have htwo : customer.bankTaken (tradePacket [3, 254, 254, 254]) = some (some 2) := by
    decide
  rw [htwo, Option.some.injEq, Option.some.injEq] at htaken
  rw [← htaken]
  decide

theorem not_conserves_customer :
    ¬ Every (PlayingCharacter.bankStep savings vault) (Conserves savings vault) customer
      [.bankTake (tradePacket [6, 254, 254, 254])] := by
  rintro ⟨hkeeps, -⟩
  have hroom := (keeps_bankTake_iff ⟨by decide, by decide⟩ _).mp hkeeps 5 (by decide)
  exact absurd hroom (by decide)

end PlayingCharacter

end ArenaServ
