import ArenaServ.BankConservation
import Mathlib.Algebra.Order.BigOperators.Group.List
import Mathlib.Algebra.Order.Ring.Int

/-!
# What a character carries

`CalculateStats` adds up weights in a `short`. It stops at 250 and makes 250 of what is negative or
above, so the sum modulo 2 ^ 16 tells the weight unless its remainder is small and the sum is not.
-/

namespace ArenaServ
namespace PlayingCharacter

variable (config : CarryConfig)

/-- The weights of stacks. -/
def stackWeight (list : List CharacterItem) : ℤ :=
  (list.map fun it =>
    (config.weightOf it.id.toInt32.toUInt32.toNat).toInt * it.amount.toInt).sum

/-- The weights of what is worn. -/
def wornWeight (paperdoll : List Int32) : ℤ :=
  (paperdoll.map fun i => if i = 0 then 0 else (config.weightOf i.toUInt32.toNat).toInt).sum

/-- All that a character carries and wears. -/
def load (p : PlayingCharacter) : ℤ :=
  stackWeight config p.inventory + wornWeight config p.paperdoll

/-- The weights of stacks, up to the first one with which sixteen bits of the sum are 250 or
more. -/
def weighed : List CharacterItem → ℤ → ℤ
  | [], total => total
  | it :: rest, total =>
      let total := total + (config.weightOf it.id.toInt32.toUInt32.toNat).toInt * it.amount.toInt
      if 250 ≤ total % 2 ^ 16 ∧ total % 2 ^ 16 < 2 ^ 15 then total else weighed rest total

/-- What is counted of all that a character carries and wears. -/
def counted (p : PlayingCharacter) : ℤ :=
  weighed config p.inventory 0 + wornWeight config p.paperdoll

/-- What is counted is little, or its last sixteen bits are not. -/
def WeightShows (p : PlayingCharacter) : Prop :=
  p.counted config < 250 ∨ 250 ≤ p.counted config % 2 ^ 16

variable {config} {p : PlayingCharacter}

/-! ## Sixteen bits -/

theorem toInt16_add_mul (total : ℤ) (x y : Int32) :
    ((Int16.ofInt total).toInt32 + x * y).toInt16 = Int16.ofInt (total + x.toInt * y.toInt) := by
  have hsize : Int16.size = 2 ^ 16 := rfl
  rw [← Int16.toInt_inj, Int32.toInt_toInt16, Int32.toInt_add, Int32.toInt_mul,
    Int16.toInt_toInt32, Int16.toInt_ofInt, Int16.toInt_ofInt, hsize]
  generalize x.toInt * y.toInt = product
  simp only [Int.bmod_def]
  split_ifs <;> omega

theorem toInt16_add (total : ℤ) (x : Int32) :
    ((Int16.ofInt total).toInt32 + x).toInt16 = Int16.ofInt (total + x.toInt) := by
  have hone := toInt16_add_mul total x 1
  rwa [Int32.mul_one, Int32.toInt_one, mul_one] at hone

theorem le_ofInt_iff (total : ℤ) :
    250 ≤ Int16.ofInt total ↔ 250 ≤ total % 2 ^ 16 ∧ total % 2 ^ 16 < 2 ^ 15 := by
  have hsize : Int16.size = 2 ^ 16 := rfl
  have hlimit : (250 : Int16).toInt = 250 := by decide
  rw [Int16.le_iff_toInt_le, Int16.toInt_ofInt, hsize, hlimit, Int.bmod_def]
  split_ifs <;> omega

/-! ## The two loops -/

theorem weigh_ofInt (list : List CharacterItem) (total : ℤ) :
    weigh config list (Int16.ofInt total) = Int16.ofInt (weighed config list total) := by
  induction list generalizing total with
  | nil => rfl
  | cons it rest ih =>
      rw [weigh, weighed, toInt16_add_mul]
      by_cases hfull : 250 ≤ Int16.ofInt (total +
          (config.weightOf it.id.toInt32.toUInt32.toNat).toInt * it.amount.toInt)
      · rw [if_pos hfull, if_pos ((le_ofInt_iff _).mp hfull)]
      · rw [if_neg hfull, if_neg (mt (le_ofInt_iff _).mpr hfull), ih]

theorem weighPaperdoll_ofInt (paperdoll : List Int32) (total : ℤ) :
    weighPaperdoll config paperdoll (Int16.ofInt total) =
      Int16.ofInt (total + wornWeight config paperdoll) := by
  unfold weighPaperdoll wornWeight
  induction paperdoll generalizing total with
  | nil => rw [List.map_nil, List.sum_nil, add_zero, List.foldl_nil]
  | cons i rest ih =>
      rw [List.foldl_cons, List.map_cons, List.sum_cons, ← add_assoc]
      by_cases hzero : i = 0
      · rw [if_pos hzero, if_pos hzero, ih, add_zero]
      · rw [if_neg hzero, if_neg hzero, toInt16_add, ih]

/-- The weight is the smaller of 250 and the last sixteen bits of what is counted. -/
theorem toInt_weight (hlimited : p.admin < config.unlimitedweight) :
    (calculateStats config p).weight.toInt = min 250 (p.counted config % 2 ^ 16) := by
  have hsize : Int16.size = 2 ^ 16 := rfl
  have hlimit : (250 : Int16).toInt = 250 := by decide
  have hsum : weighPaperdoll config p.paperdoll (weigh config p.inventory 0) =
      Int16.ofInt (p.counted config) := by
    rw [counted, ← weighPaperdoll_ofInt, ← weigh_ofInt]
    rfl
  unfold calculateStats newWeights
  dsimp only
  rw [if_neg (Int32.not_le.mpr hlimited), hsum]
  dsimp only
  have hvalue := @Int16.toInt_ofInt (p.counted config)
  rw [hsize, Int.bmod_def] at hvalue
  by_cases hclamp : Int16.ofInt (p.counted config) < 0 ∨ 250 < Int16.ofInt (p.counted config)
  · rw [if_pos hclamp, hlimit]
    rw [Int16.lt_iff_toInt_lt, Int16.lt_iff_toInt_lt, hlimit, Int16.toInt_zero] at hclamp
    split_ifs at hvalue <;> omega
  · rw [if_neg hclamp]
    rw [Int16.lt_iff_toInt_lt, Int16.lt_iff_toInt_lt, hlimit, Int16.toInt_zero] at hclamp
    split_ifs at hvalue <;> omega

/-! ## What is not counted -/

theorem toInt_weightOf_nonneg (id : ℕ) : 0 ≤ (config.weightOf id).toInt := by
  unfold CarryConfig.weightOf
  cases config.get id with
  | none => exact Int32.toInt_zero.ge
  | some info => exact toInt_weight_nonneg info.weight

theorem wornWeight_nonneg (paperdoll : List Int32) : 0 ≤ wornWeight config paperdoll := by
  apply List.sum_nonneg
  intro weight hweight
  obtain ⟨i, -, rfl⟩ := List.mem_map.mp hweight
  split_ifs
  · exact le_rfl
  · exact toInt_weightOf_nonneg _

theorem stackWeight_nonneg {list : List CharacterItem} (hamounts : ∀ it ∈ list, 0 ≤ it.amount) :
    0 ≤ stackWeight config list := by
  apply List.sum_nonneg
  intro product hproduct
  obtain ⟨it, hit, rfl⟩ := List.mem_map.mp hproduct
  have hamount := hamounts it hit
  rw [Int32.le_iff_toInt_le, Int32.toInt_zero] at hamount
  exact mul_nonneg (toInt_weightOf_nonneg _) hamount

/-- Not more is counted than there is, and if anything is left out then at least 250 is counted. -/
theorem weighed_bounds {list : List CharacterItem} (hamounts : ∀ it ∈ list, 0 ≤ it.amount)
    {total : ℤ} (htotal : 0 ≤ total) :
    weighed config list total ≤ total + stackWeight config list ∧
      (weighed config list total = total + stackWeight config list ∨
        250 ≤ weighed config list total) := by
  unfold stackWeight
  induction list generalizing total with
  | nil =>
      rw [List.map_nil, List.sum_nil, add_zero]
      exact ⟨le_rfl, Or.inl rfl⟩
  | cons it rest ih =>
      have hweight := @toInt_weightOf_nonneg config it.id.toInt32.toUInt32.toNat
      have hamount := hamounts it List.mem_cons_self
      rw [Int32.le_iff_toInt_le, Int32.toInt_zero] at hamount
      have hproduct := mul_nonneg hweight hamount
      have hrest : ∀ it ∈ rest, 0 ≤ it.amount :=
        fun it hit => hamounts it (List.mem_cons_of_mem _ hit)
      have hsum := @stackWeight_nonneg config rest hrest
      unfold stackWeight at hsum
      rw [weighed, List.map_cons, List.sum_cons, ← add_assoc]
      split_ifs with hfull
      · exact ⟨by omega, Or.inr (by omega)⟩
      · exact ih hrest (by omega)

/-- The weight is right if and only if what is counted is little or its last sixteen bits are
not. -/
theorem weight_iff (config : CarryConfig) (p : PlayingCharacter)
    (hlimited : p.admin < config.unlimitedweight) (hamounts : ∀ it ∈ p.inventory, 0 ≤ it.amount) :
    (calculateStats config p).weight.toInt = min 250 (p.load config) ↔ p.WeightShows config := by
  obtain ⟨hle, hall⟩ := @weighed_bounds config p.inventory hamounts 0 le_rfl
  have hworn := @wornWeight_nonneg config p.paperdoll
  have hstacks := @stackWeight_nonneg config p.inventory hamounts
  rw [toInt_weight hlimited]
  unfold WeightShows load counted
  rcases hall with hall | hall
  · omega
  · omega

/-! ## A remainder of nothing -/

def feathers : CarryConfig where
  items :=
    { eif := [⟨.normal⟩, ⟨.normal⟩]
      maxItem := 2000000000
      maxTrade := 10
      tradeAddQuantity := false }
  info := [Ground.plainItem 0 .static 0, Ground.plainItem 1 .heal 1]
  info_length := rfl
  enforceWeight := 2
  unlimitedweight := 4
  weightFormula := fun _ => 70

theorem weight_iff_one :
    (calculateStats feathers (Ground.walker 1 [⟨1, 1⟩])).weight.toInt =
        min 250 ((Ground.walker 1 [⟨1, 1⟩]).load feathers) ↔
      (Ground.walker 1 [⟨1, 1⟩]).WeightShows feathers :=
  weight_iff feathers (Ground.walker 1 [⟨1, 1⟩]) (by decide) (by decide)

/-- 2 ^ 16 feathers weigh nothing. -/
theorem not_weight_feathers :
    (∀ it ∈ (Ground.walker 1 [⟨1, 65536⟩]).inventory,
        0 ≤ it.amount ∧ it.amount ≤ feathers.items.maxItem) ∧
      (Ground.walker 1 [⟨1, 65536⟩]).admin < feathers.unlimitedweight ∧
      (calculateStats feathers (Ground.walker 1 [⟨1, 65536⟩])).weight.toInt ≠
        min 250 ((Ground.walker 1 [⟨1, 65536⟩]).load feathers) := by
  decide

end PlayingCharacter

end ArenaServ
