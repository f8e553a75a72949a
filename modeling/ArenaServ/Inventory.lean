import Mathlib.Algebra.BigOperators.Group.List.Basic
import Mathlib.Algebra.Ring.Int.Defs
import Mathlib.Data.List.Basic

/-!
# Inventories

An inventory is a list of stacks. `AddItem` and `DelItem` change the first stack of an
item; amounts are `int`, additions wrap, and a stack that is added to is cut off at
`MaxItem`. What an operation does to an item depends on the amounts held of it only.
-/

namespace ArenaServ

structure CharacterItem where
  id : Int16
  amount : Int32
  deriving DecidableEq, Repr

/-- `EIF::Special`. -/
inductive ItemSpecial where
  | normal | rare | unknownSpecial2 | unique | lore | cursed
  deriving DecidableEq, Repr

structure EIFData where
  special : ItemSpecial
  deriving DecidableEq, Repr

/-- The item file and the configuration values the item functions read. -/
structure ItemRules where
  eif : List EIFData
  maxItem : Int32
  maxTrade : Int32
  tradeAddQuantity : Bool
  deriving DecidableEq, Repr

namespace ItemRules

/-- `EIF::Get`: an unknown id gets the first entry. -/
def get (rules : ItemRules) (id : ℕ) : Option EIFData := rules.eif[id]?.or rules.eif[0]?

def ValidId (rules : ItemRules) (item : Int16) : Prop :=
  ¬ (item ≤ 0 ∨ rules.eif.length ≤ item.toInt.toNat)

instance (rules : ItemRules) (item : Int16) : Decidable (rules.ValidId item) :=
  inferInstanceAs (Decidable (¬ _))

end ItemRules

namespace Inventory

def addStack (maxItem : Int32) (item : Int16) (amount : Int32) :
    List CharacterItem → Option (List CharacterItem)
  | [] => some [⟨item, amount⟩]
  | it :: rest =>
      if it.id = item then
        if it.amount + amount < 0 then none
        else some ({ it with amount := min (it.amount + amount) maxItem } :: rest)
      else (addStack maxItem item amount rest).map (it :: ·)

/-- `AddItem`; `none` when it returns false. -/
def addItem (rules : ItemRules) (inventory : List CharacterItem) (item : Int16) (amount : Int32) :
    Option (List CharacterItem) :=
  if amount ≤ 0 then none
  else if ¬ rules.ValidId item then none
  else addStack rules.maxItem item amount inventory

def delStack (item : Int16) (amount : Int32) : List CharacterItem → Option (List CharacterItem)
  | [] => none
  | it :: rest =>
      if it.id = item then
        if it.amount < 0 ∨ it.amount - amount ≤ 0 then some rest
        else some ({ it with amount := it.amount - amount } :: rest)
      else (delStack item amount rest).map (it :: ·)

/-- `DelItem`; `none` when it returns false. -/
def delItem (inventory : List CharacterItem) (item : Int16) (amount : Int32) :
    Option (List CharacterItem) :=
  if amount ≤ 0 then none else delStack item amount inventory

/-- The first stack of an item. -/
def stack (inventory : List CharacterItem) (item : Int16) : Option CharacterItem :=
  inventory.find? (·.id = item)

/-! ## The amounts held of one item -/

def held (inventory : List CharacterItem) (item : Int16) : List Int32 :=
  (inventory.filter (·.id = item)).map (·.amount)

def sum (amounts : List Int32) : ℤ := (amounts.map Int32.toInt).sum

def total (inventory : List CharacterItem) (item : Int16) : ℤ := sum (held inventory item)

def addHeld (maxItem amount : Int32) : List Int32 → List Int32
  | [] => [amount]
  | x :: xs => if x + amount < 0 then x :: xs else min (x + amount) maxItem :: xs

def delHeld (amount : Int32) : List Int32 → List Int32
  | [] => []
  | x :: xs => if x < 0 ∨ x - amount ≤ 0 then xs else (x - amount) :: xs

theorem held_cons (it : CharacterItem) (rest : List CharacterItem) (item : Int16) :
    held (it :: rest) item = if it.id = item then it.amount :: held rest item
      else held rest item := by
  rw [held, List.filter_cons]
  by_cases h : it.id = item
  · simp [h, held]
  · simp [h, held]

theorem head?_held (inventory : List CharacterItem) (item : Int16) :
    (held inventory item).head? = (stack inventory item).map (·.amount) := by
  induction inventory with
  | nil => rfl
  | cons it rest ih =>
      rw [held_cons, stack, List.find?_cons]
      by_cases h : it.id = item
      · simp [h]
      · simpa [h, stack] using ih

theorem held_addStack (maxItem : Int32) (item : Int16) (amount : Int32)
    (inventory : List CharacterItem) :
    held ((addStack maxItem item amount inventory).getD inventory) item =
      addHeld maxItem amount (held inventory item) := by
  induction inventory with
  | nil => simp [addStack, held, addHeld]
  | cons it rest ih =>
      rw [addStack, held_cons]
      by_cases h : it.id = item
      · rw [if_pos h, if_pos h, addHeld]
        split_ifs with hneg
        · rw [Option.getD_none, held_cons, if_pos h]
        · rw [Option.getD_some, held_cons, if_pos h]
      · rw [if_neg h, if_neg h, ← ih]
        cases addStack maxItem item amount rest with
        | none => rw [Option.map_none, Option.getD_none, Option.getD_none, held_cons, if_neg h]
        | some inv => rw [Option.map_some, Option.getD_some, Option.getD_some, held_cons, if_neg h]

theorem held_delStack (item : Int16) (amount : Int32) (inventory : List CharacterItem) :
    held ((delStack item amount inventory).getD inventory) item =
      delHeld amount (held inventory item) := by
  induction inventory with
  | nil => rfl
  | cons it rest ih =>
      rw [delStack, held_cons]
      by_cases h : it.id = item
      · rw [if_pos h, if_pos h, delHeld]
        split_ifs with hgone
        · rw [Option.getD_some]
        · rw [Option.getD_some, held_cons, if_pos h]
      · rw [if_neg h, if_neg h, ← ih]
        cases delStack item amount rest with
        | none => rw [Option.map_none, Option.getD_none, Option.getD_none, held_cons, if_neg h]
        | some inv => rw [Option.map_some, Option.getD_some, Option.getD_some, held_cons, if_neg h]

theorem held_addStack_of_ne (maxItem : Int32) {item other : Int16} (hne : item ≠ other)
    (amount : Int32) (inventory : List CharacterItem) :
    held ((addStack maxItem item amount inventory).getD inventory) other =
      held inventory other := by
  induction inventory with
  | nil => simp [addStack, held, hne]
  | cons it rest ih =>
      rw [addStack]
      by_cases h : it.id = item
      · have hit : it.id ≠ other := h ▸ hne
        rw [if_pos h]
        split_ifs with hneg
        · rfl
        · rw [Option.getD_some, held_cons, held_cons, if_neg hit, if_neg hit]
      · rw [if_neg h, held_cons]
        cases hrest : addStack maxItem item amount rest with
        | none => rw [Option.map_none, Option.getD_none, held_cons]
        | some inv =>
            rw [hrest, Option.getD_some] at ih
            rw [Option.map_some, Option.getD_some, held_cons, ih]

theorem held_delStack_of_ne {item other : Int16} (hne : item ≠ other) (amount : Int32)
    (inventory : List CharacterItem) :
    held ((delStack item amount inventory).getD inventory) other = held inventory other := by
  induction inventory with
  | nil => rfl
  | cons it rest ih =>
      rw [delStack]
      by_cases h : it.id = item
      · have hit : it.id ≠ other := h ▸ hne
        rw [if_pos h, held_cons, if_neg hit]
        split_ifs with hgone
        · rw [Option.getD_some]
        · rw [Option.getD_some, held_cons, if_neg hit]
      · rw [if_neg h, held_cons]
        cases hrest : delStack item amount rest with
        | none => rw [Option.map_none, Option.getD_none, held_cons]
        | some inv =>
            rw [hrest, Option.getD_some] at ih
            rw [Option.map_some, Option.getD_some, held_cons, ih]

/-! ## What is gained and lost -/

theorem toInt_add_of_lt {x a : Int32} (hlow : -2 ^ 31 ≤ x.toInt + a.toInt)
    (hhigh : x.toInt + a.toInt < 2 ^ 31) : (x + a).toInt = x.toInt + a.toInt := by
  rw [Int32.toInt_add]
  exact Int.bmod_eq_of_le (by omega) (by omega)

theorem toInt_sub_of_le {x a : Int32} (hlow : -2 ^ 31 ≤ x.toInt - a.toInt)
    (hhigh : x.toInt - a.toInt < 2 ^ 31) : (x - a).toInt = x.toInt - a.toInt := by
  rw [Int32.toInt_sub]
  exact Int.bmod_eq_of_le (by omega) (by omega)

/-- An addition of a positive amount is negative exactly when it is, or overflows. -/
theorem add_lt_zero_iff {x a : Int32} (ha : 0 < a.toInt) :
    x + a < 0 ↔ x.toInt + a.toInt < 0 ∨ 2 ^ 31 ≤ x.toInt + a.toInt := by
  have hx := x.le_toInt
  have hx' := x.toInt_lt
  have ha' := a.toInt_lt
  rw [Int32.lt_iff_toInt_lt, Int32.toInt_zero]
  by_cases hover : x.toInt + a.toInt < 2 ^ 31
  · rw [toInt_add_of_lt (by omega) hover]
    omega
  · have hwrap : (x + a).toInt = x.toInt + a.toInt - 2 ^ 32 := by
      rw [Int32.toInt_add, Int.bmod_def]
      split_ifs <;> omega
    omega

theorem toInt_min (x y : Int32) : (min x y).toInt = min x.toInt y.toInt := by
  rw [show min x y = if x ≤ y then x else y from rfl]
  split_ifs with h <;> rw [Int32.le_iff_toInt_le] at h <;> omega

theorem sum_cons (x : Int32) (xs : List Int32) : sum (x :: xs) = x.toInt + sum xs := by
  rw [sum, List.map_cons, List.sum_cons]
  rfl

/-- There is room for `amount`: the stack it goes to, if any, stays within `maxItem`. -/
def Fits (maxItem amount : Int32) (amounts : List Int32) : Prop :=
  ∀ x ∈ amounts.head?, 0 ≤ x.toInt + amount.toInt ∧ x.toInt + amount.toInt ≤ maxItem.toInt

/-- The new size of the stack that is added to falls short when there is no room. -/
theorem addHeld_cons (maxItem : Int32) {amount : Int32} (ha : 0 < amount.toInt) (x : Int32)
    (xs : List Int32) :
    ∃ x', addHeld maxItem amount (x :: xs) = x' :: xs ∧ x'.toInt ≤ x.toInt + amount.toInt ∧
      (x'.toInt = x.toInt + amount.toInt ↔ Fits maxItem amount (x :: xs)) := by
  have hneg := add_lt_zero_iff (x := x) ha
  have hmax := maxItem.toInt_lt
  have hfits : Fits maxItem amount (x :: xs) ↔
      0 ≤ x.toInt + amount.toInt ∧ x.toInt + amount.toInt ≤ maxItem.toInt := by simp [Fits]
  rw [hfits, addHeld]
  by_cases hover : x + amount < 0
  · have hout := hneg.mp hover
    rw [if_pos hover]
    exact ⟨x, rfl, by omega, by omega⟩
  · have hin := mt hneg.mpr hover
    have hsum : (x + amount).toInt = x.toInt + amount.toInt :=
      toInt_add_of_lt (by omega) (by omega)
    rw [if_neg hover]
    refine ⟨_, rfl, ?_, ?_⟩
    · rw [toInt_min, hsum]
      exact Int.min_le_left _ _
    · rw [toInt_min, hsum, Int.min_def]
      split_ifs <;> omega

/-- Nothing is gained by adding, and all of it arrives exactly when there is room. -/
theorem sum_addHeld (maxItem : Int32) {amount : Int32} (ha : 0 < amount.toInt)
    (amounts : List Int32) :
    sum (addHeld maxItem amount amounts) ≤ sum amounts + amount.toInt ∧
      (sum (addHeld maxItem amount amounts) = sum amounts + amount.toInt ↔
        Fits maxItem amount amounts) := by
  cases amounts with
  | nil => simp [addHeld, sum, Fits]
  | cons x xs =>
      obtain ⟨x', hadd, hle, hiff⟩ := addHeld_cons maxItem ha x xs
      rw [hadd, ← hiff, sum_cons, sum_cons]
      omega

theorem sum_delHeld_cons {amount : Int32} (ha : 0 < amount.toInt) (x : Int32) (xs : List Int32) :
    sum (delHeld amount (x :: xs)) = sum xs + max 0 (x.toInt - amount.toInt) := by
  have hx := x.le_toInt
  have hx' := x.toInt_lt
  have ha' := amount.toInt_lt
  rw [delHeld]
  by_cases hneg : x < 0
  · rw [if_pos (Or.inl hneg)]
    rw [Int32.lt_iff_toInt_lt, Int32.toInt_zero] at hneg
    omega
  · have hsub : (x - amount).toInt = x.toInt - amount.toInt := by
      rw [Int32.lt_iff_toInt_lt, Int32.toInt_zero] at hneg
      exact toInt_sub_of_le (by omega) (by omega)
    have hle : x - amount ≤ 0 ↔ x.toInt - amount.toInt ≤ 0 := by
      rw [Int32.le_iff_toInt_le, hsub, Int32.toInt_zero]
    by_cases hgone : x - amount ≤ 0
    · rw [if_pos (Or.inr hgone)]
      have := hle.mp hgone
      omega
    · rw [if_neg (not_or.mpr ⟨hneg, hgone⟩), sum_cons, hsub]
      have := mt hle.mpr hgone
      omega

/-- The first stack covers the amount. -/
def Covers (amounts : List Int32) (amount : Int32) : Prop :=
  ∃ x ∈ amounts.head?, amount ≤ x

theorem sum_delHeld {amount : Int32} (ha : 0 < amount.toInt) {amounts : List Int32}
    (h : Covers amounts amount) : sum (delHeld amount amounts) = sum amounts - amount.toInt := by
  cases amounts with
  | nil => simp [Covers] at h
  | cons x xs =>
      have hle : amount.toInt ≤ x.toInt := by
        rw [← Int32.le_iff_toInt_le]
        simpa [Covers] using h
      rw [sum_delHeld_cons ha, sum_cons]
      omega

end Inventory

end ArenaServ
