import ArenaServ.Inventory
import ArenaServ.RunSteps
import Mathlib.Data.List.Nodup

/-!
# The bounds of an inventory

`AddItem` cuts a stack off at `MaxItem` when it adds to it, but not when it makes a new one.
An inventory with one stack of each item and no stack beyond `MaxItem` stays like that in
every run exactly when no new stack is made of more than `MaxItem`.
-/

namespace ArenaServ
open RunSteps

namespace Inventory

inductive ItemCall where
  | addItem (item : Int16) (amount : Int32)
  | delItem (item : Int16) (amount : Int32)
  deriving DecidableEq, Repr

def ItemCall.item : ItemCall → Int16
  | addItem item _ => item
  | delItem item _ => item

/-- The inventory that a call leaves; `none` when it returns false. -/
def ItemCall.result (rules : ItemRules) (inventory : List CharacterItem) :
    ItemCall → Option (List CharacterItem)
  | addItem item amount => Inventory.addItem rules inventory item amount
  | delItem item amount => Inventory.delItem inventory item amount

/-- What a call returns, and the inventory after it. -/
def ItemCall.call (rules : ItemRules) (inventory : List CharacterItem) (c : ItemCall) :
    Bool × List CharacterItem :=
  ((c.result rules inventory).isSome, (c.result rules inventory).getD inventory)

variable {rules : ItemRules} {maxItem : Int32} {item : Int16} {amount : Int32}
  {inventory inventory' : List CharacterItem}

/-! ## What the operations do to the list -/

def ids (inventory : List CharacterItem) : List Int16 := inventory.map (·.id)

/-- The stacks of the other items. -/
def others (inventory : List CharacterItem) (item : Int16) : List CharacterItem :=
  inventory.filter (·.id ≠ item)

/-- The list around the first stack of an item. -/
theorem others_around {before after : List CharacterItem} {x : CharacterItem}
    (hx : x.id = item) : others (before ++ x :: after) item = others (before ++ after) item := by
  rw [others, others, List.filter_append, List.filter_append, List.filter_cons_of_neg]
  simp [hx]

theorem addStack_of_notMem (maxItem : Int32) (amount : Int32) (h : item ∉ ids inventory) :
    addStack maxItem item amount inventory = some (inventory ++ [⟨item, amount⟩]) := by
  induction inventory with
  | nil => rfl
  | cons it rest ih =>
      rw [ids, List.map_cons, List.mem_cons, not_or] at h
      rw [addStack, if_neg (Ne.symm h.1), ih h.2]
      rfl

/-- A new stack at the end, or one more amount on the first stack, which stays where it is. -/
theorem addStack_cases (h : addStack maxItem item amount inventory = some inventory') :
    item ∉ ids inventory ∧ inventory' = inventory ++ [⟨item, amount⟩] ∨
      ∃ before x after, inventory = before ++ x :: after ∧ x.id = item ∧
        ¬ x.amount + amount < 0 ∧
        inventory' = before ++ { x with amount := min (x.amount + amount) maxItem } :: after := by
  induction inventory generalizing inventory' with
  | nil =>
      cases h
      exact Or.inl ⟨List.not_mem_nil, rfl⟩
  | cons it rest ih =>
      rw [addStack] at h
      split_ifs at h with hid hneg
      · cases h
        exact Or.inr ⟨[], it, rest, rfl, hid, hneg, rfl⟩
      · obtain ⟨rest', hrest, rfl⟩ := Option.map_eq_some_iff.mp h
        rcases ih hrest with ⟨hnot, rfl⟩ | ⟨before, x, after, rfl, hx, hneg, rfl⟩
        · left
          refine ⟨?_, rfl⟩
          rw [ids, List.map_cons, List.mem_cons, not_or]
          exact ⟨Ne.symm hid, hnot⟩
        · exact Or.inr ⟨it :: before, x, after, rfl, hx, hneg, rfl⟩

/-- The first stack of the item is gone, or smaller and still there. -/
theorem delStack_cases (h : delStack item amount inventory = some inventory') :
    ∃ before x after, inventory = before ++ x :: after ∧ x.id = item ∧
      (inventory' = before ++ after ∨
        ¬ x.amount < 0 ∧ ¬ x.amount - amount ≤ 0 ∧
          inventory' = before ++ { x with amount := x.amount - amount } :: after) := by
  induction inventory generalizing inventory' with
  | nil => cases h
  | cons it rest ih =>
      rw [delStack] at h
      split_ifs at h with hid hgone
      · cases h
        exact ⟨[], it, rest, rfl, hid, Or.inl rfl⟩
      · cases h
        exact ⟨[], it, rest, rfl, hid, Or.inr ⟨(not_or.mp hgone).1, (not_or.mp hgone).2, rfl⟩⟩
      · obtain ⟨rest', hrest, rfl⟩ := Option.map_eq_some_iff.mp h
        obtain ⟨before, x, after, rfl, hx, hcases⟩ := ih hrest
        refine ⟨it :: before, x, after, rfl, hx, ?_⟩
        rcases hcases with rfl | ⟨hneg, hgone, rfl⟩
        · exact Or.inl rfl
        · exact Or.inr ⟨hneg, hgone, rfl⟩

theorem addItem_cases (h : addItem rules inventory item amount = some inventory') :
    0 < amount ∧ rules.ValidId item ∧
      addStack rules.maxItem item amount inventory = some inventory' := by
  rw [addItem] at h
  split_ifs at h with hamount hid
  exact ⟨by simpa using hamount, hid, h⟩

theorem delItem_cases (h : delItem inventory item amount = some inventory') :
    0 < amount ∧ delStack item amount inventory = some inventory' := by
  rw [delItem] at h
  split_ifs at h with hamount
  exact ⟨by simpa using hamount, h⟩

theorem others_addStack (h : addStack maxItem item amount inventory = some inventory') :
    others inventory' item = others inventory item := by
  rcases addStack_cases h with ⟨-, rfl⟩ | ⟨before, x, after, rfl, hx, -, rfl⟩
  · simp [others]
  · rw [others_around hx]
    exact others_around hx

theorem others_delStack (h : delStack item amount inventory = some inventory') :
    others inventory' item = others inventory item := by
  obtain ⟨before, x, after, rfl, hx, rfl | ⟨-, -, rfl⟩⟩ := delStack_cases h
  · rw [others_around hx]
  · rw [others_around hx]
    exact others_around hx

/-! ## Sound inventories -/

/-- One stack of each item, each between one and `maxItem`. -/
structure Sound (maxItem : Int32) (inventory : List CharacterItem) : Prop where
  nodup : (ids inventory).Nodup
  positive : ∀ it ∈ inventory, 1 ≤ it.amount.toInt
  capped : ∀ it ∈ inventory, it.amount.toInt ≤ maxItem.toInt

/-- A stack that has been given another amount. -/
theorem Sound.setAmount {before after : List CharacterItem} {x : CharacterItem}
    (h : Sound maxItem (before ++ x :: after)) {a : Int32} (hpositive : 1 ≤ a.toInt)
    (hcapped : a.toInt ≤ maxItem.toInt) :
    Sound maxItem (before ++ { x with amount := a } :: after) where
  nodup := by simpa [ids] using h.nodup
  positive it hit := by
    rcases List.mem_append.mp hit with hit | hit
    · exact h.positive it (List.mem_append_left _ hit)
    · rcases List.mem_cons.mp hit with rfl | hit
      · exact hpositive
      · exact h.positive it (List.mem_append_right _ (List.mem_cons_of_mem _ hit))
  capped it hit := by
    rcases List.mem_append.mp hit with hit | hit
    · exact h.capped it (List.mem_append_left _ hit)
    · rcases List.mem_cons.mp hit with rfl | hit
      · exact hcapped
      · exact h.capped it (List.mem_append_right _ (List.mem_cons_of_mem _ hit))

theorem Sound.erase {before after : List CharacterItem} {x : CharacterItem}
    (h : Sound maxItem (before ++ x :: after)) : Sound maxItem (before ++ after) := by
  have hsub : List.Sublist (before ++ after) (before ++ x :: after) :=
    List.Sublist.append_left (List.sublist_cons_self x after) before
  exact ⟨h.nodup.sublist (hsub.map _), fun it hit => h.positive it (hsub.subset hit),
    fun it hit => h.capped it (hsub.subset hit)⟩

/-- A new stack is held to `maxItem` by nobody. -/
theorem Sound.append_iff (h : Sound maxItem inventory) (hnot : item ∉ ids inventory)
    (hpositive : 1 ≤ amount.toInt) :
    Sound maxItem (inventory ++ [⟨item, amount⟩]) ↔ amount.toInt ≤ maxItem.toInt := by
  constructor
  · intro hsound
    exact hsound.capped ⟨item, amount⟩ (by simp)
  · intro hcapped
    refine ⟨?_, ?_, ?_⟩
    · rw [ids, List.map_append, List.nodup_append_comm]
      exact List.nodup_cons.mpr ⟨hnot, h.nodup⟩
    · intro it hit
      rcases List.mem_append.mp hit with hit | hit
      · exact h.positive it hit
      · rw [List.mem_singleton.mp hit]
        exact hpositive
    · intro it hit
      rcases List.mem_append.mp hit with hit | hit
      · exact h.capped it hit
      · rw [List.mem_singleton.mp hit]
        exact hcapped

theorem toInt_pos (h : 0 < amount) : 1 ≤ amount.toInt := by
  rw [Int32.lt_iff_toInt_lt, Int32.toInt_zero] at h
  omega

/-- A stack that is added to stays within the bounds, whatever is added. -/
theorem Sound.addStack (h : Sound maxItem inventory) (hamount : 0 < amount)
    (hadd : addStack maxItem item amount inventory = some inventory') :
    Sound maxItem inventory' ↔ (item ∉ ids inventory → amount.toInt ≤ maxItem.toInt) := by
  rcases addStack_cases hadd with ⟨hnot, rfl⟩ | ⟨before, x, after, rfl, hx, hneg, rfl⟩
  · rw [h.append_iff hnot (toInt_pos hamount)]
    exact ⟨fun hle _ => hle, fun hle => hle hnot⟩
  · have hmem : x ∈ before ++ x :: after := by simp
    have hlow := h.positive x hmem
    have hhigh := h.capped x hmem
    have hpos := toInt_pos hamount
    rw [add_lt_zero_iff (by omega)] at hneg
    have hsum := toInt_add_of_lt (x := x.amount) (a := amount) (by omega) (by omega)
    constructor
    · intro _ hnot
      exact absurd (hx ▸ List.mem_map_of_mem hmem) hnot
    · intro _
      apply h.setAmount
      · rw [toInt_min, hsum]
        omega
      · rw [toInt_min]
        exact Int.min_le_right _ _

theorem Sound.delStack (h : Sound maxItem inventory) (hamount : 0 < amount)
    (hdel : delStack item amount inventory = some inventory') : Sound maxItem inventory' := by
  obtain ⟨before, x, after, rfl, -, rfl | ⟨-, hgone, rfl⟩⟩ := delStack_cases hdel
  · exact h.erase
  · have hmem : x ∈ before ++ x :: after := by simp
    have hlow := h.positive x hmem
    have hhigh := h.capped x hmem
    have hpos := toInt_pos hamount
    have hmax := x.amount.toInt_lt
    have hmax' := amount.toInt_lt
    have hsub := toInt_sub_of_le (x := x.amount) (a := amount) (by omega) (by omega)
    rw [Int32.le_iff_toInt_le, Int32.toInt_zero, hsub] at hgone
    apply h.setAmount
    · omega
    · omega

/-! ## Runs -/

def nextInventory (rules : ItemRules) (inventory : List CharacterItem) (c : ItemCall) :
    Option (List CharacterItem) :=
  some (c.call rules inventory).2

/-- What is promised of a call. -/
structure Represents (rules : ItemRules) (inventory : List CharacterItem) (c : ItemCall) :
    Prop where
  sound : Sound rules.maxItem (c.call rules inventory).2
  refused : (c.call rules inventory).1 = false → (c.call rules inventory).2 = inventory
  others : (c.call rules inventory).1 = true →
    others (c.call rules inventory).2 c.item = others inventory c.item

/-- A call that is accepted makes no new stack beyond `MaxItem`. -/
def Capped (rules : ItemRules) (inventory : List CharacterItem) : ItemCall → Prop
  | .addItem item amount =>
      0 < amount → rules.ValidId item → item ∉ ids inventory →
        amount.toInt ≤ rules.maxItem.toInt
  | .delItem _ _ => True

theorem others_call (rules : ItemRules) (inventory : List CharacterItem) (c : ItemCall) :
    others (c.call rules inventory).2 c.item = others inventory c.item := by
  rw [ItemCall.call]
  cases h : c.result rules inventory with
  | none => rfl
  | some inventory' =>
      rw [Option.getD_some]
      cases c with
      | addItem item amount => exact others_addStack (addItem_cases h).2.2
      | delItem item amount => exact others_delStack (delItem_cases h).2

/-- A call that is refused leaves what there was, and a new stack is the only danger. -/
theorem Sound.call_iff (h : Sound rules.maxItem inventory) (c : ItemCall) :
    Sound rules.maxItem (c.call rules inventory).2 ↔ Capped rules inventory c := by
  rw [ItemCall.call]
  cases hres : c.result rules inventory with
  | none =>
      refine iff_of_true h ?_
      cases c with
      | delItem item amount => trivial
      | addItem item amount =>
          intro hamount hid hnot
          rw [ItemCall.result, Inventory.addItem, if_neg (by simpa using hamount),
            if_neg (not_not.mpr hid), addStack_of_notMem _ _ hnot] at hres
          cases hres
  | some inventory' =>
      rw [Option.getD_some]
      cases c with
      | addItem item amount =>
          obtain ⟨hamount, hid, hadd⟩ := addItem_cases hres
          rw [h.addStack hamount hadd]
          exact ⟨fun hle _ _ => hle, fun hle => hle hamount hid⟩
      | delItem item amount =>
          obtain ⟨hamount, hdel⟩ := delItem_cases hres
          exact iff_of_true (h.delStack hamount hdel) trivial

theorem Sound.represents_iff (h : Sound rules.maxItem inventory) (c : ItemCall) :
    Represents rules inventory c ↔ Capped rules inventory c := by
  rw [← h.call_iff]
  refine ⟨fun hrep => hrep.sound, fun hsound => ⟨hsound, ?_, fun _ => others_call _ _ _⟩⟩
  intro hfalse
  rw [ItemCall.call, Option.isSome_eq_false_iff, Option.isNone_iff_eq_none] at hfalse
  rw [ItemCall.call, hfalse, Option.getD_none]

/-- An inventory is kept as promised in every step of a run exactly when each new stack is
within `MaxItem`. -/
theorem every_represents_iff (rules : ItemRules) (inventory : List CharacterItem)
    (h : Sound rules.maxItem inventory) (calls : List ItemCall) :
    Every (nextInventory rules) (Represents rules) inventory calls ↔
      Every (nextInventory rules) (Capped rules) inventory calls := by
  apply every_iff (Sound rules.maxItem) (fun inv c hinv => hinv.represents_iff c) _ h
  intro inv c inv' hinv hcapped hnext
  rw [← Option.some.inj hnext]
  exact (hinv.call_iff c).mpr hcapped

/-- Three items, and the limits of the configuration as it is shipped. -/
def shippedRules : ItemRules where
  eif := [⟨.normal⟩, ⟨.normal⟩, ⟨.normal⟩]
  maxItem := 2000000000
  maxTrade := 2000000000
  tradeAddQuantity := false

theorem every_represents_gold :
    Sound shippedRules.maxItem [⟨1, 5⟩] ∧
      (Every (nextInventory shippedRules) (Represents shippedRules) [⟨1, 5⟩]
          [.addItem 1 2000000000, .delItem 1 7] ↔
        Every (nextInventory shippedRules) (Capped shippedRules) [⟨1, 5⟩]
          [.addItem 1 2000000000, .delItem 1 7]) := by
  have hsound : Sound shippedRules.maxItem [⟨1, 5⟩] := by
    refine ⟨?_, ?_, ?_⟩
    all_goals decide
  exact ⟨hsound, every_represents_iff shippedRules [⟨1, 5⟩] hsound _⟩

/-- A first stack of all that fits in an `int`. -/
theorem not_represents_newStack :
    Sound shippedRules.maxItem [] ∧
      ¬ Every (nextInventory shippedRules) (Represents shippedRules) []
        [.addItem 1 2147483647] := by
  refine ⟨⟨List.nodup_nil, (fun _ h => nomatch h), (fun _ h => nomatch h)⟩, ?_⟩
  rintro ⟨hrep, -⟩
  have hcapped := hrep.sound.capped ⟨1, 2147483647⟩ (by decide)
  exact absurd hcapped (by decide)

end Inventory

end ArenaServ
