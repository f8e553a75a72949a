import ArenaServ.PlayWorld

/-!
# Equipping and unequipping

`Equip` writes a slot of the paperdoll and deletes the item from the inventory, `Unequip` clears a
slot and adds the item. Neither looks at what the inventory says to it, and quest rules are checked
whenever stats are calculated.
-/

namespace ArenaServ
open RunSteps

/-- `Equip` and `Unequip`, with what they return. -/
inductive EquipCall where
  | equip (item : Int16) (subloc : UInt8)
  | unequip (item : Int16) (subloc : UInt8)
  deriving DecidableEq, Repr

/-- What the quest rules of a character do to it when they are checked. -/
abbrev QuestCheck := PlayingCharacter → PlayingCharacter

/-- Quest rules that change nothing of what a character has. -/
def QuestCheck.Quiet (quests : QuestCheck) : Prop :=
  ∀ p, (quests p).inventory = p.inventory ∧ (quests p).paperdoll = p.paperdoll

namespace PlayingCharacter

variable (config : PlayConfig) (quests : QuestCheck)

/-- `CalculateStats` with the quest rules at its end. -/
def calculateStatsChecked (p : PlayingCharacter) : PlayingCharacter :=
  quests (calculateStats config.carry p)

def addItemChecked (p : PlayingCharacter) (item : Int16) (amount : Int32) : PlayingCharacter :=
  (Inventory.addItem config.items p.inventory item amount).elim p fun inventory =>
    calculateStatsChecked config quests { p with inventory := inventory }

def delItemChecked (p : PlayingCharacter) (item : Int16) (amount : Int32) : PlayingCharacter :=
  (Inventory.delItem p.inventory item amount).elim p fun inventory =>
    calculateStatsChecked config quests { p with inventory := inventory }

/-- The slot that `Unequip` clears. -/
def wornAt (p : PlayingCharacter) (item : Int16) (subloc : UInt8) : Option ℕ :=
  (List.range p.paperdoll.length).find? fun i =>
    p.paperdoll[i]? = some item.toInt32 && (secondSlot i).toNat = subloc.toNat

def unequipCall (p : PlayingCharacter) (item : Int16) (subloc : UInt8) :
    Bool × PlayingCharacter :=
  if item = 0 then (false, p)
  else
    (p.wornAt item subloc).elim (false, p) fun i =>
      (true, calculateStatsChecked config quests
        ({ p with paperdoll := p.paperdoll.set i 0 }.addItemChecked config quests item 1))

/-- The slot that `Equip` writes, if it does not return false. -/
def equipSlot (p : PlayingCharacter) (item : Int16) (subloc : UInt8) : Option (Option ℕ) :=
  if p.hasItem item false = 0 then some none
  else
    (config.getShort item).map fun info =>
      if !p.MayEquip config info then none
      else
        (equipSlots info.type).bind fun slots =>
          let slot := if subloc = 0 then slots.1 else slots.2
          if p.paperdoll[slot]? ≠ some 0 then none else some slot

def equipCall (p : PlayingCharacter) (item : Int16) (subloc : UInt8) :
    Option (Bool × PlayingCharacter) :=
  (p.equipSlot config item subloc).map fun slot =>
    slot.elim (false, p) fun slot =>
      (true, calculateStatsChecked config quests
        ({ p with paperdoll := p.paperdoll.set slot item.toInt32 }.delItemChecked config quests
          item 1))

def equipStep (p : PlayingCharacter) : EquipCall → Option (Bool × PlayingCharacter)
  | .equip item subloc => p.equipCall config quests item subloc
  | .unequip item subloc => some (p.unequipCall config quests item subloc)

def nextEquipped (p : PlayingCharacter) (call : EquipCall) : Option PlayingCharacter :=
  (p.equipStep config quests call).map Prod.snd

/-! ## What a character has of an item -/

/-- The slots of the paperdoll that hold an item; 0 is none. -/
def wornCount (paperdoll : List Int32) (item : Int16) : ℕ :=
  paperdoll.countP fun i => i ≠ 0 && i = item.toInt32

def possessions (p : PlayingCharacter) (item : Int16) : ℤ :=
  p.total item + wornCount p.paperdoll item

/-- A call keeps what there is of every item, and one that returns false changes nothing. -/
def KeepsEquipment (p : PlayingCharacter) (call : EquipCall) : Prop :=
  ∀ result ∈ p.equipStep config quests call,
    (∀ item, result.2.possessions item = p.possessions item) ∧
      (result.1 = false → result.2.inventory = p.inventory ∧ result.2.paperdoll = p.paperdoll)

/-- There is room for what is taken off, and a stack of at least one for what is put on. Of the
item 0, which is none, there is at most a stack of 0. -/
def EquipFits (p : PlayingCharacter) : EquipCall → Prop
  | .equip item subloc => ∀ slot, p.equipSlot config item subloc = some (some slot) →
      if item = 0 then 0 ∈ (Inventory.held p.inventory item).head?
      else Inventory.Covers (Inventory.held p.inventory item) 1
  | .unequip item subloc => item ≠ 0 → ∀ slot, p.wornAt item subloc = some slot →
      p.HasRoom config.carry item 1

variable {config} {quests} {p q : PlayingCharacter} {item other : Int16} {subloc : UInt8} {slot : ℕ}
  {amount : Int32} {calls : List EquipCall}

/-! ## The calls without quests -/

theorem calculateStatsChecked_id :
    calculateStatsChecked config id p = calculateStats config.carry p := rfl

theorem addItemChecked_id : p.addItemChecked config id item amount =
    p.addItem config.carry item amount := by
  unfold addItemChecked addItem
  change (Inventory.addItem config.carry.items p.inventory item amount).elim p _ = _
  cases Inventory.addItem config.carry.items p.inventory item amount with
  | none => rfl
  | some inventory => rfl

theorem delItemChecked_id : p.delItemChecked config id item amount =
    p.delItem config.carry item amount := by
  unfold delItemChecked delItem
  cases Inventory.delItem p.inventory item amount with
  | none => rfl
  | some inventory => rfl

theorem unequipCall_id :
    (p.unequipCall config id item subloc).2 = p.unequip config item subloc.toNat := by
  unfold unequipCall unequip wornAt
  by_cases hitem : item = 0
  · rw [if_pos hitem, if_pos hitem]
  · rw [if_neg hitem, if_neg hitem]
    cases (List.range p.paperdoll.length).find? fun i =>
        p.paperdoll[i]? = some item.toInt32 && (secondSlot i).toNat = subloc.toNat with
    | none => rfl
    | some slot =>
        rw [Option.elim_some, addItemChecked_id]
        rfl

theorem equipCall_id : (p.equipCall config id item subloc).map Prod.snd =
    p.equip config item subloc.toNat := by
  have hsubloc : subloc = 0 ↔ subloc.toNat = 0 := by
    rw [← UInt8.toNat_inj]
    rfl
  unfold equipCall equipSlot equip
  by_cases hhas : p.hasItem item false = 0
  · rw [if_pos hhas, if_pos hhas]
    rfl
  · rw [if_neg hhas, if_neg hhas]
    change _ = (config.getShort item).bind _
    cases config.getShort item with
    | none => rfl
    | some info =>
        rw [Option.bind_some, Option.map_some]
        by_cases hmay : (!p.MayEquip config info) = true
        · rw [if_pos hmay, if_pos hmay]
          rfl
        · rw [if_neg hmay, if_neg hmay]
          cases equipSlots info.type with
          | none => rfl
          | some slots =>
              dsimp only [Option.bind_some]
              rw [if_congr hsubloc rfl rfl]
              by_cases hempty :
                  p.paperdoll[if subloc.toNat = 0 then slots.1 else slots.2]? ≠ some 0
              · rw [if_pos hempty, if_pos hempty]
                rfl
              · rw [if_neg hempty, if_neg hempty, Option.map_some, Option.elim_some,
                  delItemChecked_id]
                rfl

/-! ## What is worn -/

theorem toInt32_inj : item.toInt32 = other.toInt32 ↔ item = other := by
  rw [← Int32.toInt_inj, Int16.toInt_toInt32, Int16.toInt_toInt32, Int16.toInt_inj]

theorem toInt32_ne_zero (hitem : item ≠ 0) : item.toInt32 ≠ 0 := by
  intro hzero
  apply hitem
  rw [← toInt32_inj, hzero]
  rfl

/-- Taking something off a slot is one slot less for the item. -/
theorem wornCount_take {paperdoll : List Int32} (hslot : paperdoll[slot]? = some item.toInt32)
    (hitem : item ≠ 0) :
    (wornCount (paperdoll.set slot 0) other : ℤ) =
      wornCount paperdoll other - if item = other then 1 else 0 := by
  obtain ⟨hlt, hget⟩ := List.getElem?_eq_some_iff.mp hslot
  have hpos : item = other → 0 < wornCount paperdoll other := by
    rintro rfl
    apply List.countP_pos_iff.mpr
    exact ⟨item.toInt32, List.mem_of_getElem? hslot, by simpa using toInt32_ne_zero hitem⟩
  unfold wornCount at hpos ⊢
  rw [List.countP_set hlt, hget]
  by_cases hother : item = other
  · have hone := hpos hother
    subst hother
    simp only [ne_eq, toInt32_ne_zero hitem, not_false_eq_true, decide_true, Bool.and_self, if_true,
      not_true_eq_false, decide_false, Bool.false_and, if_false, Nat.add_zero, Bool.false_eq_true]
      at hone ⊢
    omega
  · have hne : ¬ item.toInt32 = other.toInt32 := fun h => hother (toInt32_inj.mp h)
    simp [hother, hne]

/-- Putting something on an empty slot is one slot more. -/
theorem wornCount_put {paperdoll : List Int32} (hslot : paperdoll[slot]? = some 0) :
    (wornCount (paperdoll.set slot item.toInt32) other : ℤ) =
      wornCount paperdoll other + if item ≠ 0 ∧ item = other then 1 else 0 := by
  obtain ⟨hlt, hget⟩ := List.getElem?_eq_some_iff.mp hslot
  unfold wornCount
  rw [List.countP_set hlt, hget]
  by_cases hitem : item = 0
  · subst hitem
    simp
  · by_cases hother : item = other
    · subst hother
      simp [hitem, toInt32_ne_zero hitem]
    · have hne : ¬ item.toInt32 = other.toInt32 := fun h => hother (toInt32_inj.mp h)
      simp [hother, hne]

/-! ## What a call changes -/

theorem addItemChecked_keeps (hquests : quests.Quiet) :
    (p.addItemChecked config quests item amount).inventory =
      (p.addItem config.carry item amount).inventory ∧
    (p.addItemChecked config quests item amount).paperdoll = p.paperdoll := by
  rw [addItem_inventory]
  unfold addItemChecked
  change (Option.elim _ p _).inventory =
    (Inventory.addItem config.items p.inventory item amount).getD _ ∧ _
  cases Inventory.addItem config.items p.inventory item amount with
  | none => exact ⟨rfl, rfl⟩
  | some inventory => exact hquests _

theorem delItemChecked_keeps (hquests : quests.Quiet) :
    (p.delItemChecked config quests item amount).inventory =
      (p.delItem config.carry item amount).inventory ∧
    (p.delItemChecked config quests item amount).paperdoll = p.paperdoll := by
  rw [delItem_inventory]
  unfold delItemChecked
  cases Inventory.delItem p.inventory item amount with
  | none => exact ⟨rfl, rfl⟩
  | some inventory => exact hquests _

/-- Deleting one takes one away exactly if the first stack has one, and nothing exactly if that is
empty. -/
theorem total_delItem_one_iff (hheld : Inventory.held p.inventory item ≠ []) :
    ((p.delItem config.carry item 1).total item = p.total item - 1 ↔
      Inventory.Covers (Inventory.held p.inventory item) 1) ∧
    ((p.delItem config.carry item 1).total item = p.total item ↔
      0 ∈ (Inventory.held p.inventory item).head?) := by
  have hone : (0 : ℤ) < (1 : Int32).toInt := by decide
  have hvalue : (1 : Int32).toInt = 1 := by decide
  rw [total, total, delItem_inventory, Inventory.delItem, if_neg (not_le_zero hone),
    Inventory.total, Inventory.held_delStack, Inventory.total]
  unfold Inventory.Covers
  cases hamounts : Inventory.held p.inventory item with
  | nil => exact absurd hamounts hheld
  | cons x xs =>
      have hcovers : (∃ y ∈ (some x : Option Int32), 1 ≤ y) ↔ 1 ≤ x.toInt := by
        rw [← hvalue, ← Int32.le_iff_toInt_le]
        constructor
        · rintro ⟨y, hy, hle⟩
          rw [Option.some.inj hy]
          exact hle
        · exact fun hle => ⟨x, rfl, hle⟩
      have hempty : (0 : Int32) ∈ (some x : Option Int32) ↔ x.toInt = 0 := by
        rw [Option.mem_def, Option.some.injEq, ← Int32.toInt_inj, Int32.toInt_zero]
      rw [Inventory.sum_delHeld_cons hone, Inventory.sum_cons, List.head?_cons, hvalue, hcovers,
        hempty]
      constructor
      · omega
      · omega

theorem held_ne_nil (hhas : p.hasItem item false ≠ 0) : Inventory.held p.inventory item ≠ [] := by
  intro hnil
  apply hhas
  have hhead := Inventory.head?_held p.inventory item
  rw [hnil, List.head?_nil] at hhead
  have hstack := Option.map_eq_none_iff.mp hhead.symm
  unfold hasItem Inventory.hasItem
  rw [hstack]

theorem wornAt_spec (h : p.wornAt item subloc = some slot) :
    p.paperdoll[slot]? = some item.toInt32 := by
  have hfound := List.find?_some h
  rw [Bool.and_eq_true_iff, decide_eq_true_iff] at hfound
  exact hfound.1

theorem equipSlot_spec (h : p.equipSlot config item subloc = some (some slot)) :
    p.hasItem item false ≠ 0 ∧ p.paperdoll[slot]? = some 0 := by
  unfold equipSlot at h
  by_cases hhas : p.hasItem item false = 0
  · rw [if_pos hhas] at h
    cases h
  · rw [if_neg hhas] at h
    refine ⟨hhas, ?_⟩
    obtain ⟨info, -, hslot⟩ := Option.map_eq_some_iff.mp h
    rw [Option.ite_none_left_eq_some] at hslot
    obtain ⟨slots, -, hslot⟩ := Option.bind_eq_some_iff.mp hslot.2
    dsimp only at hslot
    obtain ⟨hempty, hslot⟩ := Option.ite_none_left_eq_some.mp hslot
    rw [← Option.some.inj hslot]
    exact not_not.mp hempty

/-- The paperdoll and the inventory after something has been taken off. -/
theorem taken_keeps (hquests : quests.Quiet) (paperdoll : List Int32) :
    (calculateStatsChecked config quests
      ({ p with paperdoll := paperdoll }.addItemChecked config quests item 1)).inventory =
        (p.addItem config.carry item 1).inventory ∧
    (calculateStatsChecked config quests
      ({ p with paperdoll := paperdoll }.addItemChecked config quests item 1)).paperdoll =
        paperdoll := by
  obtain ⟨hinventory, hpaperdoll⟩ := hquests (calculateStats config.carry
    ({ p with paperdoll := paperdoll }.addItemChecked config quests item 1))
  obtain ⟨hadded, hkept⟩ := @addItemChecked_keeps config quests
    { p with paperdoll := paperdoll } item 1 hquests
  constructor
  · apply (hinventory.trans hadded).trans
    rw [addItem_inventory, addItem_inventory]
  · exact hpaperdoll.trans hkept

/-- The paperdoll and the inventory after something has been put on. -/
theorem put_keeps (hquests : quests.Quiet) (paperdoll : List Int32) :
    (calculateStatsChecked config quests
      ({ p with paperdoll := paperdoll }.delItemChecked config quests item 1)).inventory =
        (p.delItem config.carry item 1).inventory ∧
    (calculateStatsChecked config quests
      ({ p with paperdoll := paperdoll }.delItemChecked config quests item 1)).paperdoll =
        paperdoll := by
  obtain ⟨hinventory, hpaperdoll⟩ := hquests (calculateStats config.carry
    ({ p with paperdoll := paperdoll }.delItemChecked config quests item 1))
  obtain ⟨hdeleted, hkept⟩ := @delItemChecked_keeps config quests
    { p with paperdoll := paperdoll } item 1 hquests
  constructor
  · apply (hinventory.trans hdeleted).trans
    rw [delItem_inventory, delItem_inventory]
  · exact hpaperdoll.trans hkept

theorem possessions_eq {inventory : List CharacterItem} {paperdoll : List Int32}
    (hinventory : q.inventory = inventory) (hpaperdoll : q.paperdoll = paperdoll) :
    q.possessions other = Inventory.total inventory other + wornCount paperdoll other := by
  unfold possessions total
  rw [hinventory, hpaperdoll]

/-- What is taken off arrives in the inventory exactly if there is room for it. -/
theorem keepsEquipment_unequip_iff (hquests : quests.Quiet) :
    p.KeepsEquipment config quests (.unequip item subloc) ↔
      p.EquipFits config (.unequip item subloc) := by
  change (∀ result ∈ some (p.unequipCall config quests item subloc), _) ↔ _
  simp only [Option.mem_def, Option.some.injEq, forall_eq']
  unfold unequipCall EquipFits
  by_cases hitem : item = 0
  · rw [if_pos hitem]
    exact iff_of_true ⟨fun _ => rfl, fun _ => ⟨rfl, rfl⟩⟩ (fun hne => absurd hitem hne)
  · rw [if_neg hitem]
    cases hworn : p.wornAt item subloc with
    | none =>
        apply iff_of_true ⟨fun _ => rfl, fun _ => ⟨rfl, rfl⟩⟩
        intro _ slot hslot
        rw [hworn] at hslot
        cases hslot
    | some slot =>
        obtain ⟨hinventory, hpaperdoll⟩ := @taken_keeps config quests p item hquests
          (p.paperdoll.set slot 0)
        have hiff := @total_addItem_iff config.carry p item 1 (by decide)
        have hone : (1 : Int32).toInt = 1 := by decide
        rw [hone] at hiff
        rw [Option.elim_some]
        constructor
        · intro hkeeps _ _ _
          have hkept := hkeeps.1 item
          rw [possessions_eq hinventory hpaperdoll, wornCount_take (wornAt_spec hworn) hitem,
            if_pos rfl] at hkept
          apply hiff.mp
          unfold possessions at hkept
          unfold total at hkept ⊢
          omega
        · intro hfits
          refine ⟨?_, fun hfalse => by cases hfalse⟩
          intro other
          rw [possessions_eq hinventory hpaperdoll, wornCount_take (wornAt_spec hworn) hitem]
          unfold possessions
          by_cases hother : item = other
          · have hroom := hiff.mpr (hfits hitem slot hworn)
            rw [← hother, if_pos rfl]
            unfold total at hroom ⊢
            omega
          · have hsame := @total_addItem_of_ne config.carry p item other 1 hother
            rw [if_neg hother]
            unfold total at hsame ⊢
            omega

/-- What is put on is missing in the inventory exactly if a stack has had one. -/
theorem keepsEquipment_equip_iff (hquests : quests.Quiet) :
    p.KeepsEquipment config quests (.equip item subloc) ↔
      p.EquipFits config (.equip item subloc) := by
  change (∀ result ∈ p.equipCall config quests item subloc, _) ↔ _
  unfold equipCall EquipFits
  cases hfound : p.equipSlot config item subloc with
  | none =>
      apply iff_of_true
      · intro result hresult
        cases hresult
      · intro slot hslot
        rw [hfound] at hslot
        cases hslot
  | some found =>
      simp only [Option.map_some, Option.mem_def, Option.some.injEq, forall_eq']
      cases found with
      | none =>
          apply iff_of_true ⟨fun _ => rfl, fun _ => ⟨rfl, rfl⟩⟩
          intro slot hslot
          rw [hfound] at hslot
          cases hslot
      | some slot =>
          obtain ⟨hhas, hempty⟩ := equipSlot_spec hfound
          obtain ⟨hinventory, hpaperdoll⟩ := @put_keeps config quests p item hquests
            (p.paperdoll.set slot item.toInt32)
          obtain ⟨hless, hsame⟩ := @total_delItem_one_iff config p item (held_ne_nil hhas)
          rw [Option.elim_some]
          constructor
          · intro hkeeps slot' _
            have hkept := hkeeps.1 item
            rw [possessions_eq hinventory hpaperdoll, wornCount_put hempty] at hkept
            unfold possessions at hkept
            by_cases hitem : item = 0
            · rw [if_pos hitem]
              rw [if_neg (fun h => h.1 hitem)] at hkept
              apply hsame.mp
              unfold total at hkept ⊢
              omega
            · rw [if_neg hitem]
              rw [if_pos ⟨hitem, rfl⟩] at hkept
              apply hless.mp
              unfold total at hkept ⊢
              omega
          · intro hfits
            have hstack := hfits slot hfound
            refine ⟨?_, fun hfalse => by cases hfalse⟩
            intro other
            rw [possessions_eq hinventory hpaperdoll, wornCount_put hempty]
            unfold possessions
            by_cases hother : item = other
            · by_cases hitem : item = 0
              · rw [if_pos hitem] at hstack
                have hdeleted := hsame.mpr hstack
                rw [← hother, if_neg (fun h => h.1 hitem)]
                unfold total at hdeleted ⊢
                omega
              · rw [if_neg hitem] at hstack
                have hdeleted := hless.mpr hstack
                rw [← hother, if_pos ⟨hitem, rfl⟩]
                unfold total at hdeleted ⊢
                omega
            · have hothers := @total_delItem_of_ne config.carry p item other 1 hother
              rw [if_neg (fun h => hother h.2)]
              unfold total at hothers ⊢
              omega

/-! ## Runs -/

theorem keepsEquipment_iff (hquests : quests.Quiet) (call : EquipCall) :
    p.KeepsEquipment config quests call ↔ p.EquipFits config call := by
  cases call with
  | equip item subloc => exact keepsEquipment_equip_iff hquests
  | unequip item subloc => exact keepsEquipment_unequip_iff hquests

/-- With quest rules that change nothing of what a character has, all calls of a run keep every item
if and only if each finds room or a stack. -/
theorem every_keepsEquipment_iff (hquests : quests.Quiet) (p : PlayingCharacter)
    (calls : List EquipCall) :
    Every (nextEquipped config quests) (KeepsEquipment config quests) p calls ↔
      Every (nextEquipped config quests) (EquipFits config) p calls := by
  apply every_iff (fun _ => True) _ _ trivial
  · exact fun p call _ => keepsEquipment_iff hquests call
  · exact fun _ _ _ _ _ _ => trivial

/-! ## A full stack -/

/-- Somebody with as many of an item as a stack may have, who wears another one. -/
def wearer : PlayingCharacter :=
  { Ground.walker 1 [⟨2, 10⟩] with paperdoll := 2 :: List.replicate 14 0 }

theorem quiet_id : QuestCheck.Quiet id := fun _ => ⟨rfl, rfl⟩

theorem every_keepsEquipment_iff_wearer :
    Every (nextEquipped fair id) (KeepsEquipment fair id) wearer [.equip 1 0, .unequip 2 0] ↔
      Every (nextEquipped fair id) (EquipFits fair) wearer [.equip 1 0, .unequip 2 0] :=
  every_keepsEquipment_iff quiet_id wearer [.equip 1 0, .unequip 2 0]

/-- What is taken off is lost. -/
theorem not_keepsEquipment_wearer :
    QuestCheck.Quiet id ∧
      ¬ Every (nextEquipped fair id) (KeepsEquipment fair id) wearer [.unequip 2 0] := by
  refine ⟨quiet_id, ?_⟩
  rintro ⟨hkeeps, -⟩
  have hkept := (hkeeps _ rfl).1 2
  exact absurd hkept (by decide)

end PlayingCharacter

end ArenaServ
