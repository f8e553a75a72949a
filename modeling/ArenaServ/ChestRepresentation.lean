import ArenaServ.Chests
import ArenaServ.RunSteps
import Mathlib.Algebra.Order.Ring.Rat
import Mathlib.Data.List.Pairwise
import Mathlib.Data.List.Perm.Basic

/-!
# What a chest holds

A chest has at most `chestslots` items: at most one from each spawn slot, and stacks of
players with distinct ids, which leave room for the spawns. `Map_Chest::DelSomeItem` makes a
stack of a player of what it leaves of a spawned item, and does not look at what
`Map_Chest::AddItem` looks at when a player adds one.
-/

/-!
## The spawns of a chest

`map_spawn_chests` puts an item into each spawn slot of a chest that is empty and due, by
`Map_Chest::AddItem`, which also takes the items of players. A spawn slot is numbered from 1,
and slot 0 is that of the players.
-/

namespace ArenaServ

/-- What a spawn of a chest brings, and how long it waits. -/
structure SpawnStock where
  item : Int16
  amount : Int32
  time : ℚ
  spawnRandom : ℚ
  deriving DecidableEq, Repr

/-- A chest with what each of its spawns brings, in their order. -/
structure StockedChest extends MapChest where
  stock : List SpawnStock
  deriving DecidableEq, Repr

/-- What `util::rand` returns for a slot: which of the spawns, and its next randomization. -/
structure SpawnRoll where
  choice : ℕ
  modifier : ℚ

namespace MapChest

/-- `DelItem`. -/
def delItem (chest : MapChest) (time : ℤ) (item : Int16) : MapChest :=
  match chest.stack item with
  | none => chest
  | some it =>
      { chest with
        spawns := chest.touchSpawns it.slot time
        items := FirstMatch.alterFirst (·.id = item) (fun _ => none) chest.items }

def slotUsed (chest : MapChest) (slot : Int32) : Bool := chest.items.any (·.slot = slot)

end MapChest

namespace StockedChest

/-- A spawn of a slot that nothing from the slot is in the chest of, and whose time has come. -/
def isDue (chest : StockedChest) (time : ℤ) (slot : Int32) (i : ℕ) : Bool :=
  (chest.spawns.zip chest.stock)[i]?.any fun spawn =>
    spawn.1.slot = slot &&
      decide ((spawn.1.lastTaken : ℚ) + spawn.2.spawnRandom + spawn.2.time < time) &&
      !chest.slotUsed spawn.1.slot

def due (chest : StockedChest) (time : ℤ) (slot : Int32) : List ℕ :=
  (List.range chest.spawns.length).filter (chest.isDue time slot)

/-- One of the spawns of a slot that are due brings its item. -/
def fillSlot (randomIsPct : Bool) (due : List ℕ) (roll : SpawnRoll) (chest : StockedChest) :
    Option StockedChest :=
  if due = [] then some chest
  else
    due[roll.choice]?.bind fun i =>
      chest.spawns[i]?.bind fun spawn =>
        chest.stock[i]?.map fun stock =>
          { toMapChest := (chest.addItem stock.item stock.amount spawn.slot).2
            stock := chest.stock.set i { stock with
              spawnRandom := if randomIsPct then roll.modifier * stock.time else roll.modifier } }

/-- What `map_spawn_chests` does to a chest; the spawns that are due are found first. -/
def spawn (randomIsPct : Bool) (time : ℤ) (rolls : ℕ → SpawnRoll) (chest : StockedChest) :
    Option StockedChest :=
  (List.range chest.slots.toInt.toNat).foldlM
    (fun filled k => filled.fillSlot randomIsPct (chest.due time (Int32.ofNat (k + 1))) (rolls k))
    chest

end StockedChest

inductive ChestChange where
  | addItem (item : Int16) (amount slot : Int32)
  | delItem (time : ℤ) (item : Int16)
  | delSomeItem (time : ℤ) (item : Int16) (amount : Int32)
  | spawn (randomIsPct : Bool) (time : ℤ) (rolls : ℕ → SpawnRoll)

def StockedChest.step (chest : StockedChest) : ChestChange → Option StockedChest
  | .addItem item amount slot =>
      some { chest with toMapChest := (chest.addItem item amount slot).2 }
  | .delItem time item => some { chest with toMapChest := chest.delItem time item }
  | .delSomeItem time item amount =>
      some { chest with toMapChest := chest.delSomeItem time item amount }
  | .spawn randomIsPct time rolls => chest.spawn randomIsPct time rolls

end ArenaServ

namespace ArenaServ

structure ChestLimits where
  slots : ℤ
  maxchest : ℤ
  chestslots : ℤ

/-- Two items are not from the same spawn slot. -/
def MapChestItem.OtherSpawn (a b : MapChestItem) : Prop := a.slot ≠ 0 → a.slot ≠ b.slot

/-- Two stacks of players are not of the same item. -/
def MapChestItem.OtherStack (a b : MapChestItem) : Prop :=
  a.slot = 0 → b.slot = 0 → a.id ≠ b.id

namespace ChestLimits

structure Holds (l : ChestLimits) (items : List MapChestItem) : Prop where
  length : (items.length : ℤ) ≤ l.chestslots
  spawned : items.Pairwise MapChestItem.OtherSpawn
  stacked : items.Pairwise MapChestItem.OtherStack
  room : (items.countP (·.slot = 0) : ℤ) ≤ l.chestslots - l.slots
  amounts : ∀ it ∈ items, 1 ≤ it.amount.toInt ∧ it.amount.toInt ≤ l.maxchest

/-- An item that can be put to the others. -/
structure Admits (l : ChestLimits) (items : List MapChestItem) (it : MapChestItem) : Prop where
  length : (items.length : ℤ) < l.chestslots
  spawned : it.slot ≠ 0 → ∀ other ∈ items, it.slot ≠ other.slot
  stacked : it.slot = 0 → ∀ other ∈ items, other.slot = 0 → it.id ≠ other.id
  room : it.slot = 0 → (items.countP (·.slot = 0) : ℤ) < l.chestslots - l.slots
  amounts : 1 ≤ it.amount.toInt ∧ it.amount.toInt ≤ l.maxchest

variable {l : ChestLimits} {items items' : List MapChestItem} {it : MapChestItem}

theorem holds_nil_iff : l.Holds [] ↔ 0 ≤ l.chestslots ∧ l.slots ≤ l.chestslots := by
  constructor
  · intro h
    have hlength := h.length
    have hroom := h.room
    simp only [List.length_nil, List.countP_nil, Nat.cast_zero] at hlength hroom
    omega
  · rintro ⟨hcap, hslots⟩
    refine ⟨?_, List.Pairwise.nil, List.Pairwise.nil, ?_, fun it hit => by cases hit⟩
    · simpa only [List.length_nil, Nat.cast_zero] using hcap
    · simp only [List.countP_nil, Nat.cast_zero]
      omega

theorem Holds.perm (h : l.Holds items) (hperm : items.Perm items') : l.Holds items' where
  length := by
    rw [← hperm.length_eq]
    exact h.length
  spawned := hperm.pairwise h.spawned fun {a b} hab hb heq => hab (heq ▸ hb) heq.symm
  stacked := hperm.pairwise h.stacked fun {a b} hab hb ha heq => hab ha hb heq.symm
  room := by
    rw [← hperm.countP_eq]
    exact h.room
  amounts it hit := h.amounts it (hperm.mem_iff.mpr hit)

theorem holds_perm (hperm : items.Perm items') : l.Holds items ↔ l.Holds items' :=
  ⟨fun h => h.perm hperm, fun h => h.perm hperm.symm⟩

/-- What holds of a list of items holds of the rest of it, and the rest admits the first. -/
theorem holds_cons_iff : l.Holds (it :: items) ↔ l.Holds items ∧ l.Admits items it := by
  have hcount : ((it :: items).countP (·.slot = 0) : ℤ) =
      items.countP (·.slot = 0) + if it.slot = 0 then 1 else 0 := by
    rw [List.countP_cons]
    split_ifs <;> simp_all
  have hlength : ((it :: items).length : ℤ) = items.length + 1 := by
    rw [List.length_cons, Nat.cast_succ]
  constructor
  · intro h
    have hroom := h.room
    have hlen := h.length
    rw [hcount] at hroom
    rw [hlength] at hlen
    obtain ⟨hspawned, hspawnedRest⟩ := List.pairwise_cons.mp h.spawned
    obtain ⟨hstacked, hstackedRest⟩ := List.pairwise_cons.mp h.stacked
    refine ⟨⟨by omega, hspawnedRest, hstackedRest, ?_, ?_⟩, ⟨by omega, ?_, ?_, ?_, ?_⟩⟩
    · split_ifs at hroom <;> omega
    · exact fun other hother => h.amounts other (List.mem_cons_of_mem _ hother)
    · exact fun hslot other hother => hspawned other hother hslot
    · exact fun hslot other hother => hstacked other hother hslot
    · intro hslot
      rw [if_pos hslot] at hroom
      omega
    · exact h.amounts it List.mem_cons_self
  · rintro ⟨h, hadmits⟩
    refine ⟨?_, List.pairwise_cons.mpr ⟨?_, h.spawned⟩, List.pairwise_cons.mpr ⟨?_, h.stacked⟩,
      ?_, ?_⟩
    · rw [hlength]
      have := hadmits.length
      omega
    · exact fun other hother hslot => hadmits.spawned hslot other hother
    · exact fun other hother hslot => hadmits.stacked hslot other hother
    · rw [hcount]
      have := h.room
      split_ifs with hslot
      · have := hadmits.room hslot
        omega
      · omega
    · intro other hother
      rcases List.mem_cons.mp hother with rfl | hother
      · exact hadmits.amounts
      · exact h.amounts other hother

theorem holds_middle_iff {front rest : List MapChestItem} :
    l.Holds (front ++ it :: rest) ↔ l.Holds (front ++ rest) ∧ l.Admits (front ++ rest) it := by
  rw [holds_perm List.perm_middle, holds_cons_iff]

end ChestLimits

namespace MapChest

def limits (chest : MapChest) : ChestLimits :=
  ⟨chest.slots.toInt, chest.maxchest.toInt, chest.chestslots.toInt⟩

def Represented (chest : MapChest) : Prop := chest.limits.Holds chest.items

/-- What goes into a spawn slot goes into an empty one, if into the chest at all. -/
def AddFits (chest : MapChest) (amount slot : Int32) : Prop :=
  slot ≠ 0 → 0 < amount.toInt → amount.toInt ≤ chest.maxchest.toInt →
    (chest.items.length : ℤ) < chest.chestslots.toInt → chest.slotUsed slot = false

/-- What is left of a stack is an amount, and if it was a spawned one then there is no stack of
its item, and room for one more. -/
def DelSomeFits (chest : MapChest) (item : Int16) (amount : Int32) : Prop :=
  ∀ it ∈ chest.stack item, amount.toInt < it.amount.toInt →
    (1 ≤ (it.amount - amount).toInt ∧ (it.amount - amount).toInt ≤ chest.maxchest.toInt) ∧
    (it.slot ≠ 0 → (∀ other ∈ chest.items, other.slot = 0 → item ≠ other.id) ∧
      (chest.items.countP (·.slot = 0) : ℤ) < chest.chestslots.toInt - chest.slots.toInt)

variable {chest : MapChest} {item : Int16} {amount slot : Int32} {time : ℤ}

theorem slotUsed_eq_false_iff :
    chest.slotUsed slot = false ↔ ∀ other ∈ chest.items, slot ≠ other.slot := by
  unfold slotUsed
  rw [List.any_eq_false]
  constructor
  · exact fun h other hother heq => h other hother (decide_eq_true heq.symm)
  · exact fun h other hother heq => h other hother (of_decide_eq_true heq).symm

theorem toNat_chestslots {cap : Int32} (h : 0 ≤ cap.toInt) :
    (cap.toInt64.toUInt64.toNat : ℤ) = cap.toInt := by
  have hle : (0 : Int64) ≤ cap.toInt64 := by
    rw [Int64.le_iff_toInt_le, Int32.toInt_toInt64, Int64.toInt_zero]
    exact h
  rw [Int64.toNat_toUInt64_of_le hle, ← Int64.toNat_toInt, Int32.toInt_toInt64]
  exact Int.toNat_of_nonneg h

/-- There are few enough items for the sum that is compared with `chestslots`. -/
theorem toInt_userItems_add (h : chest.Represented) :
    (Int32.ofNat (chest.items.countP (·.slot = 0)) + chest.slots).toInt =
      chest.items.countP (·.slot = 0) + chest.slots.toInt := by
  have hroom := h.room
  have hlength := h.length
  have hcount : chest.items.countP (·.slot = 0) ≤ chest.items.length := List.countP_le_length
  have hcap := Int32.toInt_lt chest.chestslots
  have hslots := Int32.le_toInt chest.slots
  unfold limits at hroom hlength
  dsimp only at hroom hlength
  rw [Int32.toInt_add, Int32.toInt_ofNat_of_lt (by omega)]
  apply Int.bmod_eq_of_le <;> omega

/-- A new stack, where it is put and where it is refused. -/
theorem represented_pushItem_iff (h : chest.Represented) (hpos : 0 < amount.toInt)
    (hstack : slot = 0 → chest.stack item = none) :
    (chest.pushItem item amount slot).2.Represented ↔ chest.AddFits amount slot := by
  have hcap := @toNat_chestslots chest.chestslots
    (Int.le_trans (Int.natCast_nonneg _) h.length)
  have hsum := toInt_userItems_add h
  unfold pushItem
  dsimp only
  by_cases hfull : chest.chestslots.toInt64.toUInt64.toNat ≤ chest.items.length ∨
      chest.maxchest < amount
  · rw [if_pos hfull]
    refine iff_of_true h ?_
    intro _ _ hmax hlength
    rw [Int32.lt_iff_toInt_lt] at hfull
    omega
  rw [if_neg hfull]
  rw [Int32.lt_iff_toInt_lt] at hfull
  by_cases hslots : slot = 0 ∧
      chest.chestslots ≤ Int32.ofNat (chest.items.countP (·.slot = 0)) + chest.slots
  · rw [if_pos hslots]
    exact iff_of_true h fun hslot => absurd hslots.1 hslot
  rw [if_neg hslots]
  rw [Int32.le_iff_toInt_le, hsum] at hslots
  have hitems : Represented { chest with items :=
        if slot = 0 then chest.items ++ [⟨item, amount, slot⟩]
        else ⟨item, amount, slot⟩ :: chest.items } ↔
      chest.limits.Holds (⟨item, amount, slot⟩ :: chest.items) := by
    change chest.limits.Holds _ ↔ _
    split_ifs
    · exact ChestLimits.holds_perm (List.perm_append_singleton _ _)
    · exact Iff.rfl
  rw [hitems, ChestLimits.holds_cons_iff]
  constructor
  · rintro ⟨-, hadmits⟩ hslot - - -
    rw [slotUsed_eq_false_iff]
    exact hadmits.spawned hslot
  · intro hfits
    refine ⟨h, ?_, ?_, ?_, ?_, ?_⟩
    · change (chest.items.length : ℤ) < chest.chestslots.toInt
      omega
    · intro hslot
      exact slotUsed_eq_false_iff.mp (hfits hslot hpos (by omega) (by omega))
    · intro hslot other hother _ heq
      have hnone := hstack hslot
      unfold stack at hnone
      exact List.find?_eq_none.mp hnone other hother (decide_eq_true heq.symm)
    · intro hslot
      change (chest.items.countP (·.slot = 0) : ℤ) < chest.chestslots.toInt - chest.slots.toInt
      have hroom := not_and.mp hslots hslot
      omega
    · exact ⟨hpos, by change amount.toInt ≤ chest.maxchest.toInt; omega⟩

/-- What a player adds to a stack of players. -/
theorem represented_addItem_iff (h : chest.Represented) (item : Int16) (amount slot : Int32) :
    (chest.addItem item amount slot).2.Represented ↔ chest.AddFits amount slot := by
  unfold addItem
  by_cases hamount : amount ≤ 0
  · rw [if_pos hamount]
    refine iff_of_true h ?_
    intro _ hpos
    rw [Int32.le_iff_toInt_le, Int32.toInt_zero] at hamount
    omega
  rw [if_neg hamount]
  rw [Int32.le_iff_toInt_le, Int32.toInt_zero, not_le] at hamount
  cases hstack : if slot = 0 then chest.stack item else none with
  | none =>
      apply represented_pushItem_iff h hamount
      intro hslot
      rwa [if_pos hslot] at hstack
  | some it =>
      have hslot : slot = 0 := by
        by_contra hslot
        rw [if_neg hslot] at hstack
        cases hstack
      rw [if_pos hslot] at hstack
      refine iff_of_true ?_ fun hne => absurd hslot hne
      dsimp only
      by_cases hsum : it.amount + amount < 0 ∨ chest.maxchest < it.amount + amount
      · rw [if_pos hsum]
        exact h
      rw [if_neg hsum]
      rw [Int32.lt_iff_toInt_lt, Int32.lt_iff_toInt_lt, Int32.toInt_zero] at hsum
      obtain ⟨front, rest, hitems, halter⟩ := FirstMatch.exists_of_find? hstack
      have hold : chest.limits.Holds (front ++ it :: rest) := hitems ▸ h
      obtain ⟨hothers, hadmits⟩ := ChestLimits.holds_middle_iff.mp hold
      change chest.limits.Holds _
      rw [halter, Option.toList_some, List.singleton_append, ChestLimits.holds_middle_iff]
      have hbound := Int32.toInt_lt (it.amount + amount)
      have hgrown : it.amount.toInt ≤ (it.amount + amount).toInt := by
        have hit := hadmits.amounts
        have hlt := Int32.toInt_lt it.amount
        have hlt' := Int32.toInt_lt amount
        rw [Int32.toInt_add, Int.bmod_def] at hsum ⊢
        split_ifs at hsum ⊢ <;> omega
      refine ⟨hothers, hadmits.length, hadmits.spawned, hadmits.stacked, hadmits.room, ?_⟩
      have hmax : (it.amount + amount).toInt ≤ chest.maxchest.toInt := by omega
      exact ⟨Int.le_trans hadmits.amounts.1 hgrown, hmax⟩

/-- What a spawn brings is put before the other items, or refused. -/
theorem addItem_spawn (item : Int16) (amount : Int32) (hslot : slot ≠ 0) (chest : MapChest) :
    (chest.addItem item amount slot).2 = chest ∨
      (chest.addItem item amount slot).2 =
        { chest with items := ⟨item, amount, slot⟩ :: chest.items } := by
  unfold addItem
  rw [if_neg hslot]
  split_ifs
  · exact Or.inl rfl
  · unfold pushItem
    dsimp only
    rw [if_neg hslot]
    split_ifs
    · exact Or.inl rfl
    · exact Or.inl rfl
    · exact Or.inr rfl

theorem represented_delItem (h : chest.Represented) (time : ℤ) (item : Int16) :
    (chest.delItem time item).Represented := by
  unfold delItem
  cases hstack : chest.stack item with
  | none => exact h
  | some it =>
      obtain ⟨front, rest, hitems, halter⟩ := FirstMatch.exists_of_find? hstack
      have hold : chest.limits.Holds (front ++ it :: rest) := hitems ▸ h
      change chest.limits.Holds _
      rw [halter, Option.toList_none, List.nil_append]
      exact (ChestLimits.holds_middle_iff.mp hold).1

/-- Only what is left of a stack can be in the way of what a chest holds. -/
theorem represented_delSomeItem_iff (h : chest.Represented) (time : ℤ) (item : Int16)
    (amount : Int32) :
    (chest.delSomeItem time item amount).Represented ↔ chest.DelSomeFits item amount := by
  unfold delSomeItem DelSomeFits
  cases hstack : chest.stack item with
  | none => exact iff_of_true h fun it hit => by cases hit
  | some it =>
      have hfind : chest.items.find? (·.id = item) = some it := hstack
      have hid : it.id = item := by simpa using List.find?_some hfind
      obtain ⟨front, rest, hitems, halter⟩ := FirstMatch.exists_of_find? hstack
      have hold : chest.limits.Holds (front ++ it :: rest) := hitems ▸ h
      obtain ⟨hothers, hadmits⟩ := ChestLimits.holds_middle_iff.mp hold
      simp only [Option.mem_some_iff, forall_eq']
      change chest.limits.Holds _ ↔ _
      rw [halter, ← Int32.lt_iff_toInt_lt]
      by_cases hpart : amount < it.amount
      · rw [if_pos hpart, Option.toList_some, List.singleton_append, ChestLimits.holds_middle_iff]
        have hmem (other : MapChestItem) :
            other ∈ chest.items ↔ other = it ∨ other ∈ front ++ rest := by
          rw [hitems, List.perm_middle.mem_iff, List.mem_cons]
        have hcount (hslot : it.slot ≠ 0) : chest.items.countP (·.slot = 0) =
            (front ++ rest).countP (·.slot = 0) := by
          rw [hitems, List.perm_middle.countP_eq, List.countP_cons_of_neg]
          rw [decide_eq_true_iff]
          exact hslot
        constructor
        · rintro ⟨-, hleft⟩ -
          refine ⟨hleft.amounts, ?_⟩
          intro hslot
          constructor
          · intro other hother hplayer
            rcases (hmem other).mp hother with rfl | hother
            · exact absurd hplayer hslot
            · rw [← hid]
              exact hleft.stacked rfl other hother hplayer
          · rw [hcount hslot]
            exact hleft.room rfl
        · intro hfits
          obtain ⟨hamounts, hplayers⟩ := hfits hpart
          refine ⟨hothers, hadmits.length, fun hslot => absurd rfl hslot, ?_, ?_, hamounts⟩
          · rintro - other hother hplayer
            by_cases hslot : it.slot = 0
            · exact hadmits.stacked hslot other hother hplayer
            · have hne := (hplayers hslot).1 other ((hmem other).mpr (Or.inr hother)) hplayer
              rwa [← hid] at hne
          · rintro -
            by_cases hslot : it.slot = 0
            · exact hadmits.room hslot
            · have hroom := (hplayers hslot).2
              rwa [hcount hslot] at hroom
      · rw [if_neg hpart, Option.toList_none, List.nil_append]
        exact iff_of_true hothers fun hlt => absurd hlt hpart

end MapChest

namespace StockedChest

variable {chest filled filled' : StockedChest} {time : ℤ} {slot : Int32}

/-- What one spawn slot that is filled leaves as it is. -/
structure Filled (slot : Int32) (chest chest' : StockedChest) : Prop where
  represented : chest.Represented → chest'.Represented
  spawns : chest'.spawns = chest.spawns
  slots : ∀ other, other ≠ slot → chest'.slotUsed other = chest.slotUsed other

theorem filled_addItem (item : Int16) (amount : Int32) (hslot : slot ≠ 0)
    (hunused : chest.slotUsed slot = false) (stock : List SpawnStock) :
    Filled slot chest ⟨(chest.addItem item amount slot).2, stock⟩ where
  represented h := (MapChest.represented_addItem_iff h item amount slot).mpr fun _ _ _ _ => hunused
  spawns := by
    rcases MapChest.addItem_spawn item amount hslot chest.toMapChest with heq | heq
    · rw [heq]
    · rw [heq]
  slots other hother := by
    rcases MapChest.addItem_spawn item amount hslot chest.toMapChest with heq | heq
    · rw [heq]
    · rw [heq]
      dsimp only [MapChest.slotUsed]
      rw [List.any_cons, decide_eq_false hother.symm, Bool.false_or]

theorem of_mem_due {i : ℕ} (h : i ∈ chest.due time slot) :
    (∀ spawn ∈ chest.spawns[i]?, spawn.slot = slot) ∧ chest.slotUsed slot = false := by
  have hdue := (List.mem_filter.mp h).2
  unfold isDue at hdue
  rw [Option.any_eq_true] at hdue
  obtain ⟨⟨spawn, stock⟩, hzip, hdue⟩ := hdue
  simp only [Bool.and_eq_true, decide_eq_true_eq, Bool.not_eq_true'] at hdue
  obtain ⟨⟨hslot, -⟩, hunused⟩ := hdue
  rw [hslot] at hunused
  refine ⟨?_, hunused⟩
  intro spawn' hspawn'
  rw [(List.getElem?_zip_eq_some.mp hzip).1] at hspawn'
  cases hspawn'
  exact hslot

theorem filled_fillSlot {randomIsPct : Bool} {roll : SpawnRoll} (hslot : slot ≠ 0)
    (hspawns : filled.spawns = chest.spawns) (hused : filled.slotUsed slot = chest.slotUsed slot)
    (h : filled.fillSlot randomIsPct (chest.due time slot) roll = some filled') :
    Filled slot filled filled' := by
  unfold fillSlot at h
  by_cases hnone : chest.due time slot = []
  · rw [if_pos hnone] at h
    cases h
    exact ⟨id, rfl, fun _ _ => rfl⟩
  rw [if_neg hnone] at h
  obtain ⟨i, hi, h⟩ := Option.bind_eq_some_iff.mp h
  obtain ⟨spawn, hspawn, h⟩ := Option.bind_eq_some_iff.mp h
  obtain ⟨stock, -, rfl⟩ := Option.map_eq_some_iff.mp h
  obtain ⟨hof, hunused⟩ := of_mem_due (List.mem_of_getElem? hi)
  rw [hspawns] at hspawn
  rw [hof spawn hspawn]
  exact filled_addItem stock.item stock.amount hslot (hused.trans hunused) _

theorem ofNat_ne_ofNat {j k : ℕ} (hj : j < 2 ^ 31) (hk : k < 2 ^ 31) (h : j ≠ k) :
    Int32.ofNat j ≠ Int32.ofNat k := by
  intro heq
  have := congrArg Int32.toInt heq
  rw [Int32.toInt_ofNat_of_lt hj, Int32.toInt_ofNat_of_lt hk] at this
  omega

/-- The slots that are still to be filled are used where they were. -/
theorem represented_foldlM {randomIsPct : Bool} {rolls : ℕ → SpawnRoll} {ks : List ℕ}
    (hks : ks.Nodup) (hbound : ∀ k ∈ ks, k + 1 < 2 ^ 31) (hspawns : filled.spawns = chest.spawns)
    (hused : ∀ k ∈ ks,
      filled.slotUsed (Int32.ofNat (k + 1)) = chest.slotUsed (Int32.ofNat (k + 1)))
    (hfilled : filled.Represented)
    (h : ks.foldlM (fun filled k => filled.fillSlot randomIsPct
      (chest.due time (Int32.ofNat (k + 1))) (rolls k)) filled = some filled') :
    filled'.Represented := by
  induction ks generalizing filled with
  | nil =>
      cases h
      exact hfilled
  | cons k rest ih =>
      obtain ⟨hk, hrest⟩ := List.nodup_cons.mp hks
      rw [List.foldlM_cons] at h
      obtain ⟨next, hnext, h⟩ := Option.bind_eq_some_iff.mp h
      have hlt := hbound k List.mem_cons_self
      have hslot : Int32.ofNat (k + 1) ≠ 0 :=
        ofNat_ne_ofNat (k := 0) hlt (by omega) (Nat.succ_ne_zero k)
      have hone := filled_fillSlot hslot hspawns (hused k List.mem_cons_self) hnext
      apply ih hrest (fun j hj => hbound j (List.mem_cons_of_mem _ hj))
        (hone.spawns.trans hspawns) _ (hone.represented hfilled) h
      intro j hj
      have hne : j + 1 ≠ k + 1 := by
        intro heq
        rw [Nat.succ.inj heq] at hj
        exact hk hj
      rw [hone.slots _ (ofNat_ne_ofNat (hbound j (List.mem_cons_of_mem _ hj)) hlt hne)]
      exact hused j (List.mem_cons_of_mem _ hj)

theorem represented_spawn {randomIsPct : Bool} {rolls : ℕ → SpawnRoll} (hchest : chest.Represented)
    (h : chest.spawn randomIsPct time rolls = some filled) : filled.Represented := by
  apply represented_foldlM List.nodup_range _ rfl (fun _ _ => rfl) hchest h
  intro k hk
  have hlt := List.mem_range.mp hk
  have := Int32.toInt_lt chest.slots
  omega

/-- A change of a chest that none of the limits of a chest is in the way of. -/
def Fits (chest : StockedChest) : ChestChange → Prop
  | .addItem _ amount slot => chest.AddFits amount slot
  | .delItem _ _ => True
  | .delSomeItem _ item amount => chest.DelSomeFits item amount
  | .spawn _ _ _ => True

theorem represented_step_iff (h : chest.Represented) (e : ChestChange) :
    (∀ chest' ∈ chest.step e, chest'.Represented) ↔ chest.Fits e := by
  cases e with
  | addItem item amount slot =>
      simp only [step, Option.mem_some_iff, forall_eq']
      exact MapChest.represented_addItem_iff h item amount slot
  | delItem time item =>
      simp only [step, Option.mem_some_iff, forall_eq']
      exact iff_of_true (MapChest.represented_delItem h time item) trivial
  | delSomeItem time item amount =>
      simp only [step, Option.mem_some_iff, forall_eq']
      exact MapChest.represented_delSomeItem_iff h time item amount
  | spawn randomIsPct time rolls =>
      exact iff_of_true (fun filled hfilled => represented_spawn h hfilled) trivial

/-- A chest that starts empty is as it should be in each state of a run exactly where its slots
fit into it and each change does. -/
theorem represented_iff_fits (hempty : chest.items = []) (changes : List ChestChange) :
    (∀ chest', RunSteps.Reaches step chest changes chest' → chest'.Represented) ↔
      (0 ≤ chest.chestslots.toInt ∧ chest.slots.toInt ≤ chest.chestslots.toInt) ∧
        RunSteps.Every step Fits chest changes := by
  have hstart : chest.Represented ↔
      0 ≤ chest.chestslots.toInt ∧ chest.slots.toInt ≤ chest.chestslots.toInt := by
    unfold MapChest.Represented
    rw [hempty]
    exact ChestLimits.holds_nil_iff
  rw [RunSteps.forall_reaches_iff, ← hstart]
  apply and_congr_right
  intro h
  exact RunSteps.every_iff (fun chest => chest.Represented)
    (fun c e hc => represented_step_iff hc e)
    (fun c e c' hc hfits hstep => (represented_step_iff hc e).mpr hfits c' hstep) h

/-- An empty chest with two places, one of them for a spawn of ten of an item. -/
def crate : StockedChest where
  x := 5
  y := 5
  items := []
  spawns := [⟨1, 0⟩]
  slots := 1
  maxchest := 100
  chestslots := 2
  stock := [⟨7, 10, 60, 0⟩]

theorem represented_iff_fits_crate :
    (∀ chest, RunSteps.Reaches step crate [.addItem 7 3 0, .spawn false 61 fun _ => ⟨0, 0⟩] chest →
        chest.Represented) ↔
      (0 ≤ crate.chestslots.toInt ∧ crate.slots.toInt ≤ crate.chestslots.toInt) ∧
        RunSteps.Every step Fits crate [.addItem 7 3 0, .spawn false 61 fun _ => ⟨0, 0⟩] :=
  represented_iff_fits rfl _

/-- A player adds three of the item that is then spawned, and takes four of the spawned ones. -/
theorem not_represented_crate :
    ¬ ∀ chest : StockedChest, chest.items = [] → 0 ≤ chest.slots.toInt →
      chest.slots.toInt ≤ chest.chestslots.toInt → ∀ changes chest',
        RunSteps.Reaches step chest changes chest' → chest'.Represented := by
  intro hall
  have hrun : (RunSteps.run step crate [.addItem 7 3 0, .spawn false 61 fun _ => ⟨0, 0⟩,
      .delSomeItem 62 7 4]).map (·.items) = some [⟨7, 6, 0⟩, ⟨7, 3, 0⟩] := by decide +kernel
  obtain ⟨chest, hchest, hitems⟩ := Option.map_eq_some_iff.mp hrun
  have hslots : 0 ≤ crate.slots.toInt ∧ crate.slots.toInt ≤ crate.chestslots.toInt := by decide
  have h := hall crate rfl hslots.1 hslots.2 _ chest (RunSteps.reaches_of_run hchest)
  have hstacked := h.stacked
  rw [hitems] at hstacked
  exact List.rel_of_pairwise_cons hstacked List.mem_cons_self rfl rfl rfl

end StockedChest

end ArenaServ
