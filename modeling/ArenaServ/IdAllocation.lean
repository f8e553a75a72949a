import ArenaServ.FreeIds
import ArenaServ.GroundItems

/-!
# Ids of items, NPCs and clients

The three searches for a free id differ in the integers that they count with: an `int` for items,
whose ids are `short`, an `unsigned char` for NPCs, and an `unsigned int` for clients that is
returned as an `int`.
-/

namespace ArenaServ
open FreeIds

/-- `Map::GenerateItemID`, where it gets through with so many beginnings of its loop. -/
def generateItemID (items : List MapItem) (tries : ℕ) : Option ℤ :=
  (search (· + 1) (items.map fun item => item.uid.toInt32) tries 1).map Int32.toInt

def generateNPCIndex (indexes : List UInt8) (tries : ℕ) : Option ℤ :=
  (search (· + 1) indexes tries 1).map fun index => (index.toNat : ℤ)

/-- `World::GenerateClientID`. -/
def generateClientID (ids : List UInt32) (tries : ℕ) : Option ℤ :=
  (search (· + 1) ids tries 1).map fun id => id.toInt32.toInt

/-- The search ends, with the smallest positive id that is not in use. -/
def Allocates (generate : ℕ → Option ℤ) (used : ℤ → Prop) : Prop :=
  ∃ tries r, generate tries = some r ∧ Smallest used r

def ItemUsed (items : List MapItem) (s : ℤ) : Prop := ∃ item ∈ items, item.uid.toInt = s
def IndexUsed (indexes : List UInt8) (s : ℤ) : Prop := ∃ index ∈ indexes, (index.toNat : ℤ) = s
def ClientUsed (ids : List UInt32) (s : ℤ) : Prop := ∃ id ∈ ids, (id.toNat : ℤ) = s

structure AllocatesIds (items : List MapItem) (indexes : List UInt8) (ids : List UInt32) :
    Prop where
  item : Allocates (generateItemID items) (ItemUsed items)
  index : Allocates (generateNPCIndex indexes) (IndexUsed indexes)
  client : Allocates (generateClientID ids) (ClientUsed ids)

/-! ## Counting on -/

theorem toInt_toInt32 (id : UInt32) : id.toInt32.toInt =
    if id.toNat < 2 ^ 31 then (id.toNat : ℤ) else id.toNat - 2 ^ 32 := by
  have hcond := BitVec.toInt_eq_toNat_cond id.toBitVec
  change id.toInt32.toInt = if 2 * id.toNat < 2 ^ 32 then (id.toNat : ℤ) else _ at hcond
  rw [hcond]
  split_ifs <;> first | rfl | omega

theorem succ_item (x : Int32) (hpos : 0 < x.toInt) (hlt : x.toInt < 2 ^ 31 - 1) :
    (x + 1).toInt = x.toInt + 1 := by
  rw [Int32.toInt_add]
  exact Int.bmod_eq_of_le (by change _ ≤ x.toInt + 1; omega) (by change x.toInt + 1 < _; omega)

theorem succ_index (x : UInt8) (hlt : (x.toNat : ℤ) < 255) :
    ((x + 1).toNat : ℤ) = x.toNat + 1 := by
  rw [UInt8.toNat_add]
  change (((x.toNat + 1) % 2 ^ 8 : ℕ) : ℤ) = _
  omega

theorem succ_client (x : UInt32) (hlt : (x.toNat : ℤ) < 2 ^ 31 - 1) :
    ((x + 1).toNat : ℤ) = x.toNat + 1 := by
  rw [UInt32.toNat_add]
  change (((x.toNat + 1) % 2 ^ 32 : ℕ) : ℤ) = _
  omega

/-! ## The three searches -/

theorem mem_uids {items : List MapItem} {s : ℤ} :
    s ∈ (items.map fun item => item.uid.toInt32).map Int32.toInt ↔ ItemUsed items s := by
  unfold ItemUsed
  rw [List.map_map, List.mem_map]
  simp only [Function.comp_apply, Int16.toInt_toInt32]

/-- The id of an item is a `short`, so that one is always free. -/
theorem allocates_item (items : List MapItem) :
    Allocates (generateItemID items) (ItemUsed items) := by
  have hfree : ¬ ItemUsed items (2 ^ 15) := by
    rintro ⟨item, -, huid⟩
    have hlt := item.uid.toInt_lt
    omega
  obtain ⟨tries, id, hsearch, hsmallest, -⟩ := search_smallest (· + 1)
    (items.map fun item => item.uid.toInt32) 1 Int32.toInt (2 ^ 31 - 1)
    (fun _ _ => Int32.toInt_inj.mp) rfl succ_item
    ⟨2 ^ 15, by decide, by decide, fun hmem => hfree (mem_uids.mp hmem)⟩
  simp only [mem_uids] at hsmallest
  refine ⟨tries, id.toInt, ?_, hsmallest⟩
  unfold generateItemID
  rw [hsearch, Option.map_some]

theorem allocates_index_iff (indexes : List UInt8) :
    Allocates (generateNPCIndex indexes) (IndexUsed indexes) ↔
      ∃ s, 0 < s ∧ s ≤ 255 ∧ ¬ IndexUsed indexes s := by
  constructor
  · rintro ⟨tries, r, hr, hsmallest⟩
    obtain ⟨index, -, rfl⟩ := Option.map_eq_some_iff.mp hr
    have hlt := index.toNat_lt
    exact ⟨index.toNat, hsmallest.positive, by omega, hsmallest.free⟩
  · rintro ⟨s, hpos, hle, hfree⟩
    obtain ⟨tries, index, hsearch, hsmallest, -⟩ := search_smallest (· + 1) indexes 1
      (fun index => index.toNat) 255
      (fun _ _ heq => UInt8.toNat_inj.mp (Int.ofNat_inj.mp heq)) rfl (fun x _ => succ_index x)
      ⟨s, hpos, hle, fun hmem => hfree (List.mem_map.mp hmem)⟩
    simp only [List.mem_map] at hsmallest
    refine ⟨tries, index.toNat, ?_, hsmallest⟩
    unfold generateNPCIndex
    rw [hsearch, Option.map_some]

theorem allocates_client_iff (ids : List UInt32) :
    Allocates (generateClientID ids) (ClientUsed ids) ↔
      ∃ s, 0 < s ∧ s ≤ 2 ^ 31 - 1 ∧ ¬ ClientUsed ids s := by
  constructor
  · rintro ⟨tries, r, hr, hsmallest⟩
    obtain ⟨id, -, rfl⟩ := Option.map_eq_some_iff.mp hr
    have hlt := id.toInt32.toInt_lt
    exact ⟨id.toInt32.toInt, hsmallest.positive, by omega, hsmallest.free⟩
  · rintro ⟨s, hpos, hle, hfree⟩
    obtain ⟨tries, id, hsearch, hsmallest, hbound⟩ := search_smallest (· + 1) ids 1
      (fun id => id.toNat) (2 ^ 31 - 1)
      (fun _ _ heq => UInt32.toNat_inj.mp (Int.ofNat_inj.mp heq)) rfl (fun x _ => succ_client x)
      ⟨s, hpos, hle, fun hmem => hfree (List.mem_map.mp hmem)⟩
    simp only [List.mem_map] at hsmallest
    refine ⟨tries, id.toNat, ?_, hsmallest⟩
    unfold generateClientID
    rw [hsearch, Option.map_some, toInt_toInt32, if_pos (by omega)]

/-- NPCs have the indexes that fit a byte, and clients the ids that fit a positive `int`. -/
theorem allocatesIds_iff (items : List MapItem) (indexes : List UInt8) (ids : List UInt32) :
    AllocatesIds items indexes ids ↔
      (∃ s, 0 < s ∧ s ≤ 255 ∧ ¬ IndexUsed indexes s) ∧
        ∃ s, 0 < s ∧ s ≤ 2 ^ 31 - 1 ∧ ¬ ClientUsed ids s := by
  rw [← allocates_index_iff, ← allocates_client_iff]
  constructor
  · intro h
    exact ⟨h.index, h.client⟩
  · rintro ⟨hindex, hclient⟩
    exact ⟨allocates_item items, hindex, hclient⟩

/-- A map with all 255 NPCs, which have no index left for another one. -/
theorem not_allocatesIds_crowd :
    ¬ AllocatesIds [] ((List.range 255).map fun n => UInt8.ofNat (n + 1)) [] := by
  intro h
  obtain ⟨tries, r, hr, hsmallest⟩ := h.index
  obtain ⟨index, -, rfl⟩ := Option.map_eq_some_iff.mp hr
  have hpos : 0 < index.toNat := Int.ofNat_lt.mp hsmallest.positive
  have hlt := index.toNat_lt
  apply hsmallest.free
  refine ⟨index, List.mem_map.mpr ⟨index.toNat - 1, List.mem_range.mpr (by omega), ?_⟩, rfl⟩
  rw [Nat.sub_add_cancel hpos, UInt8.ofNat_toNat]

/-! ## The items of a map -/

/-- As many beginnings as there are items are enough. -/
theorem lowestFreeId_eq {items : List MapItem} {r : ℕ} (hr : Smallest (ItemUsed items) r)
    {tries id : ℕ} (hpos : 0 < id) (hle : id ≤ r) (htries : r ≤ id + tries) :
    GroundMap.lowestFreeId items tries id = r := by
  induction tries generalizing id with
  | zero => exact Nat.le_antisymm hle htries
  | succ tries ih =>
      have hany : (items.any fun item => decide (item.uid.toInt = id)) = true ↔
          ItemUsed items id := by
        unfold ItemUsed
        simp only [List.any_eq_true, decide_eq_true_iff]
      rcases Nat.lt_or_eq_of_le hle with hlt | rfl
      · have hused := hr.below id (by omega) (by omega)
        rw [GroundMap.lowestFreeId, if_pos (hany.mpr hused)]
        exact ih (Nat.succ_pos id) hlt (by omega)
      · rw [GroundMap.lowestFreeId, if_neg (fun h => hr.free (hany.mp h))]

/-- The numbers below a free one that are all used are not more than the items. -/
theorem smallest_le_length {items : List MapItem} {r : ℕ} (hr : Smallest (ItemUsed items) r) :
    r ≤ items.length + 1 := by
  have hnodup : ((List.range (r - 1)).map fun n : ℕ => (n : ℤ) + 1).Nodup := by
    apply List.Nodup.map _ List.nodup_range
    intro m n (h : (m : ℤ) + 1 = n + 1)
    omega
  have hsubset : ((List.range (r - 1)).map fun n : ℕ => (n : ℤ) + 1) ⊆
      items.map fun item => item.uid.toInt := by
    intro s hs
    obtain ⟨n, hn, rfl⟩ := List.mem_map.mp hs
    have hlt := List.mem_range.mp hn
    exact List.mem_map.mpr (hr.below _ (by omega) (by omega))
  have hle := (List.subperm_of_subset hnodup hsubset).length_le
  rw [List.length_map, List.length_map, List.length_range] at hle
  omega

/-- What a map gives a new item is the id that the search ends with. -/
theorem generateItemID_eq (m : GroundMap) :
    ∃ tries, generateItemID m.items tries = some (m.generateItemID : ℤ) := by
  obtain ⟨tries, r, hr, hsmallest⟩ := allocates_item m.items
  obtain ⟨n, rfl⟩ := Int.eq_ofNat_of_zero_le (Int.le_of_lt hsmallest.positive)
  have hpos : 0 < n := Int.ofNat_lt.mp hsmallest.positive
  have hle := smallest_le_length hsmallest
  refine ⟨tries, ?_⟩
  unfold GroundMap.generateItemID
  rw [hr, lowestFreeId_eq hsmallest Nat.one_pos hpos (by omega)]

end ArenaServ
