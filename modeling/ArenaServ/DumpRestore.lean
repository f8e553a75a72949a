import ArenaServ.ChestConservation
import ArenaServ.WorldDump
import Mathlib.Algebra.Order.BigOperators.Group.List

/-!
# What a restore puts back

The stacks of a chest are written in their order and put back in it, one `AddItem` after the
other. A player's stack is merged there with the first stack of its item, and a limit that
the chest did not have to meet when it was filled may refuse it now.
-/

namespace ArenaServ

/-! ## Chests in use -/

namespace MapChest

variable {chest : MapChest} {item : Int16} {amount slot : Int32} {time : ℤ}

/-- No stack is empty. -/
def Stocked (chest : MapChest) : Prop := ∀ it ∈ chest.items, 0 < it.amount.toInt

theorem pos_of_not_le (h : ¬ amount ≤ 0) : 0 < amount.toInt := by
  rw [Int32.le_iff_toInt_le, Int32.toInt_zero] at h
  omega

theorem stocked_pushItem (h : chest.Stocked) (hpos : 0 < amount.toInt) :
    (chest.pushItem item amount slot).2.Stocked := by
  unfold pushItem
  dsimp only
  split_ifs with hfull hslots hslot
  · exact h
  · exact h
  · intro it hit
    rcases List.mem_append.mp hit with hit | hit
    · exact h it hit
    · rw [List.mem_singleton.mp hit]
      exact hpos
  · intro it hit
    rcases List.mem_cons.mp hit with rfl | hit
    · exact hpos
    · exact h it hit

theorem stocked_addItem (h : chest.Stocked) : (chest.addItem item amount slot).2.Stocked := by
  unfold addItem
  by_cases ha : amount ≤ 0
  · rw [if_pos ha]
    exact h
  rw [if_neg ha]
  cases hstack : (if slot = 0 then chest.stack item else none) with
  | none => exact stocked_pushItem h (pos_of_not_le ha)
  | some it =>
      dsimp only
      split_ifs with hover
      · exact h
      · intro it' hit'
        rcases FirstMatch.mem_of_mem_alterFirst hit' with hold | ⟨x, hx, hnew⟩
        · exact h it' hold
        · have hfirst : it = x := by
            rw [Option.ite_none_right_eq_some] at hstack
            exact Option.some.inj (hstack.2.symm.trans hx)
          have hpos := h x (List.mem_of_find?_eq_some hx)
          have ha' := pos_of_not_le ha
          have hsum := mt (Inventory.add_lt_zero_iff ha').mpr (not_or.mp hover).1
          rw [← Option.some.inj hnew]
          change 0 < (x.amount + amount).toInt
          rw [hfirst] at hsum
          rw [Inventory.toInt_add_of_lt (by omega) (by omega)]
          omega

theorem stocked_delSomeItem (h : chest.Stocked) (hpos : 0 ≤ amount.toInt) :
    (chest.delSomeItem time item amount).Stocked := by
  unfold delSomeItem
  cases hstack : chest.stack item with
  | none => exact h
  | some it =>
      intro it' hit'
      rcases FirstMatch.mem_of_mem_alterFirst hit' with hold | ⟨x, -, hnew⟩
      · exact h it' hold
      · rw [Option.ite_none_right_eq_some] at hnew
        obtain ⟨hlt, hnew⟩ := hnew
        rw [Int32.lt_iff_toInt_lt] at hlt
        have hx := x.amount.toInt_lt
        rw [← Option.some.inj hnew]
        change 0 < (x.amount - amount).toInt
        rw [Inventory.toInt_sub_of_le (by omega) (by omega)]
        omega

theorem total_nonneg (h : chest.Stocked) (item : Int16) : 0 ≤ chest.total item := by
  unfold total
  apply List.sum_nonneg
  intro n hn
  obtain ⟨it, hit, rfl⟩ := List.mem_map.mp hn
  split_ifs
  · exact (h it hit).le
  · exact le_refl 0

/-- The chest with other contents. -/
def withItems (chest : MapChest) (items : List MapChestItem) : MapChest :=
  { chest with items := items }

/-- The stacks are put into the chest, one after the other. -/
def addItems (chest : MapChest) (items : List MapChestItem) : MapChest :=
  items.foldl (fun chest it => (chest.addItem it.id it.amount it.slot).2) chest

end MapChest

/-! ## Room for the stacks -/

/-- What the stacks that are put back have made of a chest: what the first stack of each item
has, how many stacks there are, and how many of them are the players'. -/
structure Refill where
  first : Int16 → Option ℤ
  count : ℕ
  users : ℕ

namespace Refill

def empty : Refill := ⟨fun _ => none, 0, 0⟩

/-- What there is in the stack that a player's stack is merged with. -/
def merged (r : Refill) (it : MapChestItem) : Option ℤ :=
  if it.slot = 0 then r.first it.id else none

/-- There is room for a stack in a chest. -/
def Room (r : Refill) (chest : MapChest) (it : MapChestItem) : Prop :=
  match r.merged it with
  | some amount => amount + it.amount.toInt ≤ chest.maxchest.toInt
  | none =>
      r.count < chest.chestslots.toInt64.toUInt64.toNat ∧ it.amount ≤ chest.maxchest ∧
        (it.slot = 0 → Int32.ofNat r.users + chest.slots < chest.chestslots)

instance decidableRoom (r : Refill) (chest : MapChest) (it : MapChestItem) :
    Decidable (r.Room chest it) :=
  match h : r.merged it with
  | some amount =>
      decidable_of_iff (amount + it.amount.toInt ≤ chest.maxchest.toInt) (by rw [Room, h])
  | none =>
      decidable_of_iff
        (r.count < chest.chestslots.toInt64.toUInt64.toNat ∧ it.amount ≤ chest.maxchest ∧
          (it.slot = 0 → Int32.ofNat r.users + chest.slots < chest.chestslots)) (by rw [Room, h])

def put (r : Refill) (it : MapChestItem) : Refill :=
  match r.merged it with
  | some amount =>
      { r with first := Function.update r.first it.id (some (amount + it.amount.toInt)) }
  | none =>
      ⟨Function.update r.first it.id (some it.amount.toInt), r.count + 1,
        if it.slot = 0 then r.users + 1 else r.users⟩

/-- There is room for each of the stacks after those before it. -/
def Fits (chest : MapChest) : Refill → List MapChestItem → Prop
  | _, [] => True
  | r, it :: rest => r.Room chest it ∧ Fits chest (r.put it) rest

instance decidableFits (chest : MapChest) : ∀ (r : Refill) (items : List MapChestItem),
    Decidable (Fits chest r items)
  | _, [] => .isTrue trivial
  | r, it :: rest =>
      have := decidableFits chest (r.put it) rest
      inferInstanceAs (Decidable (_ ∧ _))

end Refill

namespace MapChest

variable {chest : MapChest} {items : List MapChestItem} {it : MapChestItem}

def refill (chest : MapChest) : Refill where
  first item := (chest.stack item).map (·.amount.toInt)
  count := chest.items.length
  users := chest.items.countP (·.slot = 0)

theorem refill_withItems_nil : (chest.withItems []).refill = Refill.empty := rfl

theorem merged_refill (it : MapChestItem) : chest.refill.merged it =
    (if it.slot = 0 then chest.stack it.id else none).map (·.amount.toInt) := by
  unfold Refill.merged
  split_ifs
  · rfl
  · rfl

/-- A stack for which there is room becomes a part of the chest. -/
theorem pushItem_of_room (hmerged : chest.refill.merged it = none)
    (hroom : chest.refill.Room chest it) :
    (chest.pushItem it.id it.amount it.slot).1 = it.amount ∧
      (chest.pushItem it.id it.amount it.slot).2 = chest.withItems
        (chest.pushItem it.id it.amount it.slot).2.items ∧
      (chest.pushItem it.id it.amount it.slot).2.refill = chest.refill.put it := by
  unfold Refill.Room at hroom
  rw [hmerged] at hroom
  obtain ⟨hcount, hamount, husers⟩ := hroom
  have hfull : ¬ (chest.chestslots.toInt64.toUInt64.toNat ≤ chest.items.length ∨
      chest.maxchest < it.amount) := by
    rw [not_or, not_le, Int32.not_lt]
    exact ⟨hcount, hamount⟩
  have hslots : ¬ (it.slot = 0 ∧
      chest.chestslots ≤ Int32.ofNat (chest.items.countP (·.slot = 0)) + chest.slots) := by
    rintro ⟨hslot, hle⟩
    exact Int32.not_le.mpr (husers hslot) hle
  unfold pushItem
  dsimp only
  rw [if_neg hfull, if_neg hslots]
  refine ⟨rfl, rfl, ?_⟩
  unfold Refill.put
  rw [hmerged]
  unfold Refill.merged at hmerged
  unfold refill
  by_cases hslot : it.slot = 0
  · rw [if_pos hslot] at hmerged
    have hnone : chest.stack it.id = none := Option.map_eq_none_iff.mp hmerged
    simp only [if_pos hslot, Refill.mk.injEq, List.length_append, List.length_singleton,
      List.countP_append, true_and]
    refine ⟨?_, ?_⟩
    · funext item
      by_cases hitem : item = it.id
      · rw [hitem, Function.update_self]
        unfold stack at hnone ⊢
        simp [List.find?_append, hnone]
      · rw [Function.update_of_ne hitem]
        unfold stack
        simp [List.find?_append, Ne.symm hitem]
    · simp [hslot]
  · simp only [if_neg hslot, Refill.mk.injEq, List.length_cons, true_and]
    refine ⟨?_, ?_⟩
    · funext item
      by_cases hitem : item = it.id
      · rw [hitem, Function.update_self]
        simp [stack]
      · rw [Function.update_of_ne hitem]
        simp [stack, Ne.symm hitem]
    · simp [hslot]

theorem pushItem_of_not_room (hmerged : chest.refill.merged it = none)
    (hroom : ¬ chest.refill.Room chest it) :
    chest.pushItem it.id it.amount it.slot = (0, chest) := by
  unfold Refill.Room at hroom
  rw [hmerged] at hroom
  unfold pushItem
  dsimp only
  by_cases hfull : chest.chestslots.toInt64.toUInt64.toNat ≤ chest.items.length ∨
      chest.maxchest < it.amount
  · rw [if_pos hfull]
  rw [if_neg hfull, if_pos]
  rw [not_or, not_le, Int32.not_lt] at hfull
  by_contra hslots
  apply hroom
  refine ⟨hfull.1, hfull.2, ?_⟩
  intro hslot
  rw [← Int32.not_le]
  exact fun hle => hslots ⟨hslot, hle⟩

/-- `AddItem` of a stack that the chest has room for. -/
theorem addItem_of_room (hstocked : chest.Stocked) (hpos : 0 < it.amount.toInt)
    (hroom : chest.refill.Room chest it) :
    (chest.addItem it.id it.amount it.slot).1 = it.amount ∧
      (chest.addItem it.id it.amount it.slot).2 =
        chest.withItems (chest.addItem it.id it.amount it.slot).2.items ∧
      (chest.addItem it.id it.amount it.slot).2.refill = chest.refill.put it := by
  have hamount : ¬ it.amount ≤ 0 := by
    rw [Int32.le_iff_toInt_le, Int32.toInt_zero]
    omega
  unfold addItem
  rw [if_neg hamount]
  cases hstack : (if it.slot = 0 then chest.stack it.id else none) with
  | none =>
      apply pushItem_of_room _ hroom
      rw [merged_refill, hstack]
      rfl
  | some s =>
      obtain ⟨hslot, hs⟩ := Option.ite_none_right_eq_some.mp hstack
      have hmerged : chest.refill.merged it = some s.amount.toInt := by
        rw [merged_refill, hstack]
        rfl
      unfold Refill.Room at hroom
      rw [hmerged] at hroom
      dsimp only at hroom ⊢
      have hs' := hstocked s (List.mem_of_find?_eq_some hs)
      have hmax := chest.maxchest.toInt_lt
      have hsum : (s.amount + it.amount).toInt = s.amount.toInt + it.amount.toInt :=
        Inventory.toInt_add_of_lt (by omega) (by omega)
      have hover : ¬ (s.amount + it.amount < 0 ∨ chest.maxchest < s.amount + it.amount) := by
        rw [Int32.lt_iff_toInt_lt, Int32.lt_iff_toInt_lt, hsum, Int32.toInt_zero]
        omega
      rw [if_neg hover]
      refine ⟨rfl, rfl, ?_⟩
      unfold Refill.put
      rw [hmerged]
      unfold refill
      simp only [Refill.mk.injEq]
      have husers := FirstMatch.countP_alterFirst (p := (·.id = it.id)) (q := (·.slot = 0))
        (g := fun s => { s with amount := s.amount + it.amount }) (fun _ => rfl) chest.items
      refine ⟨?_, FirstMatch.length_alterFirst _, husers⟩
      funext item
      unfold stack at hs ⊢
      by_cases hitem : item = it.id
      · have hid : s.id = it.id := by simpa using List.find?_some hs
        rw [hitem, Function.update_self, FirstMatch.find?_alterFirst hs (by simpa using hid),
          Option.map_some, hsum]
      · rw [Function.update_of_ne hitem, FirstMatch.find?_alterFirst_of_not]
        intro x hx
        simp only [decide_eq_true_eq] at hx
        simp [hx, Ne.symm hitem]

/-- Where there is no room, `AddItem` does nothing. -/
theorem addItem_of_not_room (hstocked : chest.Stocked) (hpos : 0 < it.amount.toInt)
    (hroom : ¬ chest.refill.Room chest it) :
    chest.addItem it.id it.amount it.slot = (0, chest) := by
  have hamount : ¬ it.amount ≤ 0 := by
    rw [Int32.le_iff_toInt_le, Int32.toInt_zero]
    omega
  unfold addItem
  rw [if_neg hamount]
  cases hstack : (if it.slot = 0 then chest.stack it.id else none) with
  | none =>
      apply pushItem_of_not_room _ hroom
      rw [merged_refill, hstack]
      rfl
  | some s =>
      have hs := (Option.ite_none_right_eq_some.mp hstack).2
      unfold Refill.Room at hroom
      rw [merged_refill, hstack] at hroom
      dsimp only [Option.map_some] at hroom ⊢
      rw [if_pos]
      by_contra hover
      rw [not_or, Inventory.add_lt_zero_iff hpos, Int32.lt_iff_toInt_lt] at hover
      have hs' := hstocked s (List.mem_of_find?_eq_some hs)
      rw [Inventory.toInt_add_of_lt (by omega) (by omega)] at hover
      omega

/-! ## Putting all of the stacks back -/

/-- How much of an item a list of stacks has. -/
def totalOf (items : List MapChestItem) (item : Int16) : ℤ :=
  (items.map fun it => if it.id = item then it.amount.toInt else 0).sum

theorem total_addItem_of_room (hstocked : chest.Stocked) (hpos : 0 < it.amount.toInt)
    (hroom : chest.refill.Room chest it) (item : Int16) :
    (chest.addItem it.id it.amount it.slot).2.total item =
      chest.total item + if it.id = item then it.amount.toInt else 0 := by
  have htakes : (chest.addItem it.id it.amount it.slot).1 ≠ 0 := by
    rw [(addItem_of_room hstocked hpos hroom).1]
    intro hzero
    rw [hzero, Int32.toInt_zero] at hpos
    omega
  by_cases hslot : it.slot = 0
  · rw [hslot] at htakes ⊢
    exact (total_addItem item htakes).2
  · have hamount : ¬ it.amount ≤ 0 := by
      rw [Int32.le_iff_toInt_le, Int32.toInt_zero]
      omega
    have hpush : chest.addItem it.id it.amount it.slot =
        chest.pushItem it.id it.amount it.slot := by
      unfold addItem
      rw [if_neg hamount, if_neg hslot]
    rw [hpush] at htakes ⊢
    exact total_pushItem it.slot item htakes

theorem total_addItems_le (hstocked : chest.Stocked) (hpos : ∀ it ∈ items, 0 < it.amount.toInt)
    (item : Int16) : (chest.addItems items).total item ≤ chest.total item + totalOf items item := by
  induction items generalizing chest with
  | nil =>
      simp [addItems, totalOf]
  | cons it rest ih =>
      have hit := hpos it List.mem_cons_self
      have hadded : (chest.addItem it.id it.amount it.slot).2.Stocked := stocked_addItem hstocked
      have hrest := ih hadded fun it h => hpos it (List.mem_cons_of_mem _ h)
      have hstep : (chest.addItem it.id it.amount it.slot).2.total item ≤
          chest.total item + if it.id = item then it.amount.toInt else 0 := by
        by_cases hroom : chest.refill.Room chest it
        · exact (total_addItem_of_room hstocked hit hroom item).le
        · rw [addItem_of_not_room hstocked hit hroom]
          dsimp only
          split_ifs <;> omega
      unfold totalOf at hrest ⊢
      rw [List.map_cons, List.sum_cons]
      rw [addItems, List.foldl_cons]
      unfold addItems at hrest
      omega

theorem fits_withItems {contents : List MapChestItem} {r : Refill} :
    Refill.Fits (chest.withItems contents) r items ↔ Refill.Fits chest r items := by
  induction items generalizing r with
  | nil => exact Iff.rfl
  | cons it rest ih => exact and_congr Iff.rfl ih

/-- All of the stacks are put into a chest exactly when they find room. -/
theorem total_addItems_iff (hstocked : chest.Stocked)
    (hpos : ∀ it ∈ items, 0 < it.amount.toInt) :
    (∀ item, (chest.addItems items).total item = chest.total item + totalOf items item) ↔
      Refill.Fits chest chest.refill items := by
  induction items generalizing chest with
  | nil => simp [addItems, totalOf, Refill.Fits]
  | cons it rest ih =>
      have hit := hpos it List.mem_cons_self
      have hrest : ∀ it ∈ rest, 0 < it.amount.toInt :=
        fun it h => hpos it (List.mem_cons_of_mem _ h)
      have hcons (item : Int16) : totalOf (it :: rest) item =
          (if it.id = item then it.amount.toInt else 0) + totalOf rest item := by
        rw [totalOf, List.map_cons, List.sum_cons]
        rfl
      rw [Refill.Fits]
      by_cases hroom : chest.refill.Room chest it
      · obtain ⟨-, hitems, hrefill⟩ := addItem_of_room hstocked hit hroom
        have htotal := total_addItem_of_room hstocked hit hroom
        have hadded : (chest.addItem it.id it.amount it.slot).2.Stocked := stocked_addItem hstocked
        have hih := ih hadded hrest
        rw [hrefill, hitems, fits_withItems] at hih
        rw [and_iff_right hroom, ← hih]
        apply forall_congr'
        intro item
        rw [hcons, addItems, List.foldl_cons, ← add_assoc, ← htotal, ← hitems]
        rfl
      · apply iff_of_false _ fun h => hroom h.1
        intro hall
        have hle := total_addItems_le hstocked hrest it.id
        have hself := hall it.id
        rw [addItems, List.foldl_cons, addItem_of_not_room hstocked hit hroom, hcons,
          if_pos rfl] at hself
        dsimp only at hself
        unfold addItems at hle
        omega

end MapChest

/-! ## The chests of a map -/

/-- The chest as it is loaded. -/
def MapChest.fresh (time : ℤ) (chest : MapChest) : MapChest :=
  { chest with
    items := []
    spawns := chest.spawns.map fun spawn => { spawn with lastTaken := time } }

def MapChest.SameTile (chest other : MapChest) : Prop := chest.x = other.x ∧ chest.y = other.y

/-- What is written of a chest. -/
def MapChest.entries (mapId : Int32) (chest : MapChest) : List DumpChestItem :=
  chest.items.map fun item => ⟨mapId, chest.x, chest.y, item.id, item.amount, item.slot⟩

/-- The entry is one of the tile of the chest. -/
def DumpChestItem.isAt (i : DumpChestItem) (chest : MapChest) : Bool :=
  chest.x = i.x && chest.y = i.y

def DumpChestItem.addTo (i : DumpChestItem) (chest : MapChest) : MapChest :=
  (chest.addItem i.itemId i.amount i.slot).2

/-- The entries of a map go to its chests. -/
def restoreChests (chests : List MapChest) (entries : List DumpChestItem) : List MapChest :=
  entries.foldl
    (fun chests i => FirstMatch.alterFirst i.isAt (fun chest => some (i.addTo chest)) chests) chests

namespace MapChest

variable {mapId : Int32} {time : ℤ} {chest other : MapChest} {chests rest : List MapChest}
  {entries : List DumpChestItem}

theorem tile_pushItem (item : Int16) (amount slot : Int32) :
    (chest.pushItem item amount slot).2.SameTile chest := by
  unfold pushItem
  dsimp only
  split_ifs <;> exact ⟨rfl, rfl⟩

theorem tile_addItem (chest : MapChest) (item : Int16) (amount slot : Int32) :
    (chest.addItem item amount slot).2.SameTile chest := by
  unfold addItem
  by_cases ha : amount ≤ 0
  · rw [if_pos ha]
    exact ⟨rfl, rfl⟩
  rw [if_neg ha]
  cases (if slot = 0 then chest.stack item else none) with
  | none => exact tile_pushItem item amount slot
  | some it =>
      dsimp only
      split_ifs <;> exact ⟨rfl, rfl⟩

/-- The first chest gets the entries of its tile, and the others all other entries. -/
theorem restoreChests_cons (chest : MapChest) (rest : List MapChest)
    (entries : List DumpChestItem) :
    restoreChests (chest :: rest) entries =
      (entries.filter (·.isAt chest)).foldl (fun chest i => i.addTo chest) chest ::
        restoreChests rest (entries.filter (!·.isAt chest)) := by
  apply FirstMatch.foldl_alterFirst_cons (p := DumpChestItem.isAt) (g := DumpChestItem.addTo)
  intro i i' chest
  obtain ⟨hx, hy⟩ := tile_addItem chest i'.itemId i'.amount i'.slot
  unfold DumpChestItem.isAt DumpChestItem.addTo
  rw [hx, hy]

/-- A chest with no entries at its tile stays as it is. -/
theorem restoreChests_unchanged (chests : List MapChest) (entries : List DumpChestItem) :
    List.Forall₂
      (fun chest restored => (∀ i ∈ entries, i.isAt chest = false) → restored = chest)
      chests (restoreChests chests entries) := by
  induction chests generalizing entries with
  | nil =>
      have hnil : restoreChests [] entries = [] := by
        induction entries with
        | nil => rfl
        | cons i rest ih => exact ih
      rw [hnil]
      exact List.Forall₂.nil
  | cons chest rest ih =>
      rw [restoreChests_cons]
      refine List.Forall₂.cons ?_ ((ih _).imp ?_)
      · intro hnone
        have hfilter : entries.filter (·.isAt chest) = [] :=
          List.filter_eq_nil_iff.mpr fun i hi => by simp [hnone i hi]
        rw [hfilter]
        rfl
      · exact fun _ _ hsame hnone => hsame fun i hi => hnone i (List.mem_of_mem_filter hi)

theorem exists_of_forall₂ {α : Type} {P Q : α → α → Prop} {xs ys : List α}
    (hp : List.Forall₂ P xs ys) (hq : List.Forall₂ Q xs ys) {x : α} (hx : x ∈ xs) :
    ∃ y, P x y ∧ Q x y := by
  induction hp with
  | nil => cases hx
  | cons hhead _ ih =>
      cases hq with
      | cons hhead' htail' =>
          rcases List.mem_cons.mp hx with rfl | hx
          · exact ⟨_, hhead, hhead'⟩
          · exact ih htail' hx

theorem isAt_entries {i : DumpChestItem} (h : i ∈ chest.entries mapId) (other : MapChest) :
    i.isAt other = true ↔ chest.SameTile other := by
  obtain ⟨item, -, rfl⟩ := List.mem_map.mp h
  unfold DumpChestItem.isAt SameTile
  rw [Bool.and_eq_true, decide_eq_true_eq, decide_eq_true_eq]
  exact and_congr eq_comm eq_comm

theorem total_pos (h : chest.Stocked) (hitems : chest.items ≠ []) :
    ∃ item, 0 < chest.total item := by
  cases hlist : chest.items with
  | nil => exact absurd hlist hitems
  | cons it rest =>
      have hrest : Stocked (chest.withItems rest) :=
        fun it' hit' => h it' (hlist ▸ List.mem_cons_of_mem it hit')
      have hnonneg := total_nonneg hrest it.id
      have hpos := h it (hlist ▸ List.mem_cons_self)
      refine ⟨it.id, ?_⟩
      unfold total at hnonneg ⊢
      rw [hlist, List.map_cons, List.sum_cons, if_pos rfl]
      change 0 ≤ (rest.map _).sum at hnonneg
      omega

/-- The entries of a chest are put into it as its stacks. -/
theorem foldl_addTo_entries (target : MapChest) :
    (chest.entries mapId).foldl (fun chest i => i.addTo chest) target =
      target.addItems chest.items := by
  unfold entries addItems
  rw [List.foldl_map]
  rfl

/-- A chest's stacks find room in it when it is empty. -/
def Refits (chest : MapChest) : Prop := Refill.Fits chest Refill.empty chest.items

theorem fresh_totals_iff (h : chest.Stocked) :
    (∀ item, ((chest.fresh time).addItems chest.items).total item = chest.total item) ↔
      chest.Refits := by
  have hfits : Refill.Fits (chest.fresh time) (chest.fresh time).refill chest.items ↔
      chest.Refits := by
    change Refill.Fits (chest.fresh time) Refill.empty chest.items ↔ _
    unfold Refits
    generalize Refill.empty = r
    generalize chest.items = items
    induction items generalizing r with
    | nil => exact Iff.rfl
    | cons it rest ih => exact and_congr Iff.rfl (ih _)
  rw [← hfits, ← total_addItems_iff (fun it hit => absurd hit List.not_mem_nil) h]
  apply forall_congr'
  intro item
  have hempty : (chest.fresh time).total item = 0 := rfl
  rw [hempty, zero_add]
  rfl

/-- The chests of a map get back what they had exactly when nothing is in one behind another
on its tile, and their stacks fit into them. -/
theorem restoreChests_iff (h : ∀ chest ∈ chests, chest.Stocked) :
    List.Forall₂ (fun chest restored : MapChest => ∀ item, restored.total item = chest.total item)
        chests (restoreChests (chests.map (·.fresh time)) (chests.flatMap (·.entries mapId))) ↔
      (∀ chest ∈ chests, chest.Refits) ∧
        chests.Pairwise fun chest other => chest.SameTile other → other.items = [] := by
  induction chests with
  | nil => simp [restoreChests]
  | cons chest rest ih =>
      have hchest := h chest List.mem_cons_self
      have hrest := fun d hd => h d (List.mem_cons_of_mem chest hd)
      have hown : ∀ i ∈ chest.entries mapId, i.isAt chest = true :=
        fun i hi => (isAt_entries hi chest).mpr ⟨rfl, rfl⟩
      have hkept := List.filter_eq_self.mpr hown
      have hleft : (chest.entries mapId).filter (!·.isAt chest) = [] :=
        List.filter_eq_nil_iff.mpr fun i hi => by simp [hown i hi]
      have hfresh (i : DumpChestItem) : i.isAt (chest.fresh time) = i.isAt chest := rfl
      rw [List.map_cons, List.flatMap_cons, restoreChests_cons, List.forall₂_cons,
        List.forall_mem_cons, List.pairwise_cons]
      simp only [hfresh]
      rw [List.filter_append, List.filter_append, hkept, hleft, List.nil_append]
      by_cases hbehind : ∀ d ∈ rest, chest.SameTile d → d.items = []
      · have hother : ∀ i ∈ rest.flatMap (·.entries mapId), i.isAt chest = false := by
          intro i hi
          obtain ⟨d, hd, hi⟩ := List.mem_flatMap.mp hi
          rw [Bool.eq_false_iff, Ne, isAt_entries hi]
          intro htile
          rw [entries, hbehind d hd ⟨htile.1.symm, htile.2.symm⟩] at hi
          cases hi
        have hnone : (rest.flatMap (·.entries mapId)).filter (·.isAt chest) = [] :=
          List.filter_eq_nil_iff.mpr fun i hi => by simp [hother i hi]
        have hall : (rest.flatMap (·.entries mapId)).filter (!·.isAt chest) =
            rest.flatMap (·.entries mapId) :=
          List.filter_eq_self.mpr fun i hi => by simp [hother i hi]
        rw [hnone, hall, List.append_nil, foldl_addTo_entries, fresh_totals_iff hchest, ih hrest,
          and_iff_right hbehind, and_assoc]
      · apply iff_of_false _ fun hall => hbehind hall.2.1
        rintro ⟨-, htotals⟩
        simp only [not_forall] at hbehind
        obtain ⟨d, hd, htile, hitems⟩ := hbehind
        obtain ⟨item, hpos⟩ := total_pos (hrest d hd) hitems
        have hunchanged := List.forall₂_map_left_iff.mp (restoreChests_unchanged
          (rest.map (·.fresh time))
          ((rest.flatMap (·.entries mapId)).filter (!·.isAt chest)))
        obtain ⟨d', hsame, htotal⟩ := exists_of_forall₂ hunchanged htotals hd
        have hd' : d' = d.fresh time := by
          apply hsame
          intro i hi
          have hnot := (List.mem_filter.mp hi).2
          unfold DumpChestItem.isAt at hnot ⊢
          rw [htile.1, htile.2] at hnot
          exact Bool.not_eq_true' _ ▸ hnot
        have hzero := htotal item
        rw [hd'] at hzero
        have hempty : (d.fresh time).total item = 0 := rfl
        omega

end MapChest

/-! ## The maps of a world -/

/-- An item without its protection, which is not written. -/
def MapItem.unprotected (item : MapItem) : MapItem := { item with owner := 0, unprotecttime := 0 }

/-- The map as it is loaded. -/
def DumpedMap.fresh (time : ℤ) (map : DumpedMap) : DumpedMap :=
  ⟨map.id, [], map.chests.map (·.fresh time)⟩

/-- The maps of a running world. -/
structure LoadedMaps where
  maps : List DumpedMap
  ids : (maps.map (·.id)).Nodup
  stocked : ∀ map ∈ maps, ∀ chest ∈ map.chests, chest.Stocked

/-- Another state of a map with the same items on the ground and the same chest contents. -/
def DumpedMap.SameContents (map restored : DumpedMap) : Prop :=
  (restored.items.map (·.unprotected)).Perm (map.items.map (·.unprotected)) ∧
    List.Forall₂ (fun chest restored : MapChest => ∀ item, restored.total item = chest.total item)
      map.chests restored.chests

/-- Nothing is in a chest behind another on its tile, and the stacks of each fit into it. -/
def DumpedMap.Refits (map : DumpedMap) : Prop :=
  (∀ chest ∈ map.chests, chest.Refits) ∧
    map.chests.Pairwise fun chest other => chest.SameTile other → other.items = []

def DumpItem.item (i : DumpItem) : MapItem := ⟨i.uid, i.itemId, i.amount, i.x, i.y, 0, 0⟩

/-- What is written of the items of a map. -/
def DumpedMap.entries (map : DumpedMap) : List DumpItem :=
  map.items.map fun item => ⟨map.id, item.x, item.y, item.id, item.amount, item.uid⟩

namespace LoadedMaps

variable {w : LoadedMaps} {time : ℤ} {map : DumpedMap}

theorem foldl_restoreItem (maps : List DumpedMap) (h : (maps.map (·.id)).Nodup)
    (items : List DumpItem) :
    items.foldl restoreItem maps = maps.map fun map =>
      { map with items := map.items ++ (items.filter (map.id = ·.mapId)).map (·.item) } := by
  have hall := FirstMatch.foldl_alterFirst_of_nodup DumpedMap.id DumpItem.mapId
    (g := fun i map => { map with items := map.items ++ [i.item] }) (fun _ _ => rfl) h items
  refine hall.trans (List.map_congr_left ?_)
  rintro map -
  generalize items.filter (map.id = ·.mapId) = own
  induction own generalizing map with
  | nil =>
      rw [List.map_nil, List.append_nil]
      rfl
  | cons i own ih =>
      rw [List.foldl_cons, ih, List.map_cons]
      dsimp only
      rw [List.append_assoc, List.singleton_append]

theorem foldl_restoreChestItem (maps : List DumpedMap) (h : (maps.map (·.id)).Nodup)
    (entries : List DumpChestItem) :
    entries.foldl restoreChestItem maps = maps.map fun map =>
      { map with chests := restoreChests map.chests (entries.filter (map.id = ·.mapId)) } := by
  have hall := FirstMatch.foldl_alterFirst_of_nodup DumpedMap.id
    DumpChestItem.mapId
    (g := fun i map =>
      { map with
        chests := FirstMatch.alterFirst i.isAt (fun chest => some (i.addTo chest)) map.chests })
    (fun _ _ => rfl) h entries
  refine hall.trans (List.map_congr_left ?_)
  rintro map -
  generalize entries.filter (map.id = ·.mapId) = own
  induction own generalizing map with
  | nil => rfl
  | cons i own ih =>
      rw [List.foldl_cons, ih]
      rfl

/-- What a restore makes of freshly loaded maps. -/
theorem restoreMapState_dumpMapState (w : LoadedMaps) (time : ℤ) :
    restoreMapState (dumpMapState w.maps) (w.maps.map (·.fresh time)) =
      w.maps.map fun map => ⟨map.id, map.entries.map (·.item),
        restoreChests (map.chests.map (·.fresh time))
          (map.chests.flatMap (·.entries map.id))⟩ := by
  have hids : ((w.maps.map (·.fresh time)).map (·.id)).Nodup := by
    rw [List.map_map]
    exact w.ids
  unfold restoreMapState
  rw [foldl_restoreItem _ hids, foldl_restoreChestItem]
  · rw [List.map_map, List.map_map]
    apply List.map_congr_left
    intro map hmap
    have hitems := FirstMatch.filter_flatMap_of_nodup DumpedMap.id
      DumpItem.mapId (f := DumpedMap.entries)
      (fun map e he => by obtain ⟨item, -, rfl⟩ := List.mem_map.mp he; rfl) w.ids hmap
    have hchests := FirstMatch.filter_flatMap_of_nodup DumpedMap.id
      DumpChestItem.mapId
      (f := fun map : DumpedMap => map.chests.flatMap (·.entries map.id))
      (fun map e he => by
        obtain ⟨chest, -, he⟩ := List.mem_flatMap.mp he
        obtain ⟨item, -, rfl⟩ := List.mem_map.mp he
        rfl) w.ids hmap
    rw [← hitems, ← hchests]
    rfl
  · rw [List.map_map]
    exact hids

/-- The maps that a restore leaves have the contents of the world that was dumped exactly when
each of these fits into its emptied chests. -/
theorem sameContents_iff {characters : List DumpCharacter} {guilds : List DumpGuild}
    {file : Option WorldDump} {env : RestoreEnv} {db : Transactional Tables}
    {out : RestoredWorld}
    (h : restoreFromDump env db (w.maps.map (·.fresh time))
      (some (dumpToFile characters guilds w.maps file)) = .ok out) :
    List.Forall₂ DumpedMap.SameContents w.maps out.maps ↔ ∀ map ∈ w.maps, map.Refits := by
  have hmaps : out.maps = restoreMapState (dumpMapState w.maps) (w.maps.map (·.fresh time)) :=
    (restoreFromDump_cases h).2.1
  rw [hmaps, restoreMapState_dumpMapState, List.forall₂_map_right_iff, List.forall₂_same]
  apply forall₂_congr
  intro map hmap
  unfold DumpedMap.SameContents DumpedMap.Refits
  rw [MapChest.restoreChests_iff (w.stocked map hmap), and_iff_right]
  dsimp only
  unfold DumpedMap.entries
  rw [List.map_map, List.map_map]
  exact List.Perm.refl _

end LoadedMaps

/-! ## A chest that does not fit -/

namespace FullChest

/-- A chest in which a player's stack lies behind a spawned one of the same item. -/
def chest (own : Int32) : MapChest where
  x := 3
  y := 4
  items := [⟨1, 800, 1⟩, ⟨1, own, 0⟩]
  spawns := [⟨1, 0⟩]
  slots := 1
  maxchest := 1000
  chestslots := 5

def world (own : Int32) (h : 0 < own.toInt) : LoadedMaps where
  maps := [⟨1, [⟨1, 7, 2, 5, 5, 9, 60⟩], [chest own]⟩]
  ids := List.nodup_singleton _
  stocked := by
    simp [MapChest.Stocked, chest, h]

/-- All queries work. -/
def env : RestoreEnv :=
  ⟨fun _ => ⟨.works, .works, .works⟩, fun _ => ⟨.works, .works, .works⟩, true, true, true⟩

def tables : Tables := ⟨fun _ => none, fun _ => none⟩

def restored (own : Int32) (h : 0 < own.toInt) : Option RestoredWorld :=
  (restoreFromDump env (.settled tables) ((world own h).maps.map (·.fresh 0))
    (some (dumpToFile [] [] (world own h).maps none))).toOption

end FullChest

/-- The player's 500 are refused, as they are merged with the 800 that were spawned. -/
theorem not_sameContents :
    ∃ out ∈ FullChest.restored 500 (by decide),
      ¬ List.Forall₂ DumpedMap.SameContents (FullChest.world 500 (by decide)).maps out.maps := by
  refine ⟨_, rfl, ?_⟩
  intro h
  have hchests := (List.forall₂_cons.mp h).1.2
  have htotal := (List.forall₂_cons.mp hchests).1 1
  revert htotal
  decide

theorem sameContents_200 :
    ∃ out ∈ FullChest.restored 200 (by decide),
      List.Forall₂ DumpedMap.SameContents (FullChest.world 200 (by decide)).maps out.maps := by
  have hok : restoreFromDump FullChest.env (.settled FullChest.tables)
      ((FullChest.world 200 (by decide)).maps.map (·.fresh 0))
      (some (dumpToFile [] [] (FullChest.world 200 (by decide)).maps none)) =
        .ok ⟨_, _, _⟩ := rfl
  refine ⟨_, rfl, (LoadedMaps.sameContents_iff hok).mpr ?_⟩
  intro map hmap
  rw [List.mem_singleton.mp hmap]
  refine ⟨?_, List.pairwise_singleton _ _⟩
  intro chest hchest
  rw [List.mem_singleton.mp hchest]
  unfold MapChest.Refits
  decide

end ArenaServ
