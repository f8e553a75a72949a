import ArenaServ.Chests
import ArenaServ.GroundConservation

/-!
# When what is in chests is conserved

Putting something into a chest never changes how much there is of it. Taking something
out does not exactly when there is room for it.
-/

namespace ArenaServ
open RunSteps

namespace MapChest

variable {chest : MapChest} {item other : Int16} {amount : Int32} {time : ℤ}

theorem hasItem_of_stack {it : MapChestItem} (h : chest.stack item = some it) :
    chest.hasItem item = it.amount := by
  rw [hasItem, h]
  rfl

theorem id_of_stack {it : MapChestItem} (h : chest.stack item = some it) : it.id = item := by
  have hfind : chest.items.find? (·.id = item) = some it := h
  simpa using List.find?_some hfind

/-- A new stack has the whole amount. -/
theorem total_pushItem (slot : Int32) (other : Int16)
    (h : (chest.pushItem item amount slot).1 ≠ 0) :
    (chest.pushItem item amount slot).2.total other =
      chest.total other + if item = other then amount.toInt else 0 := by
  unfold pushItem at h ⊢
  dsimp only at h ⊢
  by_cases hfull : chest.chestslots.toInt64.toUInt64.toNat ≤ chest.items.length ∨
      chest.maxchest < amount
  · rw [if_pos hfull] at h
    exact absurd rfl h
  rw [if_neg hfull] at h ⊢
  by_cases hslots : slot = 0 ∧
      chest.chestslots ≤ Int32.ofNat (chest.items.countP (·.slot = 0)) + chest.slots
  · rw [if_pos hslots] at h
    exact absurd rfl h
  rw [if_neg hslots]
  unfold total
  by_cases hslot : slot = 0
  · simp only [if_pos hslot, List.map_append, List.sum_append, List.map_singleton,
      List.sum_singleton]
  · simp only [if_neg hslot, List.map_cons, List.sum_cons]
    exact add_comm _ _

/-- A chest that takes something takes all of it. -/
theorem total_addItem (other : Int16) (h : (chest.addItem item amount 0).1 ≠ 0) :
    0 < amount.toInt ∧ (chest.addItem item amount 0).2.total other =
      chest.total other + if item = other then amount.toInt else 0 := by
  unfold addItem at h ⊢
  by_cases ha : amount ≤ 0
  · rw [if_pos ha] at h
    exact absurd rfl h
  rw [if_neg ha, if_pos rfl] at h ⊢
  have hpos : 0 < amount.toInt := by
    rw [Int32.le_iff_toInt_le, Int32.toInt_zero] at ha
    omega
  refine ⟨hpos, ?_⟩
  cases hstack : chest.stack item with
  | none =>
      rw [hstack] at h
      exact total_pushItem 0 other h
  | some it =>
      rw [hstack] at h
      dsimp only at h ⊢
      by_cases hover : it.amount + amount < 0 ∨ chest.maxchest < it.amount + amount
      · rw [if_pos hover] at h
        exact absurd rfl h
      rw [if_neg hover]
      have hneg := mt (Inventory.add_lt_zero_iff (x := it.amount) hpos).mpr (not_or.mp hover).1
      have hsum : (it.amount + amount).toInt = it.amount.toInt + amount.toInt :=
        Inventory.toInt_add_of_lt (by omega) (by omega)
      have hid := id_of_stack hstack
      unfold total
      rw [FirstMatch.sum_alterFirst _ hstack, Option.toList_some, List.map_singleton,
        List.sum_singleton]
      change _ + (if it.id = other then (it.amount + amount).toInt else 0) = _
      rw [hid, hsum]
      split_ifs <;> omega

/-- Up to what the first stack has, all of it is taken out. -/
theorem total_delSomeItem (other : Int16) (ha : 0 < amount.toInt)
    (hle : amount.toInt ≤ (chest.hasItem item).toInt) :
    (chest.delSomeItem time item amount).total other =
      chest.total other - if item = other then amount.toInt else 0 := by
  unfold delSomeItem
  cases hstack : chest.stack item with
  | none =>
      rw [hasItem, hstack] at hle
      simp only [Option.map_none, Option.getD_none, Int32.toInt_zero] at hle
      omega
  | some it =>
      rw [hasItem_of_stack hstack] at hle
      have hid := id_of_stack hstack
      have hlt := it.amount.toInt_lt
      have hsub : (it.amount - amount).toInt = it.amount.toInt - amount.toInt :=
        Inventory.toInt_sub_of_le (by omega) (by omega)
      unfold total
      dsimp only
      rw [FirstMatch.sum_alterFirst _ hstack]
      by_cases hmore : amount < it.amount
      · rw [if_pos hmore, Option.toList_some, List.map_singleton, List.sum_singleton]
        change _ + (if it.id = other then (it.amount - amount).toInt else 0) = _
        rw [hid, hsub]
        split_ifs <;> omega
      · have hall : it.amount.toInt = amount.toInt := by
          rw [Int32.lt_iff_toInt_lt] at hmore
          omega
        rw [if_neg hmore, Option.toList_none, List.map_nil, List.sum_nil, hid, hall]
        split_ifs <;> omega

end MapChest

/-- How much of an item the chests of a map contain. -/
def ChestMap.total (chests : List MapChest) (item : Int16) : ℤ :=
  (chests.map (·.total item)).sum

namespace PlayingCharacter

variable {config : ChestConfig} {p : PlayingCharacter} {m : ChestMap} {item : Int16}
  {amount : Int32} {chests : List MapChest} {reader : PacketReader} {time : ℤ}

theorem addedToChest_spec {chest chest' : MapChest} {n : Int32} (htrading : p.trading = false)
    (h : p.addedToChest config chest item n = some (amount, chest')) :
    0 < amount.toInt ∧ Inventory.Covers (Inventory.held p.inventory item) amount ∧
      ∀ other, chest'.total other =
        chest.total other + if item = other then amount.toInt else 0 := by
  rw [addedToChest, Option.ite_none_right_eq_some, Option.some.injEq, Prod.mk.injEq] at h
  obtain ⟨⟨hhas, hadd⟩, rfl, rfl⟩ := h
  have hpos := (MapChest.total_addItem item hadd).1
  exact ⟨hpos, covers_of_le_hasItem htrading hpos hhas,
    fun other => (MapChest.total_addItem other hadd).2⟩

/-- What `Chest_Add` takes from a character is in the first stack, and the chests get it. -/
theorem chestAdded_spec (h : p.chestAdded config m reader = some (some (item, amount, chests))) :
    0 < amount.toInt ∧ Inventory.Covers (Inventory.held p.inventory item) amount ∧
      ∀ other, ChestMap.total chests other =
        ChestMap.total m.chests other + if item = other then amount.toInt else 0 := by
  unfold chestAdded at h
  by_cases htrading : p.trading = true
  · rw [if_pos htrading] at h
    cases h
  by_cases hinteract : (!p.canInteractItems) = true
  · rw [if_neg htrading, if_pos hinteract] at h
    cases h
  rw [if_neg htrading, if_neg hinteract] at h
  simp only [Option.bind_eq_bind, Option.bind_eq_some_iff, Option.pure_def] at h
  obtain ⟨x, -, y, -, id, -, n, -, data, -, h⟩ := h
  by_cases hrefused : data.special = .lore ∨ ¬ p.Reaches m x.1 y.1
  · rw [if_pos hrefused] at h
    cases h
  rw [if_neg hrefused] at h
  cases hfind : m.chests.find? (·.IsAt x.1 y.1) with
  | none =>
      rw [hfind] at h
      cases h
  | some chest =>
      simp only [hfind, Option.some.injEq, Option.map_eq_some_iff, Prod.mk.injEq] at h
      obtain ⟨⟨n', chest'⟩, hadded, rfl, rfl, rfl⟩ := h
      obtain ⟨hpos, hcov, htotal⟩ :=
        addedToChest_spec (Bool.eq_false_iff.mpr htrading) hadded
      refine ⟨hpos, hcov, ?_⟩
      intro other
      unfold ChestMap.total
      rw [FirstMatch.sum_alterFirst _ hfind, Option.toList_some, List.map_singleton,
        List.sum_singleton, htotal]
      dsimp only
      omega

theorem takeFromChests_spec {x y : ℕ} {chests' : List MapChest}
    (h : p.takeFromChests config time x y item chests = some (some (amount, chests'))) :
    0 < amount.toInt ∧ ∀ other, ChestMap.total chests' other =
      ChestMap.total chests other - if item = other then amount.toInt else 0 := by
  induction chests generalizing amount chests' with
  | nil => cases h
  | cons chest rest ih =>
      have hlater : ∀ taken, (p.takeFromChests config time x y item rest).map
          (Option.map fun taken => (taken.1, chest :: taken.2)) = some (some taken) →
          0 < taken.1.toInt ∧ ∀ other, ChestMap.total taken.2 other =
            ChestMap.total (chest :: rest) other - if item = other then taken.1.toInt else 0 := by
        intro taken htaken
        simp only [Option.map_eq_some_iff] at htaken
        obtain ⟨later, hrest, ⟨n, chests''⟩, rfl, rfl⟩ := htaken
        obtain ⟨hpos, htotal⟩ := ih hrest
        refine ⟨hpos, ?_⟩
        intro other
        have hother := htotal other
        unfold ChestMap.total at hother ⊢
        dsimp only
        rw [List.map_cons, List.sum_cons, List.map_cons, List.sum_cons, hother]
        omega
      rw [takeFromChests] at h
      by_cases hat : chest.IsAt x y = true
      · rw [if_pos hat, Option.bind_eq_some_iff] at h
        obtain ⟨n, hn, h⟩ := h
        by_cases hpos : 0 < n
        · rw [if_pos hpos, Option.some.injEq, Option.some.injEq, Prod.mk.injEq] at h
          obtain ⟨rfl, rfl⟩ := h
          rw [Int32.lt_iff_toInt_lt, Int32.toInt_zero] at hpos
          refine ⟨hpos, ?_⟩
          intro other
          unfold ChestMap.total
          rw [List.map_cons, List.sum_cons, List.map_cons, List.sum_cons,
            MapChest.total_delSomeItem other hpos (canHoldItem_le hn hpos)]
          omega
        · rw [if_neg hpos] at h
          exact hlater _ h
      · rw [if_neg hat] at h
        exact hlater _ h

/-- What `Chest_Take` gives to a character, the chests lose. -/
theorem chestTaken_spec
    (h : p.chestTaken config m time reader = some (some (item, amount, chests))) :
    0 < amount.toInt ∧ ∀ other, ChestMap.total chests other =
      ChestMap.total m.chests other - if item = other then amount.toInt else 0 := by
  unfold chestTaken at h
  simp only [Option.bind_eq_bind, Option.bind_eq_some_iff, Option.pure_def] at h
  obtain ⟨x, -, y, -, id, -, h⟩ := h
  by_cases hreaches : p.Reaches m x.1 y.1
  · rw [if_neg (not_not.mpr hreaches)] at h
    simp only [Option.bind_eq_some_iff, Option.some.injEq, Option.map_eq_some_iff,
      Prod.mk.injEq] at h
    obtain ⟨taken, htaken, ⟨n, chests'⟩, rfl, rfl, rfl, rfl⟩ := h
    exact takeFromChests_spec htaken
  · rw [if_pos hreaches] at h
    cases h

end PlayingCharacter

namespace ChestRoom

/-- How much of an item the characters and the chests of a map have. -/
def total (r : ChestRoom) (item : Int16) : ℤ :=
  (r.players.map (·.total item)).sum + ChestMap.total r.map.chests item

/-- There is room for what is taken out. -/
def Room (config : ChestConfig) (r : ChestRoom) : ChestStep → Prop
  | .add _ _ => True
  | .take i time reader => ∀ p ∈ r.players[i]?, ∀ item taken chests,
      p.chestTaken config r.map time reader = some (some (item, taken, chests)) →
      p.HasRoom config.toCarryConfig item taken

variable {config : ChestConfig} {r : ChestRoom} {i : ℕ} {p : PlayingCharacter} {time : ℤ}
  {reader : PacketReader}

theorem total_set (hp : r.players[i]? = some p) (p' : PlayingCharacter) (m : ChestMap)
    (item : Int16) :
    total ⟨r.players.set i p', m⟩ item =
      r.total item - p.total item - ChestMap.total r.map.chests item + p'.total item +
        ChestMap.total m.chests item := by
  unfold total
  rw [FirstMatch.sum_set _ hp]
  abel

theorem total_set_self (hp : r.players[i]? = some p) :
    total ⟨r.players.set i p, r.map⟩ = r.total := by
  funext item
  rw [total_set hp]
  abel

theorem step_add (hp : r.players[i]? = some p) (reader : PacketReader) :
    step config r (.add i reader) = (p.chestAdded config r.map reader).map fun
      | none => ⟨r.players.set i p, r.map⟩
      | some (item, amount, chests) =>
          ⟨r.players.set i (p.delItem config.toCarryConfig item amount),
            { r.map with chests := chests }⟩ := by
  simp only [step, hp, PlayingCharacter.chestAdd, Option.bind_eq_bind, Option.bind_some]
  rcases p.chestAdded config r.map reader with _ | _ | ⟨item, amount, chests⟩
  · rfl
  · rfl
  · rfl

theorem step_take (hp : r.players[i]? = some p) (time : ℤ) (reader : PacketReader) :
    step config r (.take i time reader) = (p.chestTaken config r.map time reader).map fun
      | none => ⟨r.players.set i p, r.map⟩
      | some (item, taken, chests) =>
          ⟨r.players.set i (p.addItem config.toCarryConfig item taken),
            { r.map with chests := chests }⟩ := by
  simp only [step, hp, PlayingCharacter.chestTake, Option.bind_eq_bind, Option.bind_some]
  rcases p.chestTaken config r.map time reader with _ | _ | ⟨item, taken, chests⟩
  · rfl
  · rfl
  · rfl

theorem keeps_add (i : ℕ) (reader : PacketReader) :
    Keeps (step config) total r (.add i reader) := by
  cases hp : r.players[i]? with
  | none => exact keeps_of_none (by simp [step, hp])
  | some p =>
      rw [keeps_iff_of_map (step_add hp reader) (total_set_self hp)]
      rintro ⟨item, amount, chests⟩ hadded
      obtain ⟨hpos, hcov, htotal⟩ := PlayingCharacter.chestAdded_spec hadded
      funext other
      rw [total_set hp, htotal]
      by_cases hid : item = other
      · rw [if_pos hid, ← hid, PlayingCharacter.total_delItem hpos hcov]
        omega
      · rw [if_neg hid, PlayingCharacter.total_delItem_of_ne hid]
        omega

theorem keeps_take_iff (i : ℕ) (time : ℤ) (reader : PacketReader) :
    Keeps (step config) total r (.take i time reader) ↔ r.Room config (.take i time reader) := by
  cases hp : r.players[i]? with
  | none => exact iff_of_true (keeps_of_none (by simp [step, hp])) (by simp [Room, hp])
  | some p =>
      rw [keeps_iff_of_map (step_take hp time reader) (total_set_self hp)]
      simp only [Room, hp, Option.mem_some_iff, forall_eq', Prod.forall]
      apply forall₄_congr
      intro item taken chests htaken
      obtain ⟨hpos, htotal⟩ := PlayingCharacter.chestTaken_spec htaken
      rw [← PlayingCharacter.total_addItem_iff hpos]
      constructor
      · intro h
        have hsame := congrFun h item
        rw [total_set hp, htotal, if_pos rfl] at hsame
        omega
      · intro h
        funext other
        rw [total_set hp, htotal]
        by_cases hid : item = other
        · rw [if_pos hid, ← hid, h]
          omega
        · rw [if_neg hid, PlayingCharacter.total_addItem_of_ne hid]
          omega

/-- In a run of additions to chests and withdrawals from them each step keeps all totals
exactly when there is room for each item taken out. -/
theorem totals_kept_iff_room (config : ChestConfig) (r : ChestRoom) (steps : List ChestStep) :
    Every (step config) (Keeps (step config) total) r steps ↔
      Every (step config) (Room config) r steps := by
  apply every_iff (fun _ => True)
  · intro r s _
    cases s with
    | add i reader => exact iff_of_true (keeps_add i reader) trivial
    | take i time reader => exact keeps_take_iff i time reader
  · exact fun _ _ _ _ _ _ => trivial
  · trivial

/-! ## A chest beside a full bag -/

def cellar : ChestConfig where
  toCarryConfig := Ground.square.toCarryConfig
  maxChest := 100

/-- A chest with four of item 2, and someone next to it who has nine of ten. -/
def besideChest : ChestRoom where
  players := [Ground.walker 1 [⟨2, 9⟩]]
  map :=
    { width := 10, height := 10, occupied := fun _ _ => false
      tilespec := fun x y => if x = 3 ∧ y = 4 then .chest else .none
      chests := [⟨3, 4, [⟨2, 4, 0⟩], [], 0, 100, 5⟩] }

theorem not_totals_kept_besideChest :
    ¬ Every (step cellar) (Keeps (step cellar) total) besideChest
      [.take 0 0 (tradePacket [4, 5, 3, 254])] := by
  rintro ⟨hkeeps, -⟩
  have hroom := (keeps_take_iff _ _ _).mp hkeeps (Ground.walker 1 [⟨2, 9⟩]) rfl 2 4
    [⟨3, 4, [], [], 0, 100, 5⟩] (by decide)
  exact absurd hroom (by decide)

end ChestRoom

end ArenaServ
