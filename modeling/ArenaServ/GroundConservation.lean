import ArenaServ.GroundItems

/-!
# When items on the ground are conserved

All characters on a map and its ground together keep what they have of an item exactly
when no drop is refused by the map and no character picks up more than there is room for.
-/

namespace ArenaServ
open RunSteps

namespace GroundMap

/-- How much of an item lies on the ground. -/
def total (m : GroundMap) (item : Int16) : ℤ :=
  (m.items.map fun it => if it.id = item then it.amount.toInt else 0).sum

theorem total_addItem (config : GroundConfig) (m : GroundMap) (id : Int16) (amount : Int32)
    (x y : UInt8) (owner : UInt32) (unprotecttime : ℤ) (item : Int16) :
    (m.addItem config id amount x y true owner unprotecttime).total item = m.total item +
      if m.Full config x y then 0 else if id = item then amount.toInt else 0 := by
  unfold addItem
  by_cases hfull : m.Full config x y
  · rw [if_pos ⟨rfl, hfull⟩, if_pos hfull, add_zero]
  · rw [if_neg (fun h => hfull h.2), if_neg hfull]
    unfold total
    rw [List.map_append, List.sum_append, List.map_singleton, List.sum_singleton]

theorem total_delSomeItem {m : GroundMap} {uid : Int16} {it : MapItem} {amount : Int32}
    (hit : m.getItem uid = some it) (ha : 0 < amount.toInt) (hle : amount.toInt ≤ it.amount.toInt)
    (item : Int16) :
    (m.delSomeItem uid amount).total item =
      m.total item - if it.id = item then amount.toInt else 0 := by
  have hneg : ¬ amount < 0 := by
    rw [Int32.lt_iff_toInt_lt, Int32.toInt_zero]
    omega
  have hlt := it.amount.toInt_lt
  have hsub : (it.amount - amount).toInt = it.amount.toInt - amount.toInt :=
    Inventory.toInt_sub_of_le (by omega) (by omega)
  unfold delSomeItem
  rw [if_neg hneg]
  unfold total
  rw [FirstMatch.sum_alterFirst _ hit]
  by_cases hmore : amount < it.amount
  · rw [if_pos hmore, Option.toList_some, List.map_singleton, List.sum_singleton]
    change _ + (if it.id = item then (it.amount - amount).toInt else 0) = _
    rw [hsub]
    split_ifs <;> omega
  · have hall : it.amount.toInt = amount.toInt := by
      rw [Int32.lt_iff_toInt_lt] at hmore
      omega
    rw [if_neg hmore, Option.toList_none, List.map_nil, List.sum_nil, hall]
    split_ifs <;> omega

end GroundMap

namespace PlayingCharacter

variable {config : GroundConfig} {p : PlayingCharacter} {m : GroundMap} {time : ℤ}
  {reader : PacketReader}

/-- Only what the first stack covers is dropped. -/
theorem itemDropped_spec {d : Drop} (h : p.itemDropped config m reader = some (some d)) :
    0 < d.amount.toInt ∧ Inventory.Covers (Inventory.held p.inventory d.id) d.amount := by
  unfold itemDropped at h
  by_cases htrading : p.trading = true
  · rw [if_pos htrading] at h
    cases h
  by_cases hinteract : (!p.canInteractItems) = true
  · rw [if_neg htrading, if_pos hinteract] at h
    cases h
  rw [if_neg htrading, if_neg hinteract] at h
  simp only [Option.bind_eq_bind, Option.bind_eq_some_iff, Option.pure_def] at h
  obtain ⟨id, -, data, -, h⟩ := h
  by_cases hlore : data.special = .lore
  · rw [if_pos hlore] at h
    cases h
  rw [if_neg hlore] at h
  simp only [Option.bind_eq_some_iff, Option.some.injEq, Option.ite_none_right_eq_some] at h
  obtain ⟨amount, -, x, -, y, -, hmay, rfl⟩ := h
  obtain ⟨hpos, -, -, hhas, -⟩ := hmay
  rw [Int32.le_iff_toInt_le, Int32.toInt_zero, not_le] at hpos
  exact ⟨hpos, covers_of_le_hasItem (Bool.eq_false_iff.mpr htrading) hpos hhas⟩

/-- What is taken lies on the map, and there is as much of it. -/
theorem itemTaken_spec {it : MapItem} {taken : Int32}
    (h : p.itemTaken config m time reader = some (some (it, taken))) :
    m.getItem it.uid = some it ∧ 0 < taken.toInt ∧ taken.toInt ≤ it.amount.toInt := by
  unfold itemTaken at h
  simp only [Option.bind_eq_bind, Option.bind_eq_some_iff, Option.pure_def] at h
  obtain ⟨uid, -, h⟩ := h
  cases hitem : m.getItem (Int16.ofNat uid.1) with
  | none =>
      rw [hitem] at h
      cases h
  | some item =>
      rw [hitem] at h
      simp only at h
      by_cases hfar : config.dropDistance < pathLengthOf item.x item.y p.x p.y
      · rw [if_pos hfar] at h
        cases h
      by_cases hprotected : item.owner ≠ p.playerId ∧ time < item.unprotecttime
      · rw [if_neg hfar, if_pos hprotected] at h
        cases h
      rw [if_neg hfar, if_neg hprotected] at h
      simp only [Option.bind_eq_some_iff, Option.some.injEq, Option.ite_none_right_eq_some,
        Prod.mk.injEq] at h
      obtain ⟨n, hn, hpos, rfl, rfl⟩ := h
      rw [Int32.lt_iff_toInt_lt, Int32.toInt_zero] at hpos
      have hfind : m.items.find? (·.uid = Int16.ofNat uid.1) = some item := hitem
      have huid : item.uid = Int16.ofNat uid.1 := by simpa using List.find?_some hfind
      rw [huid]
      exact ⟨hitem, hpos, canHoldItem_le hn hpos⟩

end PlayingCharacter

namespace Ground

/-- How much of an item the characters on the map and its ground have. -/
def total (g : Ground) (item : Int16) : ℤ :=
  (g.players.map (·.total item)).sum + g.map.total item

/-- The map takes what is dropped, and there is room for what is picked up. -/
def Room (config : GroundConfig) (g : Ground) : GroundStep → Prop
  | .drop i _ reader => ∀ p ∈ g.players[i]?, ∀ d,
      p.itemDropped config g.map reader = some (some d) → ¬ g.map.Full config d.x d.y
  | .get i time reader => ∀ p ∈ g.players[i]?, ∀ it taken,
      p.itemTaken config g.map time reader = some (some (it, taken)) →
      p.HasRoom config.toCarryConfig it.id taken

variable {config : GroundConfig} {g : Ground} {reader : PacketReader}

theorem total_set {i : ℕ} {p : PlayingCharacter} (hp : g.players[i]? = some p)
    (p' : PlayingCharacter) (m : GroundMap) (item : Int16) :
    total ⟨g.players.set i p', m⟩ item =
      g.total item - p.total item - g.map.total item + p'.total item + m.total item := by
  unfold total
  rw [FirstMatch.sum_set _ hp]
  abel

theorem total_set_self {i : ℕ} {p : PlayingCharacter} (hp : g.players[i]? = some p) :
    total ⟨g.players.set i p, g.map⟩ = g.total := by
  funext item
  rw [total_set hp]
  abel

/-- What a drop of `d` does to the totals. -/
theorem total_drop {i : ℕ} {p : PlayingCharacter} (hp : g.players[i]? = some p) {d : Drop}
    (hd : p.itemDropped config g.map reader = some (some d)) (owner : UInt32) (time : ℤ)
    (item : Int16) :
    total ⟨g.players.set i (p.delItem config.toCarryConfig d.id d.amount),
        g.map.addItem config d.id d.amount d.x d.y true owner time⟩ item =
      g.total item - if g.map.Full config d.x d.y ∧ d.id = item then d.amount.toInt else 0 := by
  obtain ⟨hpos, hcov⟩ := PlayingCharacter.itemDropped_spec hd
  rw [total_set hp, GroundMap.total_addItem]
  by_cases hid : d.id = item
  · rw [← hid, PlayingCharacter.total_delItem hpos hcov]
    by_cases hfull : g.map.Full config d.x d.y
    · simp only [hfull, if_true, and_self]
      omega
    · simp only [hfull, if_false, if_true, false_and]
      omega
  · rw [PlayingCharacter.total_delItem_of_ne hid, if_neg hid, if_neg (not_and_of_not_right _ hid),
      ite_self]
    omega

theorem step_drop {i : ℕ} {p : PlayingCharacter} (hp : g.players[i]? = some p) (time : ℤ)
    (reader : PacketReader) :
    step config g (.drop i time reader) = (p.itemDropped config g.map reader).map fun
      | none => ⟨g.players.set i p, g.map⟩
      | some d => ⟨g.players.set i (p.delItem config.toCarryConfig d.id d.amount),
          g.map.addItem config d.id d.amount d.x d.y true p.playerId
            (time + config.protectPlayerDrop)⟩ := by
  simp only [step, hp, PlayingCharacter.itemDrop, Option.bind_eq_bind, Option.bind_some]
  rcases p.itemDropped config g.map reader with _ | _ | d
  · rfl
  · rfl
  · rfl

theorem keeps_drop_iff (i : ℕ) (time : ℤ) (reader : PacketReader) :
    Keeps (step config) total g (.drop i time reader) ↔ g.Room config (.drop i time reader) := by
  cases hp : g.players[i]? with
  | none => exact iff_of_true (keeps_of_none (by simp [step, hp])) (by simp [Room, hp])
  | some p =>
      rw [keeps_iff_of_map (step_drop hp time reader) (total_set_self hp)]
      simp only [Room, hp, Option.mem_some_iff, forall_eq']
      apply forall_congr'
      intro d
      apply forall_congr'
      intro hd
      have hpos := (PlayingCharacter.itemDropped_spec hd).1
      have htotal := total_drop hp hd p.playerId (time + config.protectPlayerDrop)
      constructor
      · intro h hfull
        have hchange := htotal d.id
        rw [h, if_pos ⟨hfull, rfl⟩] at hchange
        omega
      · intro h
        funext item
        rw [htotal, if_neg (fun hf => h hf.1), sub_zero]

/-- What picking up `taken` of an item does to the totals. -/
theorem total_get {i : ℕ} {p : PlayingCharacter} (hp : g.players[i]? = some p) {it : MapItem}
    {time : ℤ} {taken : Int32}
    (htaken : p.itemTaken config g.map time reader = some (some (it, taken))) (item : Int16) :
    total ⟨g.players.set i (p.addItem config.toCarryConfig it.id taken),
        g.map.delSomeItem it.uid taken⟩ item =
      g.total item + if it.id = item then
        (p.addItem config.toCarryConfig item taken).total item - p.total item - taken.toInt
        else 0 := by
  obtain ⟨hit, hpos, hle⟩ := PlayingCharacter.itemTaken_spec htaken
  rw [total_set hp, GroundMap.total_delSomeItem hit hpos hle]
  by_cases hid : it.id = item
  · rw [if_pos hid, if_pos hid, hid]
    omega
  · rw [if_neg hid, if_neg hid, PlayingCharacter.total_addItem_of_ne hid]
    omega

theorem step_get {i : ℕ} {p : PlayingCharacter} (hp : g.players[i]? = some p) (time : ℤ)
    (reader : PacketReader) :
    step config g (.get i time reader) = (p.itemTaken config g.map time reader).map fun
      | none => ⟨g.players.set i p, g.map⟩
      | some (it, taken) => ⟨g.players.set i (p.addItem config.toCarryConfig it.id taken),
          g.map.delSomeItem it.uid taken⟩ := by
  simp only [step, hp, PlayingCharacter.itemGet, Option.bind_eq_bind, Option.bind_some]
  rcases p.itemTaken config g.map time reader with _ | _ | ⟨it, taken⟩
  · rfl
  · rfl
  · rfl

theorem keeps_get_iff (i : ℕ) (time : ℤ) (reader : PacketReader) :
    Keeps (step config) total g (.get i time reader) ↔ g.Room config (.get i time reader) := by
  cases hp : g.players[i]? with
  | none => exact iff_of_true (keeps_of_none (by simp [step, hp])) (by simp [Room, hp])
  | some p =>
      rw [keeps_iff_of_map (step_get hp time reader) (total_set_self hp)]
      simp only [Room, hp, Option.mem_some_iff, forall_eq', Prod.forall]
      apply forall₃_congr
      intro it taken htaken
      have hpos := (PlayingCharacter.itemTaken_spec htaken).2.1
      have hroom : _ ↔ p.HasRoom config.toCarryConfig it.id taken :=
        PlayingCharacter.total_addItem_iff hpos
      have htotal := total_get hp htaken
      rw [← hroom]
      constructor
      · intro h
        have hchange := htotal it.id
        rw [h, if_pos rfl] at hchange
        omega
      · intro h
        funext item
        rw [htotal]
        split_ifs with hid
        · rw [← hid]
          omega
        · exact add_zero _

/-- In a run of drops and pick-ups each step keeps all totals exactly when each drop is
taken by the map and there is room for each item picked up. -/
theorem totals_kept_iff (config : GroundConfig) (g : Ground) (steps : List GroundStep) :
    Every (step config) (Keeps (step config) total) g steps ↔
      Every (step config) (Room config) g steps := by
  apply every_iff (fun _ => True)
  · intro g s _
    cases s with
    | drop i time reader => exact keeps_drop_iff i time reader
    | get i time reader => exact keeps_get_iff i time reader
  · exact fun _ _ _ _ _ _ => trivial
  · trivial

/-! ## A crowded square -/

def noAttributes : Attributes := ⟨0, 0, 0, 0, 0, 0⟩

def plainItem (id : ℕ) (type : ItemType) (weight : UInt8) : ItemInfo where
  id := id
  type := type
  subtype := .none
  weight := weight
  hp := 10
  tp := 0
  param := 0
  param2 := 0
  param3 := 0
  levelreq := 0
  classreq := 0
  required := noAttributes

def square : GroundConfig where
  items := hall.items
  info := [plainItem 0 .static 0, plainItem 1 .money 0, plainItem 2 .heal 1]
  info_length := rfl
  enforceWeight := 2
  unlimitedweight := 4
  weightFormula := fun _ => 70
  ghostArena := false
  jailMap := 0
  maxDrop := 10
  dropDistance := 2
  maxTile := 1
  maxMap := 400
  protectPlayerDrop := 5

def walker (playerId : UInt32) (inventory : List CharacterItem) : PlayingCharacter where
  toCharacter := visitor playerId inventory
  x := 3
  y := 3
  admin := 0
  level := 0
  clas := 0
  gender := 0
  haircolor := 0
  hp := 10
  tp := 10
  maxhp := 10
  maxtp := 10
  display := noAttributes
  weight := 0
  maxweight := 70
  paperdoll := List.replicate 15 0
  spells := []
  npcType := .npc
  npc := ⟨[], [], []⟩
  jukeboxOpen := false
  hasGuild := false
  fiance := []
  partner := []
  goldbank := 0
  bankmax := 0
  bank := []

/-- One item lies on the only tile that may be dropped on. -/
def crowded : Ground where
  players := [walker 1 [⟨1, 8⟩], walker 2 [⟨2, 9⟩]]
  map :=
    { width := 10, height := 10, tilespec := fun _ _ => .none, occupied := fun _ _ => false
      items := [⟨1, 2, 4, 3, 3, 0, 0⟩] }

/-- The first walker drops five of item 1 where they stand; the second, who already has nine
of ten, picks up four of item 2. -/
def dropHere : GroundStep := .drop 0 0 (tradePacket [2, 254, 6, 254, 254, 255, 255])

def getFirst : GroundStep := .get 1 0 (tradePacket [2, 254])

theorem not_totals_kept_crowded :
    (∀ p ∈ crowded.players, ∀ it ∈ p.inventory, square.items.ValidId it.id) ∧
    (∀ it ∈ crowded.map.items, square.items.ValidId it.id) ∧
    ¬ Every (step square) (Keeps (step square) total) crowded [dropHere] ∧
    ¬ Every (step square) (Keeps (step square) total) crowded [getFirst] := by
  refine ⟨by decide, by decide, ?_, ?_⟩
  · rintro ⟨hkeeps, -⟩
    have hroom := (keeps_drop_iff _ _ _).mp hkeeps (walker 1 [⟨1, 8⟩]) rfl ⟨1, 5, 3, 3⟩
      (by decide)
    exact hroom (by decide)
  · rintro ⟨hkeeps, -⟩
    have hroom := (keeps_get_iff _ _ _).mp hkeeps (walker 2 [⟨2, 9⟩]) rfl ⟨1, 2, 4, 3, 3, 0, 0⟩ 4
      (by decide)
    exact absurd hroom (by decide)

end Ground

end ArenaServ
