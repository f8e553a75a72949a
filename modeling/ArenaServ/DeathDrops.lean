import ArenaServ.Equipment
import ArenaServ.InventoryBounds

/-!
# What a death drops

The first loop of `DropAll` puts on the ground what is in the inventory, except for `Lore` items.
The second one puts there what is worn, then takes it off into the inventory and deletes it from
there by its id, which is a `short` for all of that and an `int` in the paperdoll.
-/

namespace ArenaServ

structure DeathConfig extends PlayConfig where
  protectPKDrop : ℤ
  protectDeathDrop : ℤ

namespace PlayingCharacter

variable (config : DeathConfig)

/-- What stays in a slot of the paperdoll, which may be nothing. -/
def staysWorn (id : Int32) : Bool :=
  id = 0 || (config.items.get id.toUInt32.toNat).any
    fun data => data.special = .lore || data.special = .cursed

variable {config} {p q : PlayingCharacter} {m : GroundMap} {owner : UInt32 × ℤ} {slot : ℕ}
  {id : Int32} {item : Int16} {amount : Int32}

/-! ## The character apart from the ground -/

/-- These are put on the ground, after what has been there. -/
def Adds (m m' : GroundMap) (drops : List (Int16 × Int32 × UInt8 × UInt8)) : Prop :=
  ∃ dropped, m' = { m with items := m.items ++ dropped } ∧
    dropped.map (fun it => (it.id, it.amount, it.x, it.y)) = drops

/-- What is left in a slot of what has been worn in it. -/
def left (config : DeathConfig) (id : Int32) : Int32 := if staysWorn config id then id else 0

variable {m' m'' : GroundMap} {drops drops' : List (Int16 × Int32 × UInt8 × UInt8)}

theorem Adds.trans (h : Adds m m' drops) (h' : Adds m' m'' drops') :
    Adds m m'' (drops ++ drops') := by
  obtain ⟨dropped, rfl, rfl⟩ := h
  obtain ⟨dropped', rfl, rfl⟩ := h'
  refine ⟨dropped ++ dropped', ?_, List.map_append⟩
  rw [List.append_assoc]

theorem Adds.total (h : Adds m m' drops) (item : Int16) : m'.total item =
    m.total item + (drops.map fun it => if it.1 = item then it.2.1.toInt else 0).sum := by
  obtain ⟨dropped, rfl, rfl⟩ := h
  unfold GroundMap.total
  rw [List.map_append, List.sum_append, List.map_map]
  rfl

theorem total_cons {it : CharacterItem} {rest : List CharacterItem} :
    Inventory.total (it :: rest) item =
      (if it.id = item then it.amount.toInt else 0) + Inventory.total rest item := by
  unfold Inventory.total
  rw [Inventory.held_cons]
  by_cases hid : it.id = item
  · rw [if_pos hid, if_pos hid, Inventory.sum_cons]
  · rw [if_neg hid, if_neg hid, zero_add]

/-- How much of an item is among what is dropped. -/
def dropped (drops : List (Int16 × Int32 × UInt8 × UInt8)) (item : Int16) : ℤ :=
  (drops.map fun it => if it.1 = item then it.2.1.toInt else 0).sum

/-- A character that has been stored with something else than an item in a slot. -/
def stray : PlayingCharacter :=
  { Ground.walker 1 [⟨2, 10⟩] with paperdoll := 40000 :: List.replicate 14 0 }

end PlayingCharacter

end ArenaServ
