import ArenaServ.FirstMatch
import ArenaServ.PubFiles

/-!
# Map files

`Map::Load` reads a map from a file: its size, which tiles are special and which ones lead
elsewhere, its NPCs, and what comes up in its chests. What lies outside of the map is left out. The
file is read in the order of its parts, but for the NPCs, to which the reader goes back.
-/

namespace ArenaServ

open BinaryFile PacketProcessor

structure LoadedWarp where
  map : Int16
  x : UInt8
  y : UInt8
  levelreq : UInt8
  spec : ℕ
  deriving DecidableEq, Inhabited

/-- `Map_Tile`. A tile without a spec is `Map_Tile::None`. -/
structure MapTile where
  tilespec : Option UInt8
  warp : LoadedWarp
  deriving DecidableEq, Inhabited

def MapTile.plain : MapTile := ⟨none, ⟨0, 0, 0, 0, 0⟩⟩

/-- `Map_Chest_Spawn`, with its time in seconds. -/
structure LoadedSpawn where
  slot : ℕ
  time : ℤ
  item : Int16
  amount : ℕ
  deriving DecidableEq

structure LoadedChest where
  x : UInt8
  y : UInt8
  maxchest : Int32
  chestslots : Int32
  slots : ℕ
  key : Int16
  spawns : List LoadedSpawn
  deriving DecidableEq

/-- What `NPC::NPC` makes of its arguments. -/
structure LoadedNpc where
  id : Int16
  x : UInt8
  y : UInt8
  spawnType : UInt8
  spawnTime : Int16
  direction : ℕ
  index : UInt8
  deriving DecidableEq

structure LoadedMap where
  rid : Bytes
  pk : Bool
  effect : ℕ
  width : UInt8
  height : UInt8
  scroll : Bool
  relogX : UInt8
  relogY : UInt8
  tiles : List MapTile
  chests : List LoadedChest
  npcs : List LoadedNpc
  hasTimedSpikes : Bool
  filesize : ℕ
  deriving DecidableEq

structure MapConfig where
  maxChest : Int32
  chestSlots : Int32

def LoadedSpawn.ofRecord (buf : Bytes) : LoadedSpawn where
  slot := number1 buf 4 + 1
  time := (short2 buf 7).toInt * 60
  item := short2 buf 5
  amount := number3 buf 9

/-- A spawn in its chest. -/
def LoadedChest.addSpawn (buf : Bytes) (chest : LoadedChest) : LoadedChest :=
  { chest with
    key := if 0 < short2 buf 2 then short2 buf 2 else chest.key
    spawns := chest.spawns ++ [.ofRecord buf]
    slots := max chest.slots (number1 buf 4 + 1) }

namespace LoadedMap

def chestSpec : UInt8 := 9
def spikes1 : UInt8 := 34

def inBounds (m : LoadedMap) (x y : UInt8) : Bool := !(x ≥ m.width || y ≥ m.height)

def tileIndex (m : LoadedMap) (x y : UInt8) : ℕ := y.toNat * m.width.toNat + x.toNat

def getTile (m : LoadedMap) (x y : UInt8) : Option MapTile :=
  if m.inBounds x y then m.tiles[m.tileIndex x y]? else none

def modifyTile (m : LoadedMap) (x y : UInt8) (f : MapTile → MapTile) : LoadedMap :=
  { m with tiles := m.tiles.modify (m.tileIndex x y) f }

/-! ## What is done with the records -/

def chest (config : MapConfig) (x y : UInt8) : LoadedChest :=
  ⟨x, y, config.maxChest, config.chestSlots, 0, 0, []⟩

/-- A tile spec. -/
def putSpec (config : MapConfig) (y : UInt8) (m : LoadedMap) (buf : Bytes) : LoadedMap :=
  let x := byte1 buf 0
  let spec := byte1 buf 1
  if m.inBounds x y then
    { m.modifyTile x y fun tile => { tile with tilespec := some spec } with
      chests := if spec = chestSpec then m.chests ++ [chest config x y] else m.chests
      hasTimedSpikes := m.hasTimedSpikes || spec = spikes1 }
  else m

def warp (buf : Bytes) : LoadedWarp where
  map := short2 buf 1
  x := byte1 buf 3
  y := byte1 buf 4
  levelreq := byte1 buf 5
  spec := number2 buf 6

def putWarp (y : UInt8) (m : LoadedMap) (buf : Bytes) : LoadedMap :=
  let x := byte1 buf 0
  if m.inBounds x y then m.modifyTile x y fun tile => { tile with warp := warp buf } else m

/-- `NPC::NPC`. -/
def npc (id : Int16) (x y spawnType : UInt8) (spawnTime : Int16) (index : ℕ) : LoadedNpc :=
  let spawnType := if 7 < spawnType then 7 else spawnType
  { id := id
    x := x
    y := y
    spawnType := spawnType
    spawnTime := if spawnType = 7 then 0 else spawnTime
    direction := if spawnType = 7 then (spawnTime &&& 3).toUInt16.toNat else 0
    index := UInt8.ofNat index }

/-- The loop over `amount`, with `index`. -/
def addNpcs (id : Int16) (x y spawnType : UInt8) (spawnTime : Int16) :
    ℕ → ℕ × LoadedMap → ℕ × LoadedMap
  | 0, s => s
  | amount + 1, (index, m) =>
      addNpcs id x y spawnType spawnTime amount
        (if m.inBounds x y then
          (index + 1, { m with npcs := m.npcs ++ [npc id x y spawnType spawnTime index] })
        else (index, m))

def putNpcs (s : ℕ × LoadedMap) (buf : Bytes) : ℕ × LoadedMap :=
  addNpcs (short2 buf 2) (byte1 buf 0) (byte1 buf 1) (byte1 buf 4) (short2 buf 5)
    (byte1 buf 7).toNat s

def putChest (m : LoadedMap) (buf : Bytes) : LoadedMap :=
  if number3 buf 9 = 0 then m
  else
    { m with
      chests := FirstMatch.alterFirst (fun chest => chest.x = byte1 buf 0 ∧ chest.y = byte1 buf 1)
        (fun chest => some (chest.addSpawn buf)) m.chests }

/-! ## The file -/

/-- Records with their number in front of them, which are not looked at. -/
def skipRecords (size : ℕ) : Reader UInt8 Unit := do
  let buf ← read 1
  seekCur (size * number1 buf 0)

/-- Records with their number in front of them. -/
def readRecords {σ : Type} (size : ℕ) (put : σ → Bytes → σ) (s : σ) : Reader UInt8 σ := do
  let buf ← read 1
  loop (fun s => do
    let buf ← read size
    return put s buf) (number1 buf 0) s

/-- Rows with their number in front of them: where a row is, and its records. -/
def readRows (size : ℕ) (put : UInt8 → LoadedMap → Bytes → LoadedMap) (m : LoadedMap) :
    Reader UInt8 LoadedMap := do
  let buf ← read 1
  loop (fun m => do
    let row ← read 2
    loop (fun m => do
      let buf ← read size
      return put (byte1 row 0) m buf) (number1 row 1) m) (number1 buf 0) m

/-- The map before its tiles are looked at. -/
def blankMap (rid pkEffect size relog : Bytes) (filesize : ℕ) : LoadedMap where
  rid := rid
  pk := number1 pkEffect 0 = 3
  effect := number1 pkEffect 1
  width := UInt8.ofNat (number1 size 0 + 1)
  height := UInt8.ofNat (number1 size 1 + 1)
  scroll := number1 relog 0 ≠ 0
  relogX := byte1 relog 1
  relogY := byte1 relog 2
  tiles := List.replicate
    ((UInt8.ofNat (number1 size 1 + 1)).toNat * (UInt8.ofNat (number1 size 0 + 1)).toNat)
    MapTile.plain
  chests := []
  npcs := []
  hasTimedSpikes := false
  filesize := filesize

def readHeader (filesize : ℕ) : Reader UInt8 LoadedMap := do
  seekSet 0x03
  let rid ← read 4
  seekSet 0x1F
  let pkEffect ← read 2
  seekSet 0x25
  let size ← read 2
  seekSet 0x2A
  let relog ← read 3
  return blankMap rid pkEffect size relog filesize

/-- `Map::Load`. -/
def load (config : MapConfig) (filesize : ℕ) : Reader UInt8 LoadedMap := do
  let m ← readHeader filesize
  seekSet 0x2E
  skipRecords 8
  skipRecords 4
  skipRecords 12
  let m ← readRows 2 (putSpec config) m
  let m ← readRows 8 putWarp m
  seekSet 0x2E
  let (_, m) ← readRecords 8 putNpcs (0, m)
  skipRecords 4
  readRecords 12 putChest m

def ofContents (config : MapConfig) (contents : Bytes) : Option LoadedMap :=
  (load config contents.length ⟨contents, 0⟩).map Prod.fst

/-! ## What every file that is read gives -/

end LoadedMap

/-- Each spawn has one of the slots of the chest, which has none but for them. -/
def LoadedChest.SpawnsFit (chest : LoadedChest) : Prop :=
  (∀ spawn ∈ chest.spawns, 0 < spawn.slot ∧ spawn.amount ≠ 0) ∧
    chest.slots = (chest.spawns.map LoadedSpawn.slot).foldr max 0

namespace LoadedMap

structure WellFormed (m : LoadedMap) : Prop where
  size_pos : 0 < m.width ∧ 0 < m.height
  tiles : m.tiles.length = m.height.toNat * m.width.toNat
  chests : ∀ chest ∈ m.chests, m.inBounds chest.x chest.y = true ∧ chest.SpawnsFit
  /-- What looks like a chest is one. -/
  chestTiles : ∀ x y tile, m.getTile x y = some tile → tile.tilespec = some chestSpec →
    ∃ chest ∈ m.chests, chest.x = x ∧ chest.y = y
  spikeTiles : ∀ x y tile, m.getTile x y = some tile → tile.tilespec = some spikes1 →
    m.hasTimedSpikes = true
  npcs : ∀ i npc, m.npcs[i]? = some npc → npc.index = UInt8.ofNat i ∧
    m.inBounds npc.x npc.y = true ∧ npc.spawnType ≤ 7

variable {m : LoadedMap} {config : MapConfig} {x y x' y' : UInt8}

theorem inBounds_iff : m.inBounds x y = true ↔ x < m.width ∧ y < m.height := by
  rw [inBounds, Bool.not_eq_true', Bool.or_eq_false_iff, decide_eq_false_iff_not,
    decide_eq_false_iff_not, ge_iff_le, ge_iff_le, UInt8.not_le, UInt8.not_le]

theorem tileIndex_lt (h : m.inBounds x y = true) :
    m.tileIndex x y < m.height.toNat * m.width.toNat := by
  obtain ⟨hx, hy⟩ := inBounds_iff.mp h
  rw [UInt8.lt_iff_toNat_lt] at hx hy
  have hrow := Nat.mul_le_mul_right m.width.toNat (Nat.succ_le_of_lt hy)
  rw [Nat.succ_mul] at hrow
  exact lt_of_lt_of_le (Nat.add_lt_add_left hx _) hrow

/-- A tile has its own place. -/
theorem tileIndex_inj (h : m.inBounds x y = true) (h' : m.inBounds x' y' = true)
    (heq : m.tileIndex x y = m.tileIndex x' y') : x = x' ∧ y = y' := by
  have hx := (inBounds_iff.mp h).1
  have hx' := (inBounds_iff.mp h').1
  rw [UInt8.lt_iff_toNat_lt] at hx hx'
  have hpos : 0 < m.width.toNat := Nat.zero_lt_of_lt hx
  have hmod := congrArg (· % m.width.toNat) heq
  have hdiv := congrArg (· / m.width.toNat) heq
  simp only [tileIndex, Nat.mul_add_mod_self_right, Nat.mod_eq_of_lt hx, Nat.mod_eq_of_lt hx'] at hmod
  simp only [tileIndex, Nat.mul_comm _ m.width.toNat, Nat.mul_add_div hpos, Nat.div_eq_of_lt hx,
    Nat.div_eq_of_lt hx', Nat.add_zero] at hdiv
  exact ⟨UInt8.toNat_inj.mp hmod, UInt8.toNat_inj.mp hdiv⟩

theorem getTile_modifyTile (f : MapTile → MapTile) (h' : m.inBounds x' y' = true) :
    (m.modifyTile x' y' f).getTile x y =
      if x = x' ∧ y = y' then (m.getTile x y).map f else m.getTile x y := by
  have hbounds : (m.modifyTile x' y' f).inBounds x y = m.inBounds x y := rfl
  have hindex : (m.modifyTile x' y' f).tileIndex x y = m.tileIndex x y := rfl
  rw [getTile, getTile, hbounds, hindex, modifyTile]
  by_cases h : m.inBounds x y = true
  · rw [if_pos h, if_pos h, List.getElem?_modify]
    by_cases heq : x = x' ∧ y = y'
    · rw [if_pos heq, heq.1, heq.2]
      simp only [if_true, Option.map_eq_map]
    · have hne : m.tileIndex x' y' ≠ m.tileIndex x y := fun hindex => by
        obtain ⟨hx, hy⟩ := tileIndex_inj h' h hindex
        exact heq ⟨hx.symm, hy.symm⟩
      rw [if_neg heq]
      simp only [hne, if_false, Option.map_eq_map, Option.map_id']
  · rw [if_neg h, if_neg h, Option.map_none, ite_self]

/-- What is in bounds depends on the size only, and the tiles on the size and on themselves. -/
theorem inBounds_congr {m m' : LoadedMap} (hwidth : m'.width = m.width)
    (hheight : m'.height = m.height) (x y : UInt8) : m'.inBounds x y = m.inBounds x y := by
  rw [inBounds, inBounds, hwidth, hheight]

theorem getTile_congr {m m' : LoadedMap} (hwidth : m'.width = m.width)
    (hheight : m'.height = m.height) (htiles : m'.tiles = m.tiles) (x y : UInt8) :
    m'.getTile x y = m.getTile x y := by
  rw [getTile, getTile, inBounds_congr hwidth hheight, tileIndex, tileIndex, hwidth, htiles]

/-- Where the tiles and the chests are left as they are, NPCs may come. -/
theorem WellFormed.congr {m m' : LoadedMap} (h : m.WellFormed) (hwidth : m'.width = m.width)
    (hheight : m'.height = m.height) (htiles : m'.tiles = m.tiles) (hchests : m'.chests = m.chests)
    (hspikes : m'.hasTimedSpikes = m.hasTimedSpikes)
    (hnpcs : ∀ i npc, m'.npcs[i]? = some npc → npc.index = UInt8.ofNat i ∧
      m.inBounds npc.x npc.y = true ∧ npc.spawnType ≤ 7) : m'.WellFormed := by
  have hin := inBounds_congr hwidth hheight
  have htile := getTile_congr hwidth hheight htiles
  constructor
  · rw [hwidth, hheight]
    exact h.size_pos
  · rw [hwidth, hheight, htiles]
    exact h.tiles
  · intro chest hchest
    rw [hin]
    exact h.chests chest (hchests ▸ hchest)
  · intro x y tile hget
    rw [htile] at hget
    rw [hchests]
    exact h.chestTiles x y tile hget
  · intro x y tile hget
    rw [htile] at hget
    rw [hspikes]
    exact h.spikeTiles x y tile hget
  · intro i npc hnpc
    rw [hin]
    exact hnpcs i npc hnpc

theorem WellFormed.putSpec (h : m.WellFormed) (config : MapConfig) (y : UInt8) (buf : Bytes) :
    (putSpec config y m buf).WellFormed := by
  by_cases hbounds : m.inBounds (byte1 buf 0) y = true
  swap
  · rw [LoadedMap.putSpec, if_neg hbounds]
    exact h
  have hget' (x y' : UInt8) : (LoadedMap.putSpec config y m buf).getTile x y' =
      if x = byte1 buf 0 ∧ y' = y then
        (m.getTile x y').map fun tile => { tile with tilespec := some (byte1 buf 1) }
      else m.getTile x y' := by
    rw [← getTile_modifyTile _ hbounds, LoadedMap.putSpec, if_pos hbounds]
    refine getTile_congr ?_ ?_ ?_ x y' <;> rfl
  have hin (x y' : UInt8) : (LoadedMap.putSpec config y m buf).inBounds x y' = m.inBounds x y' := by
    rw [LoadedMap.putSpec, if_pos hbounds]
    refine inBounds_congr ?_ ?_ x y' <;> rfl
  rw [LoadedMap.putSpec, if_pos hbounds] at hget' hin ⊢
  have hchests : ∀ chest ∈ m.chests, chest ∈ if byte1 buf 1 = chestSpec then
      m.chests ++ [LoadedMap.chest config (byte1 buf 0) y] else m.chests := by
    intro chest hchest
    split_ifs
    · exact List.mem_append_left _ hchest
    · exact hchest
  constructor
  · exact h.size_pos
  · exact (List.length_modify _ _ _).trans h.tiles
  · intro chest hchest
    rw [hin]
    dsimp only at hchest
    split_ifs at hchest
    · rcases List.mem_append.mp hchest with hchest | hchest
      · exact h.chests chest hchest
      · rw [List.mem_singleton.mp hchest]
        exact ⟨hbounds, nofun, rfl⟩
    · exact h.chests chest hchest
  · intro x y' tile hget hspec
    rw [hget'] at hget
    split_ifs at hget with hplace
    · obtain ⟨old, -, rfl⟩ := Option.map_eq_some_iff.mp hget
      dsimp only
      rw [if_pos (Option.some.inj hspec)]
      exact ⟨_, List.mem_append_right _ (List.mem_singleton_self _), hplace.1.symm, hplace.2.symm⟩
    · obtain ⟨chest, hchest, hxy⟩ := h.chestTiles x y' tile hget hspec
      exact ⟨chest, hchests chest hchest, hxy⟩
  · intro x y' tile hget hspec
    rw [hget'] at hget
    dsimp only
    split_ifs at hget with hplace
    · obtain ⟨old, -, rfl⟩ := Option.map_eq_some_iff.mp hget
      rw [decide_eq_true (Option.some.inj hspec), Bool.or_true]
    · rw [h.spikeTiles x y' tile hget hspec, Bool.true_or]
  · intro i npc hnpc
    rw [hin]
    exact h.npcs i npc hnpc

theorem WellFormed.putWarp (h : m.WellFormed) (y : UInt8) (buf : Bytes) :
    (putWarp y m buf).WellFormed := by
  by_cases hbounds : m.inBounds (byte1 buf 0) y = true
  swap
  · rw [LoadedMap.putWarp, if_neg hbounds]
    exact h
  rw [LoadedMap.putWarp, if_pos hbounds]
  have hspec (x y' : UInt8) (tile : MapTile)
      (hget : (m.modifyTile (byte1 buf 0) y fun tile => { tile with warp := warp buf }).getTile x y'
        = some tile) : ∃ old, m.getTile x y' = some old ∧ old.tilespec = tile.tilespec := by
    rw [getTile_modifyTile _ hbounds] at hget
    split_ifs at hget
    · obtain ⟨old, hold, rfl⟩ := Option.map_eq_some_iff.mp hget
      exact ⟨old, hold, rfl⟩
    · exact ⟨tile, hget, rfl⟩
  constructor
  · exact h.size_pos
  · exact (List.length_modify _ _ _).trans h.tiles
  · exact h.chests
  · intro x y' tile hget hchest
    obtain ⟨old, hold, heq⟩ := hspec x y' tile hget
    exact h.chestTiles x y' old hold (heq.trans hchest)
  · intro x y' tile hget hspikes
    obtain ⟨old, hold, heq⟩ := hspec x y' tile hget
    exact h.spikeTiles x y' old hold (heq.trans hspikes)
  · exact h.npcs

theorem npcs_putSpec (config : MapConfig) (y : UInt8) (m : LoadedMap) (buf : Bytes) :
    (putSpec config y m buf).npcs = m.npcs := by
  unfold putSpec
  dsimp only
  split_ifs <;> rfl

theorem npcs_putWarp (y : UInt8) (m : LoadedMap) (buf : Bytes) :
    (putWarp y m buf).npcs = m.npcs := by
  unfold putWarp
  dsimp only
  split_ifs <;> rfl

theorem spawnType_npc (id : Int16) (x y spawnType : UInt8) (spawnTime : Int16) (index : ℕ) :
    (npc id x y spawnType spawnTime index).spawnType ≤ 7 := by
  unfold npc
  dsimp only
  split_ifs with htype
  · exact UInt8.le_refl 7
  · exact UInt8.not_lt.mp htype

theorem WellFormed.push (h : m.WellFormed) (id : Int16) (spawnType : UInt8) (spawnTime : Int16)
    (hbounds : m.inBounds x y = true) :
    WellFormed { m with
      npcs := m.npcs ++ [npc id x y spawnType spawnTime m.npcs.length] } := by
  refine h.congr rfl rfl rfl rfl rfl fun i new hnew => ?_
  dsimp only at hnew
  rw [List.getElem?_append] at hnew
  split_ifs at hnew with hi
  · exact h.npcs i new hnew
  · rw [List.getElem?_singleton] at hnew
    split_ifs at hnew with hlast
    cases hnew
    have hi : m.npcs.length = i := by omega
    rw [hi]
    exact ⟨rfl, hbounds, spawnType_npc ..⟩

/-- The index is the number of the NPCs so far. -/
theorem WellFormed.addNpcs (id : Int16) (spawnType : UInt8) (spawnTime : Int16) (amount : ℕ)
    {s : ℕ × LoadedMap} (h : s.2.WellFormed) (hindex : s.1 = s.2.npcs.length) :
    (addNpcs id x y spawnType spawnTime amount s).2.WellFormed ∧
      (addNpcs id x y spawnType spawnTime amount s).1 =
        (addNpcs id x y spawnType spawnTime amount s).2.npcs.length := by
  induction amount generalizing s with
  | zero => exact ⟨h, hindex⟩
  | succ amount ih =>
      obtain ⟨index, m⟩ := s
      rw [LoadedMap.addNpcs]
      split_ifs with hbounds
      · dsimp only at hindex
        rw [hindex]
        refine ih (h.push id spawnType spawnTime hbounds) ?_
        dsimp only
        rw [List.length_append, List.length_singleton]
      · exact ih h hindex

theorem spawnsFit_addSpawn {chest : LoadedChest} (h : chest.SpawnsFit) {buf : Bytes}
    (hamount : number3 buf 9 ≠ 0) : (chest.addSpawn buf).SpawnsFit := by
  have hmax (slots : List ℕ) (slot : ℕ) :
      (slots ++ [slot]).foldr max 0 = max (slots.foldr max 0) slot := by
    induction slots with
    | nil => exact Nat.max_comm slot 0
    | cons first slots ih =>
        rw [List.cons_append, List.foldr_cons, ih, List.foldr_cons, Nat.max_assoc]
  constructor
  · intro spawn hspawn
    rcases List.mem_append.mp hspawn with hspawn | hspawn
    · exact h.1 spawn hspawn
    · rw [List.mem_singleton.mp hspawn]
      exact ⟨Nat.succ_pos _, hamount⟩
  · rw [LoadedChest.addSpawn, List.map_append, List.map_singleton, hmax, ← h.2]
    rfl

theorem WellFormed.putChest (h : m.WellFormed) (buf : Bytes) : (putChest m buf).WellFormed := by
  rw [LoadedMap.putChest]
  split_ifs with hamount
  · exact h
  have hin (x y : UInt8) : LoadedMap.inBounds { m with
      chests := FirstMatch.alterFirst (fun chest => chest.x = byte1 buf 0 ∧ chest.y = byte1 buf 1)
        (fun chest => some (chest.addSpawn buf)) m.chests } x y = m.inBounds x y := rfl
  constructor
  · exact h.size_pos
  · exact h.tiles
  · intro chest hchest
    rw [hin]
    rcases FirstMatch.mem_of_mem_alterFirst hchest with hold | ⟨old, hfind, hnew⟩
    · exact h.chests chest hold
    · cases hnew
      have hold := h.chests old (List.mem_of_find?_eq_some hfind)
      exact ⟨hold.1, spawnsFit_addSpawn hold.2 hamount⟩
  · intro x y tile hget hspec
    have hchest := h.chestTiles x y tile hget hspec
    let isAt (chest : LoadedChest) : Bool := chest.x = x ∧ chest.y = y
    have hcount := FirstMatch.countP_alterFirst (g := LoadedChest.addSpawn buf)
      (p := fun chest : LoadedChest => chest.x = byte1 buf 0 ∧ chest.y = byte1 buf 1)
      (q := isAt) (fun chest => rfl) m.chests
    obtain ⟨old, hold, hxy⟩ := hchest
    have hpos : 0 < m.chests.countP isAt :=
      List.countP_pos_iff.mpr ⟨old, hold, decide_eq_true hxy⟩
    rw [← hcount] at hpos
    obtain ⟨chest, hchest, hxy⟩ := List.countP_pos_iff.mp hpos
    exact ⟨chest, hchest, of_decide_eq_true hxy⟩
  · exact h.spikeTiles
  · exact h.npcs

theorem number1_eq (buf : Bytes) (i : ℕ) : number1 buf i = digit (byteAt buf i) := by
  rw [number1, number]
  have h : digit 254 = 0 := rfl
  rw [h]
  omega

theorem wellFormed_blankMap (rid pkEffect size relog : Bytes) (filesize : ℕ) :
    (blankMap rid pkEffect size relog filesize).WellFormed := by
  have hpos (i : ℕ) : 0 < UInt8.ofNat (number1 size i + 1) := by
    have hle := digit_le (byteAt size i)
    rw [UInt8.lt_iff_toNat_lt, UInt8.toNat_ofNat', number1_eq, Nat.mod_eq_of_lt (by omega)]
    exact Nat.succ_pos _
  have hplain (x y : UInt8) (tile : MapTile)
      (h : (blankMap rid pkEffect size relog filesize).getTile x y = some tile) :
      tile.tilespec = none := by
    rw [getTile] at h
    split_ifs at h
    rw [List.eq_of_mem_replicate (List.mem_of_getElem? h)]
    rfl
  constructor
  · exact ⟨hpos 0, hpos 1⟩
  · exact List.length_replicate
  · exact nofun
  · intro x y tile hget hspec
    cases (hplain x y tile hget).symm.trans hspec
  · intro x y tile hget hspec
    cases (hplain x y tile hget).symm.trans hspec
  · exact nofun

theorem gives_readRecords {σ : Type} {P : σ → Prop} {put : σ → Bytes → σ}
    (h : ∀ s buf, P s → P (put s buf)) (size : ℕ) {s : σ} (hs : P s) :
    Gives (readRecords size put s) P :=
  (gives_true _).bind fun _ _ => gives_loop
    (fun s hs => (gives_true _).bind fun buf _ => gives_pure (h s buf hs)) _ hs

theorem gives_readRows {P : LoadedMap → Prop} {put : UInt8 → LoadedMap → Bytes → LoadedMap}
    (h : ∀ y m buf, P m → P (put y m buf)) (size : ℕ) (hm : P m) :
    Gives (readRows size put m) P :=
  (gives_true _).bind fun _ _ => gives_loop
    (fun _ hm => (gives_true _).bind fun _ _ => gives_loop
      (fun m hm => (gives_true _).bind fun buf _ => gives_pure (h _ m buf hm)) _ hm) _ hm

/-- Whatever is in a file, the map that is read from it is well formed. -/
theorem wellFormed_ofContents (config : MapConfig) {contents : Bytes}
    (h : ofContents config contents = some m) : m.WellFormed := by
  obtain ⟨⟨m, f⟩, hload, rfl⟩ := Option.map_eq_some_iff.mp h
  have hheader : Gives (readHeader contents.length) fun m => m.WellFormed ∧ m.npcs = [] := by
    refine (gives_true _).bind fun _ _ => (gives_true _).bind fun rid _ => ?_
    refine (gives_true _).bind fun _ _ => (gives_true _).bind fun pkEffect _ => ?_
    refine (gives_true _).bind fun _ _ => (gives_true _).bind fun size _ => ?_
    refine (gives_true _).bind fun _ _ => (gives_true _).bind fun relog _ => ?_
    exact gives_pure ⟨wellFormed_blankMap rid pkEffect size relog contents.length, rfl⟩
  have hmap : Gives (load config contents.length) WellFormed := by
    refine hheader.bind fun m hm => (gives_true _).bind fun _ _ => ?_
    refine (gives_true _).bind fun _ _ => (gives_true _).bind fun _ _ => ?_
    refine (gives_true _).bind fun _ _ => ?_
    refine (gives_readRows (P := fun m => m.WellFormed ∧ m.npcs = [])
      (fun y m buf hm => ⟨hm.1.putSpec config y buf, (npcs_putSpec ..).trans hm.2⟩) 2
      hm).bind fun m hm => ?_
    refine (gives_readRows (P := fun m => m.WellFormed ∧ m.npcs = [])
      (fun y m buf hm => ⟨hm.1.putWarp y buf, (npcs_putWarp ..).trans hm.2⟩) 8
      hm).bind fun m hm => ?_
    refine (gives_true _).bind fun _ _ => ?_
    refine (gives_readRecords (P := fun s : ℕ × LoadedMap => s.2.WellFormed ∧ s.1 = s.2.npcs.length)
      (fun s buf hs => hs.1.addNpcs _ _ _ _ hs.2) 8 ⟨hm.1, by rw [hm.2]; rfl⟩).bind fun s hs => ?_
    refine (gives_true _).bind fun _ _ => ?_
    exact gives_readRecords (fun m buf hm => hm.putChest buf) 12 hs.1
  exact hmap _ _ hload

/-- A map of two tiles, with a chest on the first and two NPCs on the second. -/
def smallFile : Bytes :=
  List.replicate 37 1 ++ [2, 1] ++ List.replicate 7 1 ++ [2, 2, 1, 3, 1, 8, 3, 1, 3] ++ [1] ++
    [2, 1, 1, 5, 1, 3, 6, 1, 2, 1, 8, 1, 1] ++ [2, 1, 2, 1, 10] ++ [1]

def smallMap : LoadedMap where
  rid := [1, 1, 1, 1]
  pk := false
  effect := 0
  width := 2
  height := 1
  scroll := false
  relogX := 0
  relogY := 0
  tiles := [⟨some 9, MapTile.plain.warp⟩, MapTile.plain]
  chests := [⟨0, 0, 10, 5, 3, 4, [⟨3, 60, 5, 7⟩]⟩]
  npcs := [⟨2, 1, 0, 7, 0, 2, 0⟩, ⟨2, 1, 0, 7, 0, 2, 1⟩]
  hasTimedSpikes := false
  filesize := 75

theorem wellFormed_smallMap : smallMap.WellFormed :=
  @wellFormed_ofContents smallMap ⟨10, 5⟩ smallFile (by decide +kernel)

end LoadedMap

/-! ## A map in its file -/

/-- Records behind their number. -/
structure EmfRecords (size : ℕ) where
  count : UInt8
  records : List Bytes
  digit_count : digit count = records.length
  length_records : ∀ buf ∈ records, buf.length = size

/-- Records behind where they are and their number. -/
structure EmfRow (size : ℕ) extends EmfRecords size where
  y : UInt8

structure EmfRows (size : ℕ) where
  count : UInt8
  rows : List (EmfRow size)
  digit_count : digit count = rows.length

/-- A file: a header of 46 bytes, and the parts that are read. -/
structure EmfFile where
  header : Bytes
  npcs : EmfRecords 8
  unknown : EmfRecords 4
  chests : EmfRecords 12
  specs : EmfRows 2
  warps : EmfRows 8
  rest : Bytes
  length_header : header.length = 46

def EmfRecords.encode {size : ℕ} (r : EmfRecords size) : Bytes := [r.count] ++ r.records.flatten

def EmfRow.encode {size : ℕ} (r : EmfRow size) : Bytes := [r.y, r.count] ++ r.records.flatten

def EmfRows.encode {size : ℕ} (r : EmfRows size) : Bytes :=
  [r.count] ++ r.rows.flatMap EmfRow.encode

/-- The records of the rows, each with where its row is. -/
def EmfRows.entries {size : ℕ} (r : EmfRows size) : List (UInt8 × Bytes) :=
  r.rows.flatMap fun row => row.records.map fun buf => (UInt8.ofNat (digit row.y), buf)

namespace EmfFile

open LoadedMap

def contents (e : EmfFile) : Bytes :=
  e.header ++ (e.npcs.encode ++ (e.unknown.encode ++ (e.chests.encode ++
    (e.specs.encode ++ (e.warps.encode ++ e.rest)))))

/-- The part of the header from `i` on. -/
def headerPart (e : EmfFile) (i n : ℕ) : Bytes := (e.header.drop i).take n

def blank (e : EmfFile) : LoadedMap :=
  blankMap (e.headerPart 0x03 4) (e.headerPart 0x1F 2) (e.headerPart 0x25 2) (e.headerPart 0x2A 3)
    e.contents.length

/-- The map with what its tiles are. -/
def withTiles (e : EmfFile) (config : MapConfig) : LoadedMap :=
  e.warps.entries.foldl (fun m entry => putWarp entry.1 m entry.2)
    (e.specs.entries.foldl (fun m entry => putSpec config entry.1 m entry.2) e.blank)

def build (e : EmfFile) (config : MapConfig) : LoadedMap :=
  e.chests.records.foldl putChest (e.npcs.records.foldl putNpcs (0, e.withTiles config)).2

end EmfFile

/-! ## The file is read -/

section Reading
variable {size : ℕ}

theorem reads_records {σ : Type} (r : EmfRecords size) (put : σ → Bytes → σ) (s : σ) :
    Reads (LoadedMap.readRecords size put s) r.encode (r.records.foldl put s) := by
  have hcount : number1 [r.count] 0 = r.records.length :=
    (LoadedMap.number1_eq _ 0).trans r.digit_count
  refine (reads_read rfl).bind ?_
  rw [hcount, ← List.flatMap_id]
  exact reads_loop (fun s buf hbuf => (reads_read (r.length_records buf hbuf)).map (put s)) s

theorem reads_skipRecords (r : EmfRecords size) :
    Reads (LoadedMap.skipRecords size) r.encode () := by
  have hcount : number1 [r.count] 0 = r.records.length :=
    (LoadedMap.number1_eq _ 0).trans r.digit_count
  refine (reads_read rfl).bind (reads_seekCur ?_)
  rw [hcount, List.length_flatten, List.map_congr_left r.length_records, List.map_const',
    List.sum_replicate_nat, Nat.mul_comm]

theorem reads_rows (r : EmfRows size) (put : UInt8 → LoadedMap → Bytes → LoadedMap)
    (m : LoadedMap) : Reads (LoadedMap.readRows size put m) r.encode
      (r.entries.foldl (fun m entry => put entry.1 m entry.2) m) := by
  have hcount : number1 [r.count] 0 = r.rows.length :=
    (LoadedMap.number1_eq _ 0).trans r.digit_count
  refine (reads_read rfl).bind ?_
  rw [hcount, EmfRows.entries, List.foldl_flatMap]
  refine reads_loop (fun m row _ => ?_) m
  have hrow : number1 [row.y, row.count] 1 = row.records.length :=
    (LoadedMap.number1_eq _ 1).trans row.digit_count
  have hy : byte1 [row.y, row.count] 0 = UInt8.ofNat (digit row.y) :=
    congrArg UInt8.ofNat (LoadedMap.number1_eq _ 0)
  refine (reads_read rfl).bind ?_
  rw [hrow, hy, List.foldl_map, ← List.flatMap_id]
  exact reads_loop (fun m buf hbuf =>
    (reads_read (row.length_records buf hbuf)).map (put (UInt8.ofNat (digit row.y)) m)) m

end Reading

namespace EmfFile

open LoadedMap

variable (e : EmfFile) (config : MapConfig)

theorem read_header {i n : ℕ} (h : i + n ≤ 46) :
    read n ⟨e.contents, i⟩ = some (e.headerPart i n, ⟨e.contents, i + n⟩) := by
  have hdrop : e.contents.drop i = e.headerPart i n ++ e.contents.drop (i + n) := by
    have hle := e.length_header
    rw [contents, headerPart, List.drop_append_of_le_length (by omega),
      List.drop_append_of_le_length (by omega), ← List.drop_drop]
    exact (congrArg (· ++ _) (List.take_append_drop n (e.header.drop i)).symm).trans
      (List.append_assoc ..)
  have hlen : (e.headerPart i n).length = n := by
    rw [headerPart, List.length_take, List.length_drop, e.length_header]
    omega
  exact read_eq_some.mpr ⟨hlen, rfl, _, hdrop⟩

theorem readHeader_contents : readHeader e.contents.length ⟨e.contents, 0⟩ =
    some (e.blank, ⟨e.contents, 0x2D⟩) := by
  have hrid := e.read_header (i := 0x03) (n := 4) (by decide)
  have hpk := e.read_header (i := 0x1F) (n := 2) (by decide)
  have hsize := e.read_header (i := 0x25) (n := 2) (by decide)
  have hrelog := e.read_header (i := 0x2A) (n := 3) (by decide)
  simp only [readHeader, run_bind, seekSet, Option.bind_some, hrid, hpk, hsize, hrelog]
  rfl

theorem ofContents_contents : ofContents config e.contents = some (e.build config) := by
  have hnpcs : left ⟨e.contents, 0x2E⟩ = e.npcs.encode ++ (e.unknown.encode ++
      (e.chests.encode ++ (e.specs.encode ++ (e.warps.encode ++ e.rest)))) := by
    rw [left, contents, ← e.length_header, List.drop_left]
  have hunknown := left_advance hnpcs
  have hchests := left_advance hunknown
  have hspecs := left_advance hchests
  have hwarps := left_advance hspecs
  rw [ofContents, load, run_bind, readHeader_contents, Option.bind_some, run_bind, seekSet,
    Option.bind_some, (reads_skipRecords e.npcs).run_bind hnpcs,
    (reads_skipRecords e.unknown).run_bind hunknown,
    (reads_skipRecords e.chests).run_bind hchests,
    (reads_rows e.specs (putSpec config) _).run_bind hspecs,
    (reads_rows e.warps putWarp _).run_bind hwarps, run_bind, seekSet, Option.bind_some]
  refine (congrArg (Option.map Prod.fst) ((reads_records e.npcs putNpcs _).run_bind hnpcs)).trans ?_
  refine (congrArg (Option.map Prod.fst)
    ((reads_skipRecords e.unknown).run_bind hunknown)).trans ?_
  rw [reads_records e.chests putChest _ _ _ hchests]
  rfl

end EmfFile

/-! ## What the map is then -/

/-- The last record of a tile. -/
def EmfRows.lastAt {size : ℕ} (r : EmfRows size) (x y : UInt8) : Option Bytes :=
  (r.entries.reverse.find? fun entry => byte1 entry.2 0 = x ∧ entry.1 = y).map Prod.snd

namespace LoadedMap

/-- The chest that is found at a place. -/
def chestAt (m : LoadedMap) (x y : UInt8) : Option LoadedChest :=
  m.chests.find? fun chest => chest.x = x ∧ chest.y = y

variable {m : LoadedMap} (config : MapConfig)

theorem chestAt_congr {m m' : LoadedMap} (h : m'.chests = m.chests) (x y : UInt8) :
    m'.chestAt x y = m.chestAt x y := by
  rw [chestAt, chestAt, h]

/-- Where an entry settles what is seen of a place, the last one for the place is what counts. -/
theorem view_foldl {σ τ ε : Type} {put : σ → ε → σ} (view : σ → τ) (isAt : ε → Bool)
    (settle : ε → τ → τ)
    (hput : ∀ s e, view (put s e) = if isAt e = true then settle e (view s) else view s)
    (hsettle : ∀ e e' t, settle e (settle e' t) = settle e t) (entries : List ε) (s : σ) :
    view (entries.foldl put s) =
      ((entries.reverse.find? isAt).map fun e => settle e (view s)).getD (view s) := by
  induction entries using List.reverseRecOn with
  | nil => rfl
  | append_singleton entries entry ih =>
      rw [List.foldl_concat, hput, ih, List.reverse_append, List.reverse_singleton,
        List.singleton_append, List.find?_cons]
      cases hentry : isAt entry with
      | false => rfl
      | true =>
          rw [if_pos rfl]
          cases entries.reverse.find? isAt with
          | none => rfl
          | some last => exact hsettle entry last (view s)

/-- Tile specs change the tiles, the chests and the spikes only, and warps the tiles only. -/
theorem putSpec_eq (entries : List (UInt8 × Bytes)) (m : LoadedMap) :
    ∃ tiles chests spikes,
      entries.foldl (fun m entry => putSpec config entry.1 m entry.2) m =
        { m with tiles := tiles, chests := chests, hasTimedSpikes := spikes } := by
  induction entries generalizing m with
  | nil => exact ⟨m.tiles, m.chests, m.hasTimedSpikes, rfl⟩
  | cons entry entries ih =>
      obtain ⟨tiles, chests, spikes, h⟩ := ih (putSpec config entry.1 m entry.2)
      refine ⟨tiles, chests, spikes, (List.foldl_cons ..).trans (h.trans ?_)⟩
      unfold putSpec
      dsimp only
      split_ifs <;> rfl

theorem putWarp_eq (entries : List (UInt8 × Bytes)) (m : LoadedMap) :
    ∃ tiles, entries.foldl (fun m entry => putWarp entry.1 m entry.2) m =
      { m with tiles := tiles } := by
  induction entries generalizing m with
  | nil => exact ⟨m.tiles, rfl⟩
  | cons entry entries ih =>
      obtain ⟨tiles, h⟩ := ih (putWarp entry.1 m entry.2)
      refine ⟨tiles, (List.foldl_cons ..).trans (h.trans ?_)⟩
      unfold putWarp
      dsimp only
      split_ifs <;> rfl

theorem inBounds_specs (entries : List (UInt8 × Bytes)) (m : LoadedMap) (x y : UInt8) :
    (entries.foldl (fun m entry => putSpec config entry.1 m entry.2) m).inBounds x y =
      m.inBounds x y := by
  obtain ⟨tiles, chests, spikes, h⟩ := putSpec_eq config entries m
  rw [h]
  refine inBounds_congr ?_ ?_ x y <;> rfl

theorem getTile_of_not {x y : UInt8} (h : ¬ m.inBounds x y = true) : m.getTile x y = none :=
  if_neg h

theorem getTile_putSpec (x y y' : UInt8) (buf : Bytes) :
    (putSpec config y' m buf).getTile x y =
      if byte1 buf 0 = x ∧ y' = y then
        (m.getTile x y).map fun tile => { tile with tilespec := some (byte1 buf 1) }
      else m.getTile x y := by
  by_cases hbounds : m.inBounds (byte1 buf 0) y' = true
  · have heq : (byte1 buf 0 = x ∧ y' = y) = (x = byte1 buf 0 ∧ y = y') :=
      propext (and_congr eq_comm eq_comm)
    simp only [heq]
    rw [← getTile_modifyTile _ hbounds, putSpec, if_pos hbounds]
    refine getTile_congr ?_ ?_ ?_ x y <;> rfl
  · rw [putSpec, if_neg hbounds]
    split_ifs with hplace
    · rw [getTile_of_not (hplace.1 ▸ hplace.2 ▸ hbounds)]
      rfl
    · rfl

theorem getTile_putWarp (x y y' : UInt8) (buf : Bytes) :
    (putWarp y' m buf).getTile x y =
      if byte1 buf 0 = x ∧ y' = y then
        (m.getTile x y).map fun tile => { tile with warp := warp buf }
      else m.getTile x y := by
  by_cases hbounds : m.inBounds (byte1 buf 0) y' = true
  · have heq : (byte1 buf 0 = x ∧ y' = y) = (x = byte1 buf 0 ∧ y = y') :=
      propext (and_congr eq_comm eq_comm)
    simp only [heq]
    rw [← getTile_modifyTile _ hbounds, putWarp, if_pos hbounds]
  · rw [putWarp, if_neg hbounds]
    split_ifs with hplace
    · rw [getTile_of_not (hplace.1 ▸ hplace.2 ▸ hbounds)]
      rfl
    · rfl

theorem getTile_specs {size : ℕ} (r : EmfRows size) (m : LoadedMap) (x y : UInt8) :
    (r.entries.foldl (fun m entry => putSpec config entry.1 m entry.2) m).getTile x y =
      (m.getTile x y).map fun tile =>
        { tile with tilespec := ((r.lastAt x y).map (byte1 · 1)).or tile.tilespec } := by
  refine (view_foldl (getTile · x y) (fun entry => byte1 entry.2 0 = x ∧ entry.1 = y)
    (fun entry => Option.map fun tile => { tile with tilespec := some (byte1 entry.2 1) })
    (fun m entry => ?_) (fun e e' t => by cases t <;> rfl) r.entries m).trans ?_
  · simp only [getTile_putSpec, decide_eq_true_eq]
  · rw [EmfRows.lastAt]
    cases r.entries.reverse.find? fun entry => byte1 entry.2 0 = x ∧ entry.1 = y with
    | none => exact (Option.map_id' (x := m.getTile x y)).symm
    | some entry => rfl

theorem getTile_warps {size : ℕ} (r : EmfRows size) (m : LoadedMap) (x y : UInt8) :
    (r.entries.foldl (fun m entry => putWarp entry.1 m entry.2) m).getTile x y =
      (m.getTile x y).map fun tile =>
        { tile with warp := ((r.lastAt x y).map warp).getD tile.warp } := by
  refine (view_foldl (getTile · x y) (fun entry => byte1 entry.2 0 = x ∧ entry.1 = y)
    (fun entry => Option.map fun tile => { tile with warp := warp entry.2 })
    (fun m entry => ?_) (fun e e' t => by cases t <;> rfl) r.entries m).trans ?_
  · simp only [getTile_putWarp, decide_eq_true_eq]
  · rw [EmfRows.lastAt]
    cases r.entries.reverse.find? fun entry => byte1 entry.2 0 = x ∧ entry.1 = y with
    | none => exact (Option.map_id' (x := m.getTile x y)).symm
    | some entry => rfl

theorem spikes_specs (entries : List (UInt8 × Bytes)) (m : LoadedMap) :
    (entries.foldl (fun m entry => putSpec config entry.1 m entry.2) m).hasTimedSpikes = true ↔
      m.hasTimedSpikes = true ∨ ∃ entry ∈ entries,
        m.inBounds (byte1 entry.2 0) entry.1 = true ∧ byte1 entry.2 1 = spikes1 := by
  induction entries using List.reverseRecOn with
  | nil =>
      rw [List.foldl_nil]
      exact ⟨Or.inl, fun h => h.elim id fun ⟨_, hentry, _⟩ => absurd hentry List.not_mem_nil⟩
  | append_singleton entries entry ih =>
      have hstep (m : LoadedMap) : (putSpec config entry.1 m entry.2).hasTimedSpikes = true ↔
          m.hasTimedSpikes = true ∨
            m.inBounds (byte1 entry.2 0) entry.1 = true ∧ byte1 entry.2 1 = spikes1 := by
        by_cases hbounds : m.inBounds (byte1 entry.2 0) entry.1 = true
        · rw [putSpec, if_pos hbounds, and_iff_right hbounds]
          dsimp only
          rw [Bool.or_eq_true, decide_eq_true_eq]
        · rw [putSpec, if_neg hbounds]
          exact (or_iff_left fun h => hbounds h.1).symm
      rw [List.foldl_concat, hstep, ih, inBounds_specs, or_assoc]
      simp only [List.mem_append, List.mem_singleton, or_and_right, exists_or, exists_eq_left]

/-! ### Chests -/

theorem chestAt_putSpec (y' : UInt8) (m : LoadedMap) (buf : Bytes) (x y : UInt8) :
    (putSpec config y' m buf).chestAt x y = (m.chestAt x y).or
      (if m.inBounds x y = true ∧ byte1 buf 0 = x ∧ y' = y ∧ byte1 buf 1 = chestSpec then
        some (chest config x y) else none) := by
  by_cases hplace : byte1 buf 0 = x ∧ y' = y
  · obtain ⟨rfl, rfl⟩ := hplace
    unfold putSpec chestAt
    dsimp only
    split_ifs with hbounds hspec hall hall hall
    · rw [List.find?_append, List.find?_singleton, if_pos (decide_eq_true ⟨rfl, rfl⟩)]
    · exact absurd ⟨hbounds, rfl, rfl, hspec⟩ hall
    · exact absurd hall.2.2.2 hspec
    · exact Option.or_none.symm
    · exact absurd hall.1 hbounds
    · exact Option.or_none.symm
  · rw [if_neg fun h => hplace ⟨h.2.1, h.2.2.1⟩, Option.or_none]
    unfold putSpec chestAt
    dsimp only
    split_ifs with hbounds hspec
    · have hnot : ¬ decide ((chest config (byte1 buf 0) y').x = x ∧
          (chest config (byte1 buf 0) y').y = y) = true := fun h => hplace (of_decide_eq_true h)
      rw [List.find?_append, List.find?_singleton, if_neg hnot, Option.or_none]
    · rfl
    · rfl

theorem some_or_some {α : Type} (p q : Prop) [Decidable p] [Decidable q] (a : α) :
    (if p then some a else none).or (if q then some a else none) =
      if p ∨ q then some a else none := by
  by_cases hp : p
  · rw [if_pos hp, if_pos (Or.inl hp), Option.some_or]
  · rw [if_neg hp, Option.none_or]
    exact if_congr (or_iff_right hp).symm rfl rfl

theorem chestAt_specs {size : ℕ} (r : EmfRows size) (m : LoadedMap) (x y : UInt8) :
    (r.entries.foldl (fun m entry => putSpec config entry.1 m entry.2) m).chestAt x y =
      (m.chestAt x y).or
        (if m.inBounds x y = true ∧
            ∃ entry ∈ r.entries, byte1 entry.2 0 = x ∧ entry.1 = y ∧ byte1 entry.2 1 = chestSpec then
          some (chest config x y) else none) := by
  generalize r.entries = entries
  induction entries using List.reverseRecOn with
  | nil =>
      rw [if_neg fun h => (h.2.elim fun entry h => List.not_mem_nil h.1), Option.or_none]
      rfl
  | append_singleton entries entry ih =>
      rw [List.foldl_concat, chestAt_putSpec, ih, inBounds_specs, Option.or_assoc]
      refine congrArg (m.chestAt x y).or ?_
      rw [some_or_some]
      refine if_congr (and_or_left.symm.trans (and_congr_right fun _ => ?_)) rfl rfl
      simp only [List.mem_append, List.mem_singleton, or_and_right, exists_or, exists_eq_left]

theorem chestAt_putChest (m : LoadedMap) (buf : Bytes) (x y : UInt8) :
    (putChest m buf).chestAt x y =
      if number3 buf 9 ≠ 0 ∧ byte1 buf 0 = x ∧ byte1 buf 1 = y then
        (m.chestAt x y).map (LoadedChest.addSpawn buf)
      else m.chestAt x y := by
  rw [putChest]
  split_ifs with hamount hall hall
  · exact absurd hamount hall.1
  · rfl
  · obtain ⟨-, rfl, rfl⟩ := hall
    unfold chestAt
    dsimp only
    cases hfind : m.chests.find? fun chest => chest.x = byte1 buf 0 ∧ chest.y = byte1 buf 1 with
    | some old =>
        have hold := List.find?_some hfind
        exact FirstMatch.find?_alterFirst (g := LoadedChest.addSpawn buf) hfind hold
    | none =>
        refine List.find?_eq_none.mpr fun chest hchest => ?_
        rcases FirstMatch.mem_of_mem_alterFirst hchest with hold | ⟨old, hold, -⟩
        · exact List.find?_eq_none.mp hfind chest hold
        · cases hfind.symm.trans hold
  · refine FirstMatch.find?_alterFirst_of_not (fun chest hchest => ?_) m.chests
    have hxy := of_decide_eq_true hchest
    have hnot : ¬ (chest.x = x ∧ chest.y = y) := fun h =>
      hall ⟨hamount, hxy.1.symm.trans h.1, hxy.2.symm.trans h.2⟩
    exact ⟨decide_eq_false hnot, decide_eq_false hnot⟩

theorem chestAt_chests (bufs : List Bytes) (m : LoadedMap) (x y : UInt8) :
    (bufs.foldl putChest m).chestAt x y = (m.chestAt x y).map fun chest =>
      (bufs.filter fun buf => number3 buf 9 ≠ 0 ∧ byte1 buf 0 = x ∧ byte1 buf 1 = y).foldl
        (fun chest buf => chest.addSpawn buf) chest := by
  induction bufs generalizing m with
  | nil => exact (Option.map_id' (x := m.chestAt x y)).symm
  | cons buf bufs ih =>
      rw [List.foldl_cons, ih, chestAt_putChest, List.filter_cons]
      by_cases hall : number3 buf 9 ≠ 0 ∧ byte1 buf 0 = x ∧ byte1 buf 1 = y
      · rw [if_pos hall, if_pos (decide_eq_true hall), Option.map_map]
        rfl
      · rw [if_neg hall, if_neg fun h => hall (of_decide_eq_true h)]

/-! ### NPCs -/

/-- What becomes of an NPC record that comes to the index. -/
def spawnNpc (index : ℕ) (buf : Bytes) : LoadedNpc :=
  npc (short2 buf 2) (byte1 buf 0) (byte1 buf 1) (byte1 buf 4) (short2 buf 5) index

/-- What an NPC record changes are the NPCs only. -/
theorem addNpcs_eq (id : Int16) (x y spawnType : UInt8) (spawnTime : Int16) (amount : ℕ)
    (s : ℕ × LoadedMap) : ∃ npcs,
      (addNpcs id x y spawnType spawnTime amount s).2 = { s.2 with npcs := npcs } := by
  induction amount generalizing s with
  | zero => exact ⟨s.2.npcs, rfl⟩
  | succ amount ih =>
      rw [addNpcs]
      split_ifs
      · exact ih _
      · exact ih _

theorem addNpcs_of_not {id : Int16} {x y spawnType : UInt8} {spawnTime : Int16} (amount : ℕ)
    {s : ℕ × LoadedMap} (h : ¬ s.2.inBounds x y = true) :
    addNpcs id x y spawnType spawnTime amount s = s := by
  induction amount with
  | zero => rfl
  | succ amount ih => rw [addNpcs, if_neg h, ih]

theorem npcs_addNpcs (buf : Bytes) (amount : ℕ) {s : ℕ × LoadedMap} {bufs : List Bytes}
    (hbounds : s.2.inBounds (byte1 buf 0) (byte1 buf 1) = true)
    (hnpcs : s.2.npcs = bufs.mapIdx spawnNpc) (hindex : s.1 = bufs.length) :
    let s' := addNpcs (short2 buf 2) (byte1 buf 0) (byte1 buf 1) (byte1 buf 4) (short2 buf 5) amount s
    s'.2.npcs = (bufs ++ List.replicate amount buf).mapIdx spawnNpc ∧
      s'.1 = (bufs ++ List.replicate amount buf).length := by
  induction amount generalizing s bufs with
  | zero =>
      rw [List.replicate_zero, List.append_nil]
      exact ⟨hnpcs, hindex⟩
  | succ amount ih =>
      rw [addNpcs, if_pos hbounds, List.replicate_succ, List.append_cons bufs]
      refine ih ((inBounds_congr ?_ ?_ _ _).trans hbounds) ?_ ?_
      · rfl
      · rfl
      · dsimp only
        rw [hnpcs, hindex, List.mapIdx_concat]
        rfl
      · dsimp only
        rw [hindex, List.length_append, List.length_singleton]

/-- The NPCs are those of the records in bounds, each as often as it says. -/
theorem npcs_putNpcs (records : List Bytes) (inside : UInt8 → UInt8 → Bool) {s : ℕ × LoadedMap}
    {bufs : List Bytes} (hinside : ∀ x y, s.2.inBounds x y = inside x y)
    (hnpcs : s.2.npcs = bufs.mapIdx spawnNpc) (hindex : s.1 = bufs.length) :
    (records.foldl putNpcs s).2.npcs = (bufs ++ records.flatMap fun buf =>
      if inside (byte1 buf 0) (byte1 buf 1) then List.replicate (byte1 buf 7).toNat buf
      else []).mapIdx spawnNpc := by
  induction records generalizing s bufs with
  | nil =>
      rw [List.flatMap_nil, List.append_nil]
      exact hnpcs
  | cons buf records ih =>
      rw [List.foldl_cons, List.flatMap_cons]
      by_cases hbounds : s.2.inBounds (byte1 buf 0) (byte1 buf 1) = true
      · rw [if_pos ((hinside _ _).symm.trans hbounds), ← List.append_assoc]
        obtain ⟨hnpcs, hindex⟩ := npcs_addNpcs buf (byte1 buf 7).toNat hbounds hnpcs hindex
        refine ih (fun x y => ?_) hnpcs hindex
        obtain ⟨npcs, h⟩ := addNpcs_eq (short2 buf 2) (byte1 buf 0) (byte1 buf 1) (byte1 buf 4)
          (short2 buf 5) (byte1 buf 7).toNat s
        rw [putNpcs, h, ← hinside]
        refine inBounds_congr ?_ ?_ x y <;> rfl
      · rw [putNpcs, addNpcs_of_not _ hbounds, ← hinside, if_neg hbounds, List.nil_append]
        exact ih hinside hnpcs hindex

theorem putNpcs_eq (records : List Bytes) (s : ℕ × LoadedMap) :
    ∃ npcs, (records.foldl putNpcs s).2 = { s.2 with npcs := npcs } := by
  induction records generalizing s with
  | nil => exact ⟨s.2.npcs, rfl⟩
  | cons buf records ih =>
      obtain ⟨npcs, h⟩ := ih (putNpcs s buf)
      obtain ⟨added, hadded⟩ := addNpcs_eq (short2 buf 2) (byte1 buf 0) (byte1 buf 1) (byte1 buf 4)
        (short2 buf 5) (byte1 buf 7).toNat s
      refine ⟨npcs, (congrArg Prod.snd (List.foldl_cons ..)).trans (h.trans ?_)⟩
      rw [putNpcs, hadded]

theorem putChest_eq (records : List Bytes) (m : LoadedMap) :
    ∃ chests, records.foldl putChest m = { m with chests := chests } := by
  induction records generalizing m with
  | nil => exact ⟨m.chests, rfl⟩
  | cons buf records ih =>
      obtain ⟨chests, h⟩ := ih (putChest m buf)
      refine ⟨chests, (List.foldl_cons ..).trans (h.trans ?_)⟩
      unfold putChest
      split_ifs <;> rfl

/-! ### The chest that the records fill -/

theorem foldl_addSpawn (bufs : List Bytes) (chest : LoadedChest) :
    bufs.foldl (fun chest buf => chest.addSpawn buf) chest =
      { chest with
        spawns := chest.spawns ++ bufs.map LoadedSpawn.ofRecord
        slots := (bufs.map fun buf => number1 buf 4 + 1).foldl max chest.slots
        key := ((bufs.map (short2 · 2)).filter (0 < ·)).getLast?.getD chest.key } := by
  induction bufs generalizing chest with
  | nil =>
      simp only [List.foldl_nil, List.map_nil, List.append_nil]
      rfl
  | cons buf bufs ih =>
      rw [List.foldl_cons, ih, LoadedChest.addSpawn]
      congr 1
      · dsimp only
        rw [List.map_cons, List.filter_cons]
        by_cases hkey : 0 < short2 buf 2
        · rw [if_pos hkey, if_pos (decide_eq_true hkey), List.getLast?_cons, Option.getD_some]
        · rw [if_neg hkey, if_neg fun h => hkey (of_decide_eq_true h)]
      · dsimp only
        rw [List.map_cons, List.append_assoc, List.singleton_append]

end LoadedMap

namespace EmfFile

open LoadedMap

variable (e : EmfFile) (config : MapConfig)

/-- What the records of the file say of a tile. -/
def tile (x y : UInt8) : MapTile where
  tilespec := (e.specs.lastAt x y).map (byte1 · 1)
  warp := ((e.warps.lastAt x y).map warp).getD MapTile.plain.warp

/-- The spawns in the chest at a place. -/
def spawnsAt (x y : UInt8) : List Bytes :=
  e.chests.records.filter fun buf => number3 buf 9 ≠ 0 ∧ byte1 buf 0 = x ∧ byte1 buf 1 = y

/-- Some record makes the tile a chest. -/
def IsChest (x y : UInt8) : Prop :=
  ∃ entry ∈ e.specs.entries, byte1 entry.2 0 = x ∧ entry.1 = y ∧ byte1 entry.2 1 = chestSpec

instance (x y : UInt8) : Decidable (e.IsChest x y) :=
  inferInstanceAs (Decidable (∃ entry ∈ e.specs.entries, _))

/-- The chest that the records of the file make of a place. -/
def chestOf (x y : UInt8) : LoadedChest where
  x := x
  y := y
  maxchest := config.maxChest
  chestslots := config.chestSlots
  slots := ((e.spawnsAt x y).map fun buf => number1 buf 4 + 1).foldl max 0
  key := (((e.spawnsAt x y).map (short2 · 2)).filter (0 < ·)).getLast?.getD 0
  spawns := (e.spawnsAt x y).map LoadedSpawn.ofRecord

/-- The records of the NPCs in bounds, each as often as it says. -/
def npcRecords : List Bytes :=
  e.npcs.records.flatMap fun buf =>
    if e.blank.inBounds (byte1 buf 0) (byte1 buf 1) then List.replicate (byte1 buf 7).toNat buf
    else []

theorem withTiles_eq : ∃ tiles chests spikes, e.withTiles config =
    { e.blank with tiles := tiles, chests := chests, hasTimedSpikes := spikes } := by
  obtain ⟨tiles, chests, spikes, h⟩ := putSpec_eq config e.specs.entries e.blank
  obtain ⟨tiles', h'⟩ := putWarp_eq e.warps.entries
    (e.specs.entries.foldl (fun m entry => putSpec config entry.1 m entry.2) e.blank)
  refine ⟨tiles', chests, spikes, ?_⟩
  rw [withTiles, h', h]

theorem inBounds_withTiles (x y : UInt8) :
    (e.withTiles config).inBounds x y = e.blank.inBounds x y := by
  obtain ⟨tiles, chests, spikes, h⟩ := e.withTiles_eq config
  rw [h]
  refine inBounds_congr ?_ ?_ x y <;> rfl

theorem build_eq : ∃ npcs chests,
    e.build config = { e.withTiles config with npcs := npcs, chests := chests } := by
  obtain ⟨npcs, h⟩ := putNpcs_eq e.npcs.records (0, e.withTiles config)
  obtain ⟨chests, h'⟩ := putChest_eq e.chests.records
    (e.npcs.records.foldl putNpcs (0, e.withTiles config)).2
  refine ⟨npcs, chests, ?_⟩
  rw [build, h', h]

theorem inBounds_build (x y : UInt8) : (e.build config).inBounds x y = e.blank.inBounds x y := by
  obtain ⟨npcs, chests, h⟩ := e.build_eq config
  rw [h, ← inBounds_withTiles e config]
  refine inBounds_congr ?_ ?_ x y <;> rfl

theorem getTile_build (x y : UInt8) : (e.build config).getTile x y =
    if e.blank.inBounds x y then some (e.tile x y) else none := by
  have hbuild : (e.build config).getTile x y = (e.withTiles config).getTile x y := by
    obtain ⟨npcs, chests, h⟩ := e.build_eq config
    rw [h]
    refine getTile_congr ?_ ?_ ?_ x y <;> rfl
  have hblank : e.blank.getTile x y =
      if e.blank.inBounds x y then some MapTile.plain else none := by
    rw [getTile]
    by_cases hbounds : e.blank.inBounds x y = true
    · rw [if_pos hbounds, if_pos hbounds]
      exact List.getElem?_replicate_of_lt (tileIndex_lt hbounds)
    · rw [if_neg hbounds, if_neg hbounds]
  rw [hbuild, withTiles, getTile_warps, getTile_specs, hblank]
  split_ifs
  · rw [Option.map_some, Option.map_some, tile, MapTile.plain, Option.or_none]
  · rfl

theorem spikes_build : (e.build config).hasTimedSpikes = true ↔ ∃ entry ∈ e.specs.entries,
    e.blank.inBounds (byte1 entry.2 0) entry.1 = true ∧ byte1 entry.2 1 = spikes1 := by
  obtain ⟨npcs, chests, h⟩ := e.build_eq config
  obtain ⟨tiles, h'⟩ := putWarp_eq e.warps.entries
    (e.specs.entries.foldl (fun m entry => putSpec config entry.1 m entry.2) e.blank)
  have hspecs := spikes_specs config e.specs.entries e.blank
  have hblank : e.blank.hasTimedSpikes = false := rfl
  rw [hblank, Bool.false_eq_true, false_or] at hspecs
  rw [h, withTiles, h']
  exact hspecs

theorem chestAt_build (x y : UInt8) : (e.build config).chestAt x y =
    if e.blank.inBounds x y = true ∧ e.IsChest x y then some (e.chestOf config x y) else none := by
  have htiles : (e.withTiles config).chestAt x y =
      if e.blank.inBounds x y = true ∧ e.IsChest x y then some (chest config x y)
      else none := by
    obtain ⟨tiles, h⟩ := putWarp_eq e.warps.entries
      (e.specs.entries.foldl (fun m entry => putSpec config entry.1 m entry.2) e.blank)
    have hnone : e.blank.chestAt x y = none := rfl
    have hspecs := chestAt_specs config e.specs e.blank x y
    rw [hnone, Option.none_or] at hspecs
    refine (chestAt_congr ?_ x y).trans hspecs
    rw [withTiles, h]
  have hnpcs : (e.npcs.records.foldl putNpcs (0, e.withTiles config)).2.chestAt x y =
      (e.withTiles config).chestAt x y := by
    obtain ⟨npcs, h⟩ := putNpcs_eq e.npcs.records (0, e.withTiles config)
    refine chestAt_congr ?_ x y
    rw [h]
  have hfill : (e.spawnsAt x y).foldl (fun chest buf => chest.addSpawn buf) (chest config x y) =
      e.chestOf config x y := by
    rw [foldl_addSpawn, chest, chestOf]
    dsimp only
    rw [List.nil_append]
  rw [build, chestAt_chests, hnpcs, htiles]
  split_ifs
  · rw [Option.map_some, ← spawnsAt, hfill]
  · rfl

theorem npcs_build : (e.build config).npcs = e.npcRecords.mapIdx spawnNpc := by
  have hnone : (e.withTiles config).npcs = [].mapIdx spawnNpc := by
    obtain ⟨tiles, chests, spikes, h⟩ := e.withTiles_eq config
    rw [h]
    rfl
  have hnpcs := npcs_putNpcs (s := (0, e.withTiles config)) e.npcs.records e.blank.inBounds
    (inBounds_withTiles e config) hnone rfl
  obtain ⟨chests, h⟩ := putChest_eq e.chests.records
    (e.npcs.records.foldl putNpcs (0, e.withTiles config)).2
  rw [build, h]
  exact hnpcs

/-- `Map::Load` reads back what the records of a file say: each tile as the last of its records has
it, one NPC after the other, and in each chest what spawns there. -/
theorem load_records : ∃ m, ofContents config e.contents = some m ∧
    (∃ tiles chests npcs spikes, m = { e.blank with
      tiles := tiles, chests := chests, npcs := npcs, hasTimedSpikes := spikes }) ∧
    (∀ x y, m.getTile x y = if m.inBounds x y then some (e.tile x y) else none) ∧
    m.npcs = e.npcRecords.mapIdx spawnNpc ∧
    (∀ x y, m.chestAt x y =
      if m.inBounds x y = true ∧ e.IsChest x y then some (e.chestOf config x y) else none) ∧
    (m.hasTimedSpikes = true ↔ ∃ entry ∈ e.specs.entries,
      m.inBounds (byte1 entry.2 0) entry.1 = true ∧ byte1 entry.2 1 = spikes1) := by
  refine ⟨e.build config, ofContents_contents e config, ?_, fun x y => ?_, e.npcs_build config,
    fun x y => ?_, ?_⟩
  · obtain ⟨npcs, chests, h⟩ := e.build_eq config
    obtain ⟨tiles, _, spikes, h'⟩ := e.withTiles_eq config
    refine ⟨tiles, chests, npcs, spikes, ?_⟩
    rw [h, h']
  · rw [getTile_build, inBounds_build]
  · rw [chestAt_build, inBounds_build]
  · rw [spikes_build]
    simp only [inBounds_build]

end EmfFile

end ArenaServ
