import ArenaServ.Walking
import Mathlib.Data.List.Nodup

/-!
# Who comes into sight

The frontiers of a step of one tile are the tiles whose distance to the walker crosses the see
distance. So a walk tells of what comes into sight and of what goes out of it, except that
nobody is told of an item that is out of sight.
-/

namespace ArenaServ

/-! ## The loop over a frontier -/

theorem mem_loopIndices {s i : ℤ} : i ∈ loopIndices s ↔ -s ≤ i ∧ i ≤ s := by
  unfold loopIndices
  rw [List.mem_map]
  constructor
  · rintro ⟨k, hk, rfl⟩
    rw [List.mem_range] at hk
    omega
  · intro hi
    refine ⟨(i + s).toNat, ?_, ?_⟩
    · rw [List.mem_range]
      omega
    · omega

theorem nodup_loopIndices (s : ℤ) : (loopIndices s).Nodup := by
  unfold loopIndices
  apply List.Nodup.map _ List.nodup_range
  intro j k hjk
  dsimp only at hjk
  omega

/-- A loop that something can only happen in once. -/
theorem filterMap_only {ι α : Type*} [DecidableEq ι] {p : ι → Bool} {a : ι} (o : α) {is : List ι}
    (hnodup : is.Nodup) (honly : ∀ i, p i = true → i = a) :
    is.filterMap (fun i => if p i = true then some o else none) =
      if a ∈ is ∧ p a = true then [o] else [] := by
  induction is with
  | nil => simp
  | cons i rest ih =>
      obtain ⟨hi, hrest⟩ := List.nodup_cons.mp hnodup
      rw [List.filterMap_cons, ih hrest]
      by_cases hp : p i = true
      · have heq := honly i hp
        subst heq
        simp [hp, hi]
      · have hmem : (a ∈ i :: rest ∧ p a = true) ↔ (a ∈ rest ∧ p a = true) := by
          rw [List.mem_cons, or_and_right, or_iff_right]
          rintro ⟨rfl, ha⟩
          exact hp ha
        simp only [hmem, if_neg hp]

/-- The loops push each object once that they push at all. -/
theorem flatMap_eq_filter {α : Type*} {f : α → List α} {q : α → Bool}
    (h : ∀ o, f o = if q o = true then [o] else []) (objects : List α) :
    objects.flatMap f = objects.filter q := by
  induction objects with
  | nil => rfl
  | cons o rest ih =>
      rw [List.flatMap_cons, ih, h, List.filter_cons]
      split_ifs
      · rfl
      · rfl

/-! ## The tiles of a frontier -/

namespace Direction

def dx : Direction → ℤ
  | .left => -1
  | .right => 1
  | _ => 0

def dy : Direction → ℤ
  | .up => -1
  | .down => 1
  | _ => 0

/-- The only place of the loop at which a tile can be. -/
def index (direction : Direction) (x y ox oy : ℤ) : ℤ :=
  match direction with
  | .up | .down => ox - x
  | .left | .right => oy - y

end Direction

section Tiles
variable {s x y i : ℤ} {ox oy : UInt8} (direction : Direction)

theorem FrontierTiles.isOld_iff (t : FrontierTiles) :
    t.isOld ox oy = true ↔ (ox.toNat : ℤ) = t.oldx ∧ (oy.toNat : ℤ) = t.oldy := by
  rw [FrontierTiles.isOld, Bool.and_eq_true, decide_eq_true_iff, decide_eq_true_iff]

theorem FrontierTiles.isNew_iff (t : FrontierTiles) :
    t.isNew ox oy = true ↔ (ox.toNat : ℤ) = t.newx ∧ (oy.toNat : ℤ) = t.newy := by
  rw [FrontierTiles.isNew, Bool.and_eq_true, decide_eq_true_iff, decide_eq_true_iff]

theorem index_of_isOld (h : (frontierTiles s x y direction i).isOld ox oy = true) :
    i = direction.index x y ox.toNat oy.toNat := by
  cases direction <;>
    simp only [FrontierTiles.isOld_iff, frontierTiles, Direction.index] at h ⊢ <;> omega

theorem index_of_isNew (h : (frontierTiles s x y direction i).isNew ox oy = true) :
    i = direction.index x y ox.toNat oy.toNat := by
  cases direction <;>
    simp only [FrontierTiles.isNew_iff, frontierTiles, Direction.index] at h ⊢ <;> omega

/-- The tiles of the old frontier were within the see distance and are not. -/
theorem isOld_index_iff :
    (direction.index x y ox.toNat oy.toNat ∈ loopIndices s ∧
        (frontierTiles s x y direction (direction.index x y ox.toNat oy.toNat)).isOld ox oy) ↔
      pathLength (x - direction.dx) (y - direction.dy) ox.toNat oy.toNat ≤ s ∧
        s < pathLength x y ox.toNat oy.toNat := by
  rw [mem_loopIndices]
  cases direction <;>
    simp only [FrontierTiles.isOld_iff, frontierTiles, Direction.index, Direction.dx, Direction.dy,
      pathLength] <;> omega

/-- The tiles of the new frontier are within the see distance and were not. -/
theorem isNew_index_iff :
    (direction.index x y ox.toNat oy.toNat ∈ loopIndices s ∧
        (frontierTiles s x y direction (direction.index x y ox.toNat oy.toNat)).isNew ox oy) ↔
      s < pathLength (x - direction.dx) (y - direction.dy) ox.toNat oy.toNat ∧
        pathLength x y ox.toNat oy.toNat ≤ s := by
  rw [mem_loopIndices]
  cases direction <;>
    simp only [FrontierTiles.isNew_iff, frontierTiles, Direction.index, Direction.dx, Direction.dy,
      pathLength] <;> omega

theorem not_isNew_of_isOld (h : (frontierTiles s x y direction i).isOld ox oy = true) :
    ¬ (frontierTiles s x y direction i).isNew ox oy = true := by
  cases direction <;>
    simp only [FrontierTiles.isOld_iff, FrontierTiles.isNew_iff, frontierTiles] at h ⊢ <;> omega

end Tiles

/-! ## The scans -/

/-- A step from `x` and `y` to `x'` and `y'` brings a tile into sight. -/
def comesIntoSight (s : ℤ) (x y x' y' ox oy : UInt8) : Bool :=
  decide (s < pathLengthOf x y ox oy) && decide (pathLengthOf x' y' ox oy ≤ s)

def goesOutOfSight (s : ℤ) (x y x' y' ox oy : UInt8) : Bool :=
  decide (pathLengthOf x y ox oy ≤ s) && decide (s < pathLengthOf x' y' ox oy)

/-- A step of one tile in a direction. -/
structure OneTile (direction : Direction) (x y x' y' : UInt8) : Prop where
  x : (x'.toNat : ℤ) - direction.dx = x.toNat
  y : (y'.toNat : ℤ) - direction.dy = y.toNat

section Scans
variable {α : Type*} {s : ℤ} {x y x' y' : UInt8} {direction : Direction} {px py : α → UInt8}

theorem goesOutOfSight_iff (h : OneTile direction x y x' y') (ox oy : UInt8) :
    goesOutOfSight s x y x' y' ox oy = true ↔
      pathLength (x'.toNat - direction.dx) (y'.toNat - direction.dy) ox.toNat oy.toNat ≤ s ∧
        s < pathLength x'.toNat y'.toNat ox.toNat oy.toNat := by
  rw [goesOutOfSight, Bool.and_eq_true, decide_eq_true_iff, decide_eq_true_iff, h.x, h.y,
    pathLengthOf, pathLengthOf]

theorem comesIntoSight_iff (h : OneTile direction x y x' y') (ox oy : UInt8) :
    comesIntoSight s x y x' y' ox oy = true ↔
      s < pathLength (x'.toNat - direction.dx) (y'.toNat - direction.dy) ox.toNat oy.toNat ∧
        pathLength x'.toNat y'.toNat ox.toNat oy.toNat ≤ s := by
  rw [comesIntoSight, Bool.and_eq_true, decide_eq_true_iff, decide_eq_true_iff, h.x, h.y,
    pathLengthOf, pathLengthOf]

theorem scanOld_frontier (h : OneTile direction x y x' y') (objects : List α) :
    scanOld px py (frontier s x' y' direction) objects =
      objects.filter fun o => goesOutOfSight s x y x' y' (px o) (py o) := by
  apply flatMap_eq_filter
  intro o
  have hiff := (goesOutOfSight_iff (s := s) h (px o) (py o)).trans (isOld_index_iff direction).symm
  rw [frontier, List.filterMap_map, if_congr hiff rfl rfl]
  exact filterMap_only o (nodup_loopIndices s) fun i => index_of_isOld direction

theorem scanNewOnly_frontier (h : OneTile direction x y x' y') (objects : List α) :
    scanNewOnly px py (frontier s x' y' direction) objects =
      objects.filter fun o => comesIntoSight s x y x' y' (px o) (py o) := by
  apply flatMap_eq_filter
  intro o
  have hiff := (comesIntoSight_iff (s := s) h (px o) (py o)).trans (isNew_index_iff direction).symm
  rw [frontier, List.filterMap_map, if_congr hiff rfl rfl]
  exact filterMap_only o (nodup_loopIndices s) fun i => index_of_isNew direction

/-- No tile is on both frontiers at once. -/
theorem scanNew_frontier (h : OneTile direction x y x' y') (objects : List α) :
    scanNew px py (frontier s x' y' direction) objects =
      objects.filter fun o => comesIntoSight s x y x' y' (px o) (py o) := by
  rw [← scanNewOnly_frontier h objects]
  unfold scanNew scanNewOnly frontier
  congr 1
  funext o
  rw [List.filterMap_map, List.filterMap_map]
  congr 1
  funext i
  dsimp only [Function.comp_apply]
  by_cases hold : (frontierTiles s x'.toNat y'.toNat direction i).isOld (px o) (py o) = true
  · rw [if_pos hold, if_neg (not_isNew_of_isOld direction hold)]
  · rw [if_neg hold]

end Scans

/-! ## The walks -/

/-- Each step that is taken is of one tile, but for the step down from the last row that a tile
can have, which the check of the columns lets pass. -/
theorem oneTile_of_walkTarget {x y x' y' : UInt8} {direction : Direction}
    (h : walkTarget x y direction = some (x', y')) (hone : pathLengthOf x y x' y' = 1) :
    OneTile direction x y x' y' := by
  have hx := UInt8.toNat_lt x
  have hy := UInt8.toNat_lt y
  unfold pathLengthOf pathLength at hone
  cases direction <;> simp only [walkTarget] at h <;> split_ifs at h with hwrap <;>
    simp only [Option.some.injEq, Prod.mk.injEq] at h <;> obtain ⟨rfl, rfl⟩ := h <;>
    simp only [UInt8.lt_iff_toNat_lt, UInt8.toNat_add, UInt8.toNat_sub, UInt8.reduceToNat]
      at hwrap hone <;>
    constructor <;>
    simp only [Direction.dx, Direction.dy, UInt8.toNat_add, UInt8.toNat_sub, UInt8.reduceToNat] <;>
    omega

/-- The check of the columns lets a step down from the last row of all pass. -/
theorem pathLengthOf_walkTarget_iff {x y x' y' : UInt8} {direction : Direction}
    (h : walkTarget x y direction = some (x', y')) :
    pathLengthOf x y x' y' = 1 ↔ ¬ (direction = .down ∧ y = 255) := by
  have hx := UInt8.toNat_lt x
  have hy := UInt8.toNat_lt y
  unfold pathLengthOf pathLength
  rw [← UInt8.toNat_inj]
  cases direction <;> simp only [walkTarget] at h <;> split_ifs at h with hwrap <;>
    simp only [Option.some.injEq, Prod.mk.injEq] at h <;> obtain ⟨rfl, rfl⟩ := h <;>
    simp only [UInt8.lt_iff_toNat_lt, UInt8.toNat_add, UInt8.toNat_sub, UInt8.reduceToNat,
      reduceCtorEq, true_and, false_and, not_false_eq_true, iff_true] at hwrap ⊢ <;>
    omega

namespace WalkMap

variable {config : WalkConfig} {m : WalkMap} {direction : Direction} {x y : UInt8}
  {messages : List SightMessage}

/-- What is sent when a character has taken a step, by the distances. -/
def sightsOfCharacter (config : WalkConfig) (m : WalkMap) (walker : WalkingCharacter)
    (x y : UInt8) : List SightMessage :=
  let others := m.characters.filter (·.id ≠ walker.id)
  let living := m.npcs.filter (·.alive)
  let goes (ox oy : UInt8) := goesOutOfSight config.seeDistance walker.x walker.y x y ox oy
  let comes (ox oy : UInt8) := comesIntoSight config.seeDistance walker.x walker.y x y ox oy
  characterMessages walker.id (others.filter fun c => goes c.x c.y)
    (others.filter fun c => comes c.x c.y) (m.items.filter fun it => comes it.x it.y)
    (living.filter fun n => comes n.x n.y) (living.filter fun n => goes n.x n.y)

/-- What is sent when an NPC has taken a step, by the distances. -/
def sightsOfNpc (config : WalkConfig) (m : WalkMap) (walker : WalkingNpc) (x y : UInt8) :
    List SightMessage :=
  npcMessages walker.index
    (m.characters.filter fun c =>
      comesIntoSight config.seeDistance walker.x walker.y x y c.x c.y)
    (m.characters.filter fun c =>
      goesOutOfSight config.seeDistance walker.x walker.y x y c.x c.y)

theorem walk_eq_ok {walker : WalkingCharacter} {admin : Bool} {time : ℚ}
    (h : m.walk config walker direction admin time = .ok x y messages) :
    walkTarget walker.x walker.y direction = some (x, y) ∧
      m.arrive config walker direction x y = .ok x y messages := by
  unfold walk at h
  cases htarget : walkTarget walker.x walker.y direction with
  | none =>
      rw [htarget] at h
      cases h
  | some target =>
      obtain ⟨x', y'⟩ := target
      rw [htarget] at h
      dsimp only at h
      have harrive : m.arrive config walker direction x' y' = .ok x y messages := by
        cases hwarp : m.warp x' y' with
        | none =>
            rw [hwarp] at h
            dsimp only at h
            split_ifs at h
            exact h
        | some warp =>
            rw [hwarp] at h
            dsimp only at h
            split_ifs at h
            exact h
      have hxy : x' = x ∧ y' = y := by
        unfold arrive at harrive
        cases harrive
        exact ⟨rfl, rfl⟩
      obtain ⟨rfl, rfl⟩ := hxy
      exact ⟨rfl, harrive⟩

theorem walkNpc_eq_ok {walker : WalkingNpc}
    (h : m.walkNpc config walker direction = .ok x y messages) :
    walkTarget walker.x walker.y direction = some (x, y) ∧
      m.arriveNpc config walker direction x y = .ok x y messages := by
  unfold walkNpc at h
  cases htarget : walkTarget walker.x walker.y direction with
  | none =>
      rw [htarget] at h
      cases h
  | some target =>
      obtain ⟨x', y'⟩ := target
      rw [htarget] at h
      dsimp only at h
      split_ifs at h
      have hxy : x' = x ∧ y' = y := by
        unfold arriveNpc at h
        cases h
        exact ⟨rfl, rfl⟩
      obtain ⟨rfl, rfl⟩ := hxy
      exact ⟨rfl, h⟩

theorem messages_walk {walker : WalkingCharacter} {admin : Bool} {time : ℚ}
    (h : m.walk config walker direction admin time = .ok x y messages)
    (hone : pathLengthOf walker.x walker.y x y = 1) :
    messages = sightsOfCharacter config m walker x y := by
  obtain ⟨htarget, harrive⟩ := walk_eq_ok h
  have hstep := oneTile_of_walkTarget htarget hone
  unfold arrive at harrive
  dsimp only at harrive
  rw [scanOld_frontier hstep, scanOld_frontier hstep, scanNew_frontier hstep,
    scanNew_frontier hstep, scanNewOnly_frontier hstep, WalkResult.ok.injEq] at harrive
  exact harrive.2.2.symm

theorem messages_walkNpc {walker : WalkingNpc}
    (h : m.walkNpc config walker direction = .ok x y messages)
    (hone : pathLengthOf walker.x walker.y x y = 1) :
    messages = sightsOfNpc config m walker x y := by
  obtain ⟨htarget, harrive⟩ := walkNpc_eq_ok h
  have hstep := oneTile_of_walkTarget htarget hone
  unfold arriveNpc at harrive
  dsimp only at harrive
  rw [scanOld_frontier hstep, scanNew_frontier hstep, WalkResult.ok.injEq] at harrive
  exact harrive.2.2.symm

/-- A walk of one tile tells of exactly what comes into sight and goes out of it, each once: of
the other characters and the living NPCs, and of items that come into sight, where a character
walks, and of an NPC that walks to the characters. -/
theorem messages_of_walk (config : WalkConfig) (m : WalkMap) (direction : Direction) :
    (∀ (walker : WalkingCharacter) (admin : Bool) (time : ℚ) (x y : UInt8) messages,
      m.walk config walker direction admin time = .ok x y messages →
      pathLengthOf walker.x walker.y x y = 1 →
      messages = sightsOfCharacter config m walker x y) ∧
    ∀ (walker : WalkingNpc) (x y : UInt8) messages,
      m.walkNpc config walker direction = .ok x y messages →
      pathLengthOf walker.x walker.y x y = 1 →
      messages = sightsOfNpc config m walker x y :=
  ⟨fun _ _ _ _ _ _ h hone => messages_walk h hone, fun _ _ _ _ h hone => messages_walkNpc h hone⟩

def shortSight : WalkConfig := ⟨2, 1, false⟩

/-- Somebody at the left end of a row, and to the right somebody else, an NPC and an item. -/
def meadow : WalkMap where
  width := 20
  height := 20
  tilespec _ _ := .none
  warp _ _ := none
  characters := [⟨1, 5, 5, 0, 0, true, false⟩, ⟨2, 8, 5, 0, 0, true, false⟩]
  npcs := [⟨0, 7, 6, true, false, false⟩]
  items := [⟨4, 3, 5⟩]

def strider : WalkingCharacter := ⟨1, 5, 5, 0, 0, true, false⟩

theorem messages_of_walk_meadow :
    ∃ messages, meadow.walk shortSight strider .right false 3 = .ok 6 5 messages ∧
      messages = sightsOfCharacter shortSight meadow strider 6 5 ∧ messages.length = 3 :=
  ⟨_, rfl, (messages_of_walk shortSight meadow .right).1 strider false 3 6 5 _ rfl (by decide), rfl⟩

/-- Nobody is told that an item is out of sight. -/
theorem not_gone_item :
    ¬ ∀ (config : WalkConfig) (m : WalkMap) walker direction admin time x y messages,
      m.walk config walker direction admin time = .ok x y messages →
      pathLengthOf walker.x walker.y x y = 1 → ∀ it ∈ m.items,
        (SightMessage.gone walker.id (.item it.uid) ∈ messages ↔
          goesOutOfSight config.seeDistance walker.x walker.y x y it.x it.y = true) := by
  intro hall
  have hgone := hall shortSight meadow strider .right false 3 6 5 _ rfl (by decide) ⟨4, 3, 5⟩
    List.mem_cons_self
  revert hgone
  decide

end WalkMap

end ArenaServ
