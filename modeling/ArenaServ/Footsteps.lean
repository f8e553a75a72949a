import ArenaServ.Visibility

/-!
# Where a step leads

A step that is taken is one tile in its direction, and to a tile of the map, but for a step down
from row 255: its check compares the columns, so it leads to row 0 where that admits the walker.
-/

namespace ArenaServ

structure Stance where
  x : UInt8
  y : UInt8
  direction : Direction
  deriving DecidableEq, Repr

/-- What `Walk` leaves of the position and the direction, which it assigns to behind its checks. A
warp is not one of its assignments. -/
def WalkResult.stance (direction : Direction) (before : Stance) : WalkResult → Stance
  | .fail => before
  | .warped => before
  | .ok x y _ => ⟨x, y, direction⟩

namespace WalkMap

/-- A step that is reported as taken is of one tile, to a tile of the map, and one that is reported
as failed changes nothing. -/
structure Steps (m : WalkMap) (direction : Direction) (before : Stance) (result : WalkResult) :
    Prop where
  taken : ∀ x y messages, result = .ok x y messages →
    OneTile direction before.x before.y (result.stance direction before).x
        (result.stance direction before).y ∧
      m.inBounds (result.stance direction before).x (result.stance direction before).y = true
  failed : result = .fail → result.stance direction before = before

/-- What `Walk` asks of a tile that a character is to step on. -/
def admits (config : WalkConfig) (m : WalkMap) (walker : WalkingCharacter) (admin : Bool)
    (time : ℚ) (x y : UInt8) : Bool :=
  m.inBounds x y &&
    (admin || m.walkable config.ghostArena false x y &&
      !(m.occupied false false x y && decide (time < walker.lastWalk + config.ghostTimer))) &&
    (m.warp x y).all fun warp =>
      admin && !(warp.levelreq ≤ walker.level && (warp.noDoor || warp.isOpen))

/-- What `Walk` asks of a tile that an NPC is to step on. -/
def admitsNpc (config : WalkConfig) (m : WalkMap) (walker : WalkingNpc) (x y : UInt8) : Bool :=
  m.walkable config.ghostArena true x y &&
    !m.occupied true (walker.aggressive || walker.hasParent) x y

variable {config : WalkConfig} {m : WalkMap} {direction : Direction} {x y : UInt8}

theorem arrive_eq_ok (config : WalkConfig) (m : WalkMap) (walker : WalkingCharacter)
    (direction : Direction) (x y : UInt8) :
    ∃ messages, m.arrive config walker direction x y = .ok x y messages := ⟨_, rfl⟩

theorem walk_ok_iff_admits {walker : WalkingCharacter} {admin : Bool} {time : ℚ}
    (h : walkTarget walker.x walker.y direction = some (x, y)) :
    (∃ messages, m.walk config walker direction admin time = .ok x y messages) ↔
      m.admits config walker admin time x y = true := by
  obtain ⟨messages, harrive⟩ := arrive_eq_ok config m walker direction x y
  unfold walk admits
  rw [h]
  dsimp only
  rw [harrive]
  generalize m.inBounds x y = bounds
  generalize m.walkable config.ghostArena false x y = walkable
  generalize m.occupied false false x y = occupied
  generalize decide (time < walker.lastWalk + config.ghostTimer) = ghost
  cases m.warp x y with
  | none =>
      cases bounds <;> cases admin <;> cases walkable <;> cases occupied <;> cases ghost <;> simp
  | some warp =>
      rw [Option.all_some]
      dsimp only
      generalize (decide (warp.levelreq ≤ walker.level) && (warp.noDoor || warp.isOpen)) = opens
      cases bounds <;> cases admin <;> cases walkable <;> cases occupied <;> cases ghost <;>
        cases opens <;> simp

theorem walkNpc_ok_iff_admits {walker : WalkingNpc}
    (h : walkTarget walker.x walker.y direction = some (x, y)) :
    (∃ messages, m.walkNpc config walker direction = .ok x y messages) ↔
      m.admitsNpc config walker x y = true := by
  unfold walkNpc admitsNpc arriveNpc
  rw [h]
  dsimp only
  cases m.walkable config.ghostArena true x y <;>
    cases m.occupied true (walker.aggressive || walker.hasParent) x y <;> simp

theorem inBounds_of_admits {walker : WalkingCharacter} {admin : Bool} {time : ℚ}
    (h : m.admits config walker admin time x y = true) : m.inBounds x y = true := by
  unfold admits at h
  rw [Bool.and_eq_true, Bool.and_eq_true] at h
  exact h.1.1

theorem inBounds_of_walkable {ghostArena npc : Bool} (h : m.walkable ghostArena npc x y = true) :
    m.inBounds x y = true := by
  by_contra hbounds
  rw [Bool.not_eq_true] at hbounds
  unfold walkable at h
  rw [hbounds] at h
  cases h

theorem inBounds_of_admitsNpc {walker : WalkingNpc} (h : m.admitsNpc config walker x y = true) :
    m.inBounds x y = true := by
  unfold admitsNpc at h
  rw [Bool.and_eq_true] at h
  exact inBounds_of_walkable h.1

theorem walkTarget_wrap (x : UInt8) : walkTarget x 255 .down = some (x, 0) :=
  if_neg (UInt8.lt_irrefl x)

/-- What both walks have in common: a result comes from a target, and a taken step is one that the
tile admits. -/
theorem steps_iff {before : Stance} {result : WalkResult} {admits : UInt8 → UInt8 → Bool}
    (htarget : ∀ x y messages, result = .ok x y messages →
      walkTarget before.x before.y direction = some (x, y))
    (hok : ∀ x y, walkTarget before.x before.y direction = some (x, y) →
      ((∃ messages, result = .ok x y messages) ↔ admits x y = true))
    (hbounds : ∀ x y, admits x y = true → m.inBounds x y = true) :
    m.Steps direction before result ↔
      ¬(direction = .down ∧ before.y = 255 ∧ admits before.x 0 = true) := by
  constructor
  · rintro hsteps ⟨hdown, hrow, hadmits⟩
    have hwrap : walkTarget before.x before.y direction = some (before.x, 0) := by
      rw [hdown, hrow, walkTarget_wrap]
    obtain ⟨messages, hresult⟩ := (hok before.x 0 hwrap).2 hadmits
    obtain ⟨hone, -⟩ := hsteps.taken before.x 0 messages hresult
    have hy := hone.y
    rw [hresult, hdown, hrow] at hy
    change ((0 : UInt8).toNat : ℤ) - Direction.down.dy = ((255 : UInt8).toNat : ℤ) at hy
    exact absurd hy (by decide)
  · intro hnot
    constructor
    · intro x y messages hresult
      have hxy := htarget x y messages hresult
      have hadmits := (hok x y hxy).1 ⟨messages, hresult⟩
      rw [hresult]
      refine ⟨?_, hbounds x y hadmits⟩
      apply oneTile_of_walkTarget hxy
      rw [pathLengthOf_walkTarget_iff hxy]
      rintro ⟨rfl, hrow⟩
      rw [hrow, walkTarget_wrap] at hxy
      cases hxy
      exact hnot ⟨rfl, hrow, hadmits⟩
    · intro hresult
      rw [hresult]
      rfl

/-- Both walks take steps of one tile on the map, unless the step down from row 255 is taken. -/
theorem steps_walks_iff (config : WalkConfig) (m : WalkMap) (direction looks : Direction) :
    (∀ (walker : WalkingCharacter) (admin : Bool) (time : ℚ),
      m.Steps direction ⟨walker.x, walker.y, looks⟩
          (m.walk config walker direction admin time) ↔
        ¬(direction = .down ∧ walker.y = 255 ∧
          m.admits config walker admin time walker.x 0 = true)) ∧
    ∀ walker : WalkingNpc,
      m.Steps direction ⟨walker.x, walker.y, looks⟩ (m.walkNpc config walker direction) ↔
        ¬(direction = .down ∧ walker.y = 255 ∧ m.admitsNpc config walker walker.x 0 = true) := by
  constructor
  · intro walker admin time
    apply steps_iff (m := m)
    · exact fun x y messages h => (walk_eq_ok h).1
    · exact fun x y h => walk_ok_iff_admits h
    · exact fun x y h => inBounds_of_admits h
  · intro walker
    apply steps_iff (m := m)
    · exact fun x y messages h => (walkNpc_eq_ok h).1
    · exact fun x y h => walkNpc_ok_iff_admits h
    · exact fun x y h => inBounds_of_admitsNpc h

/-- A map of one tile. -/
def onlyTile : WalkMap := ⟨1, 1, fun _ _ => .none, fun _ _ => none, [], [], []⟩

/-- From row 255, outside of the map, a step down leads to row 0. -/
theorem not_steps_down :
    ∃ messages, onlyTile.walk ⟨11, 0, false⟩ ⟨1, 0, 255, 0, 0, true, false⟩ .down false 0 =
      .ok 0 0 messages ∧
    ¬onlyTile.Steps .down ⟨0, 255, .down⟩
      (onlyTile.walk ⟨11, 0, false⟩ ⟨1, 0, 255, 0, 0, true, false⟩ .down false 0) := by
  refine ⟨_, rfl, ?_⟩
  intro h
  exact absurd (h.taken 0 0 _ rfl).1.y (by decide)

end WalkMap

end ArenaServ
