import ArenaServ.ByteLoop
import ArenaServ.Walking

/-!
# Where an NPC is spawned

`NPC::Spawn` tries tiles around the spawn point by chance, and when no try has succeeded it goes
through them with the coordinates of the NPC itself, which are bytes. A boss spawns the children on
its map before itself.
-/

namespace ArenaServ
open Function ByteLoop

structure SpawningNpc extends WalkingNpc where
  spawnX : UInt8
  spawnY : UInt8
  spawnType : UInt8
  temporary : Bool
  boss : Bool
  child : Bool

/-- A map and the NPCs that it lists. -/
structure SpawnGround where
  map : WalkMap
  ghostArena : Bool
  count : ℕ
  npcs : ℕ → SpawningNpc

/-- How far from the lowest tile of the area the tries of an NPC are. -/
abbrev Draws := ℕ → Fin 5 × Fin 5

/-- `Occupied`, of NPCs only. -/
def WalkMap.occupiedByNpc (m : WalkMap) (x y : UInt8) : Bool :=
  m.inBounds x y && m.npcs.any fun n => n.alive && n.x = x && n.y = y

/-! ## The scan of the area -/

def scanColumn (walkable : UInt8 → Bool) (spawnY : UInt8) (fuel : ℕ) :
    Option (Bool × UInt8 × Unit) :=
  loop (spawnY.toNat + 2) (fun y _ _ => some (walkable y, ())) fuel (spawnY - 2) ()

/-- Whether a tile has been found, and where the scan was then. -/
def scanArea (walkable : UInt8 → UInt8 → Bool) (spawnX spawnY y : UInt8) (fuel : ℕ) :
    Option (Bool × UInt8 × UInt8) :=
  loop (spawnX.toNat + 2)
    (fun x _ fuel => (scanColumn (walkable x) spawnY fuel).map fun r => (r.1, r.2.1)) fuel
    (spawnX - 2) y

/-- Two coordinates of one area. -/
def Near (s c : UInt8) : Prop := c.toNat ≤ s.toNat + 2 ∧ s.toNat ≤ c.toNat + 2

instance decidableNear (s c : UInt8) : Decidable (Near s c) := inferInstanceAs (Decidable (_ ∧ _))

/-- A walkable tile of the area. -/
def IsPlace (walkable : UInt8 → UInt8 → Bool) (spawnX spawnY x y : UInt8) : Prop :=
  Near spawnX x ∧ Near spawnY y ∧ walkable x y = true

def HasPlace (walkable : UInt8 → UInt8 → Bool) (spawnX spawnY : UInt8) : Prop :=
  ∃ x y, IsPlace walkable spawnX spawnY x y

section Scan
variable {W : UInt8 → Bool} {walkable : UInt8 → UInt8 → Bool} {sx sy : UInt8}

theorem toNat_sub_two (h : 2 ≤ sy.toNat) : (sy - 2).toNat = sy.toNat - 2 :=
  UInt8.toNat_sub_of_le _ _ (UInt8.le_iff_toNat_le.mpr h)

theorem toNat_sub_two_of_lt (h : sy.toNat < 2) : (sy - 2).toNat = sy.toNat + 254 := by
  rw [UInt8.toNat_sub]
  change (2 ^ 8 - 2 + sy.toNat) % 2 ^ 8 = _
  omega

theorem steady_scanColumn (W : UInt8 → Bool) (sy : UInt8) : Steady (scanColumn W sy) :=
  steady_loop (fun _ _ => steady_const) _ _

theorem decides_const {c : UInt8} : Decides (fun y (_ : Unit) _ => some (W y, ())) W c :=
  fun _ => ⟨(), returns_const.mpr rfl⟩

theorem column_low (h : sy.toNat < 2) : Returns (scanColumn W sy) (false, sy - 2, ()) :=
  returns_beyond (by rw [toNat_sub_two_of_lt h]; omega)

/-- A column with a tile near the spawn point is left there. -/
theorem column_near {y : UInt8} (h : 2 ≤ sy.toNat) (hy : Near sy y) (hW : W y = true) :
    ∃ z, Near sy z ∧ W z = true ∧ Returns (scanColumn W sy) (true, z, ()) := by
  have hsub := toNat_sub_two h
  obtain ⟨hle, hge⟩ := hy
  obtain ⟨z, t, u, hz, hzy, hfound, hloop⟩ := returns_first (sy.toNat + 2)
    (fun y (_ : Unit) _ => some (W y, ())) (c := sy - 2) (d := y) (fun _ _ => steady_const)
    (by omega) hle (fun _ _ _ => decides_const) hW ()
  have hWz := (Prod.mk.inj (returns_const.mp hfound)).1
  exact ⟨z, ⟨by omega, by omega⟩, hWz, hloop⟩

theorem column_none (h : 2 ≤ sy.toNat) (hlt : sy.toNat < 253)
    (hnone : ∀ y, Near sy y → W y = false) :
    ∃ z, Returns (scanColumn W sy) (false, z, ()) := by
  have hsub := toNat_sub_two h
  obtain ⟨z, t, -, hloop⟩ := returns_end (sy.toNat + 2) (fun y (_ : Unit) _ => some (W y, ()))
    (c := sy - 2) (fun _ _ => steady_const) (by omega) (by omega)
    (fun e he hle => ⟨decides_const, hnone e ⟨hle, by omega⟩⟩) ()
  exact ⟨z, hloop⟩

theorem column_round {y : UInt8} (h : 253 ≤ sy.toNat) (hW : W y = true) :
    ∃ z, W z = true ∧ Returns (scanColumn W sy) (true, z, ()) := by
  obtain ⟨z, t, u, hfound, hloop⟩ := returns_round (sy.toNat + 2)
    (fun y (_ : Unit) _ => some (W y, ())) (d := y) (fun _ _ => steady_const) (by omega)
    (fun _ => decides_const) hW (sy - 2) ()
  exact ⟨z, (Prod.mk.inj (returns_const.mp hfound)).1, hloop⟩

theorem column_never (h : 253 ≤ sy.toNat) (hnone : ∀ y, W y = false) (fuel : ℕ) :
    scanColumn W sy fuel = none := by
  apply loop_none_of_never (by omega)
  intro y _ _ r hr
  rw [← Option.some.inj hr]
  exact hnone y

/-! ## What the scan ends with -/

/-- When the scan ends, and where the NPC belongs if it can: away from both ends of the bytes it
always does, and beside them it depends on which tiles are walkable. -/
def Scannable (walkable : UInt8 → UInt8 → Bool) (sx sy : UInt8) : Prop :=
  ((sx.toNat < 2 ∨ (sy.toNat < 2 ∧ sx.toNat < 253)) ∧ ¬ HasPlace walkable sx sy) ∨
  (2 ≤ sx.toNat ∧ 2 ≤ sy.toNat ∧ sy.toNat < 253 ∧
    (sx.toNat < 253 ∨ ∃ x y, Near sy y ∧ walkable x y = true)) ∨
  (2 ≤ sx.toNat ∧ 253 ≤ sy.toNat ∧ (∃ y, walkable (sx - 2) y = true) ∧
    (HasPlace walkable sx sy → ∃ y, Near sy y ∧ walkable (sx - 2) y = true))

/-- The scan ends, and on a walkable tile of the area where there is one. -/
def Scans (walkable : UInt8 → UInt8 → Bool) (sx sy y : UInt8) : Prop :=
  ∃ r, Returns (scanArea walkable sx sy y) r ∧
    (HasPlace walkable sx sy → IsPlace walkable sx sy r.2.1 r.2.2)

theorem steady_columns (x : UInt8) :
    Steady fun fuel => (scanColumn (walkable x) sy fuel).map fun r => (r.1, r.2.1) :=
  (steady_scanColumn (walkable x) sy).map _

theorem steady_scanArea (walkable : UInt8 → UInt8 → Bool) (sx sy y : UInt8) :
    Steady (scanArea walkable sx sy y) := steady_loop (fun x _ => steady_columns x) _ _

theorem scans_left (y : UInt8) (h : sx.toNat < 2) :
    Scans walkable sx sy y ↔ ¬ HasPlace walkable sx sy := by
  have hends : Returns (scanArea walkable sx sy y) (false, sx - 2, y) :=
    returns_beyond (by rw [toNat_sub_two_of_lt h]; omega)
  constructor
  · rintro ⟨r, hr, hplace⟩ hhas
    rw [(steady_scanArea walkable sx sy y).unique hr hends] at hplace
    have hnear := (hplace hhas).1.1
    rw [toNat_sub_two_of_lt h] at hnear
    omega
  · intro hnot
    exact ⟨_, hends, fun hhas => absurd hhas hnot⟩

/-- A scan that has gone through all columns has left the area. -/
theorem not_isPlace_of_end {d t : UInt8} (hd : d.toNat = sx.toNat + 3) :
    ¬ IsPlace walkable sx sy d t := by
  rintro ⟨⟨hle, -⟩, -, -⟩
  omega

/-- Above the second row no column is gone through. -/
theorem scans_top (y : UInt8) (hx : 2 ≤ sx.toNat) (hy : sy.toNat < 2) :
    Scans walkable sx sy y ↔ sx.toNat < 253 ∧ ¬ HasPlace walkable sx sy := by
  have hcolumn : ∀ x, Returns (fun fuel => (scanColumn (walkable x) sy fuel).map
      fun r => (r.1, r.2.1)) (false, sy - 2) :=
    fun x => returns_map.mpr ⟨_, column_low hy, rfl⟩
  have hsub := toNat_sub_two hx
  by_cases hlt : sx.toNat < 253
  · obtain ⟨d, t, hd, hends⟩ := returns_end (sx.toNat + 2)
      (fun x _ fuel => (scanColumn (walkable x) sy fuel).map fun r => (r.1, r.2.1))
      (c := sx - 2) (fun x _ => steady_columns x) (by omega) (by omega)
      (fun e _ _ => ⟨fun _ => ⟨_, hcolumn e⟩, rfl⟩) y
    constructor
    · rintro ⟨r, hr, hplace⟩
      rw [(steady_scanArea walkable sx sy y).unique hr hends] at hplace
      exact ⟨hlt, fun hhas => not_isPlace_of_end hd (hplace hhas)⟩
    · rintro ⟨-, hnot⟩
      exact ⟨_, hends, fun hhas => absurd hhas hnot⟩
  · constructor
    · rintro ⟨r, hr, -⟩
      refine absurd hr (not_returns_of_none fun fuel => ?_)
      apply loop_none_of_never (by omega)
      intro x y fuel r hr
      rw [(steady_columns x).unique ⟨fuel, hr⟩ (hcolumn x)]
    · rintro ⟨hlt', -⟩
      exact absurd hlt' hlt

theorem column_found {x u : UInt8} (hy : 2 ≤ sy.toNat) (hlt : sy.toNat < 253)
    (h : Returns (fun fuel => (scanColumn (walkable x) sy fuel).map fun r => (r.1, r.2.1))
      (true, u)) : Near sy u ∧ walkable x u = true := by
  by_cases hany : ∃ y, Near sy y ∧ walkable x y = true
  · obtain ⟨y, hnear, hW⟩ := hany
    obtain ⟨z, hz, hWz, hret⟩ := column_near hy hnear hW
    have heq := (steady_columns x).unique h (returns_map.mpr ⟨_, hret, rfl⟩)
    rw [(Prod.mk.inj heq).2]
    exact ⟨hz, hWz⟩
  · obtain ⟨z, hret⟩ := column_none (W := walkable x) hy hlt fun y hnear =>
      Bool.eq_false_iff.mpr fun hW => hany ⟨y, hnear, hW⟩
    have heq := (steady_columns x).unique h (returns_map.mpr ⟨_, hret, rfl⟩)
    cases (Prod.mk.inj heq).1

/-- Which columns have a walkable tile in the rows of the area. -/
theorem exists_found (walkable : UInt8 → UInt8 → Bool) (sy : UInt8) : ∃ found : UInt8 → Bool,
    ∀ x, found x = true ↔ ∃ y, Near sy y ∧ walkable x y = true := by
  refine ⟨fun x => @decide _ (Classical.propDecidable (∃ y, Near sy y ∧ walkable x y = true)), ?_⟩
  intro x
  exact @decide_eq_true_iff _ (Classical.propDecidable _)

/-- Between the ends, a column finds what is near. -/
theorem decides_column {found : UInt8 → Bool} (hy : 2 ≤ sy.toNat) (hlt : sy.toNat < 253)
    (hfound : ∀ x, found x = true ↔ ∃ y, Near sy y ∧ walkable x y = true) (x : UInt8) :
    Decides (fun x (_ : UInt8) fuel => (scanColumn (walkable x) sy fuel).map fun r => (r.1, r.2.1))
      found x := by
  intro _
  cases hx : found x with
  | true =>
      obtain ⟨y, hnear, hW⟩ := (hfound x).mp hx
      obtain ⟨z, -, -, hret⟩ := column_near hy hnear hW
      exact ⟨z, returns_map.mpr ⟨_, hret, rfl⟩⟩
  | false =>
      obtain ⟨z, hret⟩ := column_none (W := walkable x) hy hlt fun y hnear =>
        Bool.eq_false_iff.mpr fun hW => Bool.eq_false_iff.mp hx ((hfound x).mpr ⟨y, hnear, hW⟩)
      exact ⟨z, returns_map.mpr ⟨_, hret, rfl⟩⟩

theorem scans_middle (y : UInt8) (hx : 2 ≤ sx.toNat) (hy : 2 ≤ sy.toNat) (hlt : sy.toNat < 253) :
    Scans walkable sx sy y ↔ sx.toNat < 253 ∨ ∃ x y, Near sy y ∧ walkable x y = true := by
  obtain ⟨found, hfounds⟩ := exists_found walkable sy
  have hsub := toNat_sub_two hx
  by_cases hhas : HasPlace walkable sx sy
  · obtain ⟨x, z, ⟨hle, hge⟩, hnear, hW⟩ := hhas
    obtain ⟨e, t, u, hse, hex, hfound, hends⟩ := returns_first (sx.toNat + 2)
      (fun x _ fuel => (scanColumn (walkable x) sy fuel).map fun r => (r.1, r.2.1))
      (c := sx - 2) (d := x) (fun x _ => steady_columns x) (by omega) hle
      (fun e _ _ => decides_column hy hlt hfounds e) ((hfounds x).mpr ⟨z, hnear, hW⟩) y
    have hplace : IsPlace walkable sx sy e u :=
      ⟨⟨by omega, by omega⟩, column_found hy hlt hfound⟩
    exact ⟨fun _ => Or.inr ⟨x, z, hnear, hW⟩, fun _ => ⟨_, hends, fun _ => hplace⟩⟩
  · have hends : Scans walkable sx sy y ↔ ∃ r, Returns (scanArea walkable sx sy y) r :=
      ⟨fun ⟨r, hr, _⟩ => ⟨r, hr⟩, fun ⟨r, hr⟩ => ⟨r, hr, fun h => absurd h hhas⟩⟩
    rw [hends]
    by_cases hsx : sx.toNat < 253
    · refine iff_of_true ?_ (Or.inl hsx)
      obtain ⟨d, t, -, hends⟩ := returns_end (sx.toNat + 2)
        (fun x _ fuel => (scanColumn (walkable x) sy fuel).map fun r => (r.1, r.2.1))
        (c := sx - 2) (fun x _ => steady_columns x) (by omega) (by omega)
        (fun e he hle => ⟨decides_column hy hlt hfounds e, Bool.eq_false_iff.mpr fun htrue =>
          (hfounds e).mp htrue |>.elim fun z hz => hhas ⟨e, z, ⟨hle, by omega⟩, hz⟩⟩) y
      exact ⟨_, hends⟩
    · rw [or_iff_right hsx]
      constructor
      · rintro ⟨r, hr⟩
        by_contra hnone
        refine not_returns_of_none (fun fuel => ?_) hr
        apply loop_none_of_never (by omega)
        intro x _ fuel r hr
        obtain ⟨z, hret⟩ := column_none (W := walkable x) hy hlt fun y hnear =>
          Bool.eq_false_iff.mpr fun hW => hnone ⟨x, y, hnear, hW⟩
        rw [(steady_columns x).unique ⟨fuel, hr⟩ (returns_map.mpr ⟨_, hret, rfl⟩)]
      · rintro ⟨x, z, hnear, hW⟩
        obtain ⟨e, t, u, -, hends⟩ := returns_round (sx.toNat + 2)
          (fun x _ fuel => (scanColumn (walkable x) sy fuel).map fun r => (r.1, r.2.1))
          (d := x) (fun x _ => steady_columns x) (by omega)
          (fun e => decides_column hy hlt hfounds e) ((hfounds x).mpr ⟨z, hnear, hW⟩) (sx - 2) y
        exact ⟨_, hends⟩

/-- Below the last rows a column is gone through until something is found in it. -/
theorem scans_bottom (y : UInt8) (hx : 2 ≤ sx.toNat) (hy : 253 ≤ sy.toNat) :
    Scans walkable sx sy y ↔ (∃ y, walkable (sx - 2) y = true) ∧
      (HasPlace walkable sx sy → ∃ y, Near sy y ∧ walkable (sx - 2) y = true) := by
  have hsub := toNat_sub_two hx
  have hnearx : Near sx (sx - 2) := ⟨by omega, by omega⟩
  have hfirst : ∀ {z}, Returns (scanColumn (walkable (sx - 2)) sy) (true, z, ()) →
      Returns (scanArea walkable sx sy y) (true, sx - 2, z) := fun {z} h =>
    returns_found (by omega) (returns_map.mpr ⟨_, h, rfl⟩)
  by_cases hany : ∃ z, walkable (sx - 2) z = true
  · rw [and_iff_right hany]
    by_cases hnear : ∃ z, Near sy z ∧ walkable (sx - 2) z = true
    · refine iff_of_true ?_ fun _ => hnear
      obtain ⟨z, hz, hW⟩ := hnear
      obtain ⟨u, hu, hWu, hret⟩ := column_near (by omega) hz hW
      exact ⟨_, hfirst hret, fun _ => ⟨hnearx, hu, hWu⟩⟩
    · obtain ⟨z, hW⟩ := hany
      obtain ⟨u, hWu, hret⟩ := column_round hy hW
      constructor
      · rintro ⟨r, hr, hplace⟩ hhas
        rw [(steady_scanArea walkable sx sy y).unique hr (hfirst hret)] at hplace
        exact ⟨u, (hplace hhas).2⟩
      · intro h
        exact ⟨_, hfirst hret, fun hhas => absurd (h hhas) hnear⟩
  · refine iff_of_false ?_ fun h => hany h.1
    rintro ⟨r, hr, -⟩
    refine not_returns_of_none (fun fuel => ?_) hr
    apply loop_none_of_body (by omega)
    intro fuel
    rw [column_never hy (fun z => Bool.eq_false_iff.mpr fun hW => hany ⟨z, hW⟩), Option.map_none]

theorem scans_iff (y : UInt8) : Scans walkable sx sy y ↔ Scannable walkable sx sy := by
  unfold Scannable
  by_cases hx : sx.toNat < 2
  · rw [scans_left y hx]
    have hnot : ¬ 2 ≤ sx.toNat := by omega
    simp only [hx, hnot, true_or, true_and, false_and, or_false]
  · have hx' : 2 ≤ sx.toNat := by omega
    by_cases hy : sy.toNat < 2
    · rw [scans_top y hx' hy]
      have hnot : ¬ 2 ≤ sy.toNat := by omega
      have hnot' : ¬ 253 ≤ sy.toNat := by omega
      simp only [hx, hy, hnot, hnot', false_or, true_and, false_and, and_false, or_false]
    · by_cases hlt : sy.toNat < 253
      · rw [scans_middle y hx' (by omega) hlt]
        have hy' : 2 ≤ sy.toNat := by omega
        have hnot' : ¬ 253 ≤ sy.toNat := by omega
        simp only [hx, hy, hx', hy', hlt, hnot', false_or, true_and, false_and, and_false, or_false]
      · rw [scans_bottom y hx' (by omega)]
        have hy' : 253 ≤ sy.toNat := by omega
        simp only [hx, hy, hx', hy', hlt, false_or, true_and, false_and, and_false]

end Scan

/-! ## NPCs that are spawned -/

/-- An NPC that is to be spawned: the one itself, or a child of it. -/
structure SpawnTurn where
  npc : ℕ
  own : Bool
  hasParent : Bool
  draws : Draws

namespace SpawnGround
variable (g : SpawnGround)

def setNpc (j : ℕ) (npc : SpawningNpc) : SpawnGround := { g with npcs := update g.npcs j npc }

def view : WalkMap :=
  { g.map with npcs := (List.range g.count).map fun j => (g.npcs j).toWalkingNpc }

def standing (j : ℕ) (x y : UInt8) : SpawnGround :=
  g.setNpc j { g.npcs j with x := x, y := y }

/-- `Walkable`, with the NPC on the tile already. -/
def fits (j : ℕ) (x y : UInt8) : Bool :=
  (g.standing j x y).view.walkable g.ghostArena true x y

def crowded (j : ℕ) (x y : UInt8) : Bool := (g.standing j x y).view.occupiedByNpc x y

def attempt (j : ℕ) (draws : Draws) (i : ℕ) : UInt8 × UInt8 :=
  let npc := g.npcs j
  if npc.temporary && i == 0 then (npc.spawnX, npc.spawnY)
  else (UInt8.ofInt ((npc.spawnX.toNat : ℤ) - 2 + (draws i).1.val),
    UInt8.ofInt ((npc.spawnY.toNat : ℤ) - 2 + (draws i).2.val))

def accepts (j : ℕ) (draws : Draws) (i : ℕ) : Bool :=
  let tile := g.attempt j draws i
  g.fits j tile.1 tile.2 && (100 < i || !g.crowded j tile.1 tile.2)

/-- The first of 200 attempts that succeeds. -/
def tried (j : ℕ) (draws : Draws) : Option ℕ := (List.range 200).find? (g.accepts j draws)

def rise (j : ℕ) : SpawnGround := g.setNpc j { g.npcs j with alive := true }

/-- What `Spawn` does with an NPC itself. The scan begins with the row of the last attempt. -/
def place (j : ℕ) (draws : Draws) (fuel : ℕ) : Option SpawnGround :=
  if (g.npcs j).spawnType < 7 then
    (g.tried j draws).elim
      ((scanArea (g.fits j) (g.npcs j).spawnX (g.npcs j).spawnY (g.attempt j draws 199).2
          fuel).map fun r => (g.standing j r.2.1 r.2.2).rise j)
      fun i =>
        some ((g.standing j (g.attempt j draws i).1 (g.attempt j draws i).2).rise j)
  else some (g.rise j)

def adopted (t : SpawnTurn) : SpawnGround :=
  if t.hasParent then g.setNpc t.npc { g.npcs t.npc with hasParent := true } else g

/-- The NPC itself, and of the others the children that are dead. -/
def due (t : SpawnTurn) : Bool :=
  t.own || ((g.npcs t.npc).child && !(g.npcs t.npc).alive)

def turn (t : SpawnTurn) (fuel : ℕ) : Option SpawnGround :=
  if g.due t then (g.adopted t).place t.npc t.draws fuel else some g

/-- Those who get a turn when an NPC is spawned, with or without a parent. -/
def spawnTurns (k : ℕ) (parent : Bool) (draws : ℕ → Draws) : List SpawnTurn :=
  if (g.npcs k).alive then []
  else
    (if (g.npcs k).boss && !parent then
        (List.range g.count).map fun j => ⟨j, false, true, draws j⟩
      else []) ++ [⟨k, true, parent, draws g.count⟩]

def takeTurns : List SpawnTurn → SpawnGround → ℕ → Option SpawnGround
  | [], g, _ => some g
  | t :: rest, g, fuel => (g.turn t fuel).bind fun next => takeTurns rest next fuel

/-- `NPC::Spawn`. -/
def spawn (k : ℕ) (parent : Bool) (draws : ℕ → Draws) (fuel : ℕ) : Option SpawnGround :=
  takeTurns (g.spawnTurns k parent draws) g fuel

/-- In each turn, and in what it begins with. -/
def EachTurn (P : SpawnGround → SpawnTurn → Prop) : List SpawnTurn → SpawnGround → Prop
  | [], _ => True
  | t :: rest, g => P g t ∧ ∀ next, Returns (g.turn t) next → EachTurn P rest next

/-- The NPC has 200 attempts, and all of them fail. -/
def AttemptsFail (t : SpawnTurn) : Prop :=
  (g.npcs t.npc).spawnType < 7 ∧ g.tried t.npc t.draws = none

/-- An NPC whose attempts have failed is on a walkable tile of its area, where there is one. -/
def Lands (t : SpawnTurn) : Prop :=
  g.due t = true → (g.adopted t).AttemptsFail t →
    HasPlace ((g.adopted t).fits t.npc) (g.npcs t.npc).spawnX (g.npcs t.npc).spawnY →
    ∀ next, Returns (g.turn t) next →
      IsPlace ((g.adopted t).fits t.npc) (g.npcs t.npc).spawnX (g.npcs t.npc).spawnY
        (next.npcs t.npc).x (next.npcs t.npc).y

def Fits (t : SpawnTurn) : Prop :=
  g.due t = true → (g.adopted t).AttemptsFail t →
    Scannable ((g.adopted t).fits t.npc) (g.npcs t.npc).spawnX (g.npcs t.npc).spawnY

/-- `Spawn` ends, and each NPC of it lands. -/
structure SpawnsRight (k : ℕ) (parent : Bool) (draws : ℕ → Draws) : Prop where
  ends : ∃ next, Returns (g.spawn k parent draws) next
  lands : EachTurn Lands (g.spawnTurns k parent draws) g

variable {g} {t : SpawnTurn}

/-- A dead NPC is in nobody's way, so that its own place does not matter. -/
theorem fits_of_dead {j : ℕ} (h : (g.npcs j).alive = false) (x y : UInt8) :
    g.fits j x y = g.view.walkable g.ghostArena true x y := by
  have hocc : (g.standing j x y).view.occupied true false x y = g.view.occupied true false x y := by
    have hany : ((g.standing j x y).view.npcs.any fun n => n.alive && n.x = x && n.y = y) =
        g.view.npcs.any fun n => n.alive && n.x = x && n.y = y := by
      unfold view standing setNpc
      rw [List.any_map, List.any_map]
      apply congrArg (List.any (List.range g.count))
      funext i
      by_cases hi : i = j
      · simp only [Function.comp_apply, hi, update_self, h, Bool.false_and]
      · simp only [Function.comp_apply, update_of_ne hi]
    unfold WalkMap.occupied
    rw [hany]
    rfl
  unfold fits WalkMap.walkable
  rw [hocc]
  rfl

theorem steady_place (j : ℕ) (draws : Draws) : Steady (g.place j draws) := by
  intro fuel r
  unfold place
  split_ifs with htype
  · cases g.tried j draws with
    | none => exact (steady_scanArea _ _ _ _).map _ fuel r
    | some i => exact id
  · exact id

theorem steady_turn (t : SpawnTurn) : Steady (g.turn t) := by
  intro fuel r
  unfold turn
  split_ifs with hdue
  · exact steady_place t.npc t.draws fuel r
  · exact id

theorem steady_takeTurns (turns : List SpawnTurn) (g : SpawnGround) :
    Steady (takeTurns turns g) := by
  induction turns generalizing g with
  | nil => exact steady_const
  | cons t rest ih => exact (steady_turn t).bind ih

/-- Turns that all end. -/
theorem takeTurns_ends_iff (turns : List SpawnTurn) (g : SpawnGround) :
    (∃ last, Returns (takeTurns turns g) last) ↔
      EachTurn (fun g t => ∃ next, Returns (g.turn t) next) turns g := by
  induction turns generalizing g with
  | nil => exact iff_of_true ⟨g, 0, rfl⟩ trivial
  | cons t rest ih =>
      have hbind : ∀ last, Returns (takeTurns (t :: rest) g) last ↔
          ∃ next, Returns (g.turn t) next ∧ Returns (takeTurns rest next) last :=
        fun last => returns_bind (steady_turn t) (steady_takeTurns rest)
      simp only [hbind, EachTurn]
      constructor
      · rintro ⟨last, next, hnext, hlast⟩
        refine ⟨⟨next, hnext⟩, fun other hother => ?_⟩
        rw [(steady_turn t).unique hother hnext]
        exact (ih next).mp ⟨last, hlast⟩
      · rintro ⟨⟨next, hnext⟩, hrest⟩
        obtain ⟨last, hlast⟩ := (ih next).mpr (hrest next hnext)
        exact ⟨last, next, hnext, hlast⟩

theorem eachTurn_and {P Q : SpawnGround → SpawnTurn → Prop} (turns : List SpawnTurn)
    (g : SpawnGround) :
    EachTurn P turns g ∧ EachTurn Q turns g ↔ EachTurn (fun g t => P g t ∧ Q g t) turns g := by
  induction turns generalizing g with
  | nil => exact and_self_iff
  | cons t rest ih =>
      simp only [EachTurn, ← ih]
      constructor
      · rintro ⟨⟨hp, hps⟩, hq, hqs⟩
        exact ⟨⟨hp, hq⟩, fun next hnext => ⟨hps next hnext, hqs next hnext⟩⟩
      · rintro ⟨⟨hp, hq⟩, hrest⟩
        exact ⟨⟨hp, fun next hnext => (hrest next hnext).1⟩, hq, fun next hnext =>
          (hrest next hnext).2⟩

theorem eachTurn_congr {P Q : SpawnGround → SpawnTurn → Prop} (h : ∀ g t, P g t ↔ Q g t)
    (turns : List SpawnTurn) (g : SpawnGround) : EachTurn P turns g ↔ EachTurn Q turns g := by
  have heq : P = Q := funext fun g => funext fun t => propext (h g t)
  rw [heq]

theorem spawn_adopted (t : SpawnTurn) :
    ((g.adopted t).npcs t.npc).spawnX = (g.npcs t.npc).spawnX ∧
      ((g.adopted t).npcs t.npc).spawnY = (g.npcs t.npc).spawnY := by
  unfold adopted
  split_ifs
  · simp only [setNpc, update_self, and_self]
  · exact ⟨rfl, rfl⟩

/-- A turn ends and puts its NPC right exactly where the scan would. -/
theorem turn_right_iff (g : SpawnGround) (t : SpawnTurn) :
    ((∃ next, Returns (g.turn t) next) ∧ g.Lands t) ↔ g.Fits t := by
  obtain ⟨hx, hy⟩ := spawn_adopted (g := g) t
  unfold Lands Fits
  by_cases hdue : g.due t = true
  · have hturn : g.turn t = (g.adopted t).place t.npc t.draws := by
      funext fuel
      exact if_pos hdue
    rw [hturn]
    simp only [hdue, true_imp_iff]
    by_cases hfail : (g.adopted t).AttemptsFail t
    · obtain ⟨htype, htried⟩ := hfail
      have hplace : (g.adopted t).place t.npc t.draws = fun fuel =>
          (scanArea ((g.adopted t).fits t.npc) (g.npcs t.npc).spawnX (g.npcs t.npc).spawnY
            ((g.adopted t).attempt t.npc t.draws 199).2 fuel).map fun r =>
              ((g.adopted t).standing t.npc r.2.1 r.2.2).rise t.npc := by
        funext fuel
        unfold place
        rw [if_pos htype, htried, Option.elim_none, hx, hy]
      have hat : ∀ r : Bool × UInt8 × UInt8,
          ((((g.adopted t).standing t.npc r.2.1 r.2.2).rise t.npc).npcs t.npc).x = r.2.1 ∧
            ((((g.adopted t).standing t.npc r.2.1 r.2.2).rise t.npc).npcs t.npc).y = r.2.2 := by
        intro r
        simp only [rise, standing, setNpc, update_self, and_self]
      have hscan := steady_scanArea ((g.adopted t).fits t.npc) (g.npcs t.npc).spawnX
        (g.npcs t.npc).spawnY ((g.adopted t).attempt t.npc t.draws 199).2
      rw [hplace, ← scans_iff ((g.adopted t).attempt t.npc t.draws 199).2]
      simp only [returns_map]
      constructor
      · rintro ⟨⟨next, r, hr, -⟩, hlands⟩ -
        refine ⟨r, hr, fun hhas => ?_⟩
        have hplaced := hlands ⟨htype, htried⟩ hhas _ ⟨r, hr, rfl⟩
        rwa [(hat r).1, (hat r).2] at hplaced
      · intro h
        obtain ⟨r, hr, hplaced⟩ := h ⟨htype, htried⟩
        refine ⟨⟨_, r, hr, rfl⟩, ?_⟩
        rintro - hhas next ⟨other, hother, rfl⟩
        rw [hscan.unique hother hr, (hat r).1, (hat r).2]
        exact hplaced hhas
    · refine iff_of_true ⟨?_, fun h => absurd h hfail⟩ fun h => absurd h hfail
      unfold place
      by_cases htype : ((g.adopted t).npcs t.npc).spawnType < 7
      · cases htried : (g.adopted t).tried t.npc t.draws with
        | none => exact absurd ⟨htype, htried⟩ hfail
        | some i =>
            simp only [if_pos htype, Option.elim_some, returns_const]
            exact ⟨_, rfl⟩
      · simp only [if_neg htype, returns_const]
        exact ⟨_, rfl⟩
  · refine iff_of_true ⟨⟨g, 0, if_neg hdue⟩, fun h => absurd h hdue⟩ fun h => absurd h hdue

/-- `NPC::Spawn` does what it is for where every scan that it comes to is away from the ends of the
bytes, or what is walkable beside them does not matter. -/
theorem spawnsRight_iff (g : SpawnGround) (k : ℕ) (parent : Bool) (draws : ℕ → Draws) :
    g.SpawnsRight k parent draws ↔ EachTurn Fits (g.spawnTurns k parent draws) g := by
  rw [← eachTurn_congr turn_right_iff, ← eachTurn_and, ← takeTurns_ends_iff]
  constructor
  · rintro ⟨hends, hlands⟩
    exact ⟨hends, hlands⟩
  · rintro ⟨hends, hlands⟩
    exact ⟨hends, hlands⟩

/-- A meadow with an NPC that belongs beside its corner. -/
def corner : SpawnGround where
  map :=
    { width := 10, height := 10, tilespec := fun _ _ => .none, warp := fun _ _ => none
      characters := [], npcs := [], items := [] }
  ghostArena := false
  count := 1
  npcs _ :=
    { index := 1, x := 1, y := 1, alive := false, aggressive := false, hasParent := false
      spawnX := 1, spawnY := 1, spawnType := 0, temporary := false, boss := false, child := false }

/-- All draws are the lowest ones, which are beyond the edge, and the scan begins there. -/
theorem not_spawnsRight_corner : ¬ corner.SpawnsRight 0 false fun _ _ => (0, 0) := by
  intro h
  have hlands : corner.Lands ⟨0, true, false, fun _ => (0, 0)⟩ := h.lands.1
  have htried : corner.tried 0 (fun _ => (0, 0)) = none :=
    List.find?_eq_none.mpr fun i _ => Bool.false_ne_true
  have hturn : corner.turn ⟨0, true, false, fun _ => (0, 0)⟩ 1 =
      some ((corner.standing 0 255 255).rise 0) := by
    change corner.place 0 (fun _ => (0, 0)) 1 = _
    unfold place
    rw [htried]
    rfl
  have hplace : IsPlace (corner.fits 0) 1 1 1 1 := ⟨by decide, by decide, rfl⟩
  have hnear := (hlands rfl ⟨by decide, htried⟩ ⟨1, 1, hplace⟩ _ ⟨1, hturn⟩).1
  exact absurd hnear (by decide)

end SpawnGround

end ArenaServ
