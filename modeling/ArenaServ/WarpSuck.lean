import ArenaServ.MapMembership
import ArenaServ.Throttle
import Mathlib.Algebra.Order.Ring.Rat
import Mathlib.Data.List.Flatten
import Mathlib.Tactic.NormNum

/-!
# Warps that draw in whoever stands beside them

`world_warp_suck` looks for warps on and around every character that has not walked for a while. It
collects what it finds on all maps and warps afterwards. A tile that has a warp does not keep the
next one from being looked at, so a character between two warps is warped twice.
-/

namespace ArenaServ
open Function

inductive WarpSpec where
  | noDoor
  | door
  | lockedSilver
  | lockedCrystal
  | lockedWraith
  deriving DecidableEq, Repr

/-- A tile whose warp leads to map 0 has none. -/
structure MapWarp where
  map : ℤ
  x : UInt8
  y : UInt8
  levelreq : UInt8
  spec : WarpSpec
  deriving DecidableEq, Repr

structure WarpMap where
  width : UInt8
  height : UInt8
  warp : UInt8 → UInt8 → MapWarp
  evacuateLock : Bool

structure SuckedCharacter where
  x : UInt8
  y : UInt8
  level : UInt8
  /-- `SourceAccess()`. -/
  access : ℕ
  lastWalk : ℚ
  deriving DecidableEq

structure WarpSuckAction where
  character : ℕ
  map : ℤ
  x : UInt8
  y : UInt8
  deriving DecidableEq, Repr

structure SuckWorld where
  places : MapPlaces
  maps : ℕ → WarpMap
  characters : ℕ → SuckedCharacter

def adminGuide : ℕ := 1

namespace WarpMap

variable (m : WarpMap)

def inBounds (x y : UInt8) : Bool := !(x ≥ m.width || y ≥ m.height)

/-- A warp that draws in a character of a level. -/
def sucks (level x y : UInt8) : Bool :=
  let warp := m.warp x y
  !(warp.map = 0 || level < warp.levelreq || (warp.spec ≠ .door && warp.spec ≠ .noDoor))

/-- The action for the warp of a tile. -/
def action (c : ℕ) (x y : UInt8) : WarpSuckAction :=
  ⟨c, (m.warp x y).map, (m.warp x y).x, (m.warp x y).y⟩

def checkWarp (c : ℕ) (level : UInt8) (test : Bool) (x y : UInt8) : List WarpSuckAction :=
  if !test || !m.inBounds x y then []
  else if !m.sucks level x y then []
  else [m.action c x y]

end WarpMap

/-- Who has been looked at at which time, and what has been collected. -/
structure WarpSuckScan where
  lastWalk : ℕ → ℚ
  actions : List WarpSuckAction

/-- The world while the actions are carried out, and those that have been. -/
structure WarpSuckRun where
  world : SuckWorld
  warped : List WarpSuckAction

namespace SuckWorld

variable (w : SuckWorld)

def checkWarps (m c : ℕ) : List WarpSuckAction :=
  let map := w.maps m
  let character := w.characters c
  map.checkWarp c character.level true character.x character.y ++
    map.checkWarp c character.level (0 < character.x) (character.x - 1) character.y ++
    map.checkWarp c character.level (character.x < map.width) (character.x + 1) character.y ++
    map.checkWarp c character.level (0 < character.y) character.x (character.y - 1) ++
    map.checkWarp c character.level (character.y < map.height) character.x (character.y + 1)

def suckCharacter (delay now : ℚ) (m : ℕ) (s : WarpSuckScan) (c : ℕ) : WarpSuckScan :=
  if now ≤ s.lastWalk c + delay then s
  else ⟨update s.lastWalk c now, s.actions ++ w.checkWarps m c⟩

/-- The maps are numbered from 1. -/
def scan (delay now : ℚ) : WarpSuckScan :=
  (List.range' 1 w.places.size).foldl
    (fun s m => (w.places.maps m).characters.foldl (w.suckCharacter delay now m) s)
    ⟨fun c => (w.characters c).lastWalk, []⟩

/-- The evacuation of the map that an action leads to turns those away that are not guides. -/
def blocked (a : WarpSuckAction) : Bool :=
  (w.characters a.character).access < adminGuide &&
    (w.maps (w.places.getMap a.map)).evacuateLock

/-- What `Character::Warp` does on a map that there is, to where the character enters it. -/
def warp (a : WarpSuckAction) (time : ℚ) : SuckWorld :=
  { w with
    places := w.places.warp a.character a.map
    characters := update w.characters a.character
      { w.characters a.character with x := a.x, y := a.y, lastWalk := time } }

end SuckWorld

/-- What the quests of a character do when it has entered a map. They may warp it as well. The maps
and who is an admin are left alone by them. -/
structure Arrival where
  run : SuckWorld → ℕ → SuckWorld
  size : ∀ w c, (run w c).places.size = w.places.size
  existing : ∀ w c m, ((run w c).places.maps m).existing = (w.places.maps m).existing
  maps : ∀ w c, (run w c).maps = w.maps
  access : ∀ w c d, ((run w c).characters d).access = (w.characters d).access

namespace SuckWorld

/-- The times at which the warps happen come from a clock. -/
def act (arrival : Arrival) (clock : ℕ → ℚ) (s : WarpSuckRun) (a : WarpSuckAction) :
    WarpSuckRun :=
  if s.world.blocked a then s
  else if s.world.places.canWarp a.map then
    ⟨arrival.run (s.world.warp a (clock s.warped.length)) a.character, s.warped ++ [a]⟩
  else s

/-- `world_warp_suck`. -/
def warpSuck (w : SuckWorld) (arrival : Arrival) (clock : ℕ → ℚ) (delay now : ℚ) : WarpSuckRun :=
  let scan := w.scan delay now
  scan.actions.foldl (act arrival clock)
    ⟨{ w with characters := fun c => { w.characters c with lastWalk := scan.lastWalk c } }, []⟩

/-! ## What is promised -/

/-- A tile is the one a character stands on, or one of the four beside it. -/
def Beside (character : SuckedCharacter) (x y : UInt8) : Prop :=
  (x = character.x ∧ (y.toNat = character.y.toNat ∨ y.toNat + 1 = character.y.toNat ∨
    y.toNat = character.y.toNat + 1)) ∨
  (y = character.y ∧ (x.toNat + 1 = character.x.toNat ∨ x.toNat = character.x.toNat + 1))

/-- Each character is warped once at most, by a warp on or beside the tile where it stood, on a map
where it was. -/
structure SucksOnce (w : SuckWorld) (warped : List WarpSuckAction) : Prop where
  once : ∀ c, (warped.filter (·.character = c)).length ≤ 1
  beside : ∀ a ∈ warped, ∃ m x y, a.character ∈ (w.places.maps m).characters ∧
    (0 < m ∧ m ≤ w.places.size) ∧ Beside (w.characters a.character) x y ∧
    (w.maps m).inBounds x y = true ∧ ((w.maps m).warp x y).map ≠ 0 ∧
    a = (w.maps m).action a.character x y

variable (w : SuckWorld)

/-- The maps that list a character, once for each time that they do. -/
def standing (c : ℕ) : List ℕ :=
  (List.range' 1 w.places.size).flatMap fun m =>
    List.replicate ((w.places.maps m).characters.count c) m

/-- Those of them on which a character is looked at. -/
def looked (delay now : ℚ) (c : ℕ) : List ℕ :=
  Throttle.admitted (fun lastWalk => decide (lastWalk + delay < now)) now (w.characters c).lastWalk
    (w.standing c)

/-- The tile of a character and those beside it. -/
def around (m c : ℕ) : List (UInt8 × UInt8) :=
  let map := w.maps m
  let character := w.characters c
  [(character.x, character.y)] ++
    (if 0 < character.x then [(character.x - 1, character.y)] else []) ++
    (if character.x < map.width then [(character.x + 1, character.y)] else []) ++
    (if 0 < character.y then [(character.x, character.y - 1)] else []) ++
    (if character.y < map.height then [(character.x, character.y + 1)] else [])

/-- A warp of a tile takes a character, and where it leads lets the character in. -/
def pulls (m c : ℕ) (tile : UInt8 × UInt8) : Bool :=
  (w.maps m).inBounds tile.1 tile.2 && (w.maps m).sucks (w.characters c).level tile.1 tile.2 &&
    !w.blocked ((w.maps m).action c tile.1 tile.2) &&
    w.places.canWarp ((w.maps m).warp tile.1 tile.2).map

def pulling (m c : ℕ) : List (UInt8 × UInt8) := (w.around m c).filter (w.pulls m c)

/-! ## What is collected -/

variable {w} {delay now : ℚ} {m c : ℕ}

theorem checkWarp_eq (map : WarpMap) (c : ℕ) (level : UInt8) (test : Bool) (x y : UInt8) :
    map.checkWarp c level test x y =
      ((if test = true then [(x, y)] else []).filter fun tile =>
        map.inBounds tile.1 tile.2 && map.sucks level tile.1 tile.2).map fun tile =>
          map.action c tile.1 tile.2 := by
  unfold WarpMap.checkWarp
  cases test with
  | false => rfl
  | true =>
      rw [if_pos rfl, List.filter_cons, List.filter_nil]
      cases map.inBounds x y with
      | false => rfl
      | true =>
          cases map.sucks level x y with
          | false => rfl
          | true => rfl

theorem checkWarps_eq (w : SuckWorld) (m c : ℕ) :
    w.checkWarps m c = ((w.around m c).filter fun tile => (w.maps m).inBounds tile.1 tile.2 &&
      (w.maps m).sucks (w.characters c).level tile.1 tile.2).map fun tile =>
        (w.maps m).action c tile.1 tile.2 := by
  unfold checkWarps around
  simp only [checkWarp_eq, List.filter_append, List.map_append, decide_eq_true_eq, if_true]

theorem character_of_mem_checkWarps {a : WarpSuckAction} (h : a ∈ w.checkWarps m c) :
    a.character = c := by
  rw [checkWarps_eq] at h
  obtain ⟨tile, -, rfl⟩ := List.mem_map.mp h
  rfl

/-- Of the characters that the maps list, one after the other. -/
def visits (w : SuckWorld) : List (ℕ × ℕ) :=
  (List.range' 1 w.places.size).flatMap fun m => (w.places.maps m).characters.map fun c => (m, c)

/-- What has been scanned, as throttled visits. -/
def throttle (s : WarpSuckScan) : Throttle ℕ ℚ WarpSuckAction := ⟨s.lastWalk, s.actions⟩

theorem throttle_suckCharacter (s : WarpSuckScan) :
    throttle (w.suckCharacter delay now m s c) =
      Throttle.visit (fun lastWalk => decide (lastWalk + delay < now)) now Prod.snd
        (fun v => w.checkWarps v.1 v.2) (throttle s) (m, c) := by
  unfold suckCharacter Throttle.visit throttle
  dsimp only
  by_cases h : now ≤ s.lastWalk c + delay
  · rw [if_pos h, if_neg (by simpa using h)]
  · rw [if_neg h, if_pos (by simpa using h)]

theorem throttle_scan (w : SuckWorld) (delay now : ℚ) :
    throttle (w.scan delay now) =
      w.visits.foldl (Throttle.visit (fun lastWalk => decide (lastWalk + delay < now)) now Prod.snd
        fun v => w.checkWarps v.1 v.2) ⟨fun c => (w.characters c).lastWalk, []⟩ := by
  have hmap : ∀ (m : ℕ) (l : List ℕ) (s : WarpSuckScan),
      throttle (l.foldl (w.suckCharacter delay now m) s) =
        (l.map fun c => (m, c)).foldl (Throttle.visit (fun lastWalk =>
          decide (lastWalk + delay < now)) now Prod.snd fun v => w.checkWarps v.1 v.2)
            (throttle s) := by
    intro m l
    induction l with
    | nil => exact fun _ => rfl
    | cons c rest ih =>
        intro s
        rw [List.foldl_cons, ih, throttle_suckCharacter, List.map_cons, List.foldl_cons]
  have hmaps : ∀ (l : List ℕ) (s : WarpSuckScan),
      throttle (l.foldl (fun s m =>
        (w.places.maps m).characters.foldl (w.suckCharacter delay now m) s) s) =
        (l.flatMap fun m => (w.places.maps m).characters.map fun c => (m, c)).foldl
          (Throttle.visit (fun lastWalk => decide (lastWalk + delay < now)) now Prod.snd
            fun v => w.checkWarps v.1 v.2) (throttle s) := by
    intro l
    induction l with
    | nil => exact fun _ => rfl
    | cons m rest ih =>
        intro s
        rw [List.foldl_cons, ih, hmap, List.flatMap_cons, List.foldl_append]
  exact hmaps _ _

theorem filter_visits (w : SuckWorld) (c : ℕ) :
    w.visits.filter (fun v => v.2 = c) = (w.standing c).map fun m => (m, c) := by
  unfold visits standing
  induction List.range' 1 w.places.size with
  | nil => rfl
  | cons m rest ih =>
      have hlist : ((w.places.maps m).characters.map fun c => (m, c)).filter (fun v => v.2 = c) =
          (List.replicate ((w.places.maps m).characters.count c) m).map fun m => (m, c) := by
        rw [List.filter_map, List.map_replicate]
        have hfilter : (w.places.maps m).characters.filter
            ((fun v : ℕ × ℕ => decide (v.2 = c)) ∘ fun c => (m, c)) =
            List.replicate ((w.places.maps m).characters.count c) c := by
          exact List.filter_beq _
        rw [hfilter, List.map_replicate]
      rw [List.flatMap_cons, List.flatMap_cons, List.filter_append, List.map_append, hlist, ih]

theorem filter_actions (w : SuckWorld) (delay now : ℚ) (c : ℕ) :
    (w.scan delay now).actions.filter (fun a => a.character = c) =
      (w.looked delay now c).flatMap fun m => w.checkWarps m c := by
  have hthrottle := throttle_scan w delay now
  have houtput : (w.scan delay now).actions = (throttle (w.scan delay now)).output := rfl
  rw [houtput, hthrottle, Throttle.filter_output (fun v a ha => character_of_mem_checkWarps ha),
    filter_visits, Throttle.admitted_map, List.flatMap_map]
  rfl

/-! ## What is carried out -/

/-- An action is carried out when its turn comes. -/
def opens (w : SuckWorld) (a : WarpSuckAction) : Bool :=
  !w.blocked a && w.places.canWarp a.map

/-- What decides whether an action is carried out is the same. -/
structure SameRules (w w' : SuckWorld) : Prop where
  size : w'.places.size = w.places.size
  existing : ∀ m, (w'.places.maps m).existing = (w.places.maps m).existing
  maps : w'.maps = w.maps
  access : ∀ c, (w'.characters c).access = (w.characters c).access

variable {w' : SuckWorld} {a : WarpSuckAction} {arrival : Arrival} {clock : ℕ → ℚ}

theorem SameRules.trans {w'' : SuckWorld} (h : SameRules w w') (h' : SameRules w' w'') :
    SameRules w w'' where
  size := h'.size.trans h.size
  existing m := (h'.existing m).trans (h.existing m)
  maps := h'.maps.trans h.maps
  access c := (h'.access c).trans (h.access c)

theorem SameRules.blocked (h : SameRules w w') (a : WarpSuckAction) :
    w'.blocked a = w.blocked a := by
  unfold SuckWorld.blocked
  rw [h.access, h.maps, MapPlaces.getMap_congr h.size]

theorem SameRules.canWarp (h : SameRules w w') (map : ℤ) :
    w'.places.canWarp map = w.places.canWarp map :=
  MapPlaces.canWarp_congr h.size h.existing

theorem sameRules_warp (w : SuckWorld) (a : WarpSuckAction) (time : ℚ) :
    SameRules w (w.warp a time) where
  size := MapPlaces.size_warp
  existing _ := MapPlaces.existing_warp
  maps := rfl
  access c := by
    unfold warp
    dsimp only
    by_cases hc : c = a.character
    · rw [hc, update_self]
    · rw [update_of_ne hc]

theorem sameRules_run (arrival : Arrival) (w : SuckWorld) (c : ℕ) :
    SameRules w (arrival.run w c) where
  size := arrival.size w c
  existing := arrival.existing w c
  maps := arrival.maps w c
  access := arrival.access w c

theorem act_eq (arrival : Arrival) (clock : ℕ → ℚ) (s : WarpSuckRun) (h : SameRules w s.world)
    (a : WarpSuckAction) : SameRules w (act arrival clock s a).world ∧
      (act arrival clock s a).warped = s.warped ++ [a].filter w.opens := by
  unfold act
  rw [List.filter_cons, List.filter_nil, opens, h.blocked, h.canWarp]
  cases w.blocked a with
  | true => exact ⟨h, (List.append_nil _).symm⟩
  | false =>
      cases w.places.canWarp a.map with
      | false => exact ⟨h, (List.append_nil _).symm⟩
      | true => exact ⟨(h.trans (sameRules_warp _ a _)).trans (sameRules_run arrival _ _), rfl⟩

theorem warped_foldl (actions : List WarpSuckAction) (s : WarpSuckRun)
    (h : SameRules w s.world) : (actions.foldl (act arrival clock) s).warped =
      s.warped ++ actions.filter w.opens := by
  induction actions generalizing s with
  | nil => exact (List.append_nil _).symm
  | cons a rest ih =>
      obtain ⟨hrules, hwarped⟩ := act_eq arrival clock s h a
      have hsplit : (a :: rest).filter w.opens = [a].filter w.opens ++ rest.filter w.opens :=
        List.filter_append [a] rest
      rw [List.foldl_cons, ih _ hrules, hwarped, hsplit, List.append_assoc]

theorem warped_warpSuck (w : SuckWorld) (arrival : Arrival) (clock : ℕ → ℚ) (delay now : ℚ) :
    (w.warpSuck arrival clock delay now).warped = (w.scan delay now).actions.filter w.opens :=
  warped_foldl _ _ ⟨rfl, fun _ => rfl, rfl, fun _ => rfl⟩

theorem filter_checkWarps (w : SuckWorld) (m c : ℕ) : (w.checkWarps m c).filter w.opens =
    (w.pulling m c).map fun tile => (w.maps m).action c tile.1 tile.2 := by
  rw [checkWarps_eq, List.filter_map, List.filter_filter, pulling]
  congr 1
  apply List.filter_congr
  intro tile _
  unfold pulls opens WarpMap.action
  dsimp only [comp_apply]
  rw [Bool.and_comm]
  simp only [Bool.and_assoc]

/-- What a tick does to one character is said by where it stands alone. -/
theorem filter_warped (w : SuckWorld) (arrival : Arrival) (clock : ℕ → ℚ) (delay now : ℚ) (c : ℕ) :
    (w.warpSuck arrival clock delay now).warped.filter (fun a => a.character = c) =
      (w.looked delay now c).flatMap fun m =>
        (w.pulling m c).map fun tile => (w.maps m).action c tile.1 tile.2 := by
  have hswap : ((w.scan delay now).actions.filter w.opens).filter (fun a => a.character = c) =
      ((w.scan delay now).actions.filter fun a => a.character = c).filter w.opens := by
    rw [List.filter_filter, List.filter_filter]
    exact List.filter_congr fun a _ => Bool.and_comm _ _
  rw [warped_warpSuck, hswap, filter_actions, List.filter_flatMap]
  simp only [filter_checkWarps]

theorem length_filter_warped (w : SuckWorld) (arrival : Arrival) (clock : ℕ → ℚ) (delay now : ℚ)
    (c : ℕ) : ((w.warpSuck arrival clock delay now).warped.filter
      (fun a => a.character = c)).length =
        ((w.looked delay now c).flatMap fun m => w.pulling m c).length := by
  rw [filter_warped, List.length_flatMap, List.length_flatMap]
  simp only [List.length_map]

/-- With a delay that is not negative a tick looks at a character once at most. -/
theorem looked_of_nonneg (w : SuckWorld) {delay now : ℚ} (hdelay : 0 ≤ delay) (c : ℕ) :
    w.looked delay now c =
      if (w.characters c).lastWalk + delay < now then (w.standing c).take 1 else [] := by
  unfold looked
  refine (Throttle.admitted_of_not_now ?_ _ _).trans (if_congr decide_eq_true_iff rfl rfl)
  exact decide_eq_false (by simpa using hdelay)

theorem beside_of_mem_around {tile : UInt8 × UInt8} (h : tile ∈ w.around m c) :
    Beside (w.characters c) tile.1 tile.2 := by
  unfold around at h
  simp only [List.mem_append, List.mem_singleton] at h
  have hpred : ∀ n : UInt8, 0 < n → (n - 1).toNat + 1 = n.toNat := by
    intro n hn
    have hpos : 0 < n.toNat := UInt8.lt_iff_toNat_lt.mp hn
    rw [UInt8.toNat_sub_of_le n 1 (UInt8.le_iff_toNat_le.mpr hpos)]
    exact Nat.sub_add_cancel hpos
  have hsucc : ∀ n b : UInt8, n < b → (n + 1).toNat = n.toNat + 1 := by
    intro n b hn
    have hlt : n.toNat < b.toNat := UInt8.lt_iff_toNat_lt.mp hn
    have hb := b.toNat_lt
    rw [UInt8.toNat_add]
    exact Nat.mod_eq_of_lt (by
      have hone : (1 : UInt8).toNat = 1 := rfl
      omega)
  rcases h with (((rfl | h) | h) | h) | h
  · exact Or.inl ⟨rfl, Or.inl rfl⟩
  · split_ifs at h with hx
    · rw [List.mem_singleton.mp h]
      exact Or.inr ⟨rfl, Or.inl (hpred _ hx)⟩
    · cases h
  · split_ifs at h with hx
    · rw [List.mem_singleton.mp h]
      exact Or.inr ⟨rfl, Or.inr (hsucc _ _ hx)⟩
    · cases h
  · split_ifs at h with hy
    · rw [List.mem_singleton.mp h]
      exact Or.inl ⟨rfl, Or.inr (Or.inl (hpred _ hy))⟩
    · cases h
  · split_ifs at h with hy
    · rw [List.mem_singleton.mp h]
      exact Or.inl ⟨rfl, Or.inr (Or.inr (hsucc _ _ hy))⟩
    · cases h

theorem mem_of_mem_looked (h : m ∈ w.looked delay now c) :
    c ∈ (w.places.maps m).characters ∧ 0 < m ∧ m ≤ w.places.size := by
  obtain ⟨n, hn, hm⟩ := List.mem_flatMap.mp (Throttle.mem_of_mem_admitted h)
  obtain ⟨hcount, rfl⟩ := List.mem_replicate.mp hm
  have hrange := List.mem_range'_1.mp hn
  exact ⟨List.count_pos_iff.mp (Nat.pos_of_ne_zero hcount), by omega, by omega⟩

/-- Every warp of a tick is that of a tile beside which its character stood. -/
theorem beside_of_mem_warped (w : SuckWorld) (arrival : Arrival) (clock : ℕ → ℚ) (delay now : ℚ)
    (ha : a ∈ (w.warpSuck arrival clock delay now).warped) :
    ∃ m x y, a.character ∈ (w.places.maps m).characters ∧
      (0 < m ∧ m ≤ w.places.size) ∧ Beside (w.characters a.character) x y ∧
      (w.maps m).inBounds x y = true ∧ ((w.maps m).warp x y).map ≠ 0 ∧
      a = (w.maps m).action a.character x y := by
  have hmem : a ∈ (w.warpSuck arrival clock delay now).warped.filter
      (fun b => b.character = a.character) := List.mem_filter.mpr ⟨ha, decide_eq_true rfl⟩
  rw [filter_warped] at hmem
  obtain ⟨m, hm, htile⟩ := List.mem_flatMap.mp hmem
  obtain ⟨tile, htile, heq⟩ := List.mem_map.mp htile
  obtain ⟨haround, hpulls⟩ := List.mem_filter.mp htile
  obtain ⟨hlisted, hrange⟩ := mem_of_mem_looked hm
  unfold pulls at hpulls
  simp only [Bool.and_eq_true] at hpulls
  obtain ⟨⟨⟨hbounds, hsucks⟩, -⟩, -⟩ := hpulls
  refine ⟨m, tile.1, tile.2, hlisted, hrange, beside_of_mem_around haround, hbounds, ?_, heq.symm⟩
  intro hzero
  unfold WarpMap.sucks at hsucks
  simp [hzero] at hsucks

/-- A tick keeps what it promises if and only if no character that is looked at has two warps that
take it on or beside its tile. -/
theorem sucksOnce_iff (w : SuckWorld) (arrival : Arrival) (clock : ℕ → ℚ) (delay now : ℚ) :
    w.SucksOnce (w.warpSuck arrival clock delay now).warped ↔
      ∀ c, ((w.looked delay now c).flatMap fun m => w.pulling m c).length ≤ 1 := by
  constructor
  · intro h c
    rw [← length_filter_warped w arrival clock]
    exact h.once c
  · intro h
    refine ⟨?_, fun a ha => beside_of_mem_warped w arrival clock delay now ha⟩
    intro c
    rw [length_filter_warped]
    exact h c

end SuckWorld

/-- Quests that do nothing when a map is entered. -/
def Arrival.quiet : Arrival where
  run w _ := w
  size _ _ := rfl
  existing _ _ _ := rfl
  maps _ _ := rfl
  access _ _ _ := rfl

/-- A character that has not walked for a while stands in a corner, with a door above it and one to
the right. -/
def betweenDoors : SuckWorld where
  places := {
    size := 1
    positive := Nat.one_pos
    maps := fun _ => ⟨true, [0]⟩
    characters := fun _ => ⟨.online, false, some 1, 1, 0⟩ }
  maps _ := {
    width := 10
    height := 10
    warp := fun x y =>
      if x = 5 ∧ y = 4 then ⟨1, 2, 2, 0, .door⟩
      else if x = 6 ∧ y = 5 then ⟨1, 8, 8, 0, .door⟩
      else ⟨0, 0, 0, 0, .noDoor⟩
    evacuateLock := false }
  characters _ := ⟨5, 5, 1, 0, 0⟩

namespace SuckWorld

/-- It is warped through both doors. -/
theorem not_sucksOnce_betweenDoors :
    ¬ betweenDoors.SucksOnce
      (betweenDoors.warpSuck Arrival.quiet (fun _ => 100) 15 100).warped := by
  intro h
  have honce := h.once 0
  have hidle : (betweenDoors.characters 0).lastWalk + 15 < 100 := by
    change (0 : ℚ) + 15 < 100
    norm_num
  rw [length_filter_warped, looked_of_nonneg betweenDoors (by norm_num), if_pos hidle] at honce
  exact absurd honce (by decide)

end SuckWorld

end ArenaServ
