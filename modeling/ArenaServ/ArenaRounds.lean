import ArenaServ.ArenaRuns
import ArenaServ.FirstMatch
import ArenaServ.PacketStream

/-!
# Rounds of an arena

A round counts who stands on the spawns of its arena, and then warps the first one on each of them.
What it has counted is what it tells everybody on the map.
-/

namespace ArenaServ.ArenaWorld
open Function PacketProcessor

variable {w : ArenaWorld} {a : ℕ} {arena : Arena} {force : Bool}

/-- Who is warped, which `Warp` may refuse. -/
def warped (map : ℕ) : List (ℕ × UInt8 × UInt8) → ArenaWorld → List ℕ
  | [], _ => []
  | action :: rest, w =>
      (if w.places.canWarp map then [action.1] else []) ++
        warped map rest (w.warp action.1 map action.2.1 action.2.2)

/-- Who is warped by a round, in this order. -/
def spawnWarps (w : ArenaWorld) (a : ℕ) (arena : Arena) (force : Bool) : List ℕ :=
  if w.spawnRound arena force = .started (w.newplayers arena) then
    let actions := w.spawnActions arena
    warped arena.map actions ((actions.map Prod.fst).foldl (fun w c => w.nextRound a c) w)
  else []

/-- What is sent to those on the map when a round has started. -/
def usePacket (newplayers : ℕ) : PacketBuilder :=
  (PacketBuilder.new .arena .use).addChar (UInt8.ofNat newplayers)

/-- The number that a client reads there. -/
def announced (newplayers : ℕ) : ℕ :=
  PacketProcessor.number (byteAt (usePacket newplayers).data 0) 254 254 254

/-- Nobody is warped twice, and as many are announced, and decided by, as are warped. -/
structure CountsWarped (w : ArenaWorld) (a : ℕ) (arena : Arena) (force : Bool) : Prop where
  once : (w.spawnWarps a arena force).Nodup
  decided : w.newplayers arena = (w.spawnWarps a arena force).length
  told : announced (w.newplayers arena) = (w.spawnWarps a arena force).length

/-- Whether anybody stands on a spawn. -/
def occupied (w : ArenaWorld) (arena : Arena) (spawn : ArenaSpawn) : Bool :=
  (w.listed arena).any (w.standsOn spawn)

/-- Whoever is on a spawn is there alone and can be warped, no two spawns that anybody is on are
one tile, and as many as are on them can be told in a char. -/
structure SpawnsApart (w : ArenaWorld) (arena : Arena) : Prop where
  reachable : (∃ spawn ∈ arena.spawns, w.occupied arena spawn = true) →
    w.places.canWarp arena.map = true
  alone : ∀ spawn ∈ arena.spawns, (w.listed arena).countP (w.standsOn spawn) ≤ 1
  distinct : arena.spawns.Pairwise fun s t =>
    w.occupied arena s = true → (s.sx, s.sy) ≠ (t.sx, t.sy)
  few : arena.spawns.countP (w.occupied arena) < 253

/-! ## What is announced -/

theorem byteAt_usePacket (n : ℕ) :
    byteAt (usePacket n).data 0 = UInt8.ofNat (n % 256 % 253 + 1) := by
  have hchar : (UInt8.ofNat n).toNat = n % 256 := UInt8.toNat_ofNat'
  have h3 : ¬ max3 ≤ n % 256 := by
    unfold max3
    omega
  have h2 : ¬ max2 ≤ n % 256 := by
    unfold max2
    omega
  have h1 : (if max1 ≤ n % 256 then n % 256 % max1 else n % 256) = n % 256 % 253 := by
    unfold max1
    split_ifs <;> omega
  unfold usePacket PacketBuilder.addChar eNumber
  rw [hchar]
  simp only [if_neg h3, if_neg h2, h1]
  rfl

/-- A char holds the numbers below 253. -/
theorem announced_eq_iff (n : ℕ) : announced n = n ↔ n < 253 := by
  have hdigit : digit (UInt8.ofNat (n % 256 % 253 + 1)) = n % 256 % 253 :=
    digit_ofNat_succ (Nat.mod_lt _ (by decide))
  have hunused : digit 254 = 0 := rfl
  unfold announced PacketProcessor.number
  rw [byteAt_usePacket, hdigit, hunused]
  omega

/-! ## Who is counted and who is warped -/

theorem newplayers_eq_counted :
    w.newplayers arena = FirstMatch.counted w.standsOn (w.listed arena) arena.spawns := rfl

theorem map_spawnActions : (w.spawnActions arena).map Prod.fst =
    FirstMatch.picks w.standsOn (w.listed arena) arena.spawns := by
  unfold spawnActions FirstMatch.picks
  rw [List.map_filterMap]
  apply List.filterMap_congr
  intro spawn _
  rw [Option.map_map]
  exact Option.map_id'

/-- A warp leaves the other ones as possible as they were. -/
theorem warped_eq {map : ℕ} (actions : List (ℕ × UInt8 × UInt8)) :
    warped map actions w = if w.places.canWarp map then actions.map Prod.fst else [] := by
  induction actions generalizing w with
  | nil => rw [List.map_nil, ite_self]; rfl
  | cons action rest ih =>
      rw [warped, ih, canWarp_warp]
      split_ifs <;> rfl

/-- The round that is not blocked warps those whom it has picked. -/
theorem spawnWarps_eq (hblocked : w.spawnRound arena force ≠ .blocked) :
    w.spawnWarps a arena force =
      if w.places.canWarp arena.map then
        FirstMatch.picks w.standsOn (w.listed arena) arena.spawns
      else [] := by
  by_cases hnobody : w.newplayers arena = 0
  · have hround : w.spawnRound arena force = .nobody := if_pos hnobody
    have hpicks : FirstMatch.picks w.standsOn (w.listed arena) arena.spawns = [] := by
      apply List.eq_nil_of_length_eq_zero
      have hle := FirstMatch.length_picks_le w.standsOn (w.listed arena) arena.spawns
      rw [← newplayers_eq_counted, hnobody] at hle
      exact Nat.le_zero.mp hle
    unfold spawnWarps
    rw [hround, if_neg SpawnRound.noConfusion, hpicks, ite_self]
  · have hround : w.spawnRound arena force = .started (w.newplayers arena) := by
      unfold spawnRound at hblocked ⊢
      rw [if_neg hnobody] at hblocked ⊢
      by_cases hb : arena.block ≤ arena.occupants ∧ force = false
      · rw [if_pos hb] at hblocked
        exact absurd rfl hblocked
      · rw [if_neg hb]
    unfold spawnWarps
    rw [if_pos hround]
    change warped arena.map _ _ = _
    rw [warped_eq, (nextRounds _).1, map_spawnActions]

theorem standsOn_congr {s t : ArenaSpawn} (h : (s.sx, s.sy) = (t.sx, t.sy)) :
    w.standsOn s = w.standsOn t := by
  obtain ⟨hx, hy⟩ := Prod.mk.inj h
  funext c
  unfold standsOn
  rw [hx, hy]

/-- A character that two spawns pick is on both of them. -/
theorem nodup_picks_iff : (FirstMatch.picks w.standsOn (w.listed arena) arena.spawns).Nodup ↔
    arena.spawns.Pairwise fun s t =>
      w.occupied arena s = true → (s.sx, s.sy) ≠ (t.sx, t.sy) := by
  rw [FirstMatch.nodup_picks_iff]
  apply List.Pairwise.iff
  intro s t
  constructor
  · intro hpicked hoccupied hsame
    obtain ⟨c, hc, hon⟩ := List.any_eq_true.mp hoccupied
    have hsome : ((w.listed arena).find? (w.standsOn s)).isSome := by
      rw [List.find?_isSome]
      exact ⟨c, hc, hon⟩
    obtain ⟨first, hfirst⟩ := Option.isSome_iff_exists.mp hsome
    rw [standsOn_congr hsame] at hfirst
    apply hpicked first _ hfirst
    rw [standsOn_congr hsame]
    exact hfirst
  · intro hdistinct c hs ht
    have hons := List.find?_some hs
    have hont := List.find?_some ht
    unfold standsOn at hons hont
    rw [Bool.and_eq_true, beq_iff_eq, beq_iff_eq] at hons hont
    apply hdistinct (List.any_eq_true.mpr ⟨c, List.mem_of_find?_eq_some hs, List.find?_some hs⟩)
    rw [← hons.1, ← hons.2, ← hont.1, ← hont.2]

theorem length_picks_eq : (FirstMatch.picks w.standsOn (w.listed arena) arena.spawns).length =
    arena.spawns.countP (w.occupied arena) := FirstMatch.length_picks _

/-- Nobody is picked where nobody stands. -/
theorem picks_eq_nil_iff : FirstMatch.picks w.standsOn (w.listed arena) arena.spawns = [] ↔
    ¬ ∃ spawn ∈ arena.spawns, w.occupied arena spawn = true := by
  rw [← List.length_eq_zero_iff, length_picks_eq, List.countP_eq_zero]
  simp

/-! ## What a round announces is who it warps -/

/-- The round of an arena that is not blocked. -/
theorem countsWarped_iff (hblocked : w.spawnRound arena force ≠ .blocked) :
    w.CountsWarped a arena force ↔ w.SpawnsApart arena := by
  have hwarps := spawnWarps_eq (a := a) hblocked
  have halone := FirstMatch.counted_eq_length_iff w.standsOn (w.listed arena) arena.spawns
  rw [← newplayers_eq_counted] at halone
  cases hcan : w.places.canWarp arena.map with
  | true =>
      rw [hcan, if_pos rfl] at hwarps
      constructor
      · rintro ⟨honce, hdecided, htold⟩
        rw [hwarps] at honce hdecided htold
        refine ⟨fun _ => hcan, halone.mp hdecided, nodup_picks_iff.mp honce, ?_⟩
        rw [← hdecided, announced_eq_iff, hdecided, length_picks_eq] at htold
        exact htold
      · rintro ⟨-, hat, hdistinct, hfew⟩
        have hdecided := halone.mpr hat
        rw [← length_picks_eq, ← hdecided, ← announced_eq_iff] at hfew
        refine ⟨?_, ?_, ?_⟩
        · rw [hwarps]
          exact nodup_picks_iff.mpr hdistinct
        · rw [hwarps]
          exact hdecided
        · rw [hwarps, hfew]
          exact hdecided
  | false =>
      rw [hcan, if_neg Bool.false_ne_true] at hwarps
      constructor
      · rintro ⟨-, hdecided, -⟩
        rw [hwarps] at hdecided
        have hle := FirstMatch.length_picks_le w.standsOn (w.listed arena) arena.spawns
        rw [← newplayers_eq_counted, hdecided] at hle
        have hnil := List.eq_nil_of_length_eq_zero (Nat.le_zero.mp hle)
        refine ⟨fun hon => absurd hon (picks_eq_nil_iff.mp hnil), ?_, ?_, ?_⟩
        · rw [← halone, hdecided, hnil]
        · rw [← nodup_picks_iff, hnil]
          exact List.nodup_nil
        · rw [← length_picks_eq, hnil]
          decide
      · rintro ⟨hreachable, hat, -, -⟩
        have hnil := picks_eq_nil_iff.mpr fun hon => by
          rw [hcan] at hreachable
          cases hreachable hon
        have hzero := halone.mpr hat
        rw [hnil] at hzero
        refine ⟨?_, ?_, ?_⟩
        · rw [hwarps]
          exact List.nodup_nil
        · rw [hwarps, hzero]
        · rw [hwarps, hzero]
          rfl

/-- A map with two spawns, and characters in the first row of it. -/
def twoSpawns : Arena := ⟨0, 2, 1, [⟨1, 1, 5, 5⟩, ⟨2, 1, 6, 5⟩]⟩

def firstRow (column : ℕ → UInt8) (list : List ℕ) : ArenaWorld where
  places :=
    { size := 1
      positive := Nat.one_pos
      maps := fun _ => ⟨true, list⟩
      characters := fun _ => ⟨.online, false, some 1, 1, 0⟩ }
  combatants c := ⟨column c, 1, .down, none, none, 0⟩
  relog _ := (0, 0)
  mapArena m := if m = 1 then some 10 else none
  arenas a := if a = 10 then some twoSpawns else none

/-- One character on each spawn, and another one aside. -/
theorem countsWarped_firstRow :
    (firstRow (fun c => UInt8.ofNat (c + 1)) [0, 1, 2]).CountsWarped 10 twoSpawns false := by
  refine (countsWarped_iff (by decide)).mpr ⟨fun _ => by decide, by decide, ?_, by decide⟩
  refine List.pairwise_cons.mpr ⟨?_, List.pairwise_singleton _ _⟩
  intro t ht _
  rw [List.mem_singleton.mp ht]
  decide

/-- Two characters on one spawn. -/
theorem not_countsWarped_crowd :
    (firstRow (fun _ => 1) [0, 1]).spawnRound twoSpawns false ≠ .blocked ∧
      ¬ (firstRow (fun _ => 1) [0, 1]).CountsWarped 10 twoSpawns false := by
  refine ⟨by decide, fun hcounts => ?_⟩
  exact absurd hcounts.decided (by decide)

end ArenaServ.ArenaWorld
