import ArenaServ.Arenas
import ArenaServ.MapRuns
import ArenaServ.PointerCounts

/-!
# Whether arenas count those in them

The pointers are those of the characters that are online. A warp moves one of them, a logout takes
one away, and an arena that is deleted must not have any. Arenas are deleted by a reload of their
map and by a rehash, which takes over only who is listed on the map of the arena.
-/

namespace ArenaServ.ArenaWorld
open Function

/-- The number of the online characters whose arena pointer is `a`. -/
noncomputable def number (w : ArenaWorld) (a : ℕ) : ℕ :=
  {c | w.presence c = .online ∧ (w.combatants c).arena = some a}.ncard

/-- Occupancy is exact, no character in memory points to a deleted arena, and a round is blocked by
those that are in the arena. -/
structure Exact (w : ArenaWorld) : Prop where
  occupants : ∀ a arena, w.arenas a = some arena → arena.occupants = w.number a
  live : ∀ c a, w.presence c ≠ .away → (w.combatants c).arena = some a → (w.arenas a).isSome
  blocked : ∀ a arena, w.arenas a = some arena → w.newplayers arena ≠ 0 →
    (w.spawnRound arena false = .blocked ↔ arena.block ≤ w.number a)

/-- The next arena of a character, if it has one, has not been deleted. -/
def NextLive (w : ArenaWorld) (c : ℕ) : Prop :=
  ∀ a, (w.combatants c).nextArena = some a → (w.arenas a).isSome

/-- Those that a new arena takes over are all that are in the old one, each once and online. -/
structure TakesOver (w : ArenaWorld) (m a : ℕ) : Prop where
  nodup : (w.updateCharacters m).Nodup
  online : ∀ c ∈ w.updateCharacters m, w.presence c = .online
  all : ∀ c, w.presence c ≠ .away → (w.combatants c).arena = some a → c ∈ w.updateCharacters m

/-- A reload finds nobody in the arena of its map, and a rehash takes over everybody who is in one.
A round and an attack warp characters that are online, who goes on duty is in no arena, and the
next arena of who is warped has not been deleted. -/
def Fits (w : ArenaWorld) : ArenaEvent → Prop
  | .welcome c spawnMap _ _ => w.presence c = .selected →
      (w.places.maps (w.places.getMap (w.places.characters c).mapid)).existing = false →
      w.places.canWarp spawnMap = true → w.NextLive c
  | .duty c swap here => w.presence c = .online →
      (w.presence swap = .selected ∨ w.presence swap = .offDuty) →
      (w.combatants swap).arena = none ∧
        (w.places.canWarp (w.places.dutyMap c swap here) = true → w.NextLive swap)
  | .warp c map _ _ => w.presence c = .online → w.places.canWarp map = true → w.NextLive c
  | .internalWarp c spawnMap _ _ => w.presence c = .online → 0 < (w.places.characters c).queued →
      w.places.canWarp spawnMap = true → w.NextLive c
  | .spawn a force => ∀ arena, w.arenas a = some arena →
      w.spawnRound arena force = .started (w.newplayers arena) →
      w.places.canWarp arena.map = true →
      ∀ action ∈ w.spawnActions arena, w.presence action.1 = .online
  | .attack c direction => w.presence c = .online → ∀ a arena v,
      (w.combatants c).arena = some a → w.arenas a = some arena →
      w.victim a arena c direction = some v → w.places.canWarp arena.map = true →
      ∀ action ∈ w.attackActions arena c v,
        w.presence action.1 = .online ∧ w.NextLive action.1
  | .loadArena m config _ => ∀ a, w.mapArena m = some a → w.TakesOver m a ∧
      (usable config = false → ∀ c ∈ w.updateCharacters m, ∀ m' : ℕ,
        (w.places.characters c).map = some m' → w.places.canWarp m' = true →
        ∀ b, (w.combatants c).nextArena = some b → b ≠ a ∧ (w.arenas b).isSome)
  | .reload m _ _ _ _ => ∀ a, w.mapArena m = some a →
      ∀ c, w.presence c ≠ .away → (w.combatants c).arena ≠ some a
  | _ => True

/-! ## Pointers and counts -/

/-- The arena of a character that is online. Those in `lost` are not there any more for an arena
that has been deleted. -/
def pointer (w : ArenaWorld) (lost : List ℕ) (c : ℕ) : Option ℕ :=
  if w.presence c = .online ∧ c ∉ lost then (w.combatants c).arena else none

def count (w : ArenaWorld) (a : ℕ) : Option ℤ := (w.arenas a).map Arena.occupants

/-- The map that an arena is of. -/
def owner (w : ArenaWorld) (a : ℕ) : Option ℕ := (w.arenas a).map Arena.map

/-- Everything is in order but for those who have lost their arena. -/
structure SoundBut (w : ArenaWorld) (lost : List ℕ) : Prop where
  counts : PointerCounts.Exact w.count (w.pointer lost)
  live : ∀ c a, c ∉ lost → w.presence c ≠ .away → (w.combatants c).arena = some a →
    (w.arenas a).isSome
  finite : {c | w.presence c = .online}.Finite
  owned : ∀ m a, w.mapArena m = some a → w.owner a = some m
  selected : ∀ c, w.presence c = .selected → (w.combatants c).arena = none

def Sound (w : ArenaWorld) : Prop := w.SoundBut []

variable {w w' : ArenaWorld} {a b c d m : ℕ} {map : ℤ} {x y : UInt8} {lost : List ℕ}
  {q : Option ℕ}

theorem pointer_eq_some : w.pointer lost c = some a ↔
    (w.presence c = .online ∧ c ∉ lost) ∧ (w.combatants c).arena = some a := by
  unfold pointer
  by_cases honline : w.presence c = .online ∧ c ∉ lost
  · rw [if_pos honline]
    exact (and_iff_right honline).symm
  · rw [if_neg honline]
    constructor
    · intro h
      cases h
    · exact fun h => absurd h.1 honline

theorem number_eq : w.number a = PointerCounts.number (w.pointer []) a := by
  unfold number PointerCounts.number
  simp only [pointer_eq_some, List.not_mem_nil, not_false_eq_true, and_true]

theorem Sound.occupants_eq (h : w.Sound) {arena : Arena} (harena : w.arenas a = some arena) :
    arena.occupants = w.number a := by
  rw [number_eq]
  apply h.counts.counted
  unfold count
  rw [harena]
  rfl

theorem Sound.exact (h : w.Sound) : w.Exact where
  occupants := fun a arena harena => h.occupants_eq harena
  live := fun c a => h.live c a List.not_mem_nil
  blocked := by
    intro a arena harena hnewplayers
    unfold spawnRound
    rw [if_neg hnewplayers, ← h.occupants_eq harena]
    by_cases hblock : arena.block ≤ arena.occupants
    · rw [if_pos ⟨hblock, rfl⟩]
      exact ⟨fun _ => hblock, fun _ => rfl⟩
    · rw [if_neg (fun h => hblock h.1)]
      constructor
      · intro h
        cases h
      · exact fun h => absurd h hblock

theorem SoundBut.finite_pointer (h : w.SoundBut lost) (a : ℕ) :
    {c | w.pointer lost c = some a}.Finite := by
  apply h.finite.subset
  intro c hc
  exact (pointer_eq_some.mp hc).1.1

theorem isSome_count : (w.count a).isSome = (w.arenas a).isSome := Option.isSome_map

theorem isSome_owner : (w.owner a).isSome = (w.arenas a).isSome := Option.isSome_map

theorem isSome_of_owner (h : w'.owner = w.owner) (hlive : (w.arenas a).isSome) :
    (w'.arenas a).isSome := by
  rw [← isSome_owner] at hlive ⊢
  rw [h]
  exact hlive

/-- The pointer of one character changes, as the counts do. -/
theorem SoundBut.redirect (h : w.SoundBut lost)
    (hcount : w'.count = PointerCounts.retain (PointerCounts.release w.count (w.pointer lost c)) q)
    (hpointer : w'.pointer lost c = q) (hq : ∀ a, q = some a → (w.arenas a).isSome)
    (hcombatants : ∀ d, d ≠ c → (w'.combatants d).arena = (w.combatants d).arena)
    (hpresence : ∀ d, d ≠ c → w'.presence d = w.presence d)
    (hlive : c ∉ lost → w'.presence c ≠ .away → ∀ a, (w'.combatants c).arena = some a →
      (w.arenas a).isSome)
    (hselected : w'.presence c = .selected → (w'.combatants c).arena = none)
    (howner : w'.owner = w.owner) (hmapArena : w'.mapArena = w.mapArena) :
    w'.SoundBut lost where
  counts := by
    have hupdate : w'.pointer lost = update (w.pointer lost) c q := by
      funext d
      by_cases hd : d = c
      · rw [hd, update_self, hpointer]
      · rw [update_of_ne hd]
        unfold pointer
        rw [hpresence d hd, hcombatants d hd]
    rw [hcount, hupdate]
    apply h.counts.redirect h.finite_pointer
    intro a ha
    rw [isSome_count]
    exact hq a ha
  live := by
    intro d a hlost hd ha
    apply isSome_of_owner howner
    by_cases hdc : d = c
    · rw [hdc] at hlost hd ha
      exact hlive hlost hd a ha
    · rw [hpresence d hdc] at hd
      rw [hcombatants d hdc] at ha
      exact h.live d a hlost hd ha
  finite := by
    apply (h.finite.union (Set.finite_singleton c)).subset
    intro d hd
    by_cases hdc : d = c
    · exact Or.inr hdc
    · exact Or.inl ((hpresence d hdc).symm.trans hd)
  owned := by
    intro m a hm
    rw [hmapArena] at hm
    rw [howner]
    exact h.owned m a hm
  selected := by
    intro d hd
    by_cases hdc : d = c
    · rw [hdc] at hd ⊢
      exact hselected hd
    · rw [hpresence d hdc] at hd
      rw [hcombatants d hdc]
      exact h.selected d hd

/-- What changes neither who is online nor an arena. -/
theorem SoundBut.congr (h : w.SoundBut lost)
    (harenas : w'.arenas = w.arenas) (hmapArena : w'.mapArena = w.mapArena)
    (hpresence : ∀ d, w'.presence d = w.presence d)
    (hcombatants : ∀ d, (w'.combatants d).arena = (w.combatants d).arena) :
    w'.SoundBut lost where
  counts := by
    have hcount : w'.count = w.count := by
      unfold count
      rw [harenas]
    have hpointer : w'.pointer lost = w.pointer lost := by
      funext d
      unfold pointer
      rw [hpresence, hcombatants]
    rw [hcount, hpointer]
    exact h.counts
  live := by
    intro d a hlost hd ha
    rw [hpresence] at hd
    rw [hcombatants] at ha
    rw [harenas]
    exact h.live d a hlost hd ha
  finite := by
    simp only [hpresence]
    exact h.finite
  owned := by
    intro m a hm
    rw [hmapArena] at hm
    unfold owner
    rw [harenas]
    exact h.owned m a hm
  selected := by
    intro d hd
    rw [hpresence] at hd
    rw [hcombatants]
    exact h.selected d hd

/-! ## What a warp does -/

theorem count_addOccupants {d : ℤ} :
    (w.addOccupants a d).count = PointerCounts.add w.count a d := by
  funext b
  unfold count addOccupants PointerCounts.add
  dsimp only
  by_cases hb : b = a
  · rw [hb, update_self, update_self, Option.map_map, Option.map_map]
    rfl
  · rw [update_of_ne hb, update_of_ne hb]

theorem owner_addOccupants {d : ℤ} : (w.addOccupants a d).owner = w.owner := by
  funext b
  unfold owner addOccupants
  dsimp only
  by_cases hb : b = a
  · rw [hb, update_self, Option.map_map]
    rfl
  · rw [update_of_ne hb]

theorem count_releaseArena :
    (w.releaseArena c).count = PointerCounts.release w.count (w.combatants c).arena := by
  unfold releaseArena
  cases (w.combatants c).arena with
  | none => rfl
  | some a => exact count_addOccupants

theorem owner_releaseArena : (w.releaseArena c).owner = w.owner := by
  unfold releaseArena
  cases (w.combatants c).arena with
  | none => rfl
  | some a => exact owner_addOccupants

theorem combatants_releaseArena : (w.releaseArena c).combatants = w.combatants := by
  unfold releaseArena
  cases (w.combatants c).arena with
  | none => rfl
  | some a => rfl

theorem places_releaseArena : (w.releaseArena c).places = w.places := by
  unfold releaseArena
  cases (w.combatants c).arena with
  | none => rfl
  | some a => rfl

theorem mapArena_releaseArena : (w.releaseArena c).mapArena = w.mapArena := by
  unfold releaseArena
  cases (w.combatants c).arena with
  | none => rfl
  | some a => rfl

theorem count_enterNextArena :
    (w.enterNextArena c).count = PointerCounts.retain w.count (w.combatants c).nextArena := by
  unfold enterNextArena
  cases (w.combatants c).nextArena with
  | none => rfl
  | some a => exact count_addOccupants

theorem owner_enterNextArena : (w.enterNextArena c).owner = w.owner := by
  unfold enterNextArena
  cases (w.combatants c).nextArena with
  | none => rfl
  | some a => exact owner_addOccupants

theorem places_enterNextArena : (w.enterNextArena c).places = w.places := by
  unfold enterNextArena
  cases (w.combatants c).nextArena with
  | none => rfl
  | some a => rfl

theorem mapArena_enterNextArena : (w.enterNextArena c).mapArena = w.mapArena := by
  unfold enterNextArena
  cases (w.combatants c).nextArena with
  | none => rfl
  | some a => rfl

theorem combatants_enterNextArena_of_ne (hd : d ≠ c) :
    (w.enterNextArena c).combatants d = w.combatants d := by
  unfold enterNextArena
  cases (w.combatants c).nextArena with
  | none => rfl
  | some a =>
      change update (update w.combatants c _) c _ d = _
      rw [update_of_ne hd, update_of_ne hd]

/-- Who leaves an arena is in the next one, or in none. -/
theorem combatants_enterNextArena_self (hnone : (w.combatants c).arena = none) :
    ((w.enterNextArena c).combatants c).arena = (w.combatants c).nextArena ∧
      ((w.enterNextArena c).combatants c).nextArena = none := by
  unfold enterNextArena
  cases hnext : (w.combatants c).nextArena with
  | none => exact ⟨hnone, hnext⟩
  | some a =>
      change (update (update w.combatants c _) c _ c).arena = some a ∧
        (update (update w.combatants c _) c _ c).nextArena = none
      rw [update_self]
      refine ⟨?_, rfl⟩
      change (update w.combatants c _ c).arena = some a
      rw [update_self]

theorem warp_of_not (hcan : w.places.canWarp map = false) : w.warp c map x y = w := by
  unfold warp
  rw [if_neg (by rw [hcan]; decide)]

theorem warp_of_canWarp (hcan : w.places.canWarp map = true) : w.warp c map x y =
    ((((w.setPlaces (w.places.warp c map)).moveTo c x y).releaseArena c).setArena c
      none).enterNextArena c := by
  unfold warp
  rw [if_pos hcan]

theorem places_warp : (w.warp c map x y).places = w.places.warp c map := by
  cases hcan : w.places.canWarp map with
  | false => rw [warp_of_not hcan, MapPlaces.warp_of_not hcan]
  | true =>
      rw [warp_of_canWarp hcan, places_enterNextArena]
      exact places_releaseArena

theorem presence_warp : (w.warp c map x y).presence d = w.presence d := by
  unfold presence
  rw [places_warp]
  by_cases hd : d = c
  · rw [hd]
    cases hcan : w.places.canWarp map with
    | false => rw [MapPlaces.warp_of_not hcan]
    | true => exact (MapPlaces.characters_warp_self hcan).2.2.2
  · rw [MapPlaces.characters_warp_of_ne hd]

theorem owner_warp : (w.warp c map x y).owner = w.owner := by
  cases hcan : w.places.canWarp map with
  | false => rw [warp_of_not hcan]
  | true =>
      rw [warp_of_canWarp hcan, owner_enterNextArena]
      exact owner_releaseArena

theorem mapArena_warp : (w.warp c map x y).mapArena = w.mapArena := by
  cases hcan : w.places.canWarp map with
  | false => rw [warp_of_not hcan]
  | true =>
      rw [warp_of_canWarp hcan, mapArena_enterNextArena]
      exact mapArena_releaseArena

theorem arena_moveTo : ((w.moveTo c x y).combatants d).arena = (w.combatants d).arena := by
  change (update w.combatants c _ d).arena = _
  by_cases hd : d = c
  · rw [hd, update_self]
  · rw [update_of_ne hd]

theorem nextArena_moveTo :
    ((w.moveTo c x y).combatants d).nextArena = (w.combatants d).nextArena := by
  change (update w.combatants c _ d).nextArena = _
  by_cases hd : d = c
  · rw [hd, update_self]
  · rw [update_of_ne hd]

theorem combatants_warp_of_ne (hd : d ≠ c) :
    (w.warp c map x y).combatants d = w.combatants d := by
  cases hcan : w.places.canWarp map with
  | false => rw [warp_of_not hcan]
  | true =>
      rw [warp_of_canWarp hcan, combatants_enterNextArena_of_ne hd]
      change update (((w.setPlaces _).moveTo c x y).releaseArena c).combatants c _ d = _
      rw [update_of_ne hd, combatants_releaseArena]
      exact update_of_ne hd _ _

/-- What is left of the pointers once the old arena has been released. -/
theorem combatants_released :
    (((((w.setPlaces (w.places.warp c map)).moveTo c x y).releaseArena c).setArena c
      none).combatants c).arena = none ∧
    (((((w.setPlaces (w.places.warp c map)).moveTo c x y).releaseArena c).setArena c
      none).combatants c).nextArena = (w.combatants c).nextArena := by
  change (update (((w.setPlaces _).moveTo c x y).releaseArena c).combatants c _ c).arena = none ∧
    (update (((w.setPlaces _).moveTo c x y).releaseArena c).combatants c _ c).nextArena = _
  rw [update_self, combatants_releaseArena]
  exact ⟨rfl, nextArena_moveTo⟩

theorem combatants_warp_self (hcan : w.places.canWarp map = true) :
    ((w.warp c map x y).combatants c).arena = (w.combatants c).nextArena ∧
      ((w.warp c map x y).combatants c).nextArena = none := by
  obtain ⟨hnone, hnext⟩ := @combatants_released w c map x y
  rw [warp_of_canWarp hcan, ← hnext]
  exact combatants_enterNextArena_self hnone

theorem count_warp (hcan : w.places.canWarp map = true) : (w.warp c map x y).count =
    PointerCounts.retain (PointerCounts.release w.count (w.combatants c).arena)
      (w.combatants c).nextArena := by
  obtain ⟨-, hnext⟩ := @combatants_released w c map x y
  rw [warp_of_canWarp hcan, count_enterNextArena, hnext]
  change PointerCounts.retain (((w.setPlaces _).moveTo c x y).releaseArena c).count _ = _
  rw [count_releaseArena, arena_moveTo]
  rfl

theorem NextLive.of_owner (h : w'.owner = w.owner)
    (hnext : (w'.combatants c).nextArena = (w.combatants c).nextArena) (hlive : w.NextLive c) :
    w'.NextLive c := by
  intro a ha
  rw [hnext] at ha
  exact isSome_of_owner h (hlive a ha)

/-- A warp of a character that is online, into its next arena if there is one. -/
theorem SoundBut.warp (h : w.SoundBut lost) (hlost : c ∉ lost) (honline : w.presence c = .online)
    (hnext : w.places.canWarp map = true → w.NextLive c) : (w.warp c map x y).SoundBut lost := by
  cases hcan : w.places.canWarp map with
  | false =>
      rw [warp_of_not hcan]
      exact h
  | true =>
      have hpointer : w.pointer lost c = (w.combatants c).arena := if_pos ⟨honline, hlost⟩
      have hself := (combatants_warp_self (w := w) (c := c) (x := x) (y := y) hcan).1
      apply h.redirect (c := c)
      · rw [count_warp hcan, hpointer]
      · unfold pointer
        rw [presence_warp, if_pos ⟨honline, hlost⟩, hself]
      · exact hnext hcan
      · exact fun d hd => by rw [combatants_warp_of_ne hd]
      · exact fun d _ => presence_warp
      · intro _ _ a ha
        rw [hself] at ha
        exact hnext hcan a ha
      · intro hselected
        rw [presence_warp, honline] at hselected
        cases hselected
      · exact owner_warp
      · exact mapArena_warp

/-- After a warp there is no next arena, or the warp has not been. -/
theorem NextLive.warp (h : w.NextLive d) : (w.warp c map x y).NextLive d := by
  cases hcan : w.places.canWarp map with
  | false =>
      rw [warp_of_not hcan]
      exact h
  | true =>
      intro a ha
      by_cases hd : d = c
      · rw [hd, (combatants_warp_self hcan).2] at ha
        cases ha
      · rw [combatants_warp_of_ne hd] at ha
        exact isSome_of_owner owner_warp (h a ha)

theorem canWarp_warp {map' : ℤ} :
    (w.warp c map x y).places.canWarp map' = w.places.canWarp map' := by
  rw [places_warp]
  exact MapPlaces.canWarp_congr MapPlaces.size_warp (fun n => MapPlaces.existing_warp)

/-- Several warps to one map. -/
theorem Sound.warpAll {actions : List (ℕ × UInt8 × UInt8)} (h : w.Sound)
    (hactions : w.places.canWarp m = true →
      ∀ action ∈ actions, w.presence action.1 = .online ∧ w.NextLive action.1) :
    (w.warpAll m actions).Sound := by
  induction actions generalizing w with
  | nil => exact h
  | cons action rest ih =>
      change ((w.warp action.1 m action.2.1 action.2.2).warpAll m rest).Sound
      apply ih
      · cases hcan : w.places.canWarp m with
        | false =>
            rw [warp_of_not hcan]
            exact h
        | true =>
            obtain ⟨honline, hlive⟩ := hactions hcan action List.mem_cons_self
            exact SoundBut.warp h List.not_mem_nil honline (fun _ => hlive)
      · intro hcan next hnext
        rw [canWarp_warp] at hcan
        obtain ⟨honline, hlive⟩ := hactions hcan next (List.mem_cons_of_mem _ hnext)
        exact ⟨presence_warp.trans honline, hlive.warp⟩

end ArenaServ.ArenaWorld
