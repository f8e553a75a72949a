import ArenaServ.MapPlaces
import Mathlib.Tactic.SplitIfs

/-!
# Whether characters are where they are listed

A character is taken off the list of its map only while that map exists, a login that puts a
character elsewhere lists it twice, and the packet that a death has queued forgets where the
character is by then. Where none of this happens, the lists are exact.
-/

namespace ArenaServ.MapPlaces
open Function

/-- How often a character is in the list of a map. -/
def times (w : MapPlaces) (m c : ℕ) : ℕ := (w.maps m).characters.count c

/-- A character that is online and somewhere is once in the list of its map and in no other one,
and any other character is in none. -/
def Placed (w : MapPlaces) (c : ℕ) : Prop :=
  if (w.characters c).presence = .online ∧ (w.characters c).nowhere = false then
    ∃ m : ℕ, (w.characters c).map = some m ∧ (w.characters c).mapid = m ∧
      ∀ m', w.times m' c = if m' = m then 1 else 0
  else ∀ m', w.times m' c = 0

def Exact (w : MapPlaces) : Prop := ∀ c, w.Placed c

/-- A warp, a logout and a login find that the map of the character exists, unless it is nowhere or
goes nowhere else, and the warp after a death finds that it is still nowhere. Whoever goes on duty
has a map, which exists if it was nowhere. -/
def Fits (w : MapPlaces) : PlaceStep → Prop
  | .welcome c spawnMap => (w.characters c).presence = .selected →
      w.canWarp spawnMap = true → (w.maps (w.getMap (w.characters c).mapid)).existing = true
  | .duty c swap here => (w.characters c).presence = .online →
      ((w.characters swap).presence = .selected ∨ (w.characters swap).presence = .offDuty) →
      ((w.characters c).nowhere = false →
        (w.maps (w.getMap (w.characters c).mapid)).existing = true) ∧
      (0 < w.dutyMap c swap here ∧ w.dutyMap c swap here ≤ w.size) ∧
      ((w.characters swap).nowhere = true →
        (w.maps (w.getMap (w.dutyMap c swap here))).existing = true)
  | .warp c map => (w.characters c).presence = .online → (w.characters c).nowhere = false →
      w.canWarp map = true → (w.maps (w.getMap (w.characters c).mapid)).existing = true
  | .internalWarp c _ => (w.characters c).presence = .online → 0 < (w.characters c).queued →
      (w.characters c).nowhere = true
  | .logout c => (w.characters c).presence = .online → (w.characters c).nowhere = false →
      (w.maps (w.getMap (w.characters c).mapid)).existing = true
  | _ => True

/-- Only the maps that there are have characters, and a selected character has one of them. -/
structure Sound (w : MapPlaces) : Prop where
  exact : w.Exact
  outside : ∀ m, w.size < m ∨ m = 0 → ∀ c, w.times m c = 0
  selected : ∀ c, (w.characters c).presence = .selected →
    (w.characters c).nowhere = false ∧ 0 < (w.characters c).mapid ∧
      (w.characters c).mapid ≤ w.size

variable {w w' : MapPlaces} {c d m n : ℕ} {map : ℤ}

/-! ## What changes a list -/

theorem times_leave :
    (w.leave m c).times n d = if n = m ∧ d = c then 0 else w.times n d := by
  unfold times leave setMap setCharacter
  dsimp only
  by_cases hn : n = m
  · subst hn
    rw [update_self]
    by_cases hd : d = c
    · rw [if_pos ⟨rfl, hd⟩, hd]
      apply List.count_eq_zero.mpr
      simp
    · rw [if_neg (fun h => hd h.2)]
      apply List.count_filter
      simpa using hd
  · rw [update_of_ne hn, if_neg (fun h => hn h.1)]

theorem times_enter :
    (w.enter m c).times n d = w.times n d + if n = m ∧ d = c then 1 else 0 := by
  unfold times enter setMap setCharacter
  dsimp only
  by_cases hn : n = m
  · subst hn
    rw [update_self, List.count_append]
    by_cases hd : d = c
    · rw [if_pos ⟨rfl, hd⟩, hd, List.count_singleton_self]
    · have hzero : [c].count d = 0 := List.count_eq_zero.mpr (by simpa using hd)
      rw [if_neg (fun h => hd h.2), hzero]
  · rw [update_of_ne hn, if_neg (fun h => hn h.1), Nat.add_zero]

theorem times_setCharacter {character : PlacedCharacter} :
    (w.setCharacter c character).times n d = w.times n d := rfl

theorem characters_leave :
    (w.leave m c).characters = update w.characters c { w.characters c with map := none } := rfl

theorem characters_enter :
    (w.enter m c).characters = update w.characters c { w.characters c with map := some m } := rfl

theorem times_leaveOld : (w.leaveOld c).times n d =
    if d = c ∧ (w.characters c).map = some n ∧ (w.maps n).existing = true then 0
    else w.times n d := by
  unfold leaveOld
  cases hmap : (w.characters c).map with
  | none => rw [if_neg (fun h => by cases h.2.1)]
  | some m =>
      dsimp only
      by_cases hexisting : (w.maps m).existing = true
      · rw [if_pos hexisting, times_leave]
        apply if_congr _ rfl rfl
        constructor
        · rintro ⟨rfl, hd⟩
          exact ⟨hd, rfl, hexisting⟩
        · rintro ⟨hd, hm, -⟩
          exact ⟨(Option.some.inj hm).symm, hd⟩
      · rw [if_neg hexisting, if_neg]
        rintro ⟨-, hm, hn⟩
        cases hm
        exact hexisting hn

theorem characters_leaveOld_of_ne (hd : d ≠ c) : (w.leaveOld c).characters d = w.characters d := by
  unfold leaveOld
  cases (w.characters c).map with
  | none => rfl
  | some m =>
      dsimp only
      split_ifs
      · rw [characters_leave, update_of_ne hd]
      · rfl

theorem presence_leaveOld :
    ((w.leaveOld c).characters c).presence = (w.characters c).presence := by
  unfold leaveOld
  cases (w.characters c).map with
  | none => rfl
  | some m =>
      dsimp only
      split_ifs
      · rw [characters_leave, update_self]
      · rfl

theorem size_leaveOld : (w.leaveOld c).size = w.size := by
  unfold leaveOld
  cases (w.characters c).map with
  | none => rfl
  | some m =>
      dsimp only
      split_ifs
      · rfl
      · rfl

theorem getMap_pos : 0 < w.getMap map := by
  unfold getMap
  split_ifs with h
  · omega
  · decide

theorem getMap_le : w.getMap map ≤ w.size := by
  unfold getMap
  have hpos := w.positive
  split_ifs with h
  · omega
  · omega

theorem getMap_of_mem (hm : 0 < m) (hle : m ≤ w.size) : w.getMap m = m := by
  unfold getMap
  rw [if_pos ⟨by omega, by omega⟩]
  exact Int.toNat_natCast m

theorem getMap_congr (hsize : w'.size = w.size) : w'.getMap map = w.getMap map := by
  unfold getMap
  rw [hsize]

theorem existing_leave : ((w.leave m c).maps n).existing = (w.maps n).existing := by
  unfold leave setMap setCharacter
  dsimp only
  by_cases hn : n = m
  · rw [hn, update_self]
  · rw [update_of_ne hn]

theorem existing_enter : ((w.enter m c).maps n).existing = (w.maps n).existing := by
  unfold enter setMap setCharacter
  dsimp only
  by_cases hn : n = m
  · rw [hn, update_self]
  · rw [update_of_ne hn]

theorem existing_leaveOld : ((w.leaveOld c).maps n).existing = (w.maps n).existing := by
  unfold leaveOld
  cases (w.characters c).map with
  | none => rfl
  | some m =>
      dsimp only
      split_ifs
      · exact existing_leave
      · rfl

theorem canWarp_congr (hsize : w'.size = w.size)
    (hexisting : ∀ n, (w'.maps n).existing = (w.maps n).existing) :
    w'.canWarp map = w.canWarp map := by
  unfold canWarp
  rw [hsize, hexisting, getMap_congr hsize]

/-! ## Warps -/

theorem warp_of_canWarp (h : w.canWarp map = true) : w.warp c map =
    ((w.leaveOld c).setCharacter c
      { (w.leaveOld c).characters c with
        map := some (w.getMap map), mapid := w.getMap map, nowhere := false }).enter
      (w.getMap map) c := by
  unfold warp
  rw [if_pos h]

theorem warp_of_not (h : w.canWarp map = false) : w.warp c map = w := by
  unfold warp
  rw [if_neg (by rw [h]; decide)]

theorem times_warp (h : w.canWarp map = true) : (w.warp c map).times n d =
    (if d = c ∧ (w.characters c).map = some n ∧ (w.maps n).existing = true then 0
      else w.times n d) + if n = w.getMap map ∧ d = c then 1 else 0 := by
  rw [warp_of_canWarp h, times_enter, times_setCharacter, times_leaveOld]

theorem characters_warp_self (h : w.canWarp map = true) :
    ((w.warp c map).characters c).map = some (w.getMap map) ∧
      ((w.warp c map).characters c).mapid = w.getMap map ∧
      ((w.warp c map).characters c).nowhere = false ∧
      ((w.warp c map).characters c).presence = (w.characters c).presence := by
  rw [warp_of_canWarp h, characters_enter, update_self]
  unfold setCharacter
  dsimp only
  rw [update_self]
  exact ⟨rfl, rfl, rfl, presence_leaveOld⟩

theorem characters_warp_of_ne (hd : d ≠ c) : (w.warp c map).characters d = w.characters d := by
  cases h : w.canWarp map with
  | false => rw [warp_of_not h]
  | true =>
      rw [warp_of_canWarp h, characters_enter, update_of_ne hd]
      unfold setCharacter
      dsimp only
      rw [update_of_ne hd, characters_leaveOld_of_ne hd]

theorem times_warp_of_ne (hd : d ≠ c) : (w.warp c map).times n d = w.times n d := by
  cases h : w.canWarp map with
  | false => rw [warp_of_not h]
  | true =>
      rw [times_warp h, if_neg (fun h => hd h.1), if_neg (fun h => hd h.2), Nat.add_zero]

theorem size_warp : (w.warp c map).size = w.size := by
  cases h : w.canWarp map with
  | false => rw [warp_of_not h]
  | true =>
      rw [warp_of_canWarp h]
      exact size_leaveOld

theorem existing_warp : ((w.warp c map).maps n).existing = (w.maps n).existing := by
  cases h : w.canWarp map with
  | false => rw [warp_of_not h]
  | true =>
      rw [warp_of_canWarp h, existing_enter]
      exact existing_leaveOld

/-! ## Who stays exact -/

theorem placed_congr (hcharacter : w'.characters d = w.characters d)
    (htimes : ∀ n, w'.times n d = w.times n d) : w'.Placed d ↔ w.Placed d := by
  unfold Placed
  rw [hcharacter]
  simp only [htimes]

theorem placed_of_online (hplaced : w.Placed c) (honline : (w.characters c).presence = .online)
    (hsome : (w.characters c).nowhere = false) :
    ∃ m : ℕ, (w.characters c).map = some m ∧ (w.characters c).mapid = m ∧
      ∀ m', w.times m' c = if m' = m then 1 else 0 := by
  unfold Placed at hplaced
  rw [if_pos ⟨honline, hsome⟩] at hplaced
  exact hplaced

theorem times_of_placed (hplaced : w.Placed c)
    (hnot : ¬ ((w.characters c).presence = .online ∧ (w.characters c).nowhere = false)) (m : ℕ) :
    w.times m c = 0 := by
  unfold Placed at hplaced
  rw [if_neg hnot] at hplaced
  exact hplaced m

/-- A character that is somewhere is on a map that there is. -/
theorem Sound.mem (h : w.Sound) (hone : w.times m c = 1) : 0 < m ∧ m ≤ w.size := by
  by_contra hnot
  have hzero := h.outside m (by omega) c
  omega

/-- What one character does leaves the others as they are. -/
theorem Sound.of_frame (h : w.Sound) (hplaced : w'.Placed c)
    (hcharacters : ∀ d, d ≠ c → w'.characters d = w.characters d)
    (htimes : ∀ d, d ≠ c → ∀ n, w'.times n d = w.times n d)
    (hsize : w'.size = w.size) (houtside : ∀ n, w.size < n ∨ n = 0 → w'.times n c = 0)
    (hselected : (w'.characters c).presence = .selected → (w'.characters c).nowhere = false ∧
      0 < (w'.characters c).mapid ∧ (w'.characters c).mapid ≤ w.size) : w'.Sound where
  exact := by
    intro d
    by_cases hd : d = c
    · rw [hd]
      exact hplaced
    · exact (placed_congr (hcharacters d hd) (htimes d hd)).mpr (h.exact d)
  outside := by
    intro n hn d
    rw [hsize] at hn
    by_cases hd : d = c
    · rw [hd]
      exact houtside n hn
    · rw [htimes d hd]
      exact h.outside n hn d
  selected := by
    intro d hd
    rw [hsize]
    by_cases hdc : d = c
    · rw [hdc] at hd ⊢
      exact hselected hd
    · rw [hcharacters d hdc] at hd ⊢
      exact h.selected d hd

theorem placed_of_one {w : MapPlaces} (honline : (w.characters c).presence = .online)
    (hsome : (w.characters c).nowhere = false) (hmap : (w.characters c).map = some m)
    (hmapid : (w.characters c).mapid = m)
    (htimes : ∀ n, w.times n c = if n = m then 1 else 0) : w.Placed c := by
  unfold Placed
  rw [if_pos ⟨honline, hsome⟩]
  exact ⟨m, hmap, hmapid, htimes⟩

theorem placed_of_none {w : MapPlaces}
    (hnot : ¬ ((w.characters c).presence = .online ∧ (w.characters c).nowhere = false))
    (htimes : ∀ n, w.times n c = 0) : w.Placed c := by
  unfold Placed
  rw [if_neg hnot]
  exact htimes

/-- A warp that takes its character off its map. -/
theorem Sound.warp_of_left (h : w.Sound) (honline : (w.characters c).presence = .online)
    (hcan : w.canWarp map = true)
    (hleft : ∀ n, (if (w.characters c).map = some n ∧ (w.maps n).existing = true then 0
      else w.times n c) = 0) : (w.warp c map).Sound := by
  obtain ⟨hmap, hmapid, hnowhere, hpresence⟩ := characters_warp_self (c := c) hcan
  have htimes : ∀ n, (w.warp c map).times n c = if n = w.getMap map then 1 else 0 := by
    intro n
    rw [times_warp hcan]
    simp only [true_and, and_true]
    rw [hleft n, Nat.zero_add]
  apply h.of_frame (c := c)
  · exact placed_of_one (hpresence.trans honline) hnowhere hmap hmapid htimes
  · exact fun d hd => characters_warp_of_ne hd
  · exact fun d hd n => times_warp_of_ne hd
  · exact size_warp
  · intro n hn
    have hpos : 0 < w.getMap map := getMap_pos
    have hle : w.getMap map ≤ w.size := getMap_le
    rw [htimes n, if_neg (by omega)]
  · intro hselected
    rw [hpresence, honline] at hselected
    cases hselected

/-- A character that is taken from its list goes to one other. -/
theorem Sound.warp (h : w.Sound) (honline : (w.characters c).presence = .online) :
    (w.Fits (.warp c map) → (w.warp c map).Sound) ∧
      ((w.warp c map).Exact → w.Fits (.warp c map)) := by
  cases hcan : w.canWarp map with
  | false =>
      rw [warp_of_not hcan]
      refine ⟨fun _ => h, ?_⟩
      intro _ _ _ hcan'
      rw [hcan] at hcan'
      cases hcan'
  | true =>
      by_cases hsome : (w.characters c).nowhere = false
      · obtain ⟨m, hmap, hmapid, htimes⟩ := placed_of_online (h.exact c) honline hsome
        have hone : w.times m c = 1 := by rw [htimes m, if_pos rfl]
        obtain ⟨hpos, hle⟩ := h.mem hone
        have hcurrent : w.getMap (w.characters c).mapid = m := by
          rw [hmapid]
          exact getMap_of_mem hpos hle
        constructor
        · intro hfits
          have hexisting := hfits honline hsome hcan
          rw [hcurrent] at hexisting
          apply h.warp_of_left honline hcan
          intro n
          by_cases hn : n = m
          · rw [hn, if_pos ⟨hmap, hexisting⟩]
          · rw [if_neg, htimes n, if_neg hn]
            rintro ⟨hm, -⟩
            exact hn (Option.some.inj (hm.symm.trans hmap))
        · intro hexact _ _ _
          rw [hcurrent]
          by_contra hgone
          -- it stays in the list that it was in, and is in that of the map it goes to
          obtain ⟨hmap', -, hnowhere, hpresence⟩ := characters_warp_self (c := c) hcan
          obtain ⟨m', hm', -, htimes'⟩ :=
            placed_of_online (hexact c) (hpresence.trans honline) hnowhere
          have hold := htimes' m
          have hnew : m' = w.getMap map := Option.some.inj (hm'.symm.trans hmap')
          have hne : m ≠ w.getMap map := by
            rintro rfl
            apply hgone
            unfold canWarp at hcan
            exact (Bool.and_eq_true_iff.mp hcan).2
          rw [times_warp hcan, hone, if_neg (fun h => hgone h.2.2), hnew, if_neg hne] at hold
          omega
      · constructor
        · intro _
          apply h.warp_of_left honline hcan
          intro n
          rw [times_of_placed (h.exact c) (fun hboth => hsome hboth.2) n, ite_self]
        · exact fun _ _ hsome' => absurd hsome' hsome

/-! ## A death -/

/-- Its character is taken off the list that it is in. -/
theorem Sound.deathRespawn (h : w.Sound) (honline : (w.characters c).presence = .online)
    (hmap : (w.characters c).map = some m) : (w.deathRespawn c m map).Sound := by
  have htimes : ∀ n, (w.deathRespawn c m map).times n c = 0 := by
    intro n
    unfold MapPlaces.deathRespawn
    rw [times_setCharacter, times_leave]
    by_cases hn : n = m
    · rw [if_pos ⟨hn, rfl⟩]
    · rw [if_neg (fun h => hn h.1)]
      by_cases hsome : (w.characters c).nowhere = false
      · obtain ⟨m', hm', -, htimes⟩ := placed_of_online (h.exact c) honline hsome
        have hm : m' = m := Option.some.inj (hm'.symm.trans hmap)
        rw [htimes n, hm, if_neg hn]
      · exact times_of_placed (h.exact c) (fun hboth => hsome hboth.2) n
  have hself : ((w.deathRespawn c m map).characters c).nowhere = true ∧
      ((w.deathRespawn c m map).characters c).presence = (w.characters c).presence := by
    unfold MapPlaces.deathRespawn setCharacter
    dsimp only
    rw [update_self, characters_leave, update_self]
    exact ⟨rfl, rfl⟩
  apply h.of_frame (c := c)
  · apply placed_of_none _ htimes
    rintro ⟨-, hsome⟩
    rw [hself.1] at hsome
    cases hsome
  · intro d hd
    unfold MapPlaces.deathRespawn setCharacter
    dsimp only
    rw [update_of_ne hd, characters_leave, update_of_ne hd]
  · intro d hd n
    unfold MapPlaces.deathRespawn
    rw [times_setCharacter, times_leave, if_neg (fun h => hd h.2)]
  · rfl
  · exact fun n _ => htimes n
  · intro hselected
    rw [hself.2, honline] at hselected
    cases hselected

/-- A character that is nowhere forgets its map. -/
theorem Sound.forget (h : w.Sound) (honline : (w.characters c).presence = .online)
    (hnowhere : (w.characters c).nowhere = true) :
    (w.setCharacter c { w.characters c with
      map := none, queued := (w.characters c).queued - 1 }).Sound := by
  have htimes : ∀ n, w.times n c = 0 := by
    intro n
    apply times_of_placed (h.exact c)
    rintro ⟨-, hsome⟩
    rw [hnowhere] at hsome
    cases hsome
  apply h.of_frame (c := c)
  · apply placed_of_none
    · unfold setCharacter
      dsimp only
      rw [update_self]
      rintro ⟨-, hsome⟩
      dsimp only at hsome
      rw [hnowhere] at hsome
      cases hsome
    · exact htimes
  · intro d hd
    unfold setCharacter
    dsimp only
    rw [update_of_ne hd]
  · exact fun d _ n => rfl
  · rfl
  · exact fun n _ => htimes n
  · unfold setCharacter
    dsimp only
    rw [update_self]
    intro hselected
    dsimp only at hselected
    rw [honline] at hselected
    cases hselected

/-- What a death has queued finds its character nowhere, or leaves it in the list that it is in. -/
theorem Sound.internalWarp (h : w.Sound) (honline : (w.characters c).presence = .online)
    (hqueued : 0 < (w.characters c).queued) :
    (w.Fits (.internalWarp c map) → (w.internalWarp c map).Sound) ∧
      ((w.internalWarp c map).Exact → w.Fits (.internalWarp c map)) := by
  unfold MapPlaces.internalWarp
  generalize hforgot : w.setCharacter c { w.characters c with
    map := none, queued := (w.characters c).queued - 1 } = forgot
  have hcharacter : forgot.characters c =
      { w.characters c with map := none, queued := (w.characters c).queued - 1 } := by
    rw [← hforgot]
    exact update_self _ _ _
  constructor
  · intro hfits
    have hnowhere := hfits honline hqueued
    have hsound : forgot.Sound := by
      rw [← hforgot]
      exact h.forget honline hnowhere
    have honline' : (forgot.characters c).presence = .online := by
      rw [hcharacter]
      exact honline
    apply (hsound.warp honline').1
    intro _ hsome
    rw [hcharacter] at hsome
    exact absurd (hnowhere.symm.trans hsome) (by decide)
  · intro hexact _ _
    by_contra hnowhere
    have hsome := Bool.eq_false_iff.mpr hnowhere
    obtain ⟨m, -, -, htimes⟩ := placed_of_online (h.exact c) honline hsome
    cases hcan : forgot.canWarp map with
    | false =>
        rw [warp_of_not hcan] at hexact
        obtain ⟨m', hm', -⟩ := placed_of_online (hexact c) (by rw [hcharacter]; exact honline)
          (by rw [hcharacter]; exact hsome)
        rw [hcharacter] at hm'
        cases hm'
    | true =>
        obtain ⟨hmap', -, hnowhere', hpresence⟩ := characters_warp_self (c := c) hcan
        rw [hcharacter] at hpresence
        obtain ⟨m', hm', -, htimes'⟩ :=
          placed_of_online (hexact c) (hpresence.trans honline) hnowhere'
        have hnew : m' = forgot.getMap map := Option.some.inj (hm'.symm.trans hmap')
        have hold : (forgot.warp c map).times m c =
            1 + if m = forgot.getMap map then 1 else 0 := by
          rw [times_warp hcan, hcharacter, if_neg (fun h => by cases h.2.1), ← hforgot,
            times_setCharacter, htimes m, if_pos rfl]
          simp only [and_true]
        rw [htimes' m, hnew] at hold
        omega

end ArenaServ.MapPlaces
