import ArenaServ.MapMembership

/-!
# Who enters and leaves the lists

A login enters a character that is in no list, a logout takes one off, and a swap of two characters
does both. With the warps and the deaths these are the steps of a run, in which the lists stay exact
exactly if each step fits.
-/

namespace ArenaServ.MapPlaces
open Function

variable {w w' : MapPlaces} {c d m n : ℕ} {map : ℤ}

/-! ## Logins -/

theorem times_login : (w.login c).times n d =
    w.times n d + if n = w.getMap (w.characters c).mapid ∧ d = c then 1 else 0 := by
  unfold login
  dsimp only
  rw [times_setCharacter, times_enter]

theorem times_login_of_ne (hd : d ≠ c) : (w.login c).times n d = w.times n d := by
  rw [times_login, if_neg (fun h => hd h.2), Nat.add_zero]

theorem characters_login_self :
    ((w.login c).characters c).presence = .online ∧
      ((w.login c).characters c).map = some (w.getMap (w.characters c).mapid) ∧
      ((w.login c).characters c).mapid = (w.characters c).mapid ∧
      ((w.login c).characters c).nowhere = (w.characters c).nowhere := by
  unfold login setCharacter
  dsimp only
  rw [update_self, characters_enter, update_self]
  exact ⟨rfl, rfl, rfl, rfl⟩

theorem characters_login_of_ne (hd : d ≠ c) : (w.login c).characters d = w.characters d := by
  unfold login setCharacter
  dsimp only
  rw [update_of_ne hd, characters_enter, update_of_ne hd]

/-- A login of a character that is in no list. -/
theorem Sound.login (h : w.Sound) (hselected : (w.characters c).presence = .selected) :
    (w.login c).Sound := by
  obtain ⟨hnowhere, hpos, hle⟩ := h.selected c hselected
  obtain ⟨honline, hmap, hmapid, hsome⟩ := characters_login_self (w := w) (c := c)
  have hcurrent : (w.characters c).mapid = w.getMap (w.characters c).mapid := by
    unfold getMap
    rw [if_pos ⟨hpos, hle⟩]
    omega
  have htimes : ∀ n, (w.login c).times n c =
      if n = w.getMap (w.characters c).mapid then 1 else 0 := by
    intro n
    have hnone : w.times n c = 0 := by
      apply times_of_placed (h.exact c)
      rintro ⟨honline', -⟩
      rw [hselected] at honline'
      cases honline'
    rw [times_login, hnone, Nat.zero_add]
    simp only [and_true]
  apply h.of_frame (c := c)
  · exact placed_of_one honline (hsome.trans hnowhere) hmap (hmapid.trans hcurrent) htimes
  · exact fun d hd => characters_login_of_ne hd
  · exact fun d hd n => times_login_of_ne hd
  · rfl
  · intro n hn
    have hpos' : 0 < w.getMap (w.characters c).mapid := getMap_pos
    have hle' : w.getMap (w.characters c).mapid ≤ w.size := getMap_le
    rw [htimes n, if_neg (by omega)]
  · intro hagain
    rw [honline] at hagain
    cases hagain

/-- A client that is closed before its character enters. -/
theorem Sound.close (h : w.Sound) (hselected : (w.characters c).presence = .selected) :
    (w.setCharacter c { w.characters c with presence := .away }).Sound := by
  have hnone : ∀ n, w.times n c = 0 := by
    intro n
    apply times_of_placed (h.exact c)
    rintro ⟨honline, -⟩
    rw [hselected] at honline
    cases honline
  apply h.of_frame (c := c)
  · apply placed_of_none
    · unfold setCharacter
      dsimp only
      rw [update_self]
      rintro ⟨honline, -⟩
      cases honline
    · exact hnone
  · intro d hd
    unfold setCharacter
    dsimp only
    rw [update_of_ne hd]
  · exact fun d _ n => rfl
  · rfl
  · exact fun n _ => hnone n
  · unfold setCharacter
    dsimp only
    rw [update_self]
    intro hagain
    cases hagain

/-- A character that is put where it is spawned is entered there twice. -/
theorem Sound.welcomeMsg (h : w.Sound) (hselected : (w.characters c).presence = .selected) :
    (w.Fits (.welcome c map) → (w.welcomeMsg c map).Sound) ∧
      ((w.welcomeMsg c map).Exact → w.Fits (.welcome c map)) := by
  unfold MapPlaces.welcomeMsg
  by_cases hexisting : (w.maps (w.getMap (w.characters c).mapid)).existing = true
  · rw [if_pos hexisting]
    exact ⟨fun _ => h.login hselected, fun _ _ _ => hexisting⟩
  · rw [if_neg hexisting]
    by_cases hspawn : (w.maps (w.getMap map)).existing = true
    · rw [if_pos hspawn]
      cases hcan : w.canWarp map with
      | false =>
          rw [warp_of_not hcan]
          refine ⟨fun _ => h.login hselected, ?_⟩
          intro _ _ hcan'
          rw [hcan] at hcan'
          cases hcan'
      | true =>
          refine ⟨fun hfits => absurd (hfits hselected hcan) hexisting, ?_⟩
          intro hexact
          obtain ⟨-, hmapid, hnowhere, -⟩ := characters_warp_self (c := c) hcan
          obtain ⟨honline, -, -, hsome⟩ := characters_login_self (w := w.warp c map) (c := c)
          obtain ⟨m, -, -, htimes⟩ :=
            placed_of_online (hexact c) honline (hsome.trans hnowhere)
          have hsame : (w.warp c map).getMap ((w.warp c map).characters c).mapid =
              w.getMap map := by
            rw [hmapid]
            apply getMap_of_mem getMap_pos
            rw [size_warp]
            exact getMap_le
          have hagain : w.getMap map = w.getMap map ∧ c = c := ⟨rfl, rfl⟩
          have htwice := htimes (w.getMap map)
          rw [times_login, hsame, if_pos hagain, times_warp hcan, if_pos hagain] at htwice
          by_cases hm : w.getMap map = m
          · rw [if_pos hm] at htwice
            omega
          · rw [if_neg hm] at htwice
            omega
    · rw [if_neg hspawn]
      refine ⟨fun _ => h.close hselected, ?_⟩
      intro _ _ hcan
      unfold canWarp at hcan
      exact absurd (Bool.and_eq_true_iff.mp hcan).2 hspawn

/-! ## Logouts -/

theorem times_logout : (w.logout c).times n d =
    if (w.maps (w.getMap (w.characters c).mapid)).existing = true ∧
      n = w.getMap (w.characters c).mapid ∧ d = c then 0 else w.times n d := by
  unfold logout
  dsimp only
  by_cases hexisting : (w.maps (w.getMap (w.characters c).mapid)).existing = true
  · rw [if_pos hexisting, times_leave, times_setCharacter]
    exact if_congr ⟨fun h => ⟨hexisting, h⟩, fun h => h.2⟩ rfl rfl
  · rw [if_neg hexisting, times_setCharacter, if_neg (fun h => hexisting h.1)]

theorem presence_logout : ((w.logout c).characters c).presence = .away := by
  unfold logout setCharacter
  dsimp only
  split_ifs
  · rw [characters_leave, update_self]
    dsimp only
    rw [update_self]
  · dsimp only
    rw [update_self]

theorem characters_logout_of_ne (hd : d ≠ c) : (w.logout c).characters d = w.characters d := by
  unfold logout setCharacter
  dsimp only
  split_ifs
  · rw [characters_leave, update_of_ne hd]
    dsimp only
    rw [update_of_ne hd]
  · dsimp only
    rw [update_of_ne hd]

theorem size_logout : (w.logout c).size = w.size := by
  unfold logout
  dsimp only
  split_ifs
  · rfl
  · rfl

/-- A logout that takes its character off its map. -/
theorem Sound.logout_of_left (h : w.Sound) (hleft : ∀ n, (w.logout c).times n c = 0) :
    (w.logout c).Sound := by
  apply h.of_frame (c := c)
  · apply placed_of_none _ hleft
    rintro ⟨honline, -⟩
    rw [presence_logout] at honline
    cases honline
  · exact fun d hd => characters_logout_of_ne hd
  · intro d hd n
    rw [times_logout, if_neg (fun h => hd h.2.2)]
  · exact size_logout
  · exact fun n _ => hleft n
  · intro hselected
    rw [presence_logout] at hselected
    cases hselected

/-- A character stays in the list of its map if that does not exist. -/
theorem Sound.logout (h : w.Sound) (honline : (w.characters c).presence = .online) :
    (w.Fits (.logout c) → (w.logout c).Sound) ∧ ((w.logout c).Exact → w.Fits (.logout c)) := by
  by_cases hsome : (w.characters c).nowhere = false
  · obtain ⟨m, -, hmapid, htimes⟩ := placed_of_online (h.exact c) honline hsome
    have hone : w.times m c = 1 := by rw [htimes m, if_pos rfl]
    obtain ⟨hpos, hle⟩ := h.mem hone
    have hcurrent : w.getMap (w.characters c).mapid = m := by
      rw [hmapid]
      exact getMap_of_mem hpos hle
    constructor
    · intro hfits
      apply h.logout_of_left
      intro n
      rw [times_logout, hcurrent]
      by_cases hn : n = m
      · have hexisting := hfits honline hsome
        rw [hcurrent] at hexisting
        rw [if_pos ⟨hexisting, hn, rfl⟩]
      · rw [if_neg (fun h => hn h.2.1), htimes n, if_neg hn]
    · intro hexact _ _
      by_contra hgone
      have hnone : (w.logout c).times m c = 0 := by
        apply times_of_placed (hexact c)
        rintro ⟨honline', -⟩
        rw [presence_logout] at honline'
        cases honline'
      rw [times_logout, if_neg (fun h => hgone h.1)] at hnone
      omega
  · refine ⟨fun _ => h.logout_of_left ?_, fun _ _ hsome' => absurd hsome' hsome⟩
    intro n
    rw [times_logout, times_of_placed (h.exact c) (fun hboth => hsome hboth.2) n, ite_self]

/-! ## Duty -/

theorem existing_login : ((w.login c).maps n).existing = (w.maps n).existing := existing_enter

theorem canWarp_login : (w.login c).canWarp map = w.canWarp map :=
  canWarp_congr rfl (fun n => existing_login)

theorem canWarp_iff : w.canWarp map = true ↔
    (0 < map ∧ map ≤ w.size) ∧ (w.maps (w.getMap map)).existing = true := by
  unfold canWarp
  rw [Bool.and_eq_true_iff, Bool.and_eq_true_iff, decide_eq_true_iff, decide_eq_true_iff]

/-- A character that was in no list enters one, and is warped to where it has entered. -/
theorem times_reenter (hmapid : (w.characters c).mapid = map) (hnone : ∀ n, w.times n c = 0) :
    ((w.login c).warp c map).times n c = if n = w.getMap map then 1 else 0 := by
  have hentered : (w.login c).times n c = if n = w.getMap map then 1 else 0 := by
    rw [times_login, hnone n, Nat.zero_add, hmapid]
    simp only [and_true]
  cases hcan : (w.login c).canWarp map with
  | false => rw [warp_of_not hcan, hentered]
  | true =>
      obtain ⟨-, hmap, -, -⟩ := characters_login_self (w := w) (c := c)
      rw [hmapid] at hmap
      have hexisting := (canWarp_iff.mp hcan).2
      rw [times_warp hcan, hentered]
      change _ + (if n = w.getMap map ∧ c = c then 1 else 0) = _
      by_cases hn : n = w.getMap map
      · rw [if_pos ⟨rfl, by rw [hn, hmap], by rw [hn]; exact hexisting⟩, if_pos ⟨hn, rfl⟩,
          if_pos hn]
      · rw [if_neg hn, ite_self, if_neg (fun h => hn h.1)]

theorem placed_reenter (hmapid : (w.characters c).mapid = map) (hnone : ∀ n, w.times n c = 0) :
    ((w.login c).warp c map).Placed c ↔
      (0 < map ∧ map ≤ w.size) ∧ ((w.characters c).nowhere = true →
        (w.maps (w.getMap map)).existing = true) := by
  obtain ⟨honline, hmap, hmapid', hsome⟩ := characters_login_self (w := w) (c := c)
  rw [hmapid] at hmap
  have htimes : ∀ n, ((w.login c).warp c map).times n c = if n = w.getMap map then 1 else 0 :=
    fun n => times_reenter hmapid hnone
  cases hcan : (w.login c).canWarp map with
  | true =>
      obtain ⟨hmap', hmapid'', hnowhere, hpresence⟩ := characters_warp_self (c := c) hcan
      rw [canWarp_login, canWarp_iff] at hcan
      constructor
      · exact fun _ => ⟨hcan.1, fun _ => hcan.2⟩
      · exact fun _ => placed_of_one (hpresence.trans honline) hnowhere hmap' hmapid'' htimes
  | false =>
      rw [warp_of_not hcan] at htimes ⊢
      rw [canWarp_login, ← Bool.not_eq_true, canWarp_iff] at hcan
      constructor
      · intro hplaced
        cases hnowhere : (w.characters c).nowhere with
        | true =>
            have hzero := times_of_placed hplaced
              (fun hboth => by rw [hsome, hnowhere] at hboth; cases hboth.2) (w.getMap map)
            rw [htimes, if_pos rfl] at hzero
            cases hzero
        | false =>
            obtain ⟨m, hm, hid, -⟩ := placed_of_online hplaced honline (hsome.trans hnowhere)
            have hsame : w.getMap map = m := Option.some.inj (hmap.symm.trans hm)
            have hpos : 0 < w.getMap map := getMap_pos
            have hle : w.getMap map ≤ w.size := getMap_le
            rw [hmapid', hmapid, ← hsame] at hid
            exact ⟨⟨by omega, by omega⟩, fun h => by cases h⟩
      · rintro ⟨hmem, hexisting⟩
        have hsomewhere : (w.characters c).nowhere = false :=
          Bool.eq_false_iff.mpr fun hnowhere => hcan ⟨hmem, hexisting hnowhere⟩
        apply placed_of_one honline (hsome.trans hsomewhere) hmap _ htimes
        rw [hmapid', hmapid]
        unfold getMap
        rw [if_pos hmem]
        omega

theorem existing_logout : ((w.logout c).maps n).existing = (w.maps n).existing := by
  unfold logout
  dsimp only
  split_ifs
  · exact existing_leave
  · rfl

/-- A character that is in no list goes off duty. -/
theorem Sound.offDuty (h : w.Sound) (hnone : ∀ n, w.times n c = 0) :
    (w.setCharacter c { w.characters c with presence := .offDuty }).Sound := by
  have hself : ((w.setCharacter c { w.characters c with presence := .offDuty }).characters c) =
      { w.characters c with presence := .offDuty } := update_self _ _ _
  apply h.of_frame (c := c)
  · apply placed_of_none
    · rw [hself]
      rintro ⟨honline, -⟩
      cases honline
    · exact hnone
  · exact fun d hd => update_of_ne hd _ _
  · exact fun d _ n => rfl
  · rfl
  · exact fun n _ => hnone n
  · rw [hself]
    intro hselected
    cases hselected

/-- A character that is in no list goes on duty. -/
theorem Sound.onDuty {queued : ℕ} (h : w.Sound) (hnone : ∀ n, w.times n d = 0) :
    let moved := w.setCharacter d { w.characters d with mapid := map, queued := queued }
    let entered := (moved.login d).warp d map
    ((entered.Placed d → entered.Sound) ∧
      (entered.Placed d ↔ (0 < map ∧ map ≤ w.size) ∧ ((w.characters d).nowhere = true →
        (w.maps (w.getMap map)).existing = true))) ∧
      ∀ c, c ≠ d → entered.characters c = w.characters c ∧
        ∀ n, entered.times n c = w.times n c := by
  intro moved entered
  have hself : moved.characters d = { w.characters d with mapid := map, queued := queued } :=
    update_self _ _ _
  have hmapid : (moved.characters d).mapid = map := by rw [hself]
  have hmoved : ∀ n, moved.times n d = 0 := hnone
  have hcharacters : ∀ c, c ≠ d → entered.characters c = w.characters c := by
    intro c hc
    have hsame : moved.characters c = w.characters c := update_of_ne hc _ _
    rw [characters_warp_of_ne hc, characters_login_of_ne hc, hsame]
  have htimes : ∀ c, c ≠ d → ∀ n, entered.times n c = w.times n c := by
    intro c hc n
    rw [times_warp_of_ne hc, times_login_of_ne hc]
    exact times_setCharacter
  have hlist : ∀ n, entered.times n d = if n = w.getMap map then 1 else 0 :=
    fun n => times_reenter hmapid hmoved
  have hpresence : (entered.characters d).presence = .online := by
    obtain ⟨honline, -, -, -⟩ := characters_login_self (w := moved) (c := d)
    cases hcan : (moved.login d).canWarp map with
    | false =>
        change ((((moved.login d).warp d map).characters d).presence = .online)
        rw [warp_of_not hcan, honline]
    | true =>
        obtain ⟨-, -, -, hsame⟩ := characters_warp_self (c := d) hcan
        exact hsame.trans honline
  refine ⟨⟨?_, ?_⟩, fun c hc => ⟨hcharacters c hc, htimes c hc⟩⟩
  · intro hplaced
    apply h.of_frame hplaced hcharacters htimes
    · exact size_warp
    · intro n hn
      have hpos : 0 < w.getMap map := getMap_pos
      have hle : w.getMap map ≤ w.size := getMap_le
      rw [hlist n, if_neg (by omega)]
    · intro hselected
      rw [hpresence] at hselected
      cases hselected
  · have hnowhere : (moved.characters d).nowhere = (w.characters d).nowhere := by rw [hself]
    rw [← hnowhere]
    exact placed_reenter hmapid hmoved

/-- One character is taken off its list, and the other one is put in one and somewhere. -/
theorem Sound.duty {here : Bool} (h : w.Sound) (honline : (w.characters c).presence = .online)
    (hoff : (w.characters d).presence = .selected ∨ (w.characters d).presence = .offDuty) :
    (w.Fits (.duty c d here) → (w.duty c d here).Sound) ∧
      ((w.duty c d here).Exact → w.Fits (.duty c d here)) := by
  have hne : d ≠ c := by
    rintro rfl
    rw [honline] at hoff
    rcases hoff with hoff | hoff
    · cases hoff
    · cases hoff
  have hnone : ∀ n, w.times n d = 0 := by
    apply times_of_placed (h.exact d)
    rintro ⟨honline', -⟩
    rw [honline'] at hoff
    rcases hoff with hoff | hoff
    · cases hoff
    · cases hoff
  have hself : (w.duty c d here).characters c =
      { (w.logout c).characters c with presence := .offDuty } := by
    unfold MapPlaces.duty swapOut setCharacter
    dsimp only
    rw [characters_warp_of_ne hne.symm, characters_login_of_ne hne.symm]
    dsimp only
    rw [update_of_ne hne.symm, update_self]
  have htimes : ∀ n, (w.duty c d here).times n c = (w.logout c).times n c := by
    intro n
    unfold MapPlaces.duty swapOut
    dsimp only
    rw [times_warp_of_ne hne.symm, times_login_of_ne hne.symm, times_setCharacter,
      times_setCharacter]
  have hleft : (∀ n, (w.logout c).times n c = 0) ↔ w.Fits (.logout c) := by
    constructor
    · exact fun hzero => (h.logout honline).2 (h.logout_of_left hzero).exact
    · intro hfits
      apply times_of_placed (((h.logout honline).1 hfits).exact c)
      rintro ⟨honline', -⟩
      rw [presence_logout] at honline'
      cases honline'
  have hswap : (∀ n, (w.logout c).times n c = 0) →
      ((w.duty c d here).Placed d → (w.duty c d here).Sound) ∧
      ((w.duty c d here).Placed d ↔
        (0 < w.dutyMap c d here ∧ w.dutyMap c d here ≤ w.size) ∧
        ((w.characters d).nowhere = true →
          (w.maps (w.getMap (w.dutyMap c d here))).existing = true)) := by
    intro hzero
    generalize hoffDuty : (w.logout c).setCharacter c
      { (w.logout c).characters c with presence := .offDuty } = off
    have hsound : off.Sound := by
      rw [← hoffDuty]
      exact (h.logout_of_left hzero).offDuty hzero
    have hcharacter : off.characters d = w.characters d := by
      rw [← hoffDuty]
      exact (update_of_ne hne _ _).trans (characters_logout_of_ne hne)
    have hsize : off.size = w.size := by
      rw [← hoffDuty]
      exact size_logout
    have hexisting : ∀ n, (off.maps n).existing = (w.maps n).existing := by
      intro n
      rw [← hoffDuty]
      exact existing_logout
    have hoffNone : ∀ n, off.times n d = 0 := by
      intro n
      rw [← hoffDuty, times_setCharacter, times_logout, hnone n, ite_self]
    have honDuty := (@Sound.onDuty off d (w.dutyMap c d here) (w.characters c).queued hsound
      hoffNone).1
    rw [hcharacter, hsize, hexisting, getMap_congr hsize] at honDuty
    have hduty : w.duty c d here =
        ((off.setCharacter d { w.characters d with
          mapid := w.dutyMap c d here, queued := (w.characters c).queued }).login d).warp d
          (w.dutyMap c d here) := by
      rw [← hcharacter, ← hoffDuty]
      rfl
    rw [hduty]
    exact honDuty
  constructor
  · intro hfits
    obtain ⟨hexisting, hmap⟩ := hfits honline hoff
    have hzero := hleft.mpr (fun _ => hexisting)
    exact (hswap hzero).1 ((hswap hzero).2.mpr hmap)
  · intro hexact _ _
    have hzero : ∀ n, (w.logout c).times n c = 0 := by
      intro n
      rw [← htimes n]
      apply times_of_placed (hexact c)
      rw [hself]
      rintro ⟨honline', -⟩
      cases honline'
    exact ⟨hleft.mp hzero honline, (hswap hzero).2.mp (hexact d)⟩

/-! ## Characters and maps that are made -/

theorem Sound.load (h : w.Sound) (haway : (w.characters c).presence = .away) :
    (w.load c map).Sound := by
  have hself : (w.load c map).characters c =
      ⟨.selected, false, some (w.getMap map), w.getMap map, 0⟩ := update_self _ _ _
  have hnone : ∀ n, w.times n c = 0 := by
    intro n
    apply times_of_placed (h.exact c)
    rintro ⟨honline, -⟩
    rw [haway] at honline
    cases honline
  apply h.of_frame (c := c)
  · apply placed_of_none
    · rw [hself]
      rintro ⟨honline, -⟩
      cases honline
    · exact hnone
  · exact fun d hd => update_of_ne hd _ _
  · exact fun d _ n => rfl
  · rfl
  · exact fun n _ => hnone n
  · intro _
    have hpos : 0 < w.getMap map := getMap_pos
    have hle : w.getMap map ≤ w.size := getMap_le
    rw [hself]
    dsimp only
    exact ⟨rfl, by omega, by omega⟩

theorem times_reload {success : Bool} : (w.reload m success).times n d = w.times n d := by
  unfold reload times setMap
  dsimp only
  by_cases hn : n = m
  · rw [hn, update_self]
  · rw [update_of_ne hn]

theorem Sound.reload {success : Bool} (h : w.Sound) : (w.reload m success).Sound where
  exact := by
    intro c
    have hplaced : (w.reload m success).Placed c ↔ w.Placed c :=
      placed_congr rfl (fun n => times_reload)
    exact hplaced.mpr (h.exact c)
  outside := by
    intro n hn c
    rw [times_reload]
    exact h.outside n hn c
  selected := h.selected

theorem Sound.times_addMap {existing : Bool} (h : w.Sound) :
    (w.addMap existing).times n d = w.times n d := by
  unfold addMap times
  dsimp only
  by_cases hn : n = w.size + 1
  · have hnone := h.outside n (by omega) d
    rw [hn] at hnone ⊢
    rw [update_self]
    exact hnone.symm
  · rw [update_of_ne hn]

theorem Sound.addMap {existing : Bool} (h : w.Sound) : (w.addMap existing).Sound where
  exact := by
    intro c
    have hplaced : (w.addMap existing).Placed c ↔ w.Placed c :=
      placed_congr rfl (fun n => h.times_addMap)
    exact hplaced.mpr (h.exact c)
  outside := by
    intro n hn c
    rw [h.times_addMap]
    apply h.outside n
    change w.size + 1 < n ∨ n = 0 at hn
    omega
  selected := by
    intro c hc
    obtain ⟨hnowhere, hpos, hle⟩ := h.selected c hc
    refine ⟨hnowhere, hpos, ?_⟩
    change (w.characters c).mapid ≤ (w.size + 1 : ℕ)
    omega

/-! ## Runs -/

theorem Sound.step {e : PlaceStep} (h : w.Sound) (hs : w.step e = some w') :
    (w.Fits e → w'.Sound) ∧ (w'.Exact → w.Fits e) := by
  unfold MapPlaces.step at hs
  cases e with
  | load c rowMap =>
      dsimp only at hs
      obtain ⟨haway, hw⟩ := Option.ite_none_right_eq_some.mp hs
      cases hw
      exact ⟨fun _ => h.load haway, fun _ => trivial⟩
  | welcome c spawnMap =>
      dsimp only at hs
      obtain ⟨hselected, hw⟩ := Option.ite_none_right_eq_some.mp hs
      cases hw
      exact h.welcomeMsg hselected
  | duty c swap here =>
      dsimp only at hs
      obtain ⟨⟨honline, hoff⟩, hw⟩ := Option.ite_none_right_eq_some.mp hs
      cases hw
      exact h.duty honline hoff
  | warp c map =>
      dsimp only at hs
      obtain ⟨honline, hw⟩ := Option.ite_none_right_eq_some.mp hs
      cases hw
      exact h.warp honline
  | deathRespawn c spawnMap =>
      dsimp only at hs
      obtain ⟨honline, hw⟩ := Option.ite_none_right_eq_some.mp hs
      obtain ⟨m, hmap, rfl⟩ := Option.map_eq_some_iff.mp hw
      exact ⟨fun _ => h.deathRespawn honline hmap, fun _ => trivial⟩
  | internalWarp c spawnMap =>
      dsimp only at hs
      obtain ⟨⟨honline, hqueued⟩, hw⟩ := Option.ite_none_right_eq_some.mp hs
      cases hw
      exact h.internalWarp honline hqueued
  | logout c =>
      dsimp only at hs
      obtain ⟨honline, hw⟩ := Option.ite_none_right_eq_some.mp hs
      cases hw
      exact h.logout honline
  | reload m success =>
      dsimp only at hs
      obtain ⟨-, hw⟩ := Option.ite_none_right_eq_some.mp hs
      cases hw
      exact ⟨fun _ => h.reload, fun _ => trivial⟩
  | addMap existing =>
      dsimp only at hs
      cases hs
      exact ⟨fun _ => h.addMap, fun _ => trivial⟩

theorem fits_of_none {e : PlaceStep} (hs : w.step e = none) : w.Fits e := by
  unfold MapPlaces.step at hs
  cases e with
  | load c rowMap => trivial
  | welcome c spawnMap =>
      intro hselected
      dsimp only at hs
      rw [if_pos hselected] at hs
      cases hs
  | duty c swap here =>
      intro honline hoff
      dsimp only at hs
      rw [if_pos ⟨honline, hoff⟩] at hs
      cases hs
  | warp c map =>
      intro honline
      dsimp only at hs
      rw [if_pos honline] at hs
      cases hs
  | deathRespawn c spawnMap => trivial
  | internalWarp c spawnMap =>
      intro honline hqueued
      dsimp only at hs
      rw [if_pos ⟨honline, hqueued⟩] at hs
      cases hs
  | logout c =>
      intro honline
      dsimp only at hs
      rw [if_pos honline] at hs
      cases hs
  | reload m success => trivial
  | addMap existing => trivial

/-- A world that nobody has entered. -/
structure Empty (w : MapPlaces) : Prop where
  away : ∀ c, (w.characters c).presence = .away
  unlisted : ∀ m, (w.maps m).characters = []

theorem Empty.sound (h : w.Empty) : w.Sound where
  exact := by
    intro c
    apply placed_of_none
    · rintro ⟨honline, -⟩
      rw [h.away] at honline
      cases honline
    · intro m
      unfold times
      rw [h.unlisted, List.count_nil]
  outside := by
    intro m _ c
    unfold times
    rw [h.unlisted, List.count_nil]
  selected := by
    intro c hc
    rw [h.away] at hc
    cases hc

/-- In a run from a world that nobody has entered, the lists of the maps are exact as long as and
only as long as warps, logouts and logins find the map of the character, and the warp after a death
finds the character nowhere. -/
theorem exact_iff_fits (h : w.Empty) (steps : List PlaceStep) :
    (∀ t, RunSteps.Reaches step w steps t → t.Exact) ↔ RunSteps.Every step Fits w steps := by
  rw [RunSteps.forall_reaches_iff]
  have hiff : RunSteps.Every step (fun w e => ∀ w' ∈ step w e, w'.Exact) w steps ↔
      RunSteps.Every step Fits w steps := by
    apply RunSteps.every_iff Sound _ _ h.sound
    · intro w e h
      constructor
      · intro hexact
        cases hs : w.step e with
        | none => exact fits_of_none hs
        | some w' => exact (h.step hs).2 (hexact w' hs)
      · exact fun hfits w' hs => ((h.step hs).1 hfits).exact
    · exact fun w e w' h hfits hs => (h.step hs).1 hfits
  rw [hiff]
  exact and_iff_right h.sound.exact

/-! ## One character and two maps -/

def twoMaps : MapPlaces where
  size := 2
  positive := by decide
  maps _ := ⟨true, []⟩
  characters _ := ⟨.away, false, none, 0, 0⟩

theorem twoMaps_empty : twoMaps.Empty where
  away _ := rfl
  unlisted _ := rfl

theorem exact_iff_fits_twoMaps :
    (∀ t, RunSteps.Reaches step twoMaps [.load 0 1, .welcome 0 1, .warp 0 2, .deathRespawn 0 1,
      .internalWarp 0 1, .reload 1 false, .logout 0] t → t.Exact) ↔
      RunSteps.Every step Fits twoMaps [.load 0 1, .welcome 0 1, .warp 0 2, .deathRespawn 0 1,
        .internalWarp 0 1, .reload 1 false, .logout 0] :=
  exact_iff_fits twoMaps_empty _

/-- A character that is warped off a map that has failed to be reloaded is in two lists. -/
theorem not_exact_twoMaps :
    ∃ w steps t, w.Empty ∧ RunSteps.Reaches step w steps t ∧ ¬ t.Exact := by
  have hend : (RunSteps.run step twoMaps
      [.load 0 1, .welcome 0 1, .reload 1 false, .warp 0 2]).map (fun t =>
        ((t.characters 0).presence, (t.characters 0).nowhere, t.times 1 0, t.times 2 0)) =
      some (.online, false, 1, 1) := by
    decide
  obtain ⟨t, ht, hview⟩ := Option.map_eq_some_iff.mp hend
  refine ⟨twoMaps, _, t, twoMaps_empty, RunSteps.reaches_of_run ht, ?_⟩
  intro hexact
  simp only [Prod.mk.injEq] at hview
  obtain ⟨honline, hsome, hfirst, hsecond⟩ := hview
  obtain ⟨m, -, -, htimes⟩ := placed_of_online (hexact 0) honline hsome
  have hone := htimes 1
  have htwo := htimes 2
  split_ifs at hone htwo <;> omega

end ArenaServ.MapPlaces
