import ArenaServ.ArenaOccupancy
import ArenaServ.RunSteps

/-!
# What happens to the arenas in a run

A round warps into an arena and an attack out of it. A new arena takes over those who are listed in
the old one, or warps them away one after the other, and a logout takes one out.
-/

namespace ArenaServ.ArenaWorld
open Function

variable {w w' : ArenaWorld} {a b c d m : ℕ} {map : ℤ} {x y : UInt8} {lost : List ℕ}
  {arena : Arena}

/-! ## Rounds and attacks -/

theorem SoundBut.setCombatant {combatant : Combatant} (h : w.SoundBut lost)
    (harena : combatant.arena = (w.combatants c).arena) :
    (w.setCombatant c combatant).SoundBut lost := by
  apply h.congr
  · rfl
  · rfl
  · exact fun d => rfl
  · intro d
    change (update w.combatants c _ d).arena = _
    by_cases hd : d = c
    · rw [hd, update_self, harena]
    · rw [update_of_ne hd]

/-- The marks of those who go to the next round leave the rest as it is. -/
theorem nextRounds (list : List ℕ) :
    (list.foldl (fun w c => w.nextRound a c) w).places = w.places ∧
      (list.foldl (fun w c => w.nextRound a c) w).owner = w.owner := by
  induction list generalizing w with
  | nil => exact ⟨rfl, rfl⟩
  | cons c rest ih =>
      rw [List.foldl_cons]
      exact ih

theorem Sound.nextRounds (h : w.Sound) (list : List ℕ) :
    (list.foldl (fun w c => w.nextRound a c) w).Sound := by
  induction list generalizing w with
  | nil => exact h
  | cons c rest ih =>
      rw [List.foldl_cons]
      apply ih
      exact h.setCombatant rfl

theorem nextArena_nextRounds (list : List ℕ)
    (hc : (w.combatants c).nextArena = some a ∨ c ∈ list) :
    ((list.foldl (fun w c => w.nextRound a c) w).combatants c).nextArena = some a := by
  induction list generalizing w with
  | nil =>
      rcases hc with hc | hc
      · exact hc
      · cases hc
  | cons d rest ih =>
      rw [List.foldl_cons]
      apply ih
      by_cases hd : c = d
      · left
        change (update w.combatants d _ c).nextArena = some a
        rw [hd, update_self]
      · rcases hc with hc | hc
        · left
          change (update w.combatants d _ c).nextArena = some a
          rw [update_of_ne hd]
          exact hc
        · exact Or.inr (List.mem_of_ne_of_mem hd hc)

theorem spawnRound_started {force : Bool} {n : ℕ} (h : w.spawnRound arena force = .started n) :
    n = w.newplayers arena := by
  unfold spawnRound at h
  split_ifs at h
  · cases h
    rfl

/-- A round of characters that are online. -/
theorem Sound.spawn {force : Bool} (h : w.Sound) (harena : w.arenas a = some arena)
    (hfits : w.Fits (.spawn a force)) : (w.spawn a arena force).Sound := by
  unfold ArenaWorld.spawn
  cases hround : w.spawnRound arena force with
  | nobody => exact h
  | blocked => exact h
  | started n =>
      have hn := spawnRound_started hround
      rw [hn] at hround
      obtain ⟨hplaces, howner⟩ := ArenaWorld.nextRounds (w := w) (a := a)
        ((w.spawnActions arena).map Prod.fst)
      apply (h.nextRounds _).warpAll
      intro hcan action haction
      rw [hplaces] at hcan
      constructor
      · unfold presence
        rw [hplaces]
        exact hfits arena harena hround hcan action haction
      · intro b hb
        rw [nextArena_nextRounds _ (Or.inr (List.mem_map_of_mem haction))] at hb
        cases hb
        apply isSome_of_owner howner
        rw [harena]
        rfl

theorem nextLive_setCombatant {combatant : Combatant}
    (hnext : combatant.nextArena = (w.combatants c).nextArena) (h : w.NextLive d) :
    (w.setCombatant c combatant).NextLive d := by
  intro a ha
  change (update w.combatants c combatant d).nextArena = some a at ha
  by_cases hd : d = c
  · rw [hd, update_self, hnext] at ha
    rw [hd] at h
    exact h a ha
  · rw [update_of_ne hd] at ha
    exact h a ha

/-- An attack on a character that is online. -/
theorem Sound.attack {direction : Direction} (h : w.Sound) (honline : w.presence c = .online)
    (hin : (w.combatants c).arena = some a) (harena : w.arenas a = some arena)
    (hfits : w.Fits (.attack c direction)) : (w.attack a arena c direction).Sound := by
  unfold ArenaWorld.attack
  have hturned : (w.setCombatant c { w.combatants c with direction := direction }).Sound :=
    h.setCombatant rfl
  cases hvictim : w.victim a arena c direction with
  | none => exact hturned
  | some v =>
      apply Sound.warpAll
      · exact hturned.setCombatant rfl
      · intro hcan action haction
        obtain ⟨hpresence, hnext⟩ :=
          hfits honline a arena v hin harena hvictim hcan action haction
        refine ⟨hpresence, ?_⟩
        apply nextLive_setCombatant
        · rfl
        · apply nextLive_setCombatant
          · rfl
          · exact hnext

/-! ## Arenas that are replaced -/

theorem mem_updateCharacters (ha : w.mapArena m = some a) (harena : w.arenas a = some arena)
    (hc : c ∈ w.updateCharacters m) : (w.combatants c).arena = some a := by
  unfold updateCharacters at hc
  rw [ha, Option.elim_some, harena, Option.elim_some, List.mem_filter] at hc
  exact eq_of_beq hc.2

theorem updateCharacters_of_none (hm : w.mapArena m = none) : w.updateCharacters m = [] := by
  unfold updateCharacters
  rw [hm, Option.elim_none]

theorem Sound.arena_of_mapArena (h : w.Sound) (ha : w.mapArena m = some a) :
    ∃ arena, w.arenas a = some arena := by
  have howner := h.owned m a ha
  unfold owner at howner
  obtain ⟨arena, harena, -⟩ := Option.map_eq_some_iff.mp howner
  exact ⟨arena, harena⟩

theorem arenas_deleteArena_of_none (hm : w.mapArena m = none) :
    (w.deleteArena m).arenas = w.arenas := by
  unfold deleteArena
  rw [hm]
  rfl

theorem arenas_deleteArena (hm : w.mapArena m = some a) :
    (w.deleteArena m).arenas = update w.arenas a none := by
  unfold deleteArena
  rw [hm]
  rfl

/-- Those who point to the arena that is deleted lose it. -/
theorem Sound.deleteArena (h : w.Sound) (hnone : w.mapArena m = none → lost = [])
    (hlost : ∀ a, w.mapArena m = some a → (∀ c ∈ lost, w.presence c = .online ∧
      (w.combatants c).arena = some a) ∧
      ∀ c, w.presence c ≠ .away → (w.combatants c).arena = some a → c ∈ lost) :
    (w.deleteArena m).SoundBut lost := by
  have hmapArena : ∀ m' b, (w.deleteArena m).mapArena m' = some b →
      m' ≠ m ∧ w.mapArena m' = some b := by
    intro m' b hb
    change update w.mapArena m none m' = some b at hb
    by_cases hm' : m' = m
    · rw [hm', update_self] at hb
      cases hb
    · rw [update_of_ne hm'] at hb
      exact ⟨hm', hb⟩
  cases hm : w.mapArena m with
  | none =>
      have harenas := arenas_deleteArena_of_none hm
      rw [hnone hm]
      refine ⟨?_, ?_, h.finite, ?_, h.selected⟩
      · have hcount : (w.deleteArena m).count = w.count := by
          unfold count
          rw [harenas]
        rw [hcount]
        exact h.counts
      · rw [harenas]
        exact h.live
      · intro m' b hb
        unfold owner
        rw [harenas]
        exact h.owned m' b (hmapArena m' b hb).2
  | some a =>
      have harenas := arenas_deleteArena hm
      obtain ⟨hin, hall⟩ := hlost a hm
      refine ⟨?_, ?_, h.finite, ?_, h.selected⟩
      · have hcount : (w.deleteArena m).count = update w.count a none := by
          funext b
          unfold count
          rw [harenas]
          by_cases hb : b = a
          · rw [hb, update_self, update_self, Option.map_none]
          · rw [update_of_ne hb, update_of_ne hb]
        have hpointer : (w.deleteArena m).pointer lost =
            fun c => if c ∈ lost then none else w.pointer [] c := by
          funext c
          change (if w.presence c = .online ∧ c ∉ lost then _ else _) = _
          unfold pointer
          by_cases hc : c ∈ lost
          · rw [if_neg (fun h => h.2 hc), if_pos hc]
          · rw [if_neg hc]
            exact if_congr (and_congr_right fun _ => iff_of_true hc List.not_mem_nil) rfl rfl
        rw [hcount, hpointer]
        apply h.counts.forget
        intro c
        rw [pointer_eq_some]
        constructor
        · intro hc
          obtain ⟨honline, harena⟩ := hin c hc
          exact ⟨⟨honline, List.not_mem_nil⟩, harena⟩
        · rintro ⟨⟨honline, -⟩, harena⟩
          apply hall c _ harena
          rw [honline]
          intro haway
          cases haway
      · intro c b hc haway hb
        have hba : b ≠ a := by
          rintro rfl
          exact hc (hall c haway hb)
        rw [harenas, update_of_ne hba]
        exact h.live c b List.not_mem_nil haway hb
      · intro m' b hb
        obtain ⟨hm', hb'⟩ := hmapArena m' b hb
        have howner := h.owned m' b hb'
        have hba : b ≠ a := by
          rintro rfl
          have hsame := h.owned m b hm
          rw [howner] at hsame
          exact hm' (Option.some.inj hsame)
        unfold owner
        rw [harenas, update_of_ne hba]
        exact howner

/-- Those who are taken over are in the new arena, and nothing else changes. -/
theorem setArenas {q : Option ℕ} (list : List ℕ) :
    (list.foldl (fun w c => w.setArena c q) w).places = w.places ∧
      (list.foldl (fun w c => w.setArena c q) w).arenas = w.arenas ∧
      (list.foldl (fun w c => w.setArena c q) w).mapArena = w.mapArena ∧
      ∀ d, ((list.foldl (fun w c => w.setArena c q) w).combatants d).arena =
        if d ∈ list then q else (w.combatants d).arena := by
  induction list generalizing w with
  | nil => exact ⟨rfl, rfl, rfl, fun d => (if_neg List.not_mem_nil).symm⟩
  | cons c rest ih =>
      rw [List.foldl_cons]
      obtain ⟨hplaces, harenas, hmapArena, hcombatants⟩ := ih (w := w.setArena c q)
      refine ⟨hplaces, harenas, hmapArena, ?_⟩
      intro d
      rw [hcombatants d]
      by_cases hrest : d ∈ rest
      · rw [if_pos hrest, if_pos (List.mem_cons_of_mem _ hrest)]
      · rw [if_neg hrest]
        change (update w.combatants c _ d).arena = _
        by_cases hd : d = c
        · rw [hd, update_self, if_pos List.mem_cons_self]
        · rw [update_of_ne hd, if_neg]
          intro hmem
          rcases List.mem_cons.mp hmem with hmem | hmem
          · exact hd hmem
          · exact hrest hmem

/-- A new arena takes over those who have lost theirs. -/
theorem SoundBut.newArena {config : ArenaConfig} {address : ℕ} (h : w.SoundBut lost)
    (hnodup : lost.Nodup) (honline : ∀ c ∈ lost, w.presence c = .online)
    (hfree : w.arenas address = none) :
    (lost.foldl (fun w c => w.setArena c (some address))
      (w.newArena m config address lost.length)).Sound := by
  obtain ⟨hplaces, harenas, hmapArena, hcombatants⟩ :=
    setArenas (w := w.newArena m config address lost.length) (q := some address) lost
  generalize lost.foldl (fun w c => w.setArena c (some address))
    (w.newArena m config address lost.length) = final at *
  have hpresence : ∀ c, final.presence c = w.presence c := by
    intro c
    unfold presence
    rw [hplaces]
    rfl
  have haddress : final.arenas address =
      some ⟨lost.length, config.block, m, ArenaConfig.spawnsOf config.spawns⟩ := by
    rw [harenas]
    exact update_self _ _ _
  have hother : ∀ b, b ≠ address → final.arenas b = w.arenas b := by
    intro b hb
    rw [harenas]
    exact update_of_ne hb _ _
  refine ⟨?_, ?_, ?_, ?_, ?_⟩
  · have hcount : final.count = update w.count address (some (lost.length : ℤ)) := by
      funext b
      unfold count
      by_cases hb : b = address
      · rw [hb, haddress, update_self]
        rfl
      · rw [hother b hb, update_of_ne hb]
    have hpointer : final.pointer [] =
        fun c => if c ∈ lost then some address else w.pointer lost c := by
      funext c
      unfold pointer
      rw [hpresence, hcombatants]
      by_cases hc : c ∈ lost
      · rw [if_pos ⟨honline c hc, List.not_mem_nil⟩, if_pos hc, if_pos hc]
      · rw [if_neg hc, if_neg hc]
        exact if_congr (and_congr_right fun _ => iff_of_true List.not_mem_nil hc) rfl rfl
    rw [hcount, hpointer]
    apply h.counts.adopt _ hnodup
    · intro c hc
      unfold pointer
      exact if_neg fun hboth => hboth.2 hc
    · unfold count
      rw [hfree]
      rfl
  · intro c b _ haway hb
    rw [hpresence] at haway
    rw [hcombatants] at hb
    by_cases hba : b = address
    · rw [hba, haddress]
      rfl
    · rw [hother b hba]
      by_cases hc : c ∈ lost
      · rw [if_pos hc] at hb
        exact absurd (Option.some.inj hb).symm hba
      · rw [if_neg hc] at hb
        exact h.live c b hc haway hb
  · simp only [hpresence]
    exact h.finite
  · intro m' b hb
    rw [hmapArena] at hb
    change update w.mapArena m (some address) m' = some b at hb
    unfold owner
    by_cases hm' : m' = m
    · rw [hm', update_self] at hb
      rw [← Option.some.inj hb, haddress, hm']
      rfl
    · rw [update_of_ne hm'] at hb
      have howner := h.owned m' b hb
      have hba : b ≠ address := by
        rintro rfl
        unfold owner at howner
        rw [hfree] at howner
        cases howner
      rw [hother b hba]
      exact howner
  · intro c hc
    rw [hpresence] at hc
    rw [hcombatants, if_neg]
    · exact h.selected c hc
    · intro hmem
      rw [honline c hmem] at hc
      cases hc

/-- A character that has lost its arena forgets it. -/
theorem SoundBut.setArena (h : w.SoundBut (c :: lost)) (hc : c ∉ lost) :
    (w.setArena c none).SoundBut lost := by
  have hself : ((w.setArena c none).combatants c).arena = none := by
    change (update w.combatants c _ c).arena = none
    rw [update_self]
  have hothers : ∀ d, d ≠ c → (w.setArena c none).combatants d = w.combatants d :=
    fun d hd => update_of_ne hd _ _
  refine ⟨?_, ?_, h.finite, h.owned, ?_⟩
  · have hpointer : (w.setArena c none).pointer lost = w.pointer (c :: lost) := by
      funext d
      change (if w.presence d = .online ∧ d ∉ lost then _ else _) = _
      unfold pointer
      by_cases hd : d = c
      · rw [hd, hself, ite_self, if_neg (fun h => h.2 List.mem_cons_self)]
      · rw [hothers d hd]
        have hmem : d ∉ lost ↔ d ∉ c :: lost := by
          rw [List.mem_cons, not_or]
          exact (and_iff_right hd).symm
        exact if_congr (and_congr_right fun _ => hmem) rfl rfl
    rw [hpointer]
    exact h.counts
  · intro d b hd haway hb
    by_cases hdc : d = c
    · rw [hdc, hself] at hb
      cases hb
    · rw [hothers d hdc] at hb
      apply h.live d b _ haway hb
      rw [List.mem_cons, not_or]
      exact ⟨hdc, hd⟩
  · intro d hd
    by_cases hdc : d = c
    · rw [hdc]
      exact hself
    · rw [hothers d hdc]
      exact h.selected d hd

/-- It is warped to where it logs in, or has no map to be warped on. -/
theorem SoundBut.evict (h : w.SoundBut (c :: lost)) (hc : c ∉ lost)
    (honline : w.presence c = .online)
    (hnext : ∀ m : ℕ, (w.places.characters c).map = some m → w.places.canWarp m = true →
      w.NextLive c) : (w.evict c).SoundBut lost := by
  have hset := h.setArena hc
  unfold ArenaWorld.evict
  cases hm : (w.places.characters c).map with
  | none => exact hset
  | some m =>
      apply hset.warp hc honline
      intro hcan
      exact nextLive_setCombatant rfl (hnext m hm hcan)

theorem places_evict_of_ne (hd : d ≠ c) :
    (w.evict c).places.characters d = w.places.characters d := by
  unfold evict
  cases (w.places.characters c).map with
  | none => rfl
  | some m =>
      change ((w.setArena c none).warp c m _ _).places.characters d = _
      rw [places_warp]
      exact MapPlaces.characters_warp_of_ne hd

theorem canWarp_evict : (w.evict c).places.canWarp map = w.places.canWarp map := by
  unfold evict
  cases (w.places.characters c).map with
  | none => rfl
  | some m => exact canWarp_warp

theorem presence_evict : (w.evict c).presence d = w.presence d := by
  unfold evict
  cases (w.places.characters c).map with
  | none => rfl
  | some m => exact presence_warp

theorem nextLive_evict (h : w.NextLive d) : (w.evict c).NextLive d := by
  have hset : (w.setArena c none).NextLive d := nextLive_setCombatant rfl h
  unfold evict
  cases (w.places.characters c).map with
  | none => exact hset
  | some m => exact hset.warp

/-- They are evicted one after the other. -/
theorem SoundBut.evictAll (h : w.SoundBut lost) (hnodup : lost.Nodup)
    (honline : ∀ c ∈ lost, w.presence c = .online)
    (hnext : ∀ c ∈ lost, ∀ m : ℕ, (w.places.characters c).map = some m →
      w.places.canWarp m = true → w.NextLive c) :
    (lost.foldl (fun w c => w.evict c) w).Sound := by
  induction lost generalizing w with
  | nil => exact h
  | cons c rest ih =>
      obtain ⟨hc, hrest⟩ := List.nodup_cons.mp hnodup
      rw [List.foldl_cons]
      apply ih _ hrest
      · intro d hd
        rw [presence_evict]
        exact honline d (List.mem_cons_of_mem _ hd)
      · intro d hd m hm hcan
        have hne : d ≠ c := by
          rintro rfl
          exact hc hd
        rw [places_evict_of_ne hne] at hm
        rw [canWarp_evict] at hcan
        exact nextLive_evict (hnext d (List.mem_cons_of_mem _ hd) m hm hcan)
      · exact h.evict hc (honline c List.mem_cons_self) (hnext c List.mem_cons_self)

theorem Sound.loadArena {config : ArenaConfig} {address : ℕ} (h : w.Sound)
    (hfree : (w.deleteArena m).arenas address = none)
    (hfits : w.Fits (.loadArena m config address)) : (w.loadArena m config address).Sound := by
  have hdeleted : (w.deleteArena m).SoundBut (w.updateCharacters m) := by
    apply h.deleteArena updateCharacters_of_none
    intro a ha
    obtain ⟨arena, harena⟩ := h.arena_of_mapArena ha
    obtain ⟨-, honline, hall⟩ := (hfits a ha).1
    exact ⟨fun c hc => ⟨honline c hc, mem_updateCharacters ha harena hc⟩, hall⟩
  have hnodup : (w.updateCharacters m).Nodup := by
    cases hm : w.mapArena m with
    | none =>
        rw [updateCharacters_of_none hm]
        exact List.nodup_nil
    | some a => exact (hfits a hm).1.nodup
  have honline : ∀ c ∈ w.updateCharacters m, w.presence c = .online := by
    cases hm : w.mapArena m with
    | none =>
        rw [updateCharacters_of_none hm]
        exact fun c hc => by cases hc
    | some a => exact (hfits a hm).1.online
  unfold ArenaWorld.loadArena
  dsimp only
  cases husable : usable config with
  | true =>
      rw [if_pos rfl]
      exact hdeleted.newArena hnodup honline hfree
  | false =>
      rw [if_neg (by decide)]
      apply hdeleted.evictAll hnodup honline
      intro c hc m' hm' hcan b hb
      cases hm : w.mapArena m with
      | none =>
          rw [updateCharacters_of_none hm] at hc
          cases hc
      | some a =>
          obtain ⟨hba, hlive⟩ := (hfits a hm).2 husable c hc m' hm' hcan b hb
          rw [arenas_deleteArena hm, update_of_ne hba]
          exact hlive

/-- What a map has read, and its arena if it has been unloaded. -/
theorem Sound.loadArena_of_none {config : ArenaConfig} {address : ℕ} (h : w.Sound)
    (hm : w.mapArena m = none) (hfree : w.arenas address = none) :
    (w.loadArena m config address).Sound := by
  apply h.loadArena
  · rw [arenas_deleteArena_of_none hm]
    exact hfree
  · intro a ha
    rw [hm] at ha
    cases ha

theorem Sound.reload {success : Bool} {relog : UInt8 × UInt8} {config : ArenaConfig} {address : ℕ}
    (h : w.Sound) (hfree : (w.deleteArena m).arenas address = none)
    (hfits : w.Fits (.reload m success relog config address)) :
    (w.reload m success relog config address).Sound := by
  have hdeleted : (w.deleteArena m).Sound := by
    apply h.deleteArena (fun _ => rfl)
    intro a ha
    refine ⟨(fun c hc => by cases hc), ?_⟩
    intro c haway hin
    exact absurd hin (hfits a ha c haway)
  have hunloaded : ((w.deleteArena m).setPlaces (w.places.reload m false)).Sound :=
    hdeleted.congr rfl rfl (fun _ => rfl) (fun _ => rfl)
  unfold ArenaWorld.reload
  dsimp only
  cases success with
  | false =>
      rw [if_neg (by decide)]
      exact hunloaded
  | true =>
      rw [if_pos rfl]
      apply Sound.loadArena_of_none
      · exact hunloaded.congr rfl rfl (fun _ => rfl) (fun _ => rfl)
      · exact update_self _ _ _
      · exact hfree

theorem Sound.addMap {existing : Bool} {relog : UInt8 × UInt8} {config : ArenaConfig}
    {address : ℕ} (h : w.Sound) (hfree : w.arenas address = none) :
    (w.addMap existing relog config address).Sound := by
  unfold ArenaWorld.addMap
  apply Sound.loadArena_of_none
  · refine ⟨h.counts, h.live, h.finite, ?_, h.selected⟩
    intro m a ha
    change update w.mapArena (w.places.size + 1) none m = some a at ha
    by_cases hm : m = w.places.size + 1
    · rw [hm, update_self] at ha
      cases ha
    · rw [update_of_ne hm] at ha
      exact h.owned m a ha
  · exact update_self _ _ _
  · exact hfree

/-! ## Logins and logouts -/

/-- A character that leaves the game, whose pointer stays. -/
theorem Sound.leave {places : MapPlaces} (h : w.Sound) (honline : w.presence c = .online)
    (hoffline : (places.characters c).presence ≠ .online)
    (hselected : (places.characters c).presence ≠ .selected)
    (hothers : ∀ d, d ≠ c → (places.characters d).presence = w.presence d) :
    ((w.releaseArena c).setPlaces places).Sound := by
  have hpointer : w.pointer [] c = (w.combatants c).arena := if_pos ⟨honline, List.not_mem_nil⟩
  have hcombatants : ((w.releaseArena c).setPlaces places).combatants = w.combatants :=
    combatants_releaseArena
  apply SoundBut.redirect (q := none) h
  · rw [hpointer]
    exact count_releaseArena
  · exact if_neg fun hboth => hoffline hboth.1
  · intro a ha
    cases ha
  · intro d _
    rw [hcombatants]
  · exact hothers
  · intro _ _ a ha
    rw [hcombatants] at ha
    apply h.live c a List.not_mem_nil _ ha
    rw [honline]
    intro haway
    cases haway
  · exact fun hagain => absurd hagain hselected
  · exact owner_releaseArena
  · exact mapArena_releaseArena

theorem Sound.logout (h : w.Sound) (honline : w.presence c = .online) : (w.logout c).Sound := by
  apply h.leave honline
  · rw [MapPlaces.presence_logout]
    intro hagain
    cases hagain
  · rw [MapPlaces.presence_logout]
    intro hselected
    cases hselected
  · exact fun d hd => congrArg PlacedCharacter.presence (MapPlaces.characters_logout_of_ne hd)

theorem arena_login : ((w.login c).combatants d).arena = (w.combatants d).arena := by
  unfold login
  dsimp only
  split_ifs
  · exact arena_moveTo
  · rfl

theorem presence_login :
    (w.login c).presence d = if d = c then .online else w.presence d := by
  have hplaces : (w.login c).places = w.places.login c := by
    unfold login
    dsimp only
    split_ifs
    · rfl
    · rfl
  unfold presence
  rw [hplaces]
  by_cases hd : d = c
  · rw [hd, if_pos rfl]
    exact MapPlaces.characters_login_self.1
  · rw [if_neg hd, MapPlaces.characters_login_of_ne hd]

theorem arenas_login : (w.login c).arenas = w.arenas ∧ (w.login c).mapArena = w.mapArena := by
  unfold login
  dsimp only
  split_ifs
  · exact ⟨rfl, rfl⟩
  · exact ⟨rfl, rfl⟩

/-- A character that is in no arena enters the game. -/
theorem Sound.login (h : w.Sound) (hoffline : w.presence c ≠ .online)
    (hnone : (w.combatants c).arena = none) : (w.login c).Sound := by
  obtain ⟨harenas, hmapArena⟩ := arenas_login (w := w) (c := c)
  have hpointer : w.pointer [] c = none := if_neg fun hboth => hoffline hboth.1
  apply SoundBut.redirect (q := none) (c := c) h
  · rw [hpointer]
    unfold count
    rw [harenas]
    rfl
  · unfold pointer
    rw [arena_login, hnone, ite_self]
  · intro a ha
    cases ha
  · exact fun d _ => arena_login
  · intro d hd
    rw [presence_login, if_neg hd]
  · intro _ _ a ha
    rw [arena_login, hnone] at ha
    cases ha
  · intro _
    rw [arena_login, hnone]
  · unfold owner
    rw [harenas]
  · exact hmapArena

/-- A selected character is warped before it enters the game. -/
theorem Sound.warp_login (h : w.Sound) (hselected : w.presence c = .selected)
    (hnext : w.places.canWarp map = true → w.NextLive c) :
    ((w.warp c map x y).login c).Sound := by
  have hnone := h.selected c hselected
  have hoffline : w.presence c ≠ .online := by
    rw [hselected]
    intro honline
    cases honline
  cases hcan : w.places.canWarp map with
  | false =>
      rw [warp_of_not hcan]
      exact h.login hoffline hnone
  | true =>
      obtain ⟨harenas, hmapArena⟩ := arenas_login (w := w.warp c map x y) (c := c)
      obtain ⟨hself, -⟩ := combatants_warp_self (w := w) (c := c) (x := x) (y := y) hcan
      have hpointer : w.pointer [] c = none := if_neg fun hboth => hoffline hboth.1
      apply SoundBut.redirect (q := (w.combatants c).nextArena) (c := c) h
      · rw [hpointer, ← hnone, ← count_warp (x := x) (y := y) hcan]
        unfold count
        rw [harenas]
      · unfold pointer
        rw [presence_login, if_pos rfl, if_pos ⟨rfl, List.not_mem_nil⟩, arena_login, hself]
      · exact hnext hcan
      · intro d hd
        rw [arena_login, combatants_warp_of_ne hd]
      · intro d hd
        rw [presence_login, if_neg hd, presence_warp]
      · intro _ _ a ha
        rw [arena_login, hself] at ha
        exact hnext hcan a ha
      · intro hagain
        rw [presence_login, if_pos rfl] at hagain
        cases hagain
      · unfold owner
        rw [harenas]
        exact owner_warp
      · rw [hmapArena]
        exact mapArena_warp

theorem Sound.welcomeMsg (h : w.Sound) (hselected : w.presence c = .selected)
    (hfits : w.Fits (.welcome c map x y)) : (w.welcomeMsg c map x y).Sound := by
  have hoffline : w.presence c ≠ .online := by
    rw [hselected]
    intro honline
    cases honline
  have hnone := h.selected c hselected
  unfold ArenaWorld.welcomeMsg
  by_cases hexisting :
      (w.places.maps (w.places.getMap (w.places.characters c).mapid)).existing = true
  · rw [if_pos hexisting]
    exact h.login hoffline hnone
  · rw [if_neg hexisting]
    by_cases hspawn : (w.places.maps (w.places.getMap map)).existing = true
    · rw [if_pos hspawn]
      exact h.warp_login hselected (hfits hselected (Bool.eq_false_iff.mpr hexisting))
    · rw [if_neg hspawn]
      have hplaces : w.places.welcomeMsg c map = w.places.setCharacter c
          { w.places.characters c with presence := .away } := by
        unfold MapPlaces.welcomeMsg
        rw [if_neg hexisting, if_neg hspawn]
      have hself : (w.setPlaces (w.places.welcomeMsg c map)).presence c = .away := by
        unfold presence setPlaces
        rw [hplaces]
        change (update w.places.characters c _ c).presence = .away
        rw [update_self]
      have hpointer : w.pointer [] c = none := if_neg fun hboth => hoffline hboth.1
      apply SoundBut.redirect (q := none) (c := c) h
      · rw [hpointer]
        rfl
      · unfold pointer
        rw [hself]
        exact if_neg fun hboth => by cases hboth.1
      · intro a ha
        cases ha
      · exact fun d _ => rfl
      · intro d hd
        unfold presence setPlaces
        rw [hplaces]
        change (update w.places.characters c _ d).presence = _
        rw [update_of_ne hd]
      · exact fun _ haway => absurd hself haway
      · exact fun _ => hnone
      · rfl
      · rfl

theorem presence_swapOut_self {here : Bool} (hne : c ≠ d) :
    ((w.places.swapOut c d here).characters c).presence = .offDuty := by
  unfold MapPlaces.swapOut MapPlaces.setCharacter
  dsimp only
  rw [update_of_ne hne, update_self]

theorem presence_swapOut_of_ne {here : Bool} {e : ℕ} (he : e ≠ c) :
    ((w.places.swapOut c d here).characters e).presence = w.presence e := by
  unfold MapPlaces.swapOut MapPlaces.setCharacter
  dsimp only
  by_cases hed : e = d
  · rw [hed] at he ⊢
    rw [update_self]
    dsimp only
    rw [update_of_ne he]
    exact congrArg PlacedCharacter.presence (MapPlaces.characters_logout_of_ne he)
  · rw [update_of_ne hed, update_of_ne he]
    exact congrArg PlacedCharacter.presence (MapPlaces.characters_logout_of_ne he)

theorem canWarp_swapOut {here : Bool} :
    (w.places.swapOut c d here).canWarp map = w.places.canWarp map :=
  MapPlaces.canWarp_congr MapPlaces.size_logout (fun _ => MapPlaces.existing_logout)

theorem places_login : (w.login c).places = w.places.login c := by
  unfold login
  dsimp only
  split_ifs
  · rfl
  · rfl

theorem nextLive_login (h : w.NextLive d) : (w.login c).NextLive d := by
  unfold login
  dsimp only
  split_ifs
  · exact nextLive_setCombatant rfl h
  · exact h

/-- One character leaves the game, and another one that is in no arena enters it. -/
theorem Sound.duty {here : Bool} (h : w.Sound) (honline : w.presence c = .online)
    (hoff : w.presence d = .selected ∨ w.presence d = .offDuty)
    (hfits : w.Fits (.duty c d here)) : (w.duty c d here).Sound := by
  obtain ⟨hnone, hnext⟩ := hfits honline hoff
  have hoffline : w.presence d ≠ .online := by
    intro hagain
    rw [hagain] at hoff
    rcases hoff with hoff | hoff
    · cases hoff
    · cases hoff
  have hne : d ≠ c := by
    rintro rfl
    exact hoffline honline
  have hleft : ((w.releaseArena c).setPlaces (w.places.swapOut c d here)).Sound := by
    apply h.leave honline
    · rw [presence_swapOut_self hne.symm]
      intro hagain
      cases hagain
    · rw [presence_swapOut_self hne.symm]
      intro hselected
      cases hselected
    · exact fun e he => presence_swapOut_of_ne he
  have hcombatants : ((w.releaseArena c).setPlaces (w.places.swapOut c d here)).combatants =
      w.combatants := combatants_releaseArena
  have hlive : w.NextLive d →
      ((w.releaseArena c).setPlaces (w.places.swapOut c d here)).NextLive d := by
    apply NextLive.of_owner
    · exact owner_releaseArena
    · rw [hcombatants]
  have hpresence : ((w.releaseArena c).setPlaces (w.places.swapOut c d here)).presence d =
      w.presence d := presence_swapOut_of_ne hne
  have hcan : ∀ map, ((w.releaseArena c).setPlaces (w.places.swapOut c d here)).places.canWarp map =
      w.places.canWarp map := fun map => canWarp_swapOut
  unfold ArenaWorld.duty
  dsimp only
  generalize (w.releaseArena c).setPlaces (w.places.swapOut c d here) = left at *
  have hmoved : ∀ moved : ArenaWorld, moved.Sound → moved.presence d = left.presence d →
      (moved.combatants d).arena = none → moved.places = left.places →
      (left.NextLive d → moved.NextLive d) →
      ((moved.login d).warp d (w.places.dutyMap c d here) ((moved.login d).combatants d).x
        ((moved.login d).combatants d).y).Sound := by
    intro moved hsound hsame hin hplaces hnextLive
    have hentered : (moved.login d).Sound := by
      apply hsound.login _ hin
      rw [hsame, hpresence]
      exact hoffline
    apply hentered.warp List.not_mem_nil
    · rw [presence_login, if_pos rfl]
    · intro hcanWarp
      rw [places_login, MapPlaces.canWarp_login, hplaces, hcan] at hcanWarp
      exact nextLive_login (hnextLive (hlive (hnext hcanWarp)))
  cases here with
  | false =>
      rw [if_neg (by decide)]
      apply hmoved left hleft rfl _ rfl id
      rw [hcombatants]
      exact hnone
  | true =>
      rw [if_pos rfl]
      apply hmoved
      · exact hleft.setCombatant rfl
      · rfl
      · change (update left.combatants d _ d).arena = none
        rw [update_self, hcombatants]
        exact hnone
      · rfl
      · exact nextLive_setCombatant rfl

theorem Sound.load {direction : Direction} (h : w.Sound) (haway : w.presence c = .away) :
    (w.load c map x y direction).Sound := by
  have hself : (w.load c map x y direction).combatants c =
      ⟨x, y, direction, none, none, 0⟩ := update_self _ _ _
  have hpointer : w.pointer [] c = none :=
    if_neg fun hboth => by rw [haway] at hboth; cases hboth.1
  apply SoundBut.redirect (q := none) (c := c) h
  · rw [hpointer]
    rfl
  · unfold pointer
    rw [hself, ite_self]
  · intro a ha
    cases ha
  · intro d hd
    change (update w.combatants c _ d).arena = _
    rw [update_of_ne hd]
  · exact fun d hd => congrArg PlacedCharacter.presence (update_of_ne hd _ _)
  · intro _ _ a ha
    rw [hself] at ha
    cases ha
  · intro _
    rw [hself]
  · rfl
  · rfl

/-- What a death does to where its character is, its arena is not told. -/
theorem Sound.setPlaces {places : MapPlaces} (h : w.Sound)
    (hpresence : ∀ d, (places.characters d).presence = w.presence d) :
    (w.setPlaces places).Sound := by
  apply SoundBut.congr h
  · rfl
  · rfl
  · exact hpresence
  · exact fun _ => rfl

theorem Sound.deathRespawn (h : w.Sound) : (w.deathRespawn c m map x y).Sound := by
  have hplaces : (w.setPlaces (w.places.deathRespawn c m map)).Sound := by
    apply h.setPlaces
    intro d
    unfold MapPlaces.deathRespawn MapPlaces.setCharacter
    dsimp only
    rw [MapPlaces.characters_leave]
    by_cases hd : d = c
    · rw [hd, update_self, update_self]
      rfl
    · rw [update_of_ne hd, update_of_ne hd]
      rfl
  exact hplaces.setCombatant rfl

theorem Sound.internalWarp (h : w.Sound) (honline : w.presence c = .online)
    (hqueued : 0 < (w.places.characters c).queued) (hfits : w.Fits (.internalWarp c map x y)) :
    (w.internalWarp c map x y).Sound := by
  have hpresence : ∀ d, ((w.places.setCharacter c
      { w.places.characters c with
        map := none, queued := (w.places.characters c).queued - 1 }).characters d).presence =
      w.presence d := by
    intro d
    change (update w.places.characters c _ d).presence = _
    by_cases hd : d = c
    · rw [hd, update_self]
      rfl
    · rw [update_of_ne hd]
      rfl
  have hplaces := h.setPlaces hpresence
  unfold ArenaWorld.internalWarp
  apply hplaces.warp List.not_mem_nil
  · exact (hpresence c).trans honline
  · exact fun hcan => hfits honline hqueued hcan

/-! ## Runs -/

theorem Sound.step {e : ArenaEvent} (h : w.Sound) (hfits : w.Fits e) (hs : w.step e = some w') :
    w'.Sound := by
  unfold ArenaWorld.step at hs
  cases e with
  | load c rowMap x y direction =>
      dsimp only at hs
      obtain ⟨haway, hw⟩ := Option.ite_none_right_eq_some.mp hs
      cases hw
      exact h.load haway
  | welcome c spawnMap x y =>
      dsimp only at hs
      obtain ⟨hselected, hw⟩ := Option.ite_none_right_eq_some.mp hs
      cases hw
      exact h.welcomeMsg hselected hfits
  | duty c swap here =>
      dsimp only at hs
      obtain ⟨⟨honline, hoff⟩, hw⟩ := Option.ite_none_right_eq_some.mp hs
      cases hw
      exact h.duty honline hoff hfits
  | move c x y direction =>
      dsimp only at hs
      obtain ⟨-, hw⟩ := Option.ite_none_right_eq_some.mp hs
      cases hw
      exact h.setCombatant rfl
  | warp c map x y =>
      dsimp only at hs
      obtain ⟨honline, hw⟩ := Option.ite_none_right_eq_some.mp hs
      cases hw
      exact SoundBut.warp h List.not_mem_nil honline (hfits honline)
  | deathRespawn c spawnMap x y =>
      dsimp only at hs
      obtain ⟨-, hw⟩ := Option.ite_none_right_eq_some.mp hs
      obtain ⟨m, -, rfl⟩ := Option.map_eq_some_iff.mp hw
      exact h.deathRespawn
  | internalWarp c spawnMap x y =>
      dsimp only at hs
      obtain ⟨⟨honline, hqueued⟩, hw⟩ := Option.ite_none_right_eq_some.mp hs
      cases hw
      exact h.internalWarp honline hqueued hfits
  | logout c =>
      dsimp only at hs
      obtain ⟨honline, hw⟩ := Option.ite_none_right_eq_some.mp hs
      cases hw
      exact h.logout honline
  | spawn a force =>
      obtain ⟨arena, harena, rfl⟩ := Option.map_eq_some_iff.mp hs
      exact h.spawn harena hfits
  | attack c direction =>
      dsimp only at hs
      obtain ⟨honline, hw⟩ := Option.ite_none_right_eq_some.mp hs
      obtain ⟨a, hin, hw⟩ := Option.bind_eq_some_iff.mp hw
      obtain ⟨arena, harena, rfl⟩ := Option.map_eq_some_iff.mp hw
      exact h.attack honline hin harena hfits
  | loadArena m config address =>
      dsimp only at hs
      obtain ⟨⟨-, -, hfree⟩, hw⟩ := Option.ite_none_right_eq_some.mp hs
      cases hw
      exact h.loadArena hfree hfits
  | reload m success relog config address =>
      dsimp only at hs
      obtain ⟨⟨-, -, hfree⟩, hw⟩ := Option.ite_none_right_eq_some.mp hs
      cases hw
      exact h.reload hfree hfits
  | addMap existing relog config address =>
      dsimp only at hs
      obtain ⟨hfree, hw⟩ := Option.ite_none_right_eq_some.mp hs
      cases hw
      exact h.addMap hfree

/-- A world that nobody has entered. -/
structure Empty (w : ArenaWorld) : Prop where
  away : ∀ c, w.presence c = .away
  unoccupied : ∀ a arena, w.arenas a = some arena → arena.occupants = 0
  owned : ∀ m a, w.mapArena m = some a → w.owner a = some m

theorem Empty.sound (h : w.Empty) : w.Sound where
  counts := by
    have hnone : ∀ c, w.pointer [] c = none := by
      intro c
      apply if_neg
      rintro ⟨honline, -⟩
      rw [h.away] at honline
      cases honline
    constructor
    · intro a n hn
      unfold count at hn
      obtain ⟨arena, harena, rfl⟩ := Option.map_eq_some_iff.mp hn
      have hempty : {c | w.pointer [] c = some a} = ∅ := by
        apply Set.eq_empty_of_forall_notMem
        intro c hc
        change w.pointer [] c = some a at hc
        rw [hnone] at hc
        cases hc
      unfold PointerCounts.number
      rw [hempty, Set.ncard_empty, h.unoccupied a arena harena]
      rfl
    · intro c a hc
      rw [hnone] at hc
      cases hc
  live := fun c a _ hc => absurd (h.away c) hc
  finite := by
    have hempty : {c | w.presence c = .online} = ∅ := by
      apply Set.eq_empty_of_forall_notMem
      intro c hc
      change w.presence c = .online at hc
      rw [h.away] at hc
      cases hc
    rw [hempty]
    exact Set.finite_empty
  owned := h.owned
  selected := by
    intro c hc
    rw [h.away] at hc
    cases hc

/-- In a run from a world that nobody has entered, occupancy is exact as long as no arena is deleted
under a character that points to it, nobody who is in an arena goes on duty, and those who are
warped by an arena or into one are online and it is still there. -/
theorem exact_of_fits {steps : List ArenaEvent} {t : ArenaWorld} (h : w.Empty)
    (hsteps : RunSteps.Every step Fits w steps) (ht : RunSteps.Reaches step w steps t) :
    t.Exact := by
  have hsound : t.Sound :=
    RunSteps.invariant_of_every Sound (fun w e w' h hfits hs => h.step hfits hs) h.sound hsteps ht
  exact hsound.exact

/-! ## A round and a reload -/

/-- A map with an arena, in which whoever stands at (1, 1) fights. -/
def courtyard : ArenaWorld where
  places :=
    { size := 1
      positive := by decide
      maps := fun _ => ⟨true, []⟩
      characters := fun _ => ⟨.away, false, none, 0, 0⟩ }
  combatants _ := ⟨0, 0, .down, none, none, 0⟩
  relog _ := (0, 0)
  mapArena m := if m = 1 then some 10 else none
  arenas a := if a = 10 then some ⟨0, 2, 1, [⟨1, 1, 5, 5⟩]⟩ else none

theorem courtyard_empty : courtyard.Empty where
  away _ := rfl
  unoccupied := by
    intro a arena harena
    obtain ⟨-, ha⟩ := Option.ite_none_right_eq_some.mp harena
    cases ha
    rfl
  owned := by
    intro m a hm
    obtain ⟨rfl, ha⟩ := Option.ite_none_right_eq_some.mp hm
    cases ha
    rfl

/-- A character stands there when a round begins. -/
def round : List ArenaEvent := [.load 0 1 1 1 .down, .welcome 0 1 1 1, .spawn 10 false]

theorem exact_of_fits_round :
    ∃ t, RunSteps.Reaches step courtyard round t ∧ t.Exact := by
  have hend : (RunSteps.run step courtyard round).isSome := by decide
  obtain ⟨t, ht⟩ := Option.isSome_iff_exists.mp hend
  refine ⟨t, RunSteps.reaches_of_run ht, ?_⟩
  apply exact_of_fits courtyard_empty _ (RunSteps.reaches_of_run ht)
  refine ⟨trivial, ?_⟩
  intro loaded hloaded
  obtain rfl := Option.some.inj hloaded
  refine ⟨fun _ hgone => absurd hgone (by decide), ?_⟩
  intro entered hentered
  obtain rfl := Option.some.inj hentered
  refine ⟨?_, fun _ _ => trivial⟩
  intro arena harena _ _
  obtain rfl := Option.some.inj harena
  decide

/-- The map is reloaded while the character is in its arena. -/
theorem not_exact_courtyard :
    ∃ w steps t, w.Empty ∧ RunSteps.Reaches step w steps t ∧ ¬ t.Exact := by
  have hend : (RunSteps.run step courtyard
      (round ++ [.reload 1 true (0, 0) ⟨true, 2, [1, 1, 5, 5]⟩ 11])).map (fun t =>
        (t.presence 0, (t.combatants 0).arena, t.arenas 10)) =
      some (.online, some 10, none) := by
    decide
  obtain ⟨t, ht, hview⟩ := Option.map_eq_some_iff.mp hend
  refine ⟨courtyard, _, t, courtyard_empty, RunSteps.reaches_of_run ht, ?_⟩
  intro hexact
  simp only [Prod.mk.injEq] at hview
  obtain ⟨honline, hin, hgone⟩ := hview
  have hlive := hexact.live 0 10 (by rw [honline]; decide) hin
  rw [hgone] at hlive
  cases hlive

end ArenaServ.ArenaWorld
