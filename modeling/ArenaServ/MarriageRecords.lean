import ArenaServ.Marriages
import ArenaServ.RunSteps

/-!
# Records of marriages

What is kept of a character in the database follows its object while it is not online, so whom a
character has as partner only changes where the code writes a partner.
-/

namespace ArenaServ.MarriageWorld
open Function

/-- The couple of a wedding is of two as soon as both have agreed. -/
structure Proper (wedding : Ceremony) : Prop where
  tick : 0 ≤ wedding.tick
  state : wedding.state ≤ 12
  settled : wedding.married = []
  couple : wedding.state ≠ 0 → ∃ p q : RealName,
    wedding.partner1 = p.val ∧ wedding.partner2 = q.val ∧ (7 ≤ wedding.state → p ≠ q)

structure Sound (w : MarriageWorld) : Prop where
  named : ∀ name row, w.rows name = some row → name ≠ RealName.empty
  kept : ∀ name character, w.loaded name = some character →
    ∃ row, w.rows name = some row ∧ (character.online = false → row.partner = character.partner)
  proper : ∀ map wedding, w.weddings map = some wedding → Proper wedding

variable {w : MarriageWorld} {name p q : RealName} {map : ℕ} {character : Spouse}
  {f : Spouse → Spouse} {wedding : Ceremony}

theorem of_val (name : RealName) : RealName.of name.val = name := Subtype.ext name.property

theorem getCharacter_eq_some_iff :
    w.getCharacter name = some character ↔
      w.loaded name = some character ∧ character.online = true :=
  Option.filter_eq_some_iff

theorem ne_empty_of_loaded (h : w.Sound) (hloaded : w.loaded name = some character) :
    name ≠ RealName.empty := by
  obtain ⟨row, hrow, -⟩ := h.kept name character hloaded
  exact h.named name row hrow

/-! ## Whom a character has as partner -/

theorem partnerOf_of_loaded (h : w.loaded name = some character) :
    w.partnerOf name = character.partner := by
  unfold partnerOf
  rw [h]

theorem partnerOf_of_not_loaded {row : SpouseRow} (h : w.loaded name = none)
    (hrow : w.rows name = some row) : w.partnerOf name = row.partner := by
  unfold partnerOf
  rw [h, hrow]

theorem partnerOf_congr {w' : MarriageWorld} (hloaded : w'.loaded name = w.loaded name)
    (hrows : w'.rows name = w.rows name) : w'.partnerOf name = w.partnerOf name := by
  unfold partnerOf
  rw [hloaded, hrows]

theorem loaded_modify_of_loaded (h : w.loaded name = some character) :
    (w.modify name f).loaded = update w.loaded name (some (f character)) := by
  unfold modify
  rw [h]
  rfl

theorem partnerOf_modify (h : w.loaded name = some character) :
    (w.modify name f).partnerOf = update w.partnerOf name (f character).partner := by
  have hloaded := loaded_modify_of_loaded (f := f) h
  funext other
  by_cases hother : other = name
  · subst hother
    rw [update_self]
    apply partnerOf_of_loaded
    rw [hloaded, update_self]
  · rw [update_of_ne hother]
    apply partnerOf_congr
    · rw [hloaded, update_of_ne hother]
    · rfl

theorem partnerOf_modify_of_keeps (hkeeps : ∀ c : Spouse, (f c).partner = c.partner) :
    (w.modify name f).partnerOf = w.partnerOf := by
  cases h : w.loaded name with
  | some character =>
      rw [partnerOf_modify h, hkeeps, ← partnerOf_of_loaded h, update_eq_self]
  | none =>
      unfold modify
      rw [h, Option.map_none, ← h, update_eq_self]

/-- The query clears the partner of a character that only the database has. -/
theorem partnerOf_clearRow (hloaded : w.loaded name = none) (hpartner : w.partnerOf name = p)
    (hp : p ≠ RealName.empty) :
    (w.clearRow name p).partnerOf = update w.partnerOf name RealName.empty := by
  funext other
  by_cases hother : other = name
  · subst hother
    rw [update_self]
    cases hrow : w.rows other with
    | none =>
        unfold partnerOf at hpartner
        rw [hloaded, hrow] at hpartner
        exact absurd hpartner.symm hp
    | some row =>
        rw [partnerOf_of_not_loaded hloaded hrow] at hpartner
        have hcleared : (w.clearRow other p).rows other =
            some { row with partner := RealName.empty } := by
          unfold clearRow
          dsimp only
          rw [hrow, update_self, Option.map_some, if_pos hpartner]
        exact partnerOf_of_not_loaded (w := w.clearRow other p) hloaded hcleared
  · rw [update_of_ne hother]
    apply partnerOf_congr
    · rfl
    · exact update_of_ne hother _ _

theorem partnerOf_clearRow_of_loaded (hloaded : w.loaded name = some character) :
    (w.clearRow name p).partnerOf = w.partnerOf := by
  funext other
  by_cases hother : other = name
  · subst hother
    rw [partnerOf_of_loaded hloaded]
    exact partnerOf_of_loaded hloaded
  · apply partnerOf_congr
    · rfl
    · exact update_of_ne hother _ _

theorem partnerOf_marry {c d : Spouse} (hp : w.loaded p = some c) (hq : w.loaded q = some d)
    (hne : p ≠ q) :
    (w.marry (p.val, q.val)).partnerOf = Pairing.pair p q w.partnerOf := by
  unfold marry
  dsimp only
  rw [of_val, of_val]
  have hq' : (w.modify p fun c => { c with partner := q, fiance := RealName.empty }).loaded q =
      some d := by
    rw [loaded_modify_of_loaded hp, update_of_ne hne.symm]
    exact hq
  rw [partnerOf_modify hq', partnerOf_modify hp]
  rfl

/-! ## What each change keeps -/

theorem Sound.modify (h : w.Sound) (hkeeps : ∀ c, w.loaded name = some c →
    (f c).online = false → c.online = false ∧ (f c).partner = c.partner) :
    (w.modify name f).Sound where
  named := h.named
  proper := h.proper
  kept := by
    intro other character hcharacter
    unfold MarriageWorld.modify at hcharacter
    dsimp only at hcharacter
    by_cases hother : other = name
    · subst hother
      rw [update_self] at hcharacter
      obtain ⟨c, hc, rfl⟩ := Option.map_eq_some_iff.mp hcharacter
      obtain ⟨row, hrow, hsame⟩ := h.kept other c hc
      refine ⟨row, hrow, ?_⟩
      intro hoffline
      obtain ⟨hbefore, hpartner⟩ := hkeeps c hc hoffline
      rw [hpartner]
      exact hsame hbefore
    · rw [update_of_ne hother] at hcharacter
      exact h.kept other character hcharacter

theorem Sound.save (h : w.Sound) (hloaded : w.loaded name = some character) :
    (w.save name character).Sound where
  named := by
    intro other row hrow
    unfold MarriageWorld.save at hrow
    dsimp only at hrow
    by_cases hother : other = name
    · rw [hother]
      exact ne_empty_of_loaded h hloaded
    · rw [update_of_ne hother] at hrow
      exact h.named other row hrow
  proper := h.proper
  kept := by
    intro other c hc
    obtain ⟨row, hrow, hsame⟩ := h.kept other c hc
    unfold MarriageWorld.save
    dsimp only
    by_cases hother : other = name
    · subst hother
      have heq : c = character := Option.some.inj (hc.symm.trans hloaded)
      rw [update_self, hrow]
      exact ⟨character.toSpouseRow, rfl, fun _ => by rw [heq]⟩
    · rw [update_of_ne hother]
      exact ⟨row, hrow, hsame⟩

theorem partnerOf_save (hloaded : w.loaded name = some character) :
    (w.save name character).partnerOf = w.partnerOf := by
  funext other
  by_cases hother : other = name
  · subst hother
    rw [partnerOf_of_loaded hloaded]
    exact partnerOf_of_loaded hloaded
  · apply partnerOf_congr
    · rfl
    · exact update_of_ne hother _ _

theorem Sound.clearRow (h : w.Sound) (hloaded : w.loaded name = none) :
    (w.clearRow name p).Sound where
  named := by
    intro other row hrow
    unfold MarriageWorld.clearRow at hrow
    dsimp only at hrow
    by_cases hother : other = name
    · subst hother
      rw [update_self] at hrow
      obtain ⟨before, hbefore, -⟩ := Option.map_eq_some_iff.mp hrow
      exact h.named other before hbefore
    · rw [update_of_ne hother] at hrow
      exact h.named other row hrow
  proper := h.proper
  kept := by
    intro other c hc
    have hother : other ≠ name := by
      rintro rfl
      change w.loaded other = some c at hc
      rw [hloaded] at hc
      cases hc
    obtain ⟨row, hrow, hsame⟩ := h.kept other c hc
    refine ⟨row, ?_, hsame⟩
    unfold MarriageWorld.clearRow
    dsimp only
    rw [update_of_ne hother]
    exact hrow

/-- A character is no longer kept in memory. -/
theorem Sound.drop (h : w.Sound) (name : RealName) :
    Sound { w with loaded := update w.loaded name none } where
  named := h.named
  proper := h.proper
  kept := by
    intro other c hc
    dsimp only at hc
    by_cases hother : other = name
    · rw [hother, update_self] at hc
      cases hc
    · rw [update_of_ne hother] at hc
      exact h.kept other c hc

theorem Sound.setWedding (h : w.Sound) (hproper : Proper wedding) :
    (w.setWedding map wedding).Sound where
  named := h.named
  kept := h.kept
  proper := by
    intro other wedding' hother
    unfold MarriageWorld.setWedding at hother
    dsimp only at hother
    by_cases heq : other = map
    · rw [heq, update_self] at hother
      cases hother
      exact hproper
    · rw [update_of_ne heq] at hother
      exact h.proper other wedding' hother

theorem Sound.onWedding_of_quiet (h : w.Sound) {act : Ceremony → Ceremony}
    (hact : ∀ wedding, w.weddings map = some wedding → Proper wedding → Proper (act wedding)) :
    (w.onWedding map act).Sound ∧ (w.onWedding map act).partnerOf = w.partnerOf ∧
      (w.onWedding map act).rows = w.rows ∧ (w.onWedding map act).loaded = w.loaded := by
  unfold onWedding
  cases hwedding : w.weddings map with
  | none => exact ⟨h, rfl, rfl, rfl⟩
  | some wedding =>
      have hproper := hact wedding hwedding (h.proper map wedding hwedding)
      dsimp only
      rw [hproper.settled, List.foldl_nil]
      exact ⟨h.setWedding ⟨hproper.tick, hproper.state, rfl, hproper.couple⟩, rfl, rfl, rfl⟩

/-! ## What a ceremony keeps -/

theorem proper_of_idle (hsettled : wedding.married = []) (hstate : wedding.state = 0)
    (htick : 0 ≤ wedding.tick) : Proper wedding where
  tick := htick
  state := by omega
  settled := hsettled
  couple := fun h => absurd hstate h

theorem Proper.begun (h : Proper wedding)
    (hasked : wedding.state ≠ 0 ∧ wedding.state ≠ 4 ∧ wedding.state ≠ 6)
    (hseven : wedding.state ≠ 7) : Proper (wedding.begun (wedding.state + 1)) := by
  unfold Ceremony.begun
  by_cases hover : wedding.state + 1 = 13
  · rw [if_pos hover]
    exact proper_of_idle h.settled rfl (Int.le_refl 0)
  rw [if_neg hover, if_neg (fun heq => hseven (Nat.succ.inj heq)), List.append_nil]
  refine ⟨Int.le_refl 0, ?_, h.settled, ?_⟩
  · have hle := h.state
    dsimp only
    omega
  · intro _
    obtain ⟨p, q, hp, hq, hne⟩ := h.couple hasked.1
    refine ⟨p, q, hp, hq, ?_⟩
    intro hle
    apply hne
    dsimp only at hle
    omega

theorem Proper.iDo (h : Proper wedding) (scene : WeddingScene) (text : List Char) (here : Bool) :
    Proper (wedding.iDo scene text here) := by
  obtain hdone | hdone | ⟨-, hturn, hdone⟩ :=
    @Ceremony.iDo_cases scene wedding text here
  · rw [hdone]
    exact h
  · rw [hdone]
    exact proper_of_idle h.settled rfl (Int.le_refl 0)
  · rw [hdone]
    refine ⟨Int.le_refl 0, ?_, h.settled, ?_⟩
    · dsimp only
      omega
    · intro _
      obtain ⟨p, q, hp, hq, -⟩ := h.couple (by omega)
      refine ⟨p, q, hp, hq, ?_⟩
      intro hle
      dsimp only at hle
      obtain ⟨-, hfour⟩ | ⟨hfirst, hsecond, -⟩ := hturn
      · omega
      · rintro rfl
        exact hfirst (hsecond.trans (hq.trans hp.symm))

theorem Proper.startWedding (h : Proper wedding) (scene : WeddingScene) (p q : RealName) :
    Proper (wedding.startWedding scene p.val q.val) := by
  by_cases hidle : wedding.state = 0
  · obtain hstart | ⟨-, hstart⟩ :=
      @Ceremony.startWedding_cases scene wedding p.val q.val hidle
    · rw [hstart]
      exact proper_of_idle h.settled rfl (Int.le_refl 0)
    · rw [hstart]
      refine ⟨Int.zero_le_ofNat 1, Nat.le_add_left 1 11, h.settled, ?_⟩
      intro _
      refine ⟨p, q, rfl, rfl, ?_⟩
      intro hle
      change 7 ≤ 1 at hle
      omega
  · rw [Ceremony.startWedding_of_busy p.val q.val hidle]
    exact h

theorem Sound.cancelWeddingRequest (h : w.Sound) (name : RealName) (map : ℕ) :
    (w.cancelWeddingRequest name map).Sound ∧
      (w.cancelWeddingRequest name map).partnerOf = w.partnerOf ∧
      (w.cancelWeddingRequest name map).rows = w.rows ∧
      (w.cancelWeddingRequest name map).loaded = w.loaded := by
  apply h.onWedding_of_quiet
  exact fun wedding _ hproper =>
    ⟨hproper.tick, hproper.state, hproper.settled, hproper.couple⟩

end ArenaServ.MarriageWorld
