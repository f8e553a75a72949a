import ArenaServ.MarriageRecords

/-!
# Whether marriages are symmetric

A ceremony does not look whether its couple has married others since it was asked for, and a
divorce or a deletion only changes the row of a partner that is not online, also when its object
is in memory already. Where neither happens, marriages stay symmetric.
-/

namespace ArenaServ.MarriageWorld
open Function

/-- Whom a ceremony marries, or nobody, is the partner of a character already. -/
def Free (w : MarriageWorld) (p q : RealName) : Prop :=
  w.partnerOf p = RealName.empty ∨ w.partnerOf p = q

/-- A character that is in memory is online. -/
def Findable (w : MarriageWorld) (name : RealName) : Prop :=
  (w.loaded name).isSome → (w.getCharacter name).isSome

/-- A ceremony that is about to marry has a couple that is free for each other, and a divorce or
deletion finds the object of the partner if there is one. -/
def Fits (w : MarriageWorld) : MarriageEvent → Prop
  | .tick map => ∀ wedding ∈ w.weddings map, wedding.state = 7 → wedding.tick = 0 →
      wedding.Present (w.scene map) →
        w.Free (RealName.of wedding.partner1) (RealName.of wedding.partner2) ∧
          w.Free (RealName.of wedding.partner2) (RealName.of wedding.partner1)
  | .divorce name text affords => ∀ character ∈ w.getCharacter name,
      character.npcType = TalksTo.law → character.partner ≠ RealName.empty → affords = true →
        character.partner = RealName.of text → w.Findable character.partner
  | .delete name => ∀ character ∈ w.loaded name, character.online = false →
      character.partner ≠ RealName.empty → w.Findable character.partner
  | _ => True

structure Consistent (w : MarriageWorld) : Prop where
  sound : w.Sound
  couples : Pairing.Couples RealName.empty w.partnerOf

variable {w w' : MarriageWorld} {name p q : RealName} {map : ℕ} {character : Spouse}
  {f : Spouse → Spouse} {wedding : Ceremony} {e : MarriageEvent}

theorem Consistent.of_same (h : w.Consistent) (hsound : w'.Sound)
    (hsame : w'.partnerOf = w.partnerOf) : w'.Consistent := by
  refine ⟨hsound, ?_⟩
  rw [hsame]
  exact h.couples

theorem Consistent.modify_of_keeps (h : w.Consistent)
    (hkeeps : ∀ c : Spouse, (f c).partner = c.partner)
    (honline : ∀ c, w.loaded name = some c → (f c).online = false → c.online = false) :
    (w.modify name f).Consistent :=
  h.of_same (h.sound.modify fun c hc hoffline => ⟨honline c hc hoffline, hkeeps c⟩)
    (partnerOf_modify_of_keeps hkeeps)

/-! ## A ceremony marries -/

theorem Sound.marry {c d : Spouse} (h : w.Sound) (hp : w.loaded p = some c) (hc : c.online = true)
    (hq : w.loaded q = some d) (hd : d.online = true) (hne : p ≠ q) :
    (w.marry (p.val, q.val)).Sound := by
  unfold MarriageWorld.marry
  dsimp only
  rw [of_val, of_val]
  have hfirst : (w.modify p fun c => { c with partner := q, fiance := RealName.empty }).Sound := by
    apply h.modify
    intro c' hc' hoffline
    cases hc'.symm.trans hp
    rw [hc] at hoffline
    cases hoffline
  apply hfirst.modify
  intro d' hd' hoffline
  rw [loaded_modify_of_loaded hp, update_of_ne hne.symm] at hd'
  cases hd'.symm.trans hq
  rw [hd] at hoffline
  cases hoffline

theorem loaded_of_onMap {text : List Char} (h : (w.scene map).onMap text = true) :
    ∃ character, w.loaded (RealName.of text) = some character ∧ character.online = true := by
  unfold scene at h
  dsimp only at h
  cases hcharacter : w.getCharacter (RealName.of text) with
  | some character => exact ⟨character, getCharacter_eq_some_iff.mp hcharacter⟩
  | none =>
      rw [hcharacter] at h
      cases h

/-- The tick that marries. -/
theorem Consistent.tick_of_agreed (h : w.Consistent) (hwedding : w.weddings map = some wedding)
    (hstate : wedding.state = 7) (htick : wedding.tick = 0)
    (hpresent : wedding.Present (w.scene map))
    (hact : wedding.tickOnce (w.scene map) = wedding.begun (wedding.state + 1)) :
    (w.Fits (.tick map) → (w.onWedding map (Ceremony.tickOnce (w.scene map))).Consistent) ∧
      (Pairing.Mutual RealName.empty
          (w.onWedding map (Ceremony.tickOnce (w.scene map))).partnerOf → w.Fits (.tick map)) := by
  have hproper := h.sound.proper map wedding hwedding
  obtain ⟨p, q, hp, hq, hne⟩ := hproper.couple (by omega)
  replace hne : p ≠ q := hne (by omega)
  obtain ⟨c, hc, hconline⟩ := loaded_of_onMap hpresent.1
  obtain ⟨d, hd, hdonline⟩ := loaded_of_onMap hpresent.2.1
  rw [hp, of_val] at hc
  rw [hq, of_val] at hd
  have hfree : w.Fits (.tick map) ↔ w.Free p q ∧ w.Free q p := by
    constructor
    · intro hfits
      have hfits := hfits wedding hwedding hstate htick hpresent
      rw [hp, hq, of_val, of_val] at hfits
      exact hfits
    · intro hfree wedding' hwedding' _ _ _
      cases hwedding.symm.trans hwedding'
      rw [hp, hq, of_val, of_val]
      exact hfree
  have hmarried : Proper { wedding with state := 8, tick := 0, married := [] } :=
    ⟨Int.le_refl 0, Nat.le_add_left 8 4, rfl, fun _ => ⟨p, q, hp, hq, fun _ => hne⟩⟩
  -- the marriage is the only thing that the tick records
  have hmarries : w.onWedding map (Ceremony.tickOnce (w.scene map)) =
      (w.setWedding map { wedding with state := 8, tick := 0, married := [] }).marry
        (p.val, q.val) := by
    unfold onWedding
    rw [hwedding]
    dsimp only
    rw [hact]
    unfold Ceremony.begun
    rw [hstate, if_neg (by decide), if_pos rfl, hproper.settled, hp, hq]
    rfl
  have hpair := partnerOf_marry
    (w := w.setWedding map { wedding with state := 8, tick := 0, married := [] }) hc hd hne
  rw [hmarries, hfree]
  constructor
  · rintro ⟨hpfree, hqfree⟩
    refine ⟨(h.sound.setWedding hmarried).marry hc hconline hd hdonline hne, ?_⟩
    rw [hpair]
    exact h.couples.pair hne hpfree hqfree
  · rw [hpair]
    intro hmutual
    refine ⟨?_, ?_⟩
    · exact Pairing.free_of_mutual_pair h.couples hne (ne_empty_of_loaded h.sound hc) hmutual
    · apply Pairing.free_of_mutual_pair h.couples hne.symm (ne_empty_of_loaded h.sound hd)
      rw [Pairing.pair_comm hne.symm]
      exact hmutual

theorem Consistent.tick_of_quiet (h : w.Consistent)
    (hact : ∀ wedding, w.weddings map = some wedding →
      Proper (wedding.tickOnce (w.scene map)))
    (hearly : ∀ wedding, w.weddings map = some wedding → wedding.state = 7 → wedding.tick = 0 →
      ¬ wedding.Present (w.scene map)) :
    (w.Fits (.tick map) → (w.onWedding map (Ceremony.tickOnce (w.scene map))).Consistent) ∧
      (Pairing.Mutual RealName.empty
          (w.onWedding map (Ceremony.tickOnce (w.scene map))).partnerOf → w.Fits (.tick map)) := by
  obtain ⟨hsound, hsame, -⟩ := h.sound.onWedding_of_quiet fun wedding hwedding _ =>
    hact wedding hwedding
  constructor
  · exact fun _ => h.of_same hsound hsame
  · intro _ wedding hwedding hstate htick hpresent
    exact absurd hpresent (hearly wedding hwedding hstate htick)

theorem Consistent.tick (h : w.Consistent) (map : ℕ) :
    (w.Fits (.tick map) → (w.onWedding map (Ceremony.tickOnce (w.scene map))).Consistent) ∧
      (Pairing.Mutual RealName.empty
          (w.onWedding map (Ceremony.tickOnce (w.scene map))).partnerOf → w.Fits (.tick map)) := by
  cases hwedding : w.weddings map with
  | none =>
      apply h.tick_of_quiet
      · intro wedding' hwedding'
        cases hwedding.symm.trans hwedding'
      · intro wedding' hwedding'
        cases hwedding.symm.trans hwedding'
  | some wedding =>
      have hproper := h.sound.proper map wedding hwedding
      by_cases hagreed : wedding.state = 7 ∧ wedding.tick = 0 ∧ wedding.Present (w.scene map)
      · obtain ⟨hstate, htick, hpresent⟩ := hagreed
        apply h.tick_of_agreed hwedding hstate htick hpresent
        exact Ceremony.tickOnce_of_agreed hstate htick hpresent
      · apply h.tick_of_quiet
        · intro wedding' hwedding'
          cases hwedding.symm.trans hwedding'
          have hticked :=
            @Ceremony.ticked_tickOnce (w.scene map) wedding hproper.tick hproper.state
          generalize Ceremony.tickOnce (w.scene map) wedding = c at hticked ⊢
          cases hticked with
          | stays t ticking ht => exact ⟨ht, hproper.state, hproper.settled, hproper.couple⟩
          | resets => exact proper_of_idle hproper.settled rfl (Int.le_refl 0)
          | advances hpresent hasked hseven =>
              exact hproper.begun hasked fun hstate => hagreed ⟨hstate, hseven hstate, hpresent⟩
        · intro wedding' hwedding' hstate htick hpresent
          cases hwedding.symm.trans hwedding'
          exact hagreed ⟨hstate, htick, hpresent⟩

/-! ## A partner is left -/

theorem not_findable_iff : ¬ w.Findable p ↔ ∃ c, w.loaded p = some c ∧ w.getCharacter p = none := by
  unfold Findable
  rw [Classical.not_imp, Option.isSome_iff_exists, Option.not_isSome_iff_eq_none]
  constructor
  · rintro ⟨⟨c, hc⟩, hnone⟩
    exact ⟨c, hc, hnone⟩
  · rintro ⟨c, hc, hnone⟩
    exact ⟨⟨c, hc⟩, hnone⟩

/-- Where the partner is found, or only the database has it, it is left. -/
theorem leavePartner_of_findable (h : w.Sound) (hp : w.partnerOf p = name)
    (hname : name ≠ RealName.empty) (hfind : w.Findable p) :
    (w.leavePartner name p).Sound ∧
      (w.leavePartner name p).partnerOf = update w.partnerOf p RealName.empty := by
  unfold leavePartner
  by_cases hsome : (w.getCharacter p).isSome
  · rw [if_pos hsome]
    obtain ⟨c, hc⟩ := Option.isSome_iff_exists.mp hsome
    obtain ⟨hloaded, honline⟩ := getCharacter_eq_some_iff.mp hc
    refine ⟨?_, partnerOf_modify hloaded⟩
    apply h.modify
    intro c' hc' hoffline
    cases hc'.symm.trans hloaded
    change c.online = false at hoffline
    rw [honline] at hoffline
    cases hoffline
  · rw [if_neg hsome]
    have hnone : w.loaded p = none := by
      rw [← Option.not_isSome_iff_eq_none]
      exact fun hloaded => hsome (hfind hloaded)
    exact ⟨h.clearRow hnone, partnerOf_clearRow hnone hp hname⟩

/-- Where its object is in memory but not found, it is not left. -/
theorem partnerOf_leavePartner_of_not_findable (hfind : ¬ w.Findable p) :
    (w.leavePartner name p).partnerOf = w.partnerOf := by
  obtain ⟨c, hc, hnone⟩ := not_findable_iff.mp hfind
  unfold leavePartner
  rw [hnone, if_neg (by simp)]
  exact partnerOf_clearRow_of_loaded hc

theorem loaded_leavePartner (hne : name ≠ p) :
    (w.leavePartner name p).loaded name = w.loaded name := by
  unfold leavePartner
  split_ifs
  · exact update_of_ne hne _ _
  · rfl

/-- Nobody is left by a character that has no partner. -/
theorem leavePartner_empty (h : w.Sound) :
    (w.leavePartner name RealName.empty).Sound ∧
      (w.leavePartner name RealName.empty).partnerOf = w.partnerOf := by
  have hnone : w.loaded RealName.empty = none := by
    rw [Option.eq_none_iff_forall_ne_some]
    exact fun c hc => ne_empty_of_loaded h hc rfl
  have hrow : w.rows RealName.empty = none := by
    rw [Option.eq_none_iff_forall_ne_some]
    exact fun row hrow => h.named RealName.empty row hrow rfl
  have hclear : w.clearRow RealName.empty name = w := by
    unfold clearRow
    rw [hrow, Option.map_none, ← hrow, update_eq_self]
  unfold leavePartner getCharacter
  rw [hnone, if_neg (by simp), hclear]
  exact ⟨h, rfl⟩

theorem Consistent.divorce (h : w.Consistent) (hcharacter : w.getCharacter name = some character)
    (text : List Char) (affords : Bool) :
    (w.Fits (.divorce name text affords) → (w.divorce name character text affords).Consistent) ∧
      (Pairing.Mutual RealName.empty (w.divorce name character text affords).partnerOf →
        w.Fits (.divorce name text affords)) := by
  obtain ⟨hloaded, honline⟩ := getCharacter_eq_some_iff.mp hcharacter
  have hname : name ≠ RealName.empty := ne_empty_of_loaded h.sound hloaded
  have hown : w.partnerOf name = character.partner := partnerOf_of_loaded hloaded
  unfold MarriageWorld.divorce
  dsimp only
  split_ifs with hrefused
  · refine ⟨fun _ => h, ?_⟩
    intro _ c hc hlaw hpartner haffords heq
    cases hcharacter.symm.trans hc
    rcases hrefused with hnot | hnot | hnot | hnot
    · exact absurd hlaw hnot
    · exact absurd hnot hpartner
    · rw [haffords] at hnot
      cases hnot
    · exact absurd heq hnot
  · obtain ⟨hlaw, hpartner, haffords, heq⟩ : character.npcType = TalksTo.law ∧
        character.partner ≠ RealName.empty ∧ affords = true ∧
        character.partner = RealName.of text := by simpa [not_or] using hrefused
    have hother : w.partnerOf character.partner = name :=
      (h.couples.both name character.partner hname hpartner).mp hown
    have hne : name ≠ character.partner := by
      intro hself
      exact h.couples.other name hname (hown.trans hself.symm)
    have hstill : (w.leavePartner name character.partner).loaded name = some character :=
      (loaded_leavePartner hne).trans hloaded
    rw [← heq, partnerOf_modify hstill]
    change _ ∧ (Pairing.Mutual RealName.empty (update _ name RealName.empty) → _)
    constructor
    · intro hfits
      have hfind := hfits character hcharacter hlaw hpartner haffords heq
      obtain ⟨hsound, hleft⟩ := leavePartner_of_findable h.sound hother hname hfind
      constructor
      · apply hsound.modify
        intro c hc hoffline
        cases hc.symm.trans hstill
        change character.online = false at hoffline
        rw [honline] at hoffline
        cases hoffline
      · rw [partnerOf_modify hstill, hleft]
        exact h.couples.part hname hpartner hown
    · intro hmutual c hc _ _ _ _
      cases hcharacter.symm.trans hc
      by_contra hfind
      rw [partnerOf_leavePartner_of_not_findable hfind] at hmutual
      exact Pairing.not_mutual_leave h.couples hname hpartner hown hmutual

/-- Nothing is left of a character that is deleted. -/
theorem partnerOf_remove (name : RealName) :
    partnerOf { w with rows := update w.rows name none, loaded := update w.loaded name none } =
      update w.partnerOf name RealName.empty := by
  funext other
  unfold partnerOf
  dsimp only
  by_cases hother : other = name
  · rw [hother, update_self, update_self, update_self]
  · rw [update_of_ne hother, update_of_ne hother, update_of_ne hother]

theorem Sound.remove (h : w.Sound) (name : RealName) :
    Sound { w with rows := update w.rows name none, loaded := update w.loaded name none } where
  named := by
    intro other row hrow
    dsimp only at hrow
    by_cases hother : other = name
    · rw [hother, update_self] at hrow
      cases hrow
    · rw [update_of_ne hother] at hrow
      exact h.named other row hrow
  proper := h.proper
  kept := by
    intro other c hc
    dsimp only at hc ⊢
    by_cases hother : other = name
    · rw [hother, update_self] at hc
      cases hc
    · rw [update_of_ne hother] at hc
      rw [update_of_ne hother]
      exact h.kept other c hc

theorem Consistent.delete (h : w.Consistent) (hloaded : w.loaded name = some character)
    (hoffline : character.online = false) :
    (w.Fits (.delete name) → (w.characterRemove name character).Consistent) ∧
      (Pairing.Mutual RealName.empty (w.characterRemove name character).partnerOf →
        w.Fits (.delete name)) := by
  have hname : name ≠ RealName.empty := ne_empty_of_loaded h.sound hloaded
  have hown : w.partnerOf name = character.partner := partnerOf_of_loaded hloaded
  have hafter : (w.characterRemove name character).partnerOf =
      update (w.leavePartner name character.partner).partnerOf name RealName.empty :=
    partnerOf_remove name
  by_cases hpartner : character.partner = RealName.empty
  · constructor
    · intro _
      obtain ⟨hsound, hsame⟩ := leavePartner_empty (w := w) h.sound
      rw [← hpartner] at hsound hsame
      refine h.of_same (hsound.remove name) (hafter.trans ?_)
      rw [hsame, ← hpartner, ← hown, update_eq_self]
    · intro _ c hc _ hmarried
      cases hloaded.symm.trans hc
      exact absurd hpartner hmarried
  have hother : w.partnerOf character.partner = name :=
    (h.couples.both name character.partner hname hpartner).mp hown
  constructor
  · intro hfits
    have hfind := hfits character hloaded hoffline hpartner
    obtain ⟨hsound, hleft⟩ := leavePartner_of_findable h.sound hother hname hfind
    refine ⟨hsound.remove name, ?_⟩
    rw [hafter, hleft]
    exact h.couples.part hname hpartner hown
  · intro hmutual c hc _ _
    cases hloaded.symm.trans hc
    by_contra hfind
    rw [hafter, partnerOf_leavePartner_of_not_findable hfind] at hmutual
    exact Pairing.not_mutual_leave h.couples hname hpartner hown hmutual

/-! ## What changes no partner -/

theorem Consistent.onWedding (h : w.Consistent) {act : Ceremony → Ceremony}
    (hact : ∀ wedding, Proper wedding → Proper (act wedding)) :
    (w.onWedding map act).Consistent := by
  obtain ⟨hsound, hsame, -⟩ := h.sound.onWedding_of_quiet fun wedding _ => hact wedding
  exact h.of_same hsound hsame

theorem Consistent.priestRequest (h : w.Consistent) (text : List Char)
    (dressed partnerDressed level : Bool) :
    (w.priestRequest name character text dressed partnerDressed level).Consistent := by
  unfold MarriageWorld.priestRequest
  dsimp only
  split_ifs
  · exact h
  cases w.getCharacter character.fiance with
  | none => exact h
  | some partner =>
      dsimp only
      split_ifs
      · exact h
      · apply h.onWedding
        exact fun wedding hproper =>
          ⟨hproper.tick, hproper.state, hproper.settled, hproper.couple⟩

theorem Consistent.priestAccept (h : w.Consistent) :
    (w.priestAccept character name).Consistent := by
  unfold MarriageWorld.priestAccept
  split_ifs
  · exact h
  cases w.weddings character.map with
  | none => exact h
  | some wedding =>
      dsimp only
      cases w.getCharacter character.fiance with
      | none => exact h
      | some partner =>
          dsimp only
          split_ifs
          · exact h
          · apply h.onWedding
            exact fun wedding hproper => hproper.startWedding _ _ _

theorem Consistent.priestOpen (h : w.Consistent) : (w.priestOpen name character).Consistent := by
  unfold MarriageWorld.priestOpen
  split_ifs
  · exact h
  cases w.weddings character.map with
  | none => exact h
  | some wedding =>
      dsimp only
      split_ifs
      · exact h
      · exact h.modify_of_keeps (fun _ => rfl) (fun _ _ hoffline => hoffline)

theorem Consistent.marriageApproval (h : w.Consistent) (text : List Char) (affords : Bool) :
    (w.marriageApproval name character text affords).Consistent := by
  unfold MarriageWorld.marriageApproval
  dsimp only
  split_ifs
  · exact h
  · exact h.modify_of_keeps (fun _ => rfl) (fun _ _ hoffline => hoffline)
  · exact h

theorem Consistent.load {row : SpouseRow} (h : w.Consistent) (hloaded : w.loaded name = none)
    (hrow : w.rows name = some row) (map : ℕ) :
    Consistent { w with loaded := update w.loaded name (some ⟨row, false, map, TalksTo.npc⟩) } := by
  refine h.of_same ⟨h.sound.named, ?_, h.sound.proper⟩ ?_
  · intro other c hc
    dsimp only at hc
    by_cases hother : other = name
    · rw [hother, update_self] at hc
      cases hc
      rw [hother]
      exact ⟨row, hrow, fun _ => rfl⟩
    · rw [update_of_ne hother] at hc
      exact h.sound.kept other c hc
  · funext other
    unfold partnerOf
    dsimp only
    by_cases hother : other = name
    · rw [hother, update_self, hloaded, hrow]
    · rw [update_of_ne hother]

/-- An object is let go of whose row has its partner. -/
theorem Consistent.drop (h : w.Consistent) (hloaded : w.loaded name = some character)
    (hrow : ∃ row, w.rows name = some row ∧ row.partner = character.partner) :
    Consistent { w with loaded := update w.loaded name none } := by
  obtain ⟨row, hrow, hsame⟩ := hrow
  refine h.of_same (h.sound.drop name) ?_
  funext other
  unfold partnerOf
  dsimp only
  by_cases hother : other = name
  · rw [hother, update_self, hloaded, hrow]
    exact hsame
  · rw [update_of_ne hother]

theorem Consistent.characterCreate (h : w.Consistent) (name : RealName) (map : ℕ) :
    (w.characterCreate name map).Consistent := by
  unfold MarriageWorld.characterCreate
  split_ifs with hrefused
  · exact h
  obtain ⟨hvalid, hnew⟩ := not_or.mp hrefused
  have hrow : w.rows name = none := Option.not_isSome_iff_eq_none.mp hnew
  have hloaded : w.loaded name = none := by
    rw [Option.eq_none_iff_forall_ne_some]
    intro c hc
    obtain ⟨row, hsome, -⟩ := h.sound.kept name c hc
    rw [hrow] at hsome
    cases hsome
  refine h.of_same ⟨?_, ?_, h.sound.proper⟩ ?_
  · intro other row hother
    dsimp only at hother
    by_cases heq : other = name
    · rintro rfl
      rw [← heq] at hvalid
      exact hvalid rfl
    · rw [update_of_ne heq] at hother
      exact h.sound.named other row hother
  · intro other c hc
    dsimp only at hc ⊢
    by_cases heq : other = name
    · rw [heq, update_self] at hc
      cases hc
      rw [heq, update_self]
      exact ⟨_, rfl, fun _ => rfl⟩
    · rw [update_of_ne heq] at hc
      rw [update_of_ne heq]
      exact h.sound.kept other c hc
  · funext other
    unfold partnerOf
    dsimp only
    by_cases heq : other = name
    · rw [heq, update_self, hloaded, hrow]
    · rw [update_of_ne heq, update_of_ne heq]

theorem Consistent.unload (h : w.Consistent) (hloaded : w.loaded name = some character) :
    Consistent
      (let left := if character.online then
          (w.save name character).cancelWeddingRequest name character.map else w
      { left with loaded := update left.loaded name none }) := by
  dsimp only
  by_cases honline : character.online = true
  · rw [if_pos honline]
    have hsaved : (w.save name character).Consistent :=
      h.of_same (h.sound.save hloaded) (partnerOf_save hloaded)
    obtain ⟨hsound, hsame, hrows, hkeeps⟩ :=
      hsaved.sound.cancelWeddingRequest name character.map
    obtain ⟨row, hrow, -⟩ := h.sound.kept name character hloaded
    apply (hsaved.of_same hsound hsame).drop (hkeeps ▸ hloaded)
    refine ⟨character.toSpouseRow, ?_, rfl⟩
    rw [hrows]
    unfold MarriageWorld.save
    dsimp only
    rw [update_self, hrow]
    rfl
  · rw [if_neg honline]
    obtain ⟨row, hrow, hsame⟩ := h.sound.kept name character hloaded
    exact h.drop hloaded ⟨row, hrow, hsame (Bool.not_eq_true _ ▸ honline)⟩

/-! ## Whole runs -/

/-- A change that leaves everybody the partner they have. -/
theorem outcome_of_consistent (hfits : w.Fits e) (h : w'.Consistent) :
    (w.Fits e → w'.Consistent) ∧
      (Pairing.Mutual RealName.empty w'.partnerOf → w.Fits e) :=
  ⟨fun _ => h, fun _ => hfits⟩

theorem getCharacter_of_whenOnline {act : Spouse → MarriageWorld}
    (hs : w.whenOnline name act = some w') :
    ∃ character, w.getCharacter name = some character ∧ act character = w' :=
  Option.map_eq_some_iff.mp hs

theorem Consistent.step (h : w.Consistent) (hs : w.step e = some w') :
    (w.Fits e → w'.Consistent) ∧
      (Pairing.Mutual RealName.empty w'.partnerOf → w.Fits e) := by
  cases e with
  | load name map =>
      unfold MarriageWorld.step at hs
      dsimp only at hs
      cases hloaded : w.loaded name with
      | some character =>
          rw [hloaded] at hs
          cases hs
      | none =>
          cases hrow : w.rows name with
          | none =>
              rw [hloaded, hrow] at hs
              cases hs
          | some row =>
              rw [hloaded, hrow] at hs
              cases hs
              exact outcome_of_consistent trivial (h.load hloaded hrow map)
  | enter name =>
      unfold MarriageWorld.step at hs
      dsimp only at hs
      cases hloaded : w.loaded name with
      | none =>
          rw [hloaded] at hs
          cases hs
      | some character =>
          rw [hloaded] at hs
          dsimp only at hs
          split_ifs at hs
          cases hs
          refine outcome_of_consistent trivial ?_
          exact h.modify_of_keeps (fun _ => rfl) (fun _ _ hoffline => by cases hoffline)
  | save name =>
      obtain ⟨character, hcharacter, rfl⟩ := getCharacter_of_whenOnline hs
      obtain ⟨hloaded, -⟩ := getCharacter_eq_some_iff.mp hcharacter
      exact outcome_of_consistent trivial
        (h.of_same (h.sound.save hloaded) (partnerOf_save hloaded))
  | unload name =>
      unfold MarriageWorld.step at hs
      dsimp only at hs
      cases hloaded : w.loaded name with
      | none =>
          rw [hloaded] at hs
          cases hs
      | some character =>
          rw [hloaded] at hs
          cases hs
          exact outcome_of_consistent trivial (h.unload hloaded)
  | warp name map =>
      obtain ⟨character, -, rfl⟩ := getCharacter_of_whenOnline hs
      obtain ⟨hsound, hsame, -⟩ := h.sound.cancelWeddingRequest name character.map
      refine outcome_of_consistent trivial ?_
      exact (h.of_same hsound hsame).modify_of_keeps (fun _ => rfl) (fun _ _ hoffline => hoffline)
  | priest map there =>
      cases hs
      exact outcome_of_consistent trivial
        (h.of_same ⟨h.sound.named, h.sound.kept, h.sound.proper⟩ rfl)
  | openLaw name =>
      obtain ⟨character, -, rfl⟩ := getCharacter_of_whenOnline hs
      exact outcome_of_consistent trivial
        (h.modify_of_keeps (fun _ => rfl) (fun _ _ hoffline => hoffline))
  | openPriest name =>
      obtain ⟨character, -, rfl⟩ := getCharacter_of_whenOnline hs
      exact outcome_of_consistent trivial h.priestOpen
  | approve name text affords =>
      obtain ⟨character, -, rfl⟩ := getCharacter_of_whenOnline hs
      exact outcome_of_consistent trivial (h.marriageApproval text affords)
  | divorce name text affords =>
      obtain ⟨character, hcharacter, rfl⟩ := getCharacter_of_whenOnline hs
      exact h.divorce hcharacter text affords
  | request name text dressed partnerDressed level =>
      obtain ⟨character, -, rfl⟩ := getCharacter_of_whenOnline hs
      exact outcome_of_consistent trivial (h.priestRequest text dressed partnerDressed level)
  | accept name =>
      obtain ⟨character, -, rfl⟩ := getCharacter_of_whenOnline hs
      exact outcome_of_consistent trivial h.priestAccept
  | iDo name =>
      obtain ⟨character, -, rfl⟩ := getCharacter_of_whenOnline hs
      exact outcome_of_consistent trivial (h.onWedding fun wedding hproper => hproper.iDo _ _ _)
  | tick map =>
      cases hs
      exact h.tick map
  | create text map =>
      cases hs
      exact outcome_of_consistent trivial (h.characterCreate (RealName.of text) map)
  | delete name =>
      unfold MarriageWorld.step at hs
      dsimp only at hs
      cases hloaded : w.loaded name with
      | none =>
          rw [hloaded] at hs
          cases hs
      | some character =>
          rw [hloaded] at hs
          dsimp only at hs
          split_ifs at hs with honline
          cases hs
          exact h.delete hloaded (Bool.not_eq_true _ ▸ honline)

/-- What cannot happen marries and leaves nobody. -/
theorem fits_of_none (hs : w.step e = none) : w.Fits e := by
  cases e with
  | divorce name text affords =>
      intro character hcharacter
      have hnone : w.getCharacter name = none := Option.map_eq_none_iff.mp hs
      cases hnone.symm.trans hcharacter
  | delete name =>
      intro character hloaded hoffline
      unfold MarriageWorld.step at hs
      dsimp only at hs
      rw [show w.loaded name = some character from hloaded] at hs
      dsimp only at hs
      rw [hoffline, if_neg (by decide)] at hs
      cases hs
  | tick map => cases hs
  | _ => trivial

/-- A world where nobody is married, nobody is logged in, and no wedding has begun. -/
structure Unmarried (w : MarriageWorld) : Prop where
  rows : ∀ name row, w.rows name = some row →
    name ≠ RealName.empty ∧ row.partner = RealName.empty
  loaded : ∀ name, w.loaded name = none
  weddings : ∀ map wedding, w.weddings map = some wedding →
    wedding.state = 0 ∧ wedding.tick = 0 ∧ wedding.married = []

theorem Unmarried.partnerOf (h : w.Unmarried) (name : RealName) :
    w.partnerOf name = RealName.empty := by
  unfold MarriageWorld.partnerOf
  rw [h.loaded name]
  cases hrow : w.rows name with
  | none => rfl
  | some row => exact (h.rows name row hrow).2

theorem Unmarried.consistent (h : w.Unmarried) : w.Consistent where
  sound := by
    refine ⟨fun name row hrow => (h.rows name row hrow).1, ?_, ?_⟩
    · intro name character hloaded
      rw [h.loaded name] at hloaded
      cases hloaded
    · intro map wedding hwedding
      obtain ⟨hstate, htick, hmarried⟩ := h.weddings map wedding hwedding
      exact proper_of_idle hmarried hstate (Int.le_of_eq htick.symm)
  couples := by
    constructor
    · intro a b ha hb
      rw [h.partnerOf a, h.partnerOf b]
      exact ⟨fun heq => absurd heq.symm hb, fun heq => absurd heq.symm ha⟩
    · intro a ha
      rw [h.partnerOf a]
      exact ha.symm

/-- In a run from a world where nobody is married, the partner of A is B if and only if the
partner of B is A, as long as and only as long as no couple is married that is not free for each
other, and no partner is left that is in memory but not online. -/
theorem mutual_iff_fits (h : w.Unmarried) (steps : List MarriageEvent) :
    (∀ t, RunSteps.Reaches step w steps t → Pairing.Mutual RealName.empty t.partnerOf) ↔
      RunSteps.Every step Fits w steps := by
  rw [RunSteps.forall_reaches_iff]
  have hiff : RunSteps.Every step
      (fun w e => ∀ w' ∈ step w e, Pairing.Mutual RealName.empty w'.partnerOf) w steps ↔
        RunSteps.Every step Fits w steps := by
    apply RunSteps.every_iff Consistent _ _ h.consistent
    · intro w e h
      constructor
      · intro hmutual
        cases hs : w.step e with
        | none => exact fits_of_none hs
        | some w' => exact (h.step hs).2 (hmutual w' hs)
      · exact fun hfits w' hs => ((h.step hs).1 hfits).couples.both
    · exact fun w e w' h hfits hs => (h.step hs).1 hfits
  rw [hiff]
  exact and_iff_right h.consistent.couples.both

/-! ## Three characters at an altar -/

def anna : RealName := RealName.of ['a', 'n', 'n', 'a']

def emil : RealName := RealName.of ['e', 'm', 'i', 'l']

def otto : RealName := RealName.of ['o', 't', 't', 'o']

/-- Three unmarried characters, and a map with a priest. -/
def altar : MarriageWorld where
  rows name :=
    if name = anna ∨ name = emil ∨ name = otto then some ⟨RealName.empty, RealName.empty⟩ else none
  loaded _ := none
  weddings map :=
    if map = 1 then
      some
        { state := 0, tick := 0, ticking := false, partner1 := [], partner2 := [], requests := [],
          married := [], fault := false }
    else none
  priests map := map = 1

theorem altar_unmarried : altar.Unmarried where
  rows := by
    intro name row hrow
    unfold altar at hrow
    dsimp only at hrow
    split_ifs at hrow with hname
    cases hrow
    refine ⟨?_, rfl⟩
    rcases hname with rfl | rfl | rfl
    · decide
    · decide
    · decide
  loaded := fun _ => rfl
  weddings := by
    intro map wedding hwedding
    unfold altar at hwedding
    dsimp only at hwedding
    split_ifs at hwedding
    cases hwedding
    exact ⟨rfl, rfl, rfl⟩

/-- Everybody enters, two get approval for each other, and the third for one of them. -/
def gathered : List MarriageEvent :=
  [.load anna 1, .enter anna, .load emil 1, .enter emil, .load otto 1, .enter otto,
    .openLaw anna, .approve anna otto.val true, .openLaw otto, .approve otto anna.val true,
    .openLaw emil, .approve emil anna.val true,
    .openPriest anna, .request anna otto.val true true true]

/-- A ceremony of two, once the second one accepts. -/
def ceremony (first second : RealName) : List MarriageEvent :=
  [.accept second] ++ List.replicate 31 (.tick 1) ++ [.iDo first] ++ List.replicate 7 (.tick 1) ++
    [.iDo second, .tick 1]

theorem mutual_iff_fits_altar :
    (∀ t, RunSteps.Reaches step altar (gathered ++ ceremony anna otto) t →
      Pairing.Mutual RealName.empty t.partnerOf) ↔
      RunSteps.Every step Fits altar (gathered ++ ceremony anna otto) :=
  mutual_iff_fits altar_unmarried (gathered ++ ceremony anna otto)

/-- The third one accepts what the first one has asked the second one for, and the second one
after them. -/
theorem not_mutual_altar :
    ∃ w steps t, w.Unmarried ∧ RunSteps.Reaches step w steps t ∧
      ¬ Pairing.Mutual RealName.empty t.partnerOf := by
  have hend : (RunSteps.run step altar (gathered ++ ceremony anna emil ++
      List.replicate 23 (.tick 1) ++ ceremony anna otto)).map
        (fun t => (t.partnerOf emil, t.partnerOf anna)) = some (anna, otto) := by
    decide +kernel
  obtain ⟨t, ht, hpartners⟩ := Option.map_eq_some_iff.mp hend
  refine ⟨altar, _, t, altar_unmarried, RunSteps.reaches_of_run ht, ?_⟩
  intro hmutual
  have hemil : t.partnerOf emil = anna := congrArg Prod.fst hpartners
  have hanna : t.partnerOf anna = otto := congrArg Prod.snd hpartners
  have hback := (hmutual emil anna (by decide) (by decide)).mp hemil
  rw [hanna] at hback
  exact absurd hback (by decide)

end ArenaServ.MarriageWorld
