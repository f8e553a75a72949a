import ArenaServ.TradeInvariant

/-!
# Every trade step keeps the invariant

One lemma for each handler. A step in which two characters stop trading takes them out of
the pairing first and brings them back at the end.
-/

namespace ArenaServ.World

variable {quests : QuestRules} {config : TradeConfig} {rules : ItemRules}
  {L : Addr → Character → Prop} {D E : Set Addr} {w w' : World} {b c p : Addr} {x y : Character}
  {item : Int16} {amount : Int32}

/-! ## Items in the middle of an exchange -/

theorem Sound.addItem (h : Sound D E L w) (hq : KeptByQuests quests L) (hc : c ∈ E)
    (hm : w.Mutual c) (hw : w.addItem quests rules c item amount = some w') : Sound D E L w' := by
  simp only [World.addItem, Option.bind_eq_bind, Option.bind_eq_some_iff] at hw
  obtain ⟨x, hx, hw⟩ := hw
  cases hadd : Inventory.addItem rules x.inventory item amount with
  | none =>
      rw [hadd] at hw
      cases hw
      exact h
  | some inventory =>
      rw [hadd] at hw
      have hmod := h.modify c (fun x => { x with inventory := inventory })
        (fun _ hb => Or.inr hb) (fun _ => ⟨rfl, rfl⟩) (fun hnot => absurd hc hnot)
      exact hmod.quest hq (hm.modify c _ fun _ hz => ⟨hz, rfl⟩) hw

theorem Sound.delItem (h : Sound D E L w) (hq : KeptByQuests quests L) (hc : c ∈ E)
    (hm : w.Mutual c) (hw : w.delItem quests c item amount = some w') : Sound D E L w' := by
  simp only [World.delItem, Option.bind_eq_bind, Option.bind_eq_some_iff] at hw
  obtain ⟨x, hx, hw⟩ := hw
  cases hdel : Inventory.delItem x.inventory item amount with
  | none =>
      rw [hdel] at hw
      cases hw
      exact h
  | some inventory =>
      rw [hdel] at hw
      have hmod := h.modify c (fun x => { x with inventory := inventory })
        (fun _ hb => Or.inr hb) (fun _ => ⟨rfl, rfl⟩) (fun hnot => absurd hc hnot)
      exact hmod.quest hq (hm.modify c _ fun _ hz => ⟨hz, rfl⟩) hw

theorem PartnerIs.addItem (h : w.PartnerIs c p) (hq : KeptByQuests quests L)
    (hm : w.Mutual b) (hw : w.addItem quests rules b item amount = some w') : w'.PartnerIs c p := by
  simp only [World.addItem, Option.bind_eq_bind, Option.bind_eq_some_iff] at hw
  obtain ⟨x, hx, hw⟩ := hw
  cases hadd : Inventory.addItem rules x.inventory item amount with
  | none =>
      rw [hadd] at hw
      cases hw
      exact h
  | some inventory =>
      rw [hadd] at hw
      have hmod := h.modify b (fun x => { x with inventory := inventory }) (fun _ => rfl)
        (fun _ hz => hz)
      exact hmod.quest (hq.effect _ _ _ (hm.modify b _ fun _ hz => ⟨hz, rfl⟩) hw)

theorem PartnerIs.delItem (h : w.PartnerIs c p) (hq : KeptByQuests quests L)
    (hm : w.Mutual b) (hw : w.delItem quests b item amount = some w') : w'.PartnerIs c p := by
  simp only [World.delItem, Option.bind_eq_bind, Option.bind_eq_some_iff] at hw
  obtain ⟨x, hx, hw⟩ := hw
  cases hdel : Inventory.delItem x.inventory item amount with
  | none =>
      rw [hdel] at hw
      cases hw
      exact h
  | some inventory =>
      rw [hdel] at hw
      have hmod := h.modify b (fun x => { x with inventory := inventory }) (fun _ => rfl)
        (fun _ hz => hz)
      exact hmod.quest (hq.effect _ _ _ (hm.modify b _ fun _ hz => ⟨hz, rfl⟩) hw)

theorem Sound.takeOffer (h : Sound D E L w) (hq : KeptByQuests quests L) (hc : c ∈ E)
    (hp : p ∈ E) (hpartner : w.PartnerIs c p) {offer : List CharacterItem}
    (hw : takeOffer quests rules c offer w = some w') : Sound D E L w' ∧ w'.PartnerIs c p := by
  induction offer generalizing w with
  | nil =>
      cases hw
      exact ⟨h, hpartner⟩
  | cons t rest ih =>
      simp only [World.takeOffer, Option.bind_eq_bind, Option.bind_eq_some_iff] at hw
      obtain ⟨⟨q, y⟩, hqy, w₁, hdel, w₂, hadd, hrest⟩ := hw
      obtain rfl := hpartner.eq hqy
      have h₁ := h.delItem hq hp hpartner.other hdel
      have hpartner₁ := hpartner.delItem hq hpartner.other hdel
      exact ih (h₁.addItem hq hc hpartner₁.own hadd) (hpartner₁.addItem hq hpartner₁.own hadd)
        hrest

theorem Sound.giveOffer (h : Sound D E L w) (hq : KeptByQuests quests L) (hc : c ∈ E)
    (hp : p ∈ E) (hpartner : w.PartnerIs c p) {offer : List CharacterItem}
    (hw : giveOffer quests rules c offer w = some w') : Sound D E L w' ∧ w'.PartnerIs c p := by
  induction offer generalizing w with
  | nil =>
      cases hw
      exact ⟨h, hpartner⟩
  | cons t rest ih =>
      simp only [World.giveOffer, Option.bind_eq_bind, Option.bind_eq_some_iff] at hw
      obtain ⟨w₁, hdel, ⟨q, y⟩, hqy, w₂, hadd, hrest⟩ := hw
      have h₁ := h.delItem hq hc hpartner.own hdel
      have hpartner₁ := hpartner.delItem hq hpartner.own hdel
      obtain rfl := hpartner₁.eq hqy
      exact ih (h₁.addItem hq hp hpartner₁.other hadd)
        (hpartner₁.addItem hq hpartner₁.other hadd) hrest

/-! ## Ending a trade -/

/-- The pair of a trading character. -/
theorem Sound.pair (h : Sound ∅ E L w) (hx : w.characters c = some x)
    (htrading : x.trading = true) :
    ∃ p y, x.tradePartner = some p ∧ w.characters p = some y ∧ y.trading = true ∧
      y.tradePartner = some c ∧ w.PartnerIs c p ∧ Sound {c, p} E L w := by
  obtain ⟨p, y, hp, -, hy, hytrading, hyc⟩ := h.paired c x (Set.notMem_empty c) hx htrading
  refine ⟨p, y, hp, hy, hytrading, hyc, ⟨?_, h.mutual_of_notMem (Set.notMem_empty c),
    h.mutual_of_notMem (Set.notMem_empty p)⟩, h.enter hx hp hy hyc⟩
  intro x' hx'
  rw [hx, Option.some.injEq] at hx'
  subst hx'
  exact Or.inl hp

/-- The last two assignments of every way out. -/
theorem Sound.forgetPartners (h : Sound {c, p} ∅ L w) (hL : TradeLocal rules L)
    (hc : w.Stopped c) (hp : w.Stopped p) :
    Sound ∅ ∅ L ((w.modify p Character.forgetPartner).modify c Character.forgetPartner) := by
  have h₁ := h.settle Character.forgetPartner (Set.mem_insert_of_mem c rfl)
    (fun _ hb => Or.inr hb) (fun _ => Or.inr rfl)
    (fun _ y hy => hL.frame p y _ rfl rfl rfl rfl (h.each p y (Set.notMem_empty p) hy))
  have h₂ := h₁.settle Character.forgetPartner (Set.mem_insert c {p})
    (fun _ hb => Or.inr hb) (fun _ => Or.inr rfl)
    (fun _ x hx => hL.frame c x _ rfl rfl rfl rfl (h₁.each c x (Set.notMem_empty c) hx))
  have hkeep : ∀ z : Character, z.trading = false → z.forgetPartner.trading = false :=
    fun _ hz => hz
  exact h₂.leave ((hc.modify p _ hkeep).modify c _ hkeep) ((hp.modify p _ hkeep).modify c _ hkeep)

theorem Sound.stopTrade (h : Sound ∅ ∅ L w) (hq : KeptByQuests quests L)
    (hL : TradeLocal rules L) (hx : w.characters c = some x) (htrading : x.trading = true)
    (hw : w.stopTrade quests c = some w') : Sound ∅ ∅ L w' ∧ w'.Stopped c := by
  obtain ⟨p, y, hp, hy, -, -, hpartner, hsound⟩ := h.pair hx htrading
  simp only [World.stopTrade, Option.bind_eq_bind, Option.bind_eq_some_iff] at hw
  obtain ⟨x₀, hx₀, ⟨p₀, y₀⟩, hp₀, w₄, hw₄, ⟨p₄, y₄⟩, hp₄, w₅, hw₅, ⟨p₅, y₅⟩, hp₅, heq⟩ := hw
  obtain rfl := hpartner.eq hp₀
  have hcD : c ∈ ({c, p₀} : Set Addr) := Set.mem_insert c {p₀}
  have hpD : p₀ ∈ ({c, p₀} : Set Addr) := Set.mem_insert_of_mem c rfl
  set w₀ := w.send p₀ ((PacketBuilder.new .trade .close).addShort x₀.playerId.toUInt16)
  have hpartner₀ : w₀.PartnerIs c p₀ := ⟨hpartner.is, hpartner.own, hpartner.other⟩
  have h₀ : Sound {c, p₀} ∅ L w₀ := hsound.effect _
  -- neither trades after the three assignments
  set w₃ := ((w₀.modify c fun x => x.stopTrading.disagree).modify p₀
    Character.stopTrading).modify c Character.disagree
  have h₁ := h₀.settle (fun x => x.stopTrading.disagree) hcD (fun _ hb => Or.inr hb)
    (fun _ => Or.inl rfl) (fun _ x _ => hL.stopped c _ rfl rfl)
  have h₂ := h₁.settle Character.stopTrading hpD (fun _ hb => Or.inr hb)
    (fun _ => Or.inl rfl) (fun _ y _ => hL.stopped p₀ _ rfl rfl)
  have h₃ : Sound {c, p₀} ∅ L w₃ := h₂.settle Character.disagree hcD (fun _ hb => Or.inr hb)
    (fun _ => Or.inl rfl)
    (fun _ x hx => hL.disagree c x (h₂.each c x (Set.notMem_empty c) hx))
  have hpartner₃ : w₃.PartnerIs c p₀ :=
    ((hpartner₀.modify c (fun x => x.stopTrading.disagree) (fun _ => rfl)
      (fun _ hz => absurd hz Bool.false_ne_true)).modify p₀ Character.stopTrading (fun _ => rfl)
      (fun _ hz => absurd hz Bool.false_ne_true)).modify c Character.disagree (fun _ => rfl)
      (fun _ hz => hz)
  have hc₃ : w₃.Stopped c :=
    ((stopped_modify w₀ c _ (fun _ => rfl)).modify p₀ _ (fun _ _ => rfl)).modify c _
      (fun _ hz => hz)
  have hp₃ : w₃.Stopped p₀ := (stopped_modify _ p₀ _ (fun _ => rfl)).modify c _ (fun _ hz => hz)
  -- the quests of both change nothing about that
  have he₄ := hq.effect _ _ _ hpartner₃.own hw₄
  have hpartner₄ := hpartner₃.quest he₄
  obtain rfl := hpartner₄.eq hp₄
  have he₅ := hq.effect _ _ _ hpartner₄.other hw₅
  obtain rfl := (hpartner₄.quest he₅).eq hp₅
  cases heq
  have hkeep : ∀ z : Character, z.trading = false → z.forgetPartner.trading = false :=
    fun _ hz => hz
  have hc₅ := (hc₃.quest he₄).quest he₅
  have hp₅ := (hp₃.quest he₄).quest he₅
  have h₅ := (h₃.quest hq hpartner₃.own hw₄).quest hq hpartner₄.other hw₅
  exact ⟨h₅.forgetPartners hL hc₅ hp₅,
    (hc₅.modify p₅ _ hkeep).modify c _ hkeep⟩

theorem Sound.completeTrade (h : Sound ∅ ∅ L w) (hq : KeptByQuests quests L)
    (hL : TradeLocal rules L) (hx : w.characters c = some x) (htrading : x.trading = true)
    (hw : w.completeTrade quests rules c = some w') : Sound ∅ ∅ L w' := by
  obtain ⟨p, y, hp, hy, -, -, hpartner, hsound⟩ := h.pair hx htrading
  simp only [World.completeTrade, Option.bind_eq_bind, Option.bind_eq_some_iff] at hw
  obtain ⟨⟨p₀, y₀⟩, hp₀, w₁, htake, x₁, hx₁, w₂, hgive, ⟨p₂, y₂⟩, hp₂, w₄, hw₄, ⟨p₄, y₄⟩, hp₄,
    w₅, hw₅, ⟨p₅, y₅⟩, hp₅, heq⟩ := hw
  have hcD : c ∈ ({c, p} : Set Addr) := Set.mem_insert c {p}
  have hpD : p ∈ ({c, p} : Set Addr) := Set.mem_insert_of_mem c rfl
  have hopen : Sound {c, p} {c, p} L w := hsound.mono (Set.empty_subset _)
  obtain ⟨h₁, hpartner₁⟩ := hopen.takeOffer hq hcD hpD hpartner htake
  obtain ⟨h₂, hpartner₂⟩ := h₁.giveOffer hq hcD hpD hpartner₁ hgive
  obtain rfl := hpartner₂.eq hp₂
  -- the own side is settled before the quests, the other side after them
  set w₃ := ((((w₂.send c _).send p₂ _).effect (.emoteTrade c)).effect (.emoteTrade p₂)).modify c
    fun x => x.stopTrading.disagree
  have h₃ : Sound {c, p₂} {p₂} L w₃ :=
    ((((h₂.effect _).effect _).effect _).effect _).settle (fun x => x.stopTrading.disagree) hcD
      (fun b hb => hb) (fun _ => Or.inl rfl) (fun _ x _ => hL.stopped c _ rfl rfl)
  have hpartner₃ : w₃.PartnerIs c p₂ :=
    PartnerIs.modify (w := (((w₂.send c _).send p₂ _).effect (.emoteTrade c)).effect
      (.emoteTrade p₂)) ⟨hpartner₂.is, hpartner₂.own, hpartner₂.other⟩ c
      (fun x => x.stopTrading.disagree) (fun _ => rfl)
      (fun _ hz => absurd hz Bool.false_ne_true)
  have hc₃ : w₃.Stopped c := stopped_modify _ c _ (fun _ => rfl)
  have he₄ := hq.effect _ _ _ hpartner₃.own hw₄
  have hpartner₄ := hpartner₃.quest he₄
  obtain rfl := hpartner₄.eq hp₄
  have he₅ := hq.effect _ _ _ hpartner₄.other hw₅
  have h₅ := (h₃.quest hq hpartner₃.own hw₄).quest hq hpartner₄.other hw₅
  obtain rfl := (hpartner₄.quest he₅).eq hp₅
  have h₆ := h₅.settle (F := ∅) Character.stopTrading hpD (fun b hb => Or.inl hb)
    (fun _ => Or.inl rfl) (fun _ y _ => hL.stopped p₅ _ rfl rfl)
  have h₇ := h₆.settle Character.disagree hcD (fun _ hb => Or.inr hb) (fun _ => Or.inl rfl)
    (fun _ x hx => hL.disagree c x (h₆.each c x (Set.notMem_empty c) hx))
  have hdis : ∀ z : Character, z.trading = false → z.disagree.trading = false := fun _ hz => hz
  have hc₇ := (((hc₃.quest he₄).quest he₅).modify p₅ Character.stopTrading
    (fun _ _ => rfl)).modify c _ hdis
  have hp₇ := (stopped_modify w₅ p₅ Character.stopTrading (fun _ => rfl)).modify c _ hdis
  cases heq
  exact h₇.forgetPartners hL hc₇ hp₇

theorem Sound.agreeReply (h : Sound D E L w) {agree : ℕ} (hw : w.agreeReply c agree = some w') :
    Sound D E L w' := by
  simp only [World.agreeReply, Option.bind_eq_bind, Option.bind_eq_some_iff] at hw
  obtain ⟨⟨p, y⟩, -, heq⟩ := hw
  cases heq
  exact (h.effect _).effect _

/-- What is agreed may change what is known of the sender. -/
theorem Sound.tradeAgree {L' : Addr → Character → Prop} (h : Sound ∅ ∅ L w)
    (hq : KeptByQuests quests L') (hL : TradeLocal rules L') {reader : PacketReader}
    (hother : ∀ b x, b ≠ c → L b x → L' b x)
    (hidle : ∀ x, w.characters c = some x → x.trading = false → L' c x)
    (hself : ∀ x agree rest, w.characters c = some x → x.trading = true →
      reader.getChar = some (agree, rest) → L' c { x with tradeAgree := agree ≠ 0 })
    (hw : w.tradeAgree quests rules c reader = some w') : Sound ∅ ∅ L' w' := by
  simp only [World.tradeAgree, Option.bind_eq_bind, Option.bind_eq_some_iff] at hw
  obtain ⟨x, hx, hw⟩ := hw
  cases htrading : x.trading with
  | false =>
      simp only [htrading, Bool.not_false, ↓reduceIte, Option.pure_def, Option.some.injEq] at hw
      subst hw
      refine ⟨h.paired, h.noSelf, ?_⟩
      intro b z hb hz
      by_cases hbc : b = c
      · subst hbc
        rw [hx, Option.some.injEq] at hz
        subst hz
        exact hidle x hx htrading
      · exact hother b z hbc (h.each b z hb hz)
  | true =>
      simp only [htrading, Bool.not_true, Bool.false_eq_true, ↓reduceIte,
        Option.bind_eq_some_iff] at hw
      obtain ⟨⟨agree, rest⟩, hread, hw⟩ := hw
      set w₁ := w.modify c fun x => { x with tradeAgree := agree ≠ 0 } with hw₁
      have h₁ : Sound ∅ ∅ L' w₁ := by
        have hmod := h.modify (F := {c}) c (fun x => { x with tradeAgree := agree ≠ 0 })
          (fun b hb => Or.inr (absurd hb (Set.notMem_empty b))) (fun _ => ⟨rfl, rfl⟩)
          (fun hnot => absurd rfl hnot)
        refine ⟨hmod.paired, hmod.noSelf, ?_⟩
        intro b z hb hz
        by_cases hbc : b = c
        · subst hbc
          rw [hw₁, modify_self, hx] at hz
          cases hz
          exact hself x agree rest hx htrading hread
        · exact hother b z hbc (hmod.each b z hbc hz)
      have hx₁ : w₁.characters c = some { x with tradeAgree := agree ≠ 0 } := by
        rw [hw₁, modify_self, hx]
        rfl
      split_ifs at hw with hagree hempty
      · rw [Option.pure_def, Option.some.injEq] at hw
        rw [← hw]
        exact h₁
      · simp only [Option.bind_eq_some_iff] at hw
        obtain ⟨⟨p, y⟩, -, hw⟩ := hw
        split_ifs at hw with hboth
        · exact h₁.completeTrade hq hL hx₁ htrading hw
        · exact h₁.agreeReply hw
      · exact h₁.agreeReply hw

/-! ## The other ways out -/

theorem Sound.tradeClose (h : Sound ∅ ∅ L w) (hq : KeptByQuests quests L)
    (hL : TradeLocal rules L) {reader : PacketReader}
    (hw : w.tradeClose quests c reader = some w') : Sound ∅ ∅ L w' := by
  simp only [World.tradeClose, Option.bind_eq_bind, Option.bind_eq_some_iff] at hw
  obtain ⟨x, hx, hw⟩ := hw
  cases htrading : x.trading with
  | false =>
      simp only [htrading, Bool.not_false, ↓reduceIte, Option.pure_def, Option.some.injEq] at hw
      rw [← hw]
      exact h
  | true =>
      simp only [htrading, Bool.not_true, Bool.false_eq_true, ↓reduceIte,
        Option.bind_eq_some_iff] at hw
      obtain ⟨_, -, hw⟩ := hw
      exact (h.stopTrade hq hL hx htrading hw).1

theorem Sound.walkCommon (h : Sound ∅ ∅ L w) (hq : KeptByQuests quests L)
    (hL : TradeLocal rules L) {direction : ℕ}
    (hw : w.walkCommon quests c direction = some w') : Sound ∅ ∅ L w' := by
  simp only [World.walkCommon, Option.bind_eq_bind, Option.bind_eq_some_iff] at hw
  obtain ⟨x, hx, hw⟩ := hw
  split_ifs at hw with hgo
  · exact (h.stopTrade hq hL hx hgo.2 hw).1
  · cases hw
    exact h

theorem Sound.congr (h : Sound D E L w) (hsame : w'.characters = w.characters) :
    Sound D E L w' := by
  refine ⟨?_, ?_, ?_⟩
  · rw [hsame]
    exact h.paired
  · rw [hsame]
    exact h.noSelf
  · rw [hsame]
    exact h.each

theorem leaveMapOf_characters (map : Option ℕ) (c : Addr) :
    (w.leaveMapOf config map c).characters = w.characters := by
  cases map with
  | none => rfl
  | some m =>
      simp only [leaveMapOf]
      split_ifs <;> rfl

theorem Sound.warp (h : Sound ∅ ∅ L w) (hq : KeptByQuests quests L) (hL : TradeLocal rules L)
    {map : ℕ} (hw : w.warp quests config c map = some w') : Sound ∅ ∅ L w' := by
  simp only [World.warp, Option.bind_eq_bind, Option.bind_eq_some_iff] at hw
  obtain ⟨x, hx, hw⟩ := hw
  by_cases hmap : map = 0 ∨ config.maps[map - 1]? ≠ some true
  · rw [if_pos hmap] at hw
    cases hw
    exact h
  rw [if_neg hmap] at hw
  have h₀ : Sound ∅ ∅ L (w.leaveMapOf config x.map c) := h.congr (leaveMapOf_characters _ _)
  set w₁ := (w.leaveMapOf config x.map c).modify c
    fun x => { x with map := some map, mapid := map } with hw₁
  have h₁ : Sound ∅ ∅ L w₁ := h₀.modify c _ (fun _ hb => Or.inr hb) (fun _ => ⟨rfl, rfl⟩)
    (fun _ z hz => hL.frame c z _ rfl rfl rfl rfl (h₀.each c z (Set.notMem_empty c) hz))
  have hx₁ : w₁.characters c = some { x with map := some map, mapid := map } := by
    rw [hw₁, modify_self, leaveMapOf_characters, hx]
    rfl
  cases htrading : x.trading with
  | false =>
      simp only [htrading, Bool.false_eq_true, ↓reduceIte, Option.bind_some] at hw
      have henter : Sound ∅ ∅ L (w₁.enterMap map c) := h₁.congr rfl
      exact henter.quest hq (henter.mutual_of_notMem (Set.notMem_empty c)) hw
  | true =>
      simp only [htrading, ↓reduceIte, Option.bind_eq_some_iff] at hw
      obtain ⟨w₂, hstop, hw⟩ := hw
      have h₂ := (h₁.stopTrade hq hL hx₁ htrading hstop).1
      have henter : Sound ∅ ∅ L (w₂.enterMap map c) := h₂.congr rfl
      exact henter.quest hq (henter.mutual_of_notMem (Set.notMem_empty c)) hw

/-- Deleting a character who does not trade. -/
theorem Sound.delete (h : Sound ∅ ∅ L w) (hc : w.Stopped c)
    (hw : w'.characters = fun b => if b = c then none else w.characters b) :
    Sound ∅ ∅ L w' := by
  have hrest : ∀ b z, w'.characters b = some z → b ≠ c ∧ w.characters b = some z := by
    intro b z hz
    rw [hw] at hz
    by_cases hbc : b = c
    · simp [hbc] at hz
    · exact ⟨hbc, by simpa [hbc] using hz⟩
  refine ⟨?_, ?_, ?_⟩
  · intro b z hb hz htrading
    obtain ⟨-, hz⟩ := hrest b z hz
    obtain ⟨p, y, hp, -, hy, hytrading, hyb⟩ := h.paired b z hb hz htrading
    have hpc : p ≠ c := by
      rintro rfl
      rw [hc y hy] at hytrading
      cases hytrading
    exact ⟨p, y, hp, Set.notMem_empty p, by rw [hw]; simpa [hpc] using hy, hytrading, hyb⟩
  · intro b z hz
    exact h.noSelf b z (hrest b z hz).2
  · intro b z hb hz
    exact h.each b z hb (hrest b z hz).2

theorem Sound.logout (h : Sound ∅ ∅ L w) (hq : KeptByQuests quests L) (hL : TradeLocal rules L)
    (hw : w.logout quests config c = some w') : Sound ∅ ∅ L w' := by
  simp only [World.logout, Option.bind_eq_bind, Option.bind_eq_some_iff] at hw
  obtain ⟨x, hx, hw⟩ := hw
  cases honline : x.online with
  | false =>
      simp only [honline, Bool.not_false, ↓reduceIte, Option.pure_def, Option.some.injEq] at hw
      rw [← hw]
      exact h
  | true =>
      simp only [honline, Bool.not_true, Bool.false_eq_true, ↓reduceIte] at hw
      obtain ⟨w₁, h₁, hc₁, hw⟩ : ∃ w₁, Sound ∅ ∅ L w₁ ∧ w₁.Stopped c ∧
          w'.characters = fun b => if b = c then none else w₁.characters b := by
        cases htrading : x.trading with
        | false =>
            simp only [htrading, Bool.false_eq_true, ↓reduceIte, Option.pure_def, Option.bind_some,
              Option.some.injEq] at hw
            refine ⟨w, h, ?_, ?_⟩
            · intro z hz
              rw [hx, Option.some.injEq] at hz
              rw [← hz]
              exact htrading
            · rw [← hw, leaveMapOf_characters]
        | true =>
            simp only [htrading, ↓reduceIte, Option.bind_eq_some_iff, Option.pure_def,
              Option.some.injEq] at hw
            obtain ⟨⟨p, y⟩, -, w₁, hstop, hw⟩ := hw
            have heff : Sound ∅ ∅ L ((w.effect (.setPlaying c)).effect (.setPlaying p)) :=
              (h.effect _).effect _
            obtain ⟨h₁, hc₁⟩ := heff.stopTrade hq hL hx htrading hstop
            refine ⟨w₁, h₁, hc₁, ?_⟩
            rw [← hw, leaveMapOf_characters]
      exact h₁.delete hc₁ hw

theorem Sound.login (h : Sound ∅ ∅ L w) (hq : KeptByQuests quests L) (hL : TradeLocal rules L)
    (hw : w.login quests c x = some w') : Sound ∅ ∅ L w' := by
  rw [World.login] at hw
  cases hfree : w.characters c with
  | some z => simp [hfree] at hw
  | none =>
      simp only [hfree, Option.isSome_none, Bool.false_eq_true, ↓reduceIte] at hw
      suffices hsound : Sound ∅ ∅ L _ from
        hsound.quest hq (hsound.mutual_of_notMem (Set.notMem_empty c)) hw
      refine ⟨?_, ?_, ?_⟩
      · intro b z hb hz htrading
        by_cases hbc : b = c
        · simp only [World.enterMap, hbc, ↓reduceIte, Option.some.injEq] at hz
          rw [← hz] at htrading
          cases htrading
        · simp only [World.enterMap, hbc, ↓reduceIte] at hz
          obtain ⟨p, y, hp, -, hy, hrest⟩ := h.paired b z hb hz htrading
          have hpc : p ≠ c := by
            rintro rfl
            rw [hfree] at hy
            cases hy
          exact ⟨p, y, hp, Set.notMem_empty p, by simpa [World.enterMap, hpc] using hy, hrest⟩
      · intro b z hz
        by_cases hbc : b = c
        · simp only [World.enterMap, hbc, ↓reduceIte, Option.some.injEq] at hz
          rw [← hz]
          exact Option.some_ne_none b |>.symm
        · simp only [World.enterMap, hbc, ↓reduceIte] at hz
          exact h.noSelf b z hz
      · intro b z hb hz
        by_cases hbc : b = c
        · simp only [World.enterMap, hbc, ↓reduceIte, Option.some.injEq] at hz
          rw [← hz]
          exact hL.stopped b _ rfl rfl
        · simp only [World.enterMap, hbc, ↓reduceIte] at hz
          exact h.each b z hb hz

end ArenaServ.World
