import ArenaServ.TradeSteps

/-!
# Opening a trade and changing an offer

The handlers that start trades and change offers. A changed offer is followed by a
withdrawal of both agreements, whatever the quests do in between.
-/

namespace ArenaServ.World

variable {quests : QuestRules} {config : TradeConfig} {rules : ItemRules}
  {L : Addr → Character → Prop} {D E : Set Addr} {w w' : World} {b c p v : Addr}
  {x y : Character} {reader : PacketReader}

def Disagrees (w : World) (c : Addr) : Prop :=
  ∀ x, w.characters c = some x → x.tradeAgree = false

theorem disagrees_modify (w : World) (c : Addr) : (w.modify c Character.disagree).Disagrees c := by
  intro x' hx'
  rw [modify_self, Option.map_eq_some_iff] at hx'
  obtain ⟨x, -, rfl⟩ := hx'
  rfl

theorem Disagrees.modify (h : w.Disagrees c) (b : Addr) :
    (w.modify b Character.disagree).Disagrees c := by
  intro x' hx'
  by_cases hb : c = b
  · subst hb
    exact disagrees_modify w c x' hx'
  · rw [modify_of_ne _ hb] at hx'
    exact h x' hx'

/-! ## Changing an offer -/

theorem Sound.offerChanged (h : Sound ∅ {c} L w) (hL : TradeLocal rules L)
    (hdis : ∀ x, w.characters c = some x → L c x.disagree) (hpartner : w.PartnerIs c p)
    (hw : w.offerChanged c = some w') :
    Sound ∅ ∅ L w' ∧ w'.Disagrees c ∧ w'.Disagrees p := by
  simp only [World.offerChanged, Option.bind_eq_bind, Option.bind_eq_some_iff] at hw
  obtain ⟨x, hx, ⟨q, y⟩, hqy, heq⟩ := hw
  obtain rfl := hpartner.eq hqy
  rw [Option.pure_def, Option.some.injEq] at heq
  rw [← heq]
  set w₀ := (w.send c _).send q _
  have h₀ : Sound ∅ {c} L w₀ := (h.effect _).effect _
  have h₁ := h₀.modify (F := ∅) c Character.disagree (fun b hb => Or.inl hb)
    (fun _ => ⟨rfl, rfl⟩) (fun _ x hx => hdis x hx)
  have h₂ := h₁.modify q Character.disagree (fun _ hb => Or.inr hb) (fun _ => ⟨rfl, rfl⟩)
    (fun _ y hy => hL.disagree q y (h₁.each q y (Set.notMem_empty q) hy))
  exact ⟨h₂, (disagrees_modify w₀ c).modify q, disagrees_modify _ q⟩

/-- After the new offer is in place and the quests have run. -/
theorem Sound.newOffer (h : Sound ∅ ∅ L w) (hq : KeptByQuests quests L)
    (hL : TradeLocal rules L) (hx : w.characters c = some x) (hpartner : w.PartnerIs c p)
    {offer : List CharacterItem}
    (hoffer : L c ({ x with tradeInventory := offer } : Character).disagree) {w₁ : World}
    (hw₁ : quests c (w.modify c fun x => { x with tradeInventory := offer }) = some w₁ ∨
      w₁ = w.modify c fun x => { x with tradeInventory := offer })
    (hw : w₁.offerChanged c = some w') :
    Sound ∅ ∅ L w' ∧ w'.Disagrees c ∧ w'.Disagrees p := by
  set w₀ := w.modify c fun x => { x with tradeInventory := offer } with hw₀
  have h₀ : Sound ∅ {c} L w₀ := h.modify c (fun x => { x with tradeInventory := offer })
    (fun _ hb => Or.inr (absurd hb (Set.notMem_empty _))) (fun _ => ⟨rfl, rfl⟩)
    (fun hnot => absurd rfl hnot)
  have hpartner₀ : w₀.PartnerIs c p :=
    hpartner.modify c (fun x => { x with tradeInventory := offer }) (fun _ => rfl)
      (fun _ hz => hz)
  have hdis₀ : ∀ z, w₀.characters c = some z → L c z.disagree := by
    intro z hz
    rw [hw₀, modify_self, hx] at hz
    cases hz
    exact hoffer
  rcases hw₁ with hquest | hsame
  · refine (h₀.quest hq hpartner₀.own hquest).offerChanged hL ?_
      (hpartner₀.quest (hq.effect _ _ _ hpartner₀.own hquest)) hw
    intro z' hz'
    obtain ⟨z, hz, -, hkeeps⟩ := hq.keeps _ _ _ hpartner₀.own hquest c z' hz'
    exact hkeeps (hdis₀ z hz)
  · rw [hsame] at hw
    exact h₀.offerChanged hL hdis₀ hpartner₀ hw

/-- `Trade_Add` and `Trade_Remove` do nothing, or withdraw the agreement of both sides. -/
def OfferStep (L : Addr → Character → Prop) (w w' : World) (c : Addr) : Prop :=
  w' = w ∨ ∃ x p, w.characters c = some x ∧ x.tradePartner = some p ∧
    Sound ∅ ∅ L w' ∧ w'.Disagrees c ∧ w'.Disagrees p

theorem Sound.tradeRemove (h : Sound ∅ ∅ L w) (hq : KeptByQuests quests L)
    (hL : TradeLocal rules L) (hw : w.tradeRemove quests c reader = some w') :
    OfferStep L w w' c := by
  simp only [World.tradeRemove, Option.bind_eq_bind, Option.bind_eq_some_iff, Option.pure_def] at hw
  obtain ⟨x, hx, hw⟩ := hw
  cases htrading : x.trading with
  | false =>
      simp only [htrading, Bool.not_false, ↓reduceIte, Option.some.injEq] at hw
      exact Or.inl hw.symm
  | true =>
      simp only [htrading, Bool.not_true, Bool.false_eq_true, ↓reduceIte,
        Option.bind_eq_some_iff] at hw
      obtain ⟨⟨itemid, rest⟩, -, hw⟩ := hw
      split_ifs at hw with hsize
      · rw [Option.some.injEq] at hw
        exact Or.inl hw.symm
      cases hdel : Inventory.delTradeItem x.tradeInventory (Int16.ofNat itemid) with
      | none =>
          simp only [hdel, Option.some.injEq] at hw
          exact Or.inl hw.symm
      | some offer =>
          simp only [hdel, Option.bind_eq_some_iff] at hw
          obtain ⟨w₁, hw₁, hw⟩ := hw
          obtain ⟨p, y, hp, -, -, -, hpartner, -⟩ := h.pair hx htrading
          have hoffer := hL.removed c x _ offer (h.each c x (Set.notMem_empty c) hx) hdel
          exact Or.inr ⟨x, p, hx, hp, h.newOffer hq hL hx hpartner hoffer (Or.inl hw₁) hw⟩

theorem Sound.tradeAdd (h : Sound ∅ ∅ L w) (hq : KeptByQuests quests L)
    (hL : TradeLocal rules L) (hw : w.tradeAdd quests rules c reader = some w') :
    OfferStep L w w' c := by
  simp only [World.tradeAdd, Option.bind_eq_bind, Option.bind_eq_some_iff, Option.pure_def] at hw
  obtain ⟨x, hx, hw⟩ := hw
  cases htrading : x.trading with
  | false =>
      simp only [htrading, Bool.not_false, ↓reduceIte, Option.some.injEq] at hw
      exact Or.inl hw.symm
  | true =>
      simp only [htrading, Bool.not_true, Bool.false_eq_true, ↓reduceIte,
        Option.bind_eq_some_iff] at hw
      obtain ⟨⟨itemid, rest⟩, -, ⟨amount, rest'⟩, -, data, -, hw⟩ := hw
      split_ifs at hw with hlore hfull
      · rw [Option.some.injEq] at hw
        exact Or.inl hw.symm
      · rw [Option.some.injEq] at hw
        exact Or.inl hw.symm
      cases hadd : Inventory.addTradeItem rules x.inventory true x.tradeInventory
        (Int16.ofNat itemid) (Int32.ofNat amount) with
      | none =>
          simp only [hadd, Option.some.injEq] at hw
          exact Or.inl hw.symm
      | some result =>
          obtain ⟨offer, pushed⟩ := result
          simp only [hadd] at hw
          obtain ⟨p, y, hp, -, -, -, hpartner, -⟩ := h.pair hx htrading
          have hoffer := hL.added c x _ _ offer pushed htrading
            (h.each c x (Set.notMem_empty c) hx) hadd
          obtain ⟨w₁, hw₁, hchanged⟩ : ∃ w₁,
              (quests c (w.modify c fun x => { x with tradeInventory := offer }) = some w₁ ∨
                w₁ = w.modify c fun x => { x with tradeInventory := offer }) ∧
              w₁.offerChanged c = some w' := by
            cases pushed with
            | true =>
                simp only [↓reduceIte, Option.bind_eq_some_iff] at hw
                obtain ⟨w₁, hw₁, hw⟩ := hw
                exact ⟨w₁, Or.inl hw₁, hw⟩
            | false =>
                simp only [Bool.false_eq_true, ↓reduceIte, Option.bind_some] at hw
                exact ⟨_, Or.inr rfl, hw⟩
          exact Or.inr ⟨x, p, hx, hp, h.newOffer hq hL hx hpartner hoffer hw₁ hchanged⟩

/-! ## Opening a trade -/

/-- Nobody trades with a character who does not trade. -/
theorem Sound.partner_ne_of_idle (h : Sound ∅ E L w) (hidle : w.Stopped c)
    (hx : w.characters b = some x) (htrading : x.trading = true) :
    x.tradePartner ≠ some c := by
  intro heq
  obtain ⟨p, y, hp, -, hy, hytrading, -⟩ := h.paired b x (Set.notMem_empty b) hx htrading
  rw [heq, Option.some.injEq] at hp
  subst hp
  rw [hidle y hy] at hytrading
  cases hytrading

theorem Sound.request (h : Sound ∅ ∅ L w) (hL : TradeLocal rules L) (hidle : w.Stopped c)
    (hv : v ≠ c) : Sound ∅ ∅ L (w.modify c fun x => { x with tradePartner := some v }) := by
  refine ⟨?_, ?_, ?_⟩
  · intro b z _ hz htrading
    by_cases hbc : b = c
    · subst hbc
      rw [modify_self, Option.map_eq_some_iff] at hz
      obtain ⟨x, hx, rfl⟩ := hz
      rw [hidle x hx] at htrading
      cases htrading
    · rw [modify_of_ne _ hbc] at hz
      obtain ⟨p, y, hp, -, hy, hrest⟩ := h.paired b z (Set.notMem_empty b) hz htrading
      have hpc : p ≠ c := by
        rintro rfl
        exact h.partner_ne_of_idle hidle hz htrading hp
      exact ⟨p, y, hp, Set.notMem_empty p, by rw [modify_of_ne _ hpc, hy], hrest⟩
  · intro b z hz
    by_cases hbc : b = c
    · subst hbc
      rw [modify_self, Option.map_eq_some_iff] at hz
      obtain ⟨x, -, rfl⟩ := hz
      exact fun heq => hv (Option.some.inj heq)
    · rw [modify_of_ne _ hbc] at hz
      exact h.noSelf b z hz
  · intro b z hb hz
    by_cases hbc : b = c
    · subst hbc
      rw [modify_self, Option.map_eq_some_iff] at hz
      obtain ⟨x, hx, rfl⟩ := hz
      exact hL.frame b x _ rfl rfl rfl rfl (h.each b x hb hx)
    · rw [modify_of_ne _ hbc] at hz
      exact h.each b z hb hz

/-- `Trade_Request` does nothing, or sets the partner of somebody who does not trade. -/
theorem tradeRequest_cases (hw : w.tradeRequest config c reader = some w') :
    w' = w ∨ ∃ x v packet, w.characters c = some x ∧ x.trading = false ∧ v ≠ c ∧
      w' = (w.send v packet).modify c fun x => { x with tradePartner := some v } := by
  rw [World.tradeRequest] at hw
  obtain ⟨x, hx, hw⟩ := Option.bind_eq_some_iff.mp hw
  have hrefused : ∀ {w₀ : World}, (pure w : Option World) = some w₀ → w₀ = w :=
    fun h => (Option.some.inj h).symm
  split_ifs at hw with htrading hinteract hjail
  · exact Or.inl (hrefused hw)
  · exact Or.inl (hrefused hw)
  · exact Or.inl (hrefused hw)
  obtain ⟨⟨something, rest⟩, -, hw⟩ := Option.bind_eq_some_iff.mp hw
  obtain ⟨⟨victimid, rest'⟩, -, hw⟩ := Option.bind_eq_some_iff.mp hw
  obtain ⟨m, -, hw⟩ := Option.bind_eq_some_iff.mp hw
  obtain ⟨victim, -, hw⟩ := Option.bind_eq_some_iff.mp hw
  cases victim with
  | none => exact Or.inl (hrefused hw)
  | some v =>
      dsimp only at hw
      split_ifs at hw with hself
      · exact Or.inl (hrefused hw)
      obtain ⟨y, -, hw⟩ := Option.bind_eq_some_iff.mp hw
      split_ifs at hw with hfree
      · exact Or.inr ⟨x, v, _, hx, Bool.eq_false_iff.mpr htrading, hself,
          (Option.some.inj hw).symm⟩
      · exact Or.inl (hrefused hw)

theorem stopped_of_some (hx : w.characters c = some x) (htrading : x.trading = false) :
    w.Stopped c := by
  intro z hz
  rw [hx, Option.some.injEq] at hz
  rw [← hz]
  exact htrading

theorem Sound.tradeRequest (h : Sound ∅ ∅ L w) (hL : TradeLocal rules L)
    (hw : w.tradeRequest config c reader = some w') : Sound ∅ ∅ L w' := by
  rcases tradeRequest_cases hw with rfl | ⟨x, v, packet, hx, hidle, hself, rfl⟩
  · exact h
  · exact (h.effect _).request hL (stopped_of_some hx hidle) hself

/-- Two characters who do not trade are made partners. -/
theorem Sound.openTrade (h : Sound ∅ ∅ L w) (hL : TradeLocal rules L)
    (hc : w.Stopped c) (hv : w.Stopped v) (hx : w.characters c = some x)
    (hy : w.characters v = some y) (hyc : y.tradePartner = some c) :
    Sound ∅ ∅ L ((w.modify c fun x =>
        { x with tradePartner := some v, trading := true, tradeAgree := false }).modify v
      fun y => { y with trading := true, tradeAgree := false }) := by
  have hne : c ≠ v := by
    rintro rfl
    exact h.noSelf c y hy hyc
  set x' : Character := { x with tradePartner := some v, trading := true, tradeAgree := false }
  set y' : Character := { y with trading := true, tradeAgree := false }
  set w₁ := (w.modify c fun x =>
    { x with tradePartner := some v, trading := true, tradeAgree := false }).modify v
      fun y => { y with trading := true, tradeAgree := false } with hw₁
  have hx' : w₁.characters c = some x' := by
    rw [hw₁, modify_of_ne _ hne, modify_self, hx]
    rfl
  have hy' : w₁.characters v = some y' := by
    rw [hw₁, modify_self, modify_of_ne _ (Ne.symm hne), hy]
    rfl
  have hrest : ∀ b, b ≠ c → b ≠ v → w₁.characters b = w.characters b := by
    intro b hbc hbv
    rw [hw₁, modify_of_ne _ hbv, modify_of_ne _ hbc]
  refine ⟨?_, ?_, ?_⟩
  · intro b z _ hz htrading
    by_cases hbc : b = c
    · subst hbc
      rw [hx', Option.some.injEq] at hz
      subst hz
      exact ⟨v, y', rfl, Set.notMem_empty v, hy', rfl, hyc⟩
    by_cases hbv : b = v
    · subst hbv
      rw [hy', Option.some.injEq] at hz
      subst hz
      exact ⟨c, x', hyc, Set.notMem_empty c, hx', rfl, rfl⟩
    rw [hrest b hbc hbv] at hz
    obtain ⟨p, u, hp, -, hu, hmutual⟩ := h.paired b z (Set.notMem_empty b) hz htrading
    have hpc : p ≠ c := by
      rintro rfl
      exact h.partner_ne_of_idle hc hz htrading hp
    have hpv : p ≠ v := by
      rintro rfl
      exact h.partner_ne_of_idle hv hz htrading hp
    exact ⟨p, u, hp, Set.notMem_empty p, by rw [hrest p hpc hpv, hu], hmutual⟩
  · intro b z hz
    by_cases hbc : b = c
    · subst hbc
      rw [hx', Option.some.injEq] at hz
      subst hz
      exact fun heq => hne (Option.some.inj heq).symm
    by_cases hbv : b = v
    · subst hbv
      rw [hy', Option.some.injEq] at hz
      subst hz
      exact h.noSelf b y hy
    rw [hrest b hbc hbv] at hz
    exact h.noSelf b z hz
  · intro b z hb hz
    by_cases hbc : b = c
    · subst hbc
      rw [hx', Option.some.injEq] at hz
      subst hz
      exact hL.opened b x (some v) (hc x hx) (h.each b x hb hx)
    by_cases hbv : b = v
    · subst hbv
      rw [hy', Option.some.injEq] at hz
      subst hz
      exact hL.opened b y y.tradePartner (hv y hy) (h.each b y hb hy)
    rw [hrest b hbc hbv] at hz
    exact h.each b z hb hz

/-- `Trade_Accept` does nothing, or opens a trade between two who do not trade. -/
theorem tradeAccept_cases (hw : w.tradeAccept config c reader = some w') :
    w' = w ∨ ∃ x v y packet packet', w.characters c = some x ∧ x.trading = false ∧
      w.characters v = some y ∧ y.trading = false ∧ y.tradePartner = some c ∧
      w' = (((w.send c packet).send v packet').modify c fun x =>
        { x with tradePartner := some v, trading := true, tradeAgree := false }).modify v
          fun y => { y with trading := true, tradeAgree := false } := by
  rw [World.tradeAccept] at hw
  obtain ⟨x, hx, hw⟩ := Option.bind_eq_some_iff.mp hw
  have hrefused : ∀ {w₀ : World}, (pure w : Option World) = some w₀ → w₀ = w :=
    fun h => (Option.some.inj h).symm
  split_ifs at hw with htrading hinteract hjail
  · exact Or.inl (hrefused hw)
  · exact Or.inl (hrefused hw)
  · exact Or.inl (hrefused hw)
  obtain ⟨⟨_, rest⟩, -, hw⟩ := Option.bind_eq_some_iff.mp hw
  obtain ⟨⟨victimid, rest'⟩, -, hw⟩ := Option.bind_eq_some_iff.mp hw
  obtain ⟨m, -, hw⟩ := Option.bind_eq_some_iff.mp hw
  obtain ⟨victim, -, hw⟩ := Option.bind_eq_some_iff.mp hw
  cases victim with
  | none => exact Or.inl (hrefused hw)
  | some v =>
      obtain ⟨y, hy, hw⟩ := Option.bind_eq_some_iff.mp hw
      split_ifs at hw with hopen
      · obtain ⟨-, hyc, hyfree, -⟩ := hopen
        rw [Bool.not_eq_true'] at hyfree
        exact Or.inr ⟨x, v, y, _, _, hx, Bool.eq_false_iff.mpr htrading, hy, hyfree, hyc,
          (Option.some.inj hw).symm⟩
      · exact Or.inl (hrefused hw)

/-- `Trade_Accept` does nothing, or opens a trade that nobody agrees to yet. -/
theorem Sound.tradeAccept (h : Sound ∅ ∅ L w) (hL : TradeLocal rules L)
    (hw : w.tradeAccept config c reader = some w') :
    w' = w ∨ ∃ x v, w'.characters c = some x ∧ x.tradePartner = some v ∧
      Sound ∅ ∅ L w' ∧ w'.Disagrees c ∧ w'.Disagrees v := by
  rcases tradeAccept_cases hw with
    rfl | ⟨x, v, y, packet, packet', hx, hxidle, hy, hyidle, hyc, rfl⟩
  · exact Or.inl rfl
  have hne : c ≠ v := by
    rintro rfl
    exact h.noSelf c y hy hyc
  right
  refine ⟨{ x with tradePartner := some v, trading := true, tradeAgree := false }, v, ?_, rfl,
    ?_, ?_, ?_⟩
  · rw [modify_of_ne _ hne, modify_self]
    exact congrArg (Option.map _) hx
  · exact ((h.effect _).effect _).openTrade hL (stopped_of_some hx hxidle)
      (stopped_of_some hy hyidle) hx hy hyc
  · intro z hz
    rw [modify_of_ne _ hne, modify_self, Option.map_eq_some_iff] at hz
    obtain ⟨u, -, rfl⟩ := hz
    rfl
  · intro z hz
    rw [modify_self, Option.map_eq_some_iff] at hz
    obtain ⟨u, -, rfl⟩ := hz
    rfl

/-- Every trade step keeps what agreeing does not change. -/
theorem Sound.step (h : Sound ∅ ∅ L w) (hq : KeptByQuests quests L)
    (hL : TradeLocal config.items L)
    (hagree : ∀ b x agree, L b x → L b { x with tradeAgree := agree }) (t : TradeStep)
    (hw : w.step quests config t = some w') : Sound ∅ ∅ L w' := by
  cases t with
  | request c reader => exact h.tradeRequest hL hw
  | accept c reader =>
      rcases h.tradeAccept hL hw with rfl | ⟨_, _, _, _, hsound, _⟩
      · exact h
      · exact hsound
  | remove c reader =>
      rcases h.tradeRemove hq hL hw with rfl | ⟨_, _, _, _, hsound, _⟩
      · exact h
      · exact hsound
  | add c reader =>
      rcases h.tradeAdd hq hL hw with rfl | ⟨_, _, _, _, hsound, _⟩
      · exact h
      · exact hsound
  | agree c reader =>
      have hc := fun x hx => h.each c x (Set.notMem_empty c) hx
      refine h.tradeAgree hq hL (fun _ _ _ hb => hb) (fun x hx _ => hc x hx) ?_ hw
      intro x agree rest hx _ _
      exact hagree c x _ (hc x hx)
  | close c reader => exact h.tradeClose hq hL hw
  | walk c direction => exact h.walkCommon hq hL hw
  | warp c map => exact h.warp hq hL hw
  | logout c => exact h.logout hq hL hw
  | login c x => exact h.login hq hL hw

end ArenaServ.World
