import Mathlib.Data.Set.Basic
import ArenaServ.Trade

/-!
# What trade steps keep

Whoever trades has a partner who trades with them, and a property of single characters
that offers, agreements and quests respect holds of all characters. In the middle of a
step both may fail for a few characters; `Sound` names these.
-/

namespace ArenaServ

/-- What a quest may do to the trade of a character: nothing, or end it. -/
structure QuestEffect (w w' : World) : Prop where
  kept : ∀ b x', w'.characters b = some x' → ∃ x, w.characters b = some x ∧
    (x'.tradePartner = x.tradePartner ∨ x'.tradePartner = none) ∧
    (x'.trading = true → x.trading = true ∧ x'.tradePartner = x.tradePartner ∧
      x'.tradeAgree = x.tradeAgree ∧ x'.tradeInventory = x.tradeInventory)
  /-- A trade ends for both sides. -/
  both : ∀ b x' p y, w'.characters b = some x' → x'.trading = true →
    x'.tradePartner = some p → w.characters p = some y → y.trading = true →
    y.tradePartner = some b → ∃ y', w'.characters p = some y' ∧ y'.trading = true

theorem QuestEffect.refl (w : World) : QuestEffect w w where
  kept := fun _ x' hx' => ⟨x', hx', Or.inl rfl, fun h => ⟨h, rfl, rfl, rfl⟩⟩
  both := fun _ _ _ y _ _ _ hy htrading _ => ⟨y, hy, htrading⟩

/-- If the partner of `c` trades, then with `c`. -/
def World.Mutual (w : World) (c : Addr) : Prop :=
  ∀ x p y, w.characters c = some x → x.trading = true → x.tradePartner = some p →
    w.characters p = some y → y.trading = true → y.tradePartner = some c

/-- Quests may end trades and do nothing else to them. -/
def OnlyEndTrades (quests : QuestRules) : Prop :=
  ∀ c w w', w.Mutual c → quests c w = some w' → QuestEffect w w'

/-- A property of characters that quests keep. -/
structure KeptByQuests (quests : QuestRules) (L : Addr → Character → Prop) : Prop where
  effect : OnlyEndTrades quests
  keeps : ∀ c w w', w.Mutual c → quests c w = some w' → ∀ b x', w'.characters b = some x' →
    ∃ x, w.characters b = some x ∧ (L b x → L b x') ∧ (L b x.disagree → L b x'.disagree)

/-- A property of characters that the trade steps keep, one field for what each does. -/
structure TradeLocal (rules : ItemRules) (L : Addr → Character → Prop) : Prop where
  stopped : ∀ b x, x.trading = false → x.tradeInventory = [] → L b x
  frame : ∀ b x x', x'.trading = x.trading → x'.tradeAgree = x.tradeAgree →
    x'.tradeInventory = x.tradeInventory → x'.inventory = x.inventory → L b x → L b x'
  disagree : ∀ b x, L b x → L b x.disagree
  opened : ∀ b x p, x.trading = false → L b x →
    L b { x with tradePartner := p, trading := true, tradeAgree := false }
  added : ∀ b x item amount offer pushed, x.trading = true → L b x →
    Inventory.addTradeItem rules x.inventory true x.tradeInventory item amount =
      some (offer, pushed) → L b ({ x with tradeInventory := offer } : Character).disagree
  removed : ∀ b x item offer, L b x →
    Inventory.delTradeItem x.tradeInventory item = some offer →
    L b ({ x with tradeInventory := offer } : Character).disagree

namespace World

/-- Pairing holds outside `D`, and `L` outside `E`. -/
structure Sound (D E : Set Addr) (L : Addr → Character → Prop) (w : World) : Prop where
  paired : ∀ b x, b ∉ D → w.characters b = some x → x.trading = true →
    ∃ p y, x.tradePartner = some p ∧ p ∉ D ∧ w.characters p = some y ∧ y.trading = true ∧
      y.tradePartner = some b
  noSelf : ∀ b x, w.characters b = some x → x.tradePartner ≠ some b
  each : ∀ b x, b ∉ E → w.characters b = some x → L b x

/-- The partner of `c` is `p` or has been forgotten, and neither trades one-sidedly. -/
structure PartnerIs (w : World) (c p : Addr) : Prop where
  is : ∀ x, w.characters c = some x → x.tradePartner = some p ∨ x.tradePartner = none
  own : w.Mutual c
  other : w.Mutual p

def Stopped (w : World) (c : Addr) : Prop := ∀ x, w.characters c = some x → x.trading = false

variable {quests : QuestRules} {config : TradeConfig} {rules : ItemRules}
  {L : Addr → Character → Prop} {D E : Set Addr} {w w' : World} {b c p : Addr} {x y : Character}

theorem modify_self (f : Character → Character) :
    (w.modify c f).characters c = (w.characters c).map f := if_pos rfl

theorem modify_of_ne (f : Character → Character) (h : b ≠ c) :
    (w.modify c f).characters b = w.characters b := if_neg h

theorem partner_eq_some {q : Addr} (h : w.partner c = some (q, y)) :
    ∃ x, w.characters c = some x ∧ x.tradePartner = some q ∧ w.characters q = some y := by
  simp only [partner, Option.bind_eq_bind, Option.bind_eq_some_iff] at h
  obtain ⟨x, hx, p, hp, y', hy', heq⟩ := h
  cases heq
  exact ⟨x, hx, hp, hy'⟩

theorem completes_of_partner {reader rest : PacketReader} {agree : ℕ}
    (hx : w.characters c = some x) (htrading : x.trading = true)
    (hread : reader.getChar = some (agree, rest)) (hne : agree ≠ 0)
    (hoffer : x.tradeInventory ≠ []) (hp : x.tradePartner = some p) (hpc : p ≠ c)
    (hy : w.characters p = some y) (hagree : y.tradeAgree = true) : w.Completes c reader := by
  refine ⟨x, agree, rest, p, y, hx, htrading, hread, hne, hoffer, ?_, hagree⟩
  simp [partner, modify_self, modify_of_ne _ hpc, hx, hp, hy]

theorem PartnerIs.eq {q : Addr} (h : w.PartnerIs c p) (hq : w.partner c = some (q, y)) :
    q = p := by
  obtain ⟨x, hx, hpx, -⟩ := partner_eq_some hq
  rcases h.is x hx with heq | hnone
  · exact Option.some.inj (hpx.symm.trans heq)
  · rw [hnone] at hpx
    cases hpx

theorem Mutual.quest (h : w.Mutual c) (hw : QuestEffect w w') : w'.Mutual c := by
  intro x' p y' hx' hx'trading hp hy' hy'trading
  obtain ⟨x, hx, -, hkept⟩ := hw.kept c x' hx'
  obtain ⟨hxtrading, hpx, -, -⟩ := hkept hx'trading
  obtain ⟨y, hy, -, hykept⟩ := hw.kept p y' hy'
  obtain ⟨hytrading, hpy, -, -⟩ := hykept hy'trading
  exact hpy.trans (h x p y hx hxtrading (hpx.symm.trans hp) hy hytrading)

theorem Mutual.modify (h : w.Mutual c) (b : Addr) (f : Character → Character)
    (hf : ∀ x, (f x).trading = true → x.trading = true ∧ (f x).tradePartner = x.tradePartner) :
    (w.modify b f).Mutual c := by
  have hold : ∀ a z', (w.modify b f).characters a = some z' → z'.trading = true →
      ∃ z, w.characters a = some z ∧ z.trading = true ∧ z'.tradePartner = z.tradePartner := by
    intro a z' hz' htrading
    by_cases ha : a = b
    · subst ha
      rw [modify_self, Option.map_eq_some_iff] at hz'
      obtain ⟨z, hz, rfl⟩ := hz'
      exact ⟨z, hz, (hf z htrading).1, (hf z htrading).2⟩
    · rw [modify_of_ne f ha] at hz'
      exact ⟨z', hz', htrading, rfl⟩
  intro x' p y' hx' hx'trading hp hy' hy'trading
  obtain ⟨x, hx, hxtrading, hpx⟩ := hold c x' hx' hx'trading
  obtain ⟨y, hy, hytrading, hpy⟩ := hold p y' hy' hy'trading
  exact hpy.trans (h x p y hx hxtrading (hpx.symm.trans hp) hy hytrading)

theorem PartnerIs.quest (h : w.PartnerIs c p) (hw : QuestEffect w w') : w'.PartnerIs c p := by
  refine ⟨?_, h.own.quest hw, h.other.quest hw⟩
  intro x' hx'
  obtain ⟨x, hx, hpartner, -⟩ := hw.kept c x' hx'
  rcases hpartner with hsame | hnone
  · rw [hsame]
    exact h.is x hx
  · exact Or.inr hnone

theorem PartnerIs.modify (h : w.PartnerIs c p) (b : Addr) (f : Character → Character)
    (hf : ∀ x, (f x).tradePartner = x.tradePartner)
    (htrading : ∀ x, (f x).trading = true → x.trading = true) :
    (w.modify b f).PartnerIs c p := by
  have hboth : ∀ x, (f x).trading = true →
      x.trading = true ∧ (f x).tradePartner = x.tradePartner :=
    fun x hx => ⟨htrading x hx, hf x⟩
  refine ⟨?_, h.own.modify b f hboth, h.other.modify b f hboth⟩
  intro x' hx'
  by_cases hb : c = b
  · subst hb
    rw [modify_self, Option.map_eq_some_iff] at hx'
    obtain ⟨x, hx, rfl⟩ := hx'
    rw [hf x]
    exact h.is x hx
  · rw [modify_of_ne f hb] at hx'
    exact h.is x' hx'

theorem Stopped.quest (h : w.Stopped c) (hw : QuestEffect w w') : w'.Stopped c := by
  intro x' hx'
  obtain ⟨x, hx, -, hkept⟩ := hw.kept c x' hx'
  cases htrading : x'.trading with
  | false => rfl
  | true =>
      have hold := (hkept htrading).1
      rw [h x hx] at hold
      cases hold

theorem Stopped.modify (h : w.Stopped c) (b : Addr) (f : Character → Character)
    (hf : ∀ x, x.trading = false → (f x).trading = false) : (w.modify b f).Stopped c := by
  intro x' hx'
  by_cases hb : c = b
  · subst hb
    rw [modify_self, Option.map_eq_some_iff] at hx'
    obtain ⟨x, hx, rfl⟩ := hx'
    exact hf x (h x hx)
  · rw [modify_of_ne f hb] at hx'
    exact h x' hx'

theorem stopped_modify (w : World) (c : Addr) (f : Character → Character)
    (hf : ∀ x, (f x).trading = false) : (w.modify c f).Stopped c := by
  intro x' hx'
  rw [modify_self, Option.map_eq_some_iff] at hx'
  obtain ⟨x, -, rfl⟩ := hx'
  exact hf x

/-! ## How single operations keep it -/

theorem sound_empty : empty.Sound ∅ ∅ L := by
  refine ⟨?_, ?_, ?_⟩
  · intro b x _ hx
    cases hx
  · intro b x hx
    cases hx
  · intro b x _ hx
    cases hx

/-- Who completes a trade with whom. -/
theorem Sound.completes {reader : PacketReader} (h : Sound ∅ E L w) (hc : w.Completes c reader) :
    ∃ x agree rest p y, w.characters c = some x ∧ x.trading = true ∧
      reader.getChar = some (agree, rest) ∧ agree ≠ 0 ∧ x.tradeInventory ≠ [] ∧
      x.tradePartner = some p ∧ p ≠ c ∧ w.characters p = some y ∧ y.trading = true ∧
      y.tradePartner = some c ∧ y.tradeAgree = true := by
  obtain ⟨x, agree, rest, q, z, hx, htrading, hread, hne, hoffer, hq, hz⟩ := hc
  obtain ⟨p, y, hp, -, hy, hytrading, hyc⟩ := h.paired c x (Set.notMem_empty c) hx htrading
  have hpc : p ≠ c := by
    rintro rfl
    exact h.noSelf p x hx hp
  obtain ⟨x', hx', hqx, hz'⟩ := partner_eq_some hq
  rw [modify_self, hx] at hx'
  cases hx'
  obtain rfl : p = q := Option.some.inj (hp.symm.trans hqx)
  rw [modify_of_ne _ hpc, hy, Option.some.injEq] at hz'
  subst hz'
  exact ⟨x, agree, rest, p, y, hx, htrading, hread, hne, hoffer, hp, hpc, hy, hytrading, hyc, hz⟩

theorem Sound.mutual_of_notMem (h : Sound D E L w) (hc : c ∉ D) : w.Mutual c := by
  intro x p y hx htrading hp hy hytrading
  obtain ⟨p', y', hp', -, hy', -, hyc⟩ := h.paired c x hc hx htrading
  rw [hp, Option.some.injEq] at hp'
  subst hp'
  rw [hy, Option.some.injEq] at hy'
  rw [hy']
  exact hyc

theorem Sound.quest (h : Sound D E L w) (hq : KeptByQuests quests L) (hm : w.Mutual c)
    (hw : quests c w = some w') : Sound D E L w' := by
  have heffect := hq.effect c w w' hm hw
  refine ⟨?_, ?_, ?_⟩
  · intro b x' hb hx' htrading
    obtain ⟨x, hx, -, hkept⟩ := heffect.kept b x' hx'
    obtain ⟨hold, hpartner, -, -⟩ := hkept htrading
    obtain ⟨p, y, hp, hpD, hy, hytrading, hyb⟩ := h.paired b x hb hx hold
    obtain ⟨y', hy', hy'trading⟩ :=
      heffect.both b x' p y hx' htrading (hpartner.trans hp) hy hytrading hyb
    obtain ⟨y₀, hy₀, -, hykept⟩ := heffect.kept p y' hy'
    rw [hy, Option.some.injEq] at hy₀
    subst hy₀
    exact ⟨p, y', hpartner.trans hp, hpD, hy', hy'trading,
      (hykept hy'trading).2.1.trans hyb⟩
  · intro b x' hx' hself
    obtain ⟨x, hx, hpartner, -⟩ := heffect.kept b x' hx'
    rcases hpartner with hsame | hnone
    · exact h.noSelf b x hx (hsame.symm.trans hself)
    · rw [hnone] at hself
      cases hself
  · intro b x' hb hx'
    obtain ⟨x, hx, hkeeps, -⟩ := hq.keeps c w w' hm hw b x' hx'
    exact hkeeps (h.each b x hb hx)

/-- A change that leaves trading and partner alone; `F` may leave `c` out when `L` holds. -/
theorem Sound.modify {F : Set Addr} (h : Sound D E L w) (c : Addr) (f : Character → Character)
    (hE : ∀ b, b ∈ E → b = c ∨ b ∈ F)
    (hpair : ∀ x, (f x).trading = x.trading ∧ (f x).tradePartner = x.tradePartner)
    (heach : c ∉ F → ∀ x, w.characters c = some x → L c (f x)) :
    Sound D F L (w.modify c f) := by
  refine ⟨?_, ?_, ?_⟩
  · intro b x' hb hx' htrading
    obtain ⟨x, hx, htr, hpa⟩ : ∃ x, w.characters b = some x ∧ x.trading = true ∧
        x'.tradePartner = x.tradePartner := by
      by_cases hbc : b = c
      · subst hbc
        rw [modify_self, Option.map_eq_some_iff] at hx'
        obtain ⟨x, hx, rfl⟩ := hx'
        exact ⟨x, hx, (hpair x).1.symm.trans htrading, (hpair x).2⟩
      · rw [modify_of_ne f hbc] at hx'
        exact ⟨x', hx', htrading, rfl⟩
    obtain ⟨p, y, hp, hpD, hy, hytrading, hyb⟩ := h.paired b x hb hx htr
    by_cases hpc : p = c
    · subst hpc
      exact ⟨p, f y, hpa.trans hp, hpD, by rw [modify_self, hy]; rfl,
        (hpair y).1.trans hytrading, (hpair y).2.trans hyb⟩
    · exact ⟨p, y, hpa.trans hp, hpD, by rw [modify_of_ne f hpc, hy], hytrading, hyb⟩
  · intro b x' hx'
    by_cases hbc : b = c
    · subst hbc
      rw [modify_self, Option.map_eq_some_iff] at hx'
      obtain ⟨x, hx, rfl⟩ := hx'
      rw [(hpair x).2]
      exact h.noSelf b x hx
    · rw [modify_of_ne f hbc] at hx'
      exact h.noSelf b x' hx'
  · intro b x' hb hx'
    by_cases hbc : b = c
    · subst hbc
      rw [modify_self, Option.map_eq_some_iff] at hx'
      obtain ⟨x, hx, rfl⟩ := hx'
      exact heach hb x hx
    · rw [modify_of_ne f hbc] at hx'
      exact h.each b x' (fun hbE => (hE b hbE).elim hbc hb) hx'

/-- A character outside the pairing may change its trade, and comes out of `E` with `L`. -/
theorem Sound.settle {F : Set Addr} (h : Sound D E L w) (f : Character → Character) (hc : c ∈ D)
    (hE : ∀ b, b ∈ E → b = c ∨ b ∈ F)
    (hself : ∀ x, (f x).tradePartner = x.tradePartner ∨ (f x).tradePartner = none)
    (heach : c ∉ F → ∀ x, w.characters c = some x → L c (f x)) :
    Sound D F L (w.modify c f) := by
  refine ⟨?_, ?_, ?_⟩
  · intro b x' hb hx' htrading
    have hbc : b ≠ c := fun heq => hb (heq ▸ hc)
    rw [modify_of_ne f hbc] at hx'
    obtain ⟨p, y, hp, hpD, hy, hrest⟩ := h.paired b x' hb hx' htrading
    have hpc : p ≠ c := fun heq => hpD (heq ▸ hc)
    exact ⟨p, y, hp, hpD, by rw [modify_of_ne f hpc, hy], hrest⟩
  · intro b x' hx' heq
    by_cases hbc : b = c
    · subst hbc
      rw [modify_self, Option.map_eq_some_iff] at hx'
      obtain ⟨x, hx, rfl⟩ := hx'
      rcases hself x with hsame | hnone
      · exact h.noSelf b x hx (hsame.symm.trans heq)
      · rw [hnone] at heq
        cases heq
    · rw [modify_of_ne f hbc] at hx'
      exact h.noSelf b x' hx' heq
  · intro b x' hb hx'
    by_cases hbc : b = c
    · subst hbc
      rw [modify_self, Option.map_eq_some_iff] at hx'
      obtain ⟨x, hx, rfl⟩ := hx'
      exact heach hb x hx
    · rw [modify_of_ne f hbc] at hx'
      exact h.each b x' (fun hbE => (hE b hbE).elim hbc hb) hx'

theorem Sound.effect (h : Sound D E L w) (e : Effect) : Sound D E L (w.effect e) :=
  ⟨h.paired, h.noSelf, h.each⟩

theorem Sound.mono {F : Set Addr} (h : Sound D E L w) (hE : E ⊆ F) : Sound D F L w :=
  ⟨h.paired, h.noSelf, fun b x hb => h.each b x (fun hbE => hb (hE hbE))⟩

/-- Two characters who trade with each other leave the pairing together. -/
theorem Sound.enter (h : Sound ∅ E L w) (hx : w.characters c = some x)
    (hp : x.tradePartner = some p) (hy : w.characters p = some y)
    (hc : y.tradePartner = some c) : Sound {c, p} E L w := by
  refine ⟨?_, h.noSelf, h.each⟩
  intro b z hb hz htrading
  obtain ⟨q, u, hq, -, hu, hutrading, hub⟩ := h.paired b z (Set.notMem_empty b) hz htrading
  rw [Set.mem_insert_iff, Set.mem_singleton_iff, not_or] at hb
  refine ⟨q, u, hq, ?_, hu, hutrading, hub⟩
  rw [Set.mem_insert_iff, Set.mem_singleton_iff, not_or]
  constructor
  · rintro rfl
    rw [hx, Option.some.injEq] at hu
    subst hu
    rw [hp, Option.some.injEq] at hub
    exact hb.2 hub.symm
  · rintro rfl
    rw [hy, Option.some.injEq] at hu
    subst hu
    rw [hc, Option.some.injEq] at hub
    exact hb.1 hub.symm

/-- They come back when neither trades any more. -/
theorem Sound.leave (h : Sound {c, p} E L w) (hc : w.Stopped c) (hp : w.Stopped p) :
    Sound ∅ E L w := by
  refine ⟨?_, h.noSelf, h.each⟩
  intro b z _ hz htrading
  have hb : b ∉ ({c, p} : Set Addr) := by
    rw [Set.mem_insert_iff, Set.mem_singleton_iff, not_or]
    constructor
    · rintro rfl
      rw [hc z hz] at htrading
      cases htrading
    · rintro rfl
      rw [hp z hz] at htrading
      cases htrading
  obtain ⟨q, u, hq, -, hrest⟩ := h.paired b z hb hz htrading
  exact ⟨q, u, hq, Set.notMem_empty q, hrest⟩

end World

end ArenaServ
