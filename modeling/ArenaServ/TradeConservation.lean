import ArenaServ.TradeHandlers

/-!
# What a completed trade does to the items

When quests do nothing, every offer in a run is backed by the inventory of who makes it,
so the exchange takes exactly what is offered out of both inventories. What comes over is
cut off at `MaxItem`.
-/

namespace ArenaServ

/-- `CheckQuestRules` when there is nothing to do. -/
def noQuests : QuestRules := fun _ w => some w

def Character.withInventory (x : Character) (inventory : List CharacterItem) : Character :=
  { x with inventory := inventory }

/-- Offers belong to trades and are backed. -/
def Backs (rules : ItemRules) (_ : Addr) (x : Character) : Prop :=
  (x.trading = false → x.tradeInventory = []) ∧
    Inventory.Backed rules x.inventory x.tradeInventory

variable {config : TradeConfig} {rules : ItemRules} {w w' : World} {b c p : Addr}
  {x y : Character} {reader : PacketReader}

theorem tradeLocal_backs (rules : ItemRules) : TradeLocal rules (Backs rules) where
  stopped := by
    intro b x _ hoffer
    refine ⟨fun _ => hoffer, ?_⟩
    rw [hoffer]
    exact Inventory.backed_nil
  frame := by
    intro b x x' htrading _ hoffer hinventory h
    rw [Backs, htrading, hoffer, hinventory]
    exact h
  disagree := fun _ _ h => h
  opened := by
    intro b x p _ h
    exact ⟨fun hidle => absurd hidle Bool.true_eq_false_eq_False, h.2⟩
  added := by
    intro b x item amount offer pushed htrading h hadd
    refine ⟨?_, h.2.addTradeItem hadd⟩
    intro hidle
    exact absurd (htrading.symm.trans hidle) Bool.true_eq_false_eq_False
  removed := by
    intro b x item offer h hdel
    refine ⟨?_, h.2.delTradeItem hdel⟩
    intro hidle
    rw [h.1 hidle] at hdel
    cases hdel

theorem keptByQuests_noQuests (L : Addr → Character → Prop) : KeptByQuests noQuests L where
  effect := by
    intro c w w' _ hw
    cases hw
    exact QuestEffect.refl w
  keeps := by
    intro c w w' _ hw b x' hx'
    cases hw
    exact ⟨x', hx', id, id⟩

theorem sound_backs_step (h : w.Sound ∅ ∅ (Backs config.items)) (t : TradeStep)
    (hw : w.step noQuests config t = some w') : w'.Sound ∅ ∅ (Backs config.items) :=
  h.step (keptByQuests_noQuests _) (tradeLocal_backs config.items) (fun _ _ _ hb => hb) t hw

theorem sound_backs_run (h : w.Sound ∅ ∅ (Backs config.items)) (steps : List TradeStep)
    (hw : w.run noQuests config steps = some w') : w'.Sound ∅ ∅ (Backs config.items) := by
  induction steps generalizing w with
  | nil =>
      cases hw
      exact h
  | cons t steps ih =>
      rw [World.run, Option.bind_eq_some_iff] at hw
      obtain ⟨w₁, hw₁, hrun⟩ := hw
      exact ih (sound_backs_step h t hw₁) hrun

/-! ## The exchange -/

namespace World

theorem addItem_noQuests (rules : ItemRules) (hx : w.characters c = some x) (item : Int16)
    (amount : Int32) :
    ∃ w', w.addItem noQuests rules c item amount = some w' ∧
      w'.characters c = some (x.withInventory
        ((Inventory.addItem rules x.inventory item amount).getD x.inventory)) ∧
      ∀ b, b ≠ c → w'.characters b = w.characters b := by
  cases hadd : Inventory.addItem rules x.inventory item amount with
  | none =>
      refine ⟨w, ?_, hx, fun _ _ => rfl⟩
      simp [addItem, hx, hadd]
  | some inventory =>
      refine ⟨w.modify c fun x => { x with inventory := inventory }, ?_, ?_, ?_⟩
      · simp [addItem, hx, hadd, noQuests]
      · rw [modify_self, hx]
        rfl
      · exact fun b hb => modify_of_ne _ hb

theorem delItem_noQuests (hx : w.characters c = some x) (item : Int16) (amount : Int32) :
    ∃ w', w.delItem noQuests c item amount = some w' ∧
      w'.characters c = some (x.withInventory
        ((Inventory.delItem x.inventory item amount).getD x.inventory)) ∧
      ∀ b, b ≠ c → w'.characters b = w.characters b := by
  cases hdel : Inventory.delItem x.inventory item amount with
  | none =>
      refine ⟨w, ?_, hx, fun _ _ => rfl⟩
      simp [delItem, hx, hdel]
  | some inventory =>
      refine ⟨w.modify c fun x => { x with inventory := inventory }, ?_, ?_, ?_⟩
      · simp [delItem, hx, hdel, noQuests]
      · rw [modify_self, hx]
        rfl
      · exact fun b hb => modify_of_ne _ hb

theorem partner_of_some (hx : w.characters c = some x) (hp : x.tradePartner = some p)
    (hy : w.characters p = some y) : w.partner c = some (p, y) := by
  simp [partner, hx, hp, hy]

theorem takeOffer_noQuests (rules : ItemRules) (hx : w.characters c = some x)
    (hp : x.tradePartner = some p) (hpc : p ≠ c) (hy : w.characters p = some y)
    (offer : List CharacterItem) :
    ∃ w', takeOffer noQuests rules c offer w = some w' ∧
      w'.characters c = some (x.withInventory (Inventory.takeAll rules x.inventory offer)) ∧
      w'.characters p = some (y.withInventory (Inventory.giveAll y.inventory offer)) := by
  induction offer generalizing w x y with
  | nil => exact ⟨w, rfl, hx, hy⟩
  | cons t rest ih =>
      obtain ⟨w₁, hdel, hy₁, hsame₁⟩ := delItem_noQuests hy t.id t.amount
      have hx₁ := (hsame₁ c (Ne.symm hpc)).trans hx
      obtain ⟨w₂, hadd, hx₂, hsame₂⟩ := addItem_noQuests rules hx₁ t.id t.amount
      have hy₂ := (hsame₂ p hpc).trans hy₁
      obtain ⟨w', hrest, hx', hy'⟩ := ih hx₂ hp hy₂
      refine ⟨w', ?_, hx', hy'⟩
      simp only [takeOffer, partner_of_some hx hp hy, hdel, hadd, Option.bind_eq_bind,
        Option.bind_some, hrest]

theorem giveOffer_noQuests (rules : ItemRules) (hx : w.characters c = some x)
    (hp : x.tradePartner = some p) (hpc : p ≠ c) (hy : w.characters p = some y)
    (offer : List CharacterItem) :
    ∃ w', giveOffer noQuests rules c offer w = some w' ∧
      w'.characters c = some (x.withInventory (Inventory.giveAll x.inventory offer)) ∧
      w'.characters p = some (y.withInventory
        (Inventory.takeAll rules y.inventory offer)) := by
  induction offer generalizing w x y with
  | nil => exact ⟨w, rfl, hx, hy⟩
  | cons t rest ih =>
      obtain ⟨w₁, hdel, hx₁, hsame₁⟩ := delItem_noQuests hx t.id t.amount
      have hy₁ := (hsame₁ p hpc).trans hy
      obtain ⟨w₂, hadd, hy₂, hsame₂⟩ := addItem_noQuests rules hy₁ t.id t.amount
      have hx₂ := (hsame₂ c (Ne.symm hpc)).trans hx₁
      obtain ⟨w', hrest, hx', hy'⟩ := ih hx₂ hp hy₂
      refine ⟨w', ?_, hx', hy'⟩
      simp only [giveOffer, partner_of_some hx₁ hp hy₁, hdel, hadd, Option.bind_eq_bind,
        Option.bind_some, hrest]

/-- Both inventories after a completed trade. -/
theorem completeTrade_noQuests (rules : ItemRules) (hx : w.characters c = some x)
    (hp : x.tradePartner = some p) (hpc : p ≠ c) (hy : w.characters p = some y) :
    ∃ w' x' y', w.completeTrade noQuests rules c = some w' ∧ w'.characters c = some x' ∧
      w'.characters p = some y' ∧
      x'.inventory = Inventory.giveAll (Inventory.takeAll rules x.inventory y.tradeInventory)
        x.tradeInventory ∧
      y'.inventory = Inventory.takeAll rules (Inventory.giveAll y.inventory y.tradeInventory)
        x.tradeInventory := by
  obtain ⟨w₁, htake, hx₁, hy₁⟩ :=
    takeOffer_noQuests rules hx hp hpc hy y.tradeInventory
  obtain ⟨w₂, hgive, hx₂, hy₂⟩ :=
    giveOffer_noQuests rules hx₁ hp hpc hy₁ x.tradeInventory
  set x₁ := x.withInventory (Inventory.takeAll rules x.inventory y.tradeInventory)
  set x₂ := x₁.withInventory (Inventory.giveAll x₁.inventory x.tradeInventory)
  set y₁ := y.withInventory (Inventory.giveAll y.inventory y.tradeInventory)
  set y₂ := y₁.withInventory (Inventory.takeAll rules y₁.inventory x.tradeInventory)
  have hpartner₂ : w₂.partner c = some (p, y₂) := partner_of_some hx₂ hp hy₂
  set b := addOffer (addOffer (PacketBuilder.new .trade .use) y y.tradeInventory) x₁
    x₁.tradeInventory with hb
  set w₃ := ((((w₂.send c b).send p b).effect (.emoteTrade c)).effect (.emoteTrade p)).modify c
    fun x => x.stopTrading.disagree with hw₃
  have hx₃ : w₃.characters c = some x₂.stopTrading.disagree :=
    (modify_self _).trans (congrArg (Option.map _) hx₂)
  have hy₃ : w₃.characters p = some y₂ := (modify_of_ne _ hpc).trans hy₂
  have hpartner₃ : w₃.partner c = some (p, y₂) := partner_of_some hx₃ hp hy₃
  set w₄ := (w₃.modify p Character.stopTrading).modify c Character.disagree with hw₄
  refine ⟨(w₄.modify p Character.forgetPartner).modify c Character.forgetPartner,
    x₂.stopTrading.disagree.disagree.forgetPartner, y₂.stopTrading.forgetPartner, ?_, ?_, ?_, rfl,
    rfl⟩
  · have hgive' : giveOffer noQuests rules c x₁.tradeInventory w₁ = some w₂ := hgive
    simp only [completeTrade, partner_of_some hx hp hy, htake, hx₁, hgive', hpartner₂,
      Option.bind_eq_bind, Option.bind_some, ← hb, ← hw₃, noQuests, hpartner₃, ← hw₄,
      Option.pure_def]
  · rw [modify_self, modify_of_ne _ (Ne.symm hpc), hw₄, modify_self,
      modify_of_ne _ (Ne.symm hpc), hx₃]
    rfl
  · rw [modify_of_ne _ hpc, modify_self, hw₄, modify_of_ne _ hpc, modify_self, hy₃]
    rfl

end World

/-- When all offers are backed, a completed trade makes no item, and loses none exactly when
what is offered of it has room in the inventory it goes to. -/
theorem World.Sound.exchange_total (hsound : w.Sound ∅ ∅ (Backs config.items))
    (hc : w.Completes c reader) :
    ∃ x p y w' x' y', w.characters c = some x ∧ x.tradePartner = some p ∧ p ≠ c ∧
      w.characters p = some y ∧ w.step noQuests config (.agree c reader) = some w' ∧
      w'.characters c = some x' ∧ w'.characters p = some y' ∧
      ∀ item, Inventory.total x'.inventory item + Inventory.total y'.inventory item ≤
          Inventory.total x.inventory item + Inventory.total y.inventory item ∧
        (Inventory.total x'.inventory item + Inventory.total y'.inventory item =
            Inventory.total x.inventory item + Inventory.total y.inventory item ↔
          (∀ t ∈ y.tradeInventory, t.id = item →
            Inventory.FitsIn config.items x.inventory t) ∧
          ∀ t ∈ x.tradeInventory, t.id = item → Inventory.FitsIn config.items
            (Inventory.giveAll y.inventory y.tradeInventory) t) := by
  obtain ⟨x, agree, rest, p, y, hx, htrading, hread, hne, hoffer, hp, hpc, hy, -, -, hagree⟩ :=
    hsound.completes hc
  have hbacks := (hsound.each c x (Set.notMem_empty c) hx).2
  have hbacks' := (hsound.each p y (Set.notMem_empty p) hy).2
  set w₁ := w.modify c fun x => { x with tradeAgree := agree ≠ 0 } with hw₁
  have hx₁ : w₁.characters c = some { x with tradeAgree := agree ≠ 0 } := by
    rw [hw₁, World.modify_self, hx]
    rfl
  have hy₁ : w₁.characters p = some y := (World.modify_of_ne _ hpc).trans hy
  obtain ⟨w', x', y', hw', hx', hy', hinvx, hinvy⟩ :=
    World.completeTrade_noQuests config.items hx₁ hp hpc hy₁
  refine ⟨x, p, y, w', x', y', hx, hp, hpc, hy, ?_, hx', hy', ?_⟩
  · have hpartner : w₁.partner c = some (p, y) := World.partner_of_some hx₁ hp hy₁
    simp only [World.step, World.tradeAgree, hx, htrading, hread, Option.bind_eq_bind,
      Option.bind_some, Bool.not_true, Bool.false_eq_true, ↓reduceIte, ← hw₁, hpartner, hagree,
      if_pos hne, if_neg hoffer, hw']
  · intro item
    rw [hinvx, hinvy]
    exact Inventory.total_exchange hbacks hbacks' item

/-- A completed trade makes no item, and loses none exactly when what is offered of it has
room in the inventory it goes to. -/
theorem completes_total (steps : List TradeStep)
    (hrun : World.empty.run noQuests config steps = some w) (hc : w.Completes c reader) :
    ∃ x p y w' x' y', w.characters c = some x ∧ x.tradePartner = some p ∧ p ≠ c ∧
      w.characters p = some y ∧ w.step noQuests config (.agree c reader) = some w' ∧
      w'.characters c = some x' ∧ w'.characters p = some y' ∧
      ∀ item, Inventory.total x'.inventory item + Inventory.total y'.inventory item ≤
          Inventory.total x.inventory item + Inventory.total y.inventory item ∧
        (Inventory.total x'.inventory item + Inventory.total y'.inventory item =
            Inventory.total x.inventory item + Inventory.total y.inventory item ↔
          (∀ t ∈ y.tradeInventory, t.id = item →
            Inventory.FitsIn config.items x.inventory t) ∧
          ∀ t ∈ x.tradeInventory, t.id = item → Inventory.FitsIn config.items
            (Inventory.giveAll y.inventory y.tradeInventory) t) :=
  World.Sound.exchange_total (sound_backs_run World.sound_empty steps hrun) hc

/-- The second visitor's agreement completes the trade of both offers. -/
theorem twoOffers_agreed :
    ∃ w, World.empty.run noQuests hall (twoOffers ++ [.agree 1 (tradePacket [2])]) = some w ∧
      w.Completes 2 (tradePacket [2]) ∧
      w.characters 2 = some { visitor 2 [⟨1, 5⟩] with
        trading := true, tradePartner := some 1, tradeInventory := [⟨1, 5⟩] } ∧
      w.characters 1 = some { visitor 1 [⟨1, 8⟩, ⟨2, 3⟩] with
        trading := true, tradePartner := some 2, tradeAgree := true,
        tradeInventory := [⟨2, 3⟩] } := by
  have hrun : ((World.empty.run noQuests hall
      (twoOffers ++ [.agree 1 (tradePacket [2])])).map fun w =>
        (w.characters 2, w.characters 1)) =
      some (some { visitor 2 [⟨1, 5⟩] with
          trading := true, tradePartner := some 1, tradeInventory := [⟨1, 5⟩] },
        some { visitor 1 [⟨1, 8⟩, ⟨2, 3⟩] with
          trading := true, tradePartner := some 2, tradeAgree := true,
          tradeInventory := [⟨2, 3⟩] }) := by
    decide
  obtain ⟨w, hw, hview⟩ := Option.map_eq_some_iff.mp hrun
  obtain ⟨h₂, h₁⟩ := Prod.mk.inj hview
  have hread : (tradePacket [2]).getChar = some (1, ⟨[1, 32, 2], 3⟩) := by decide
  exact ⟨w, hw, World.completes_of_partner h₂ rfl hread one_ne_zero (List.cons_ne_nil _ _) rfl
    (by decide) h₁ rfl, h₂, h₁⟩

theorem completes_total_twoOffers :
    ∃ w w' x' y', World.empty.run noQuests hall (twoOffers ++ [.agree 1 (tradePacket [2])]) =
        some w ∧ w.step noQuests hall (.agree 2 (tradePacket [2])) = some w' ∧
      w'.characters 2 = some x' ∧ w'.characters 1 = some y' ∧
      Inventory.total x'.inventory 2 + Inventory.total y'.inventory 2 = 3 := by
  obtain ⟨w, hrun, hc, h₂, h₁⟩ := twoOffers_agreed
  obtain ⟨x, p, y, w', x', y', hx, hp, -, hy, hstep, hx', hy', htotal⟩ :=
    completes_total _ hrun hc
  rw [h₂, Option.some.injEq] at hx
  subst hx
  obtain rfl : 1 = p := Option.some.inj hp
  rw [h₁, Option.some.injEq] at hy
  subst hy
  have hfits := (htotal 2).2.mpr ⟨by decide, by decide⟩
  exact ⟨w, w', x', y', hrun, hstep, hx', hy', hfits.trans (by decide)⟩

/-- Five of item 1 go to a stack of eight, of which ten are kept. -/
theorem not_conserved_twoOffers :
    ∃ w w' x y x' y', World.empty.run noQuests hall (twoOffers ++ [.agree 1 (tradePacket [2])]) =
        some w ∧ w.Completes 2 (tradePacket [2]) ∧
      w.characters 2 = some x ∧ w.characters 1 = some y ∧
      w.step noQuests hall (.agree 2 (tradePacket [2])) = some w' ∧
      w'.characters 2 = some x' ∧ w'.characters 1 = some y' ∧
      Inventory.total x'.inventory 1 + Inventory.total y'.inventory 1 ≠
        Inventory.total x.inventory 1 + Inventory.total y.inventory 1 := by
  obtain ⟨w, hrun, hc, h₂, h₁⟩ := twoOffers_agreed
  have hafter : ((World.empty.run noQuests hall (twoOffers ++ [.agree 1 (tradePacket [2])])).bind
      fun w => (w.step noQuests hall (.agree 2 (tradePacket [2]))).map fun w' =>
        (w'.characters 2, w'.characters 1)) =
      some (some (visitor 2 [⟨2, 3⟩]), some { visitor 1 [⟨1, 10⟩] with tradeAgree := true }) := by
    decide
  rw [hrun, Option.bind_some, Option.map_eq_some_iff] at hafter
  obtain ⟨w', hw', hview⟩ := hafter
  obtain ⟨h₂', h₁'⟩ := Prod.mk.inj hview
  exact ⟨w, w', _, _, _, _, hrun, hc, h₂, h₁, hw', h₂', h₁', by decide⟩

end ArenaServ
