import ArenaServ.TradePairing

/-!
# What is offered stays in the inventory

Most acts do nothing while a character trades, or spare what it offers. A marriage request
does neither, and death leaves the trade open: an offer stays backed in runs without these.
-/

namespace ArenaServ

namespace Inventory

variable {rules : ItemRules} {inventory inventory' offer : List CharacterItem} {item : Int16}
  {amount : Int32}

/-- Only the stack that is changed has to be looked at. -/
theorem Backed.congr (h : Backed rules inventory offer)
    (hother : ∀ k, item ≠ k → held inventory' k = held inventory k)
    (hitem : ∀ t ∈ offer, t.id = item → Covers (held inventory item) t.amount →
      Covers (held inventory' item) t.amount) : Backed rules inventory' offer := by
  refine ⟨h.distinct, ?_⟩
  intro t ht
  have hback := h.backed t ht
  refine ⟨hback.valid, hback.pos, ?_⟩
  by_cases hid : t.id = item
  · rw [hid]
    exact hitem t ht hid (hid ▸ hback.covers)
  · rw [hother t.id (Ne.symm hid)]
    exact hback.covers

/-- An offer outlasts what is taken of the rest. -/
theorem Backed.delItem (h : Backed rules inventory offer)
    (hspare : ∀ t ∈ offer, t.id = item → amount ≤ hasItem inventory true offer item false) :
    Backed rules ((delItem inventory item amount).getD inventory) offer := by
  rw [Inventory.delItem]
  split_ifs with hamount
  · exact h
  apply h.congr (fun k hk => held_delStack_of_ne hk amount inventory)
  intro t ht hid hcov
  rw [Int32.le_iff_toInt_le, Int32.toInt_zero] at hamount
  obtain ⟨it, hit, hle⟩ := stack_of_covers hcov
  have hpos := (h.backed t ht).pos
  have hstack : stack offer item = some t := hid ▸ stack_of_mem h.distinct ht
  have hle' := hspare t ht hid
  rw [hasItem, hit, hstack] at hle'
  simp only [Bool.false_eq_true, not_false_eq_true, and_self, ↓reduceIte] at hle'
  rw [Int32.lt_iff_toInt_lt, Int32.toInt_zero] at hpos
  rw [Int32.le_iff_toInt_le] at hle hle'
  rw [toInt_max_sub hpos hle] at hle'
  rw [held_delStack]
  obtain ⟨x, hx, -⟩ := hcov
  cases hheld : held inventory item with
  | nil =>
      rw [hheld] at hx
      cases hx
  | cons y ys =>
      have hy : y = it.amount := by
        have hhead := head?_held inventory item
        rw [hheld, hit] at hhead
        exact Option.some.inj hhead
      have hsub : (y - amount).toInt = y.toInt - amount.toInt := by
        have hyhigh := y.toInt_lt
        rw [hy] at hyhigh ⊢
        exact toInt_sub_of_le (by omega) (by omega)
      rw [delHeld, if_neg]
      · refine ⟨y - amount, rfl, ?_⟩
        rw [Int32.le_iff_toInt_le, hsub, hy]
        omega
      · rw [Int32.lt_iff_toInt_lt, Int32.le_iff_toInt_le, hsub, Int32.toInt_zero, hy]
        omega

/-- An offer outlasts what is added, unless the stack is cut off at `MaxItem` below it. -/
theorem Backed.addItem (h : Backed rules inventory offer)
    (hmax : ∀ t ∈ offer, t.id = item → t.amount ≤ rules.maxItem) :
    Backed rules ((addItem rules inventory item amount).getD inventory) offer := by
  rw [Inventory.addItem]
  split_ifs with hamount hvalid
  · exact h
  · apply h.congr (fun k hk => held_addStack_of_ne rules.maxItem hk amount inventory)
    intro t ht hid hcov
    rw [held_addStack]
    obtain ⟨x, hx, hle⟩ := hcov
    cases hheld : held inventory item with
    | nil =>
        rw [hheld] at hx
        cases hx
    | cons y ys =>
        rw [hheld, List.head?_cons, Option.mem_some_iff] at hx
        subst hx
        rw [addHeld]
        split_ifs with hneg
        · exact ⟨y, rfl, hle⟩
        · refine ⟨_, rfl, ?_⟩
          have hle' := hmax t ht hid
          have hsum := mt (add_lt_zero_iff (x := y) (a := amount) (by
            rw [Int32.le_iff_toInt_le, Int32.toInt_zero] at hamount
            omega)).mpr hneg
          rw [Int32.le_iff_toInt_le, Int32.toInt_zero] at hamount
          rw [Int32.le_iff_toInt_le] at hle hle' ⊢
          rw [toInt_min, toInt_add_of_lt (by omega) (by omega)]
          omega
  · exact h

end Inventory

/-- An act that returns early while the character trades. -/
def Act.asksTrading : Act → Bool
  | .itemDrop .. | .itemJunk .. | .itemUse .. | .chestAdd .. | .lockerBuy | .shopCreate ..
  | .shopBuy .. | .shopSell .. | .jukeboxMsg .. | .guildBuy .. | .barberBuy .. | .paperdollAdd ..
  | .commandDropItem .. => true
  | .bank _ (.bankAdd _) | .bank _ (.lockerAdd _) | .bank _ (.lockerTake _) => true
  | _ => false

namespace PlayingCharacter

variable {config : PlayConfig} {p q : PlayingCharacter} {item : Int16} {amount : Int32}

theorem act_of_asksTrading (htrading : p.trading = true) (a : Act) (ha : a.asksTrading = true) :
    p.act config a = some p := by
  cases a with
  | itemDrop m time reader => simp [act, itemDrop, itemDropped, htrading]
  | itemJunk reader => simp [act, itemJunk, htrading]
  | itemUse reader scroll spawn => simp [act, itemUse, htrading]
  | chestAdd m reader => simp [act, chestAdd, chestAdded, htrading]
  | lockerBuy => simp [act, lockerBuy, htrading]
  | shopCreate reader => simp [act, shopCreate, htrading]
  | shopBuy reader => simp [act, shopBuy, htrading]
  | shopSell reader => simp [act, shopSell, htrading]
  | jukeboxMsg reader playing => simp [act, jukeboxMsg, htrading]
  | guildBuy reader bank => simp [act, guildBuy, htrading]
  | barberBuy reader => simp [act, barberBuy, htrading]
  | paperdollAdd reader => simp [act, paperdollAdd, htrading]
  | commandDropItem id amount => simp [act, commandDropItem, htrading]
  | bank m s =>
      cases s with
      | bankAdd reader => simp [act, bankStep, bankAdd, bankAdded, htrading]
      | lockerAdd reader => simp [act, bankStep, lockerAdd, lockerAdded, htrading]
      | lockerTake reader => simp [act, bankStep, lockerTake, lockerTaken, htrading]
      | bankTake reader => cases ha
  | itemGet | chestTake | statSkillTake | citizenAccept | marriageRequest | guildCreate
  | paperdollRemove | spawnItem | weddingRing | questGiveItem | questRemoveItem => cases ha

/-- What is taken without asking what is offered. -/
def takenBy (config : PlayConfig) (p : PlayingCharacter) : Act → Option (Int16 × Int32)
  | .marriageRequest reader => (p.marriagePaid config reader).join.map fun price => (1, price)
  | .questRemoveItem id amount => some (id, amount)
  | _ => none

/-- The item that is added to. -/
def addedBy (config : PlayConfig) (p : PlayingCharacter) : Act → Option Int16
  | .itemGet m time reader =>
      (p.itemTaken config.toGroundConfig m time reader).join.map (·.1.id)
  | .chestTake m time reader => (p.chestTaken config.toChestConfig m time reader).join.map (·.1)
  | .bank _ (.bankTake _) => some 1
  | .paperdollRemove reader => reader.getShort.map fun (itemid, _) => Int16.ofNat itemid
  | .spawnItem id _ | .questGiveItem id _ => some id
  | .weddingRing => some config.weddingRing.toInt16
  | _ => none

/-- An act takes nothing that the character offers: the rest covers what is taken, and no
stack is cut off at `MaxItem` below what is offered of it. -/
def Spares (config : PlayConfig) (p : PlayingCharacter) (a : Act) : Prop :=
  (∀ r ∈ p.takenBy config a, ∀ t ∈ p.tradeInventory, t.id = r.1 → r.2 ≤ p.hasItem r.1 false) ∧
    ∀ item ∈ p.addedBy config a, ∀ t ∈ p.tradeInventory, t.id = item →
      t.amount ≤ config.items.maxItem

instance (config : PlayConfig) (p : PlayingCharacter) (a : Act) : Decidable (p.Spares config a) :=
  inferInstanceAs (Decidable (_ ∧ _))

/-- The offer of `p` is backed by the inventory of `q`. -/
def OfferBacked (config : PlayConfig) (p q : PlayingCharacter) : Prop :=
  Inventory.Backed config.items q.inventory p.tradeInventory

theorem offerBacked_delItem (h : OfferBacked config p p) (htrading : p.trading = true)
    (hspare : ∀ t ∈ p.tradeInventory, t.id = item → amount ≤ p.hasItem item false) :
    OfferBacked config p (p.delItem config.carry item amount) := by
  rw [OfferBacked, delItem_inventory]
  apply Inventory.Backed.delItem h
  rw [← htrading]
  exact hspare

theorem offerBacked_addItem (h : OfferBacked config p q)
    (hmax : ∀ t ∈ p.tradeInventory, t.id = item → t.amount ≤ config.items.maxItem) :
    OfferBacked config p (q.addItem config.carry item amount) := by
  rw [OfferBacked, addItem_inventory]
  exact Inventory.Backed.addItem h hmax

/-- What is offered of an item is never more than `HasItem` counts, so the rest is not
negative. -/
theorem hasItem_nonneg (h : OfferBacked config p p) (htrading : p.trading = true)
    {t : CharacterItem} (ht : t ∈ p.tradeInventory) : 0 ≤ (p.hasItem t.id false).toInt := by
  obtain ⟨it, hit, hle⟩ := Inventory.stack_of_covers (h.backed t ht).covers
  have hpos := (h.backed t ht).pos
  have hstack := Inventory.stack_of_mem h.distinct ht
  rw [hasItem, Inventory.hasItem, hit, htrading, hstack]
  simp only [Bool.false_eq_true, not_false_eq_true, and_self, ↓reduceIte]
  rw [Int32.lt_iff_toInt_lt, Int32.toInt_zero] at hpos
  rw [Int32.le_iff_toInt_le] at hle
  rw [Inventory.toInt_max_sub hpos hle]
  omega

/-- A price compared as an `unsigned int`. -/
theorem toInt32_le_of_le_toUInt32 {cost : UInt32} {gold : Int32} (hgold : 0 ≤ gold.toInt)
    (hle : cost ≤ gold.toUInt32) : cost.toInt32 ≤ gold := by
  have hbmod : ∀ x : Int32, x.toInt = Int.bmod x.toUInt32.toNat (2 ^ 32) :=
    fun x => BitVec.toInt_eq_toNat_bmod x.toBitVec
  have hcost := hbmod cost.toInt32
  rw [UInt32.le_iff_toNat_le] at hle
  rw [Int32.le_iff_toInt_le, hcost]
  rw [hbmod gold] at hgold ⊢
  have hlt := gold.toUInt32.toNat_lt
  have hlt' := cost.toNat_lt
  change Int.bmod cost.toNat (2 ^ 32) ≤ _
  rw [Int.bmod_def] at hgold ⊢
  rw [Int.bmod_def]
  split_ifs at hgold ⊢ <;> omega

theorem offerBacked_unequip (h : OfferBacked config p p) (subloc : ℕ)
    (hmax : ∀ t ∈ p.tradeInventory, t.id = item → t.amount ≤ config.items.maxItem) :
    OfferBacked config p (p.unequip config item subloc) := by
  unfold unequip
  split_ifs with hzero
  · exact h
  split
  · exact h
  · next i _ =>
      have htaken : OfferBacked config p { p with paperdoll := p.paperdoll.set i 0 } := h
      exact offerBacked_addItem htaken hmax

theorem offerBacked_act (h : OfferBacked config p p) (htrading : p.trading = true) (a : Act)
    (hspares : p.Spares config a) (hq : p.act config a = some q) : OfferBacked config p q := by
  obtain ⟨htaken, hadded⟩ := hspares
  by_cases ha : a.asksTrading = true
  · rw [act_of_asksTrading htrading a ha, Option.some.injEq] at hq
    rw [← hq]
    exact h
  cases a with
  | itemGet m time reader =>
      simp only [act, itemGet, Option.bind_eq_bind, Option.map_eq_some_iff,
        Option.bind_eq_some_iff] at hq
      obtain ⟨⟨q', m'⟩, ⟨_ | ⟨it, taken⟩, ht, heq⟩, rfl⟩ := hq
      · cases heq
        exact h
      · cases heq
        apply offerBacked_addItem h
        exact hadded it.id (by rw [addedBy, ht]; rfl)
  | chestTake m time reader =>
      simp only [act, chestTake, Option.bind_eq_bind, Option.map_eq_some_iff,
        Option.bind_eq_some_iff] at hq
      obtain ⟨⟨q', m'⟩, ⟨_ | ⟨id, taken, chests⟩, ht, heq⟩, rfl⟩ := hq
      · cases heq
        exact h
      · cases heq
        apply offerBacked_addItem h
        exact hadded id (by rw [addedBy, ht]; rfl)
  | bank m s =>
      cases s with
      | bankTake reader =>
          simp only [act, bankStep, bankTake, Option.bind_eq_bind, Option.bind_eq_some_iff] at hq
          obtain ⟨_ | amount, -, heq⟩ := hq
          · cases heq
            exact h
          · cases heq
            exact offerBacked_addItem (q := { p with goldbank := _ }) h (hadded 1 rfl)
      | bankAdd | lockerAdd | lockerTake => exact absurd rfl ha
  | statSkillTake reader =>
      simp only [act, statSkillTake, Option.bind_eq_bind, Option.bind_eq_some_iff] at hq
      obtain ⟨_, -, ⟨spell, _⟩, -, hq⟩ := hq
      split_ifs at hq with hknown
      · cases hq
        exact h
      · split at hq
        · cases hq
          exact h
        · split_ifs at hq with hmay
          · cases hq
            exact h
          · cases hq
            apply offerBacked_delItem h htrading
            intro t _ _
            exact Int32.not_lt.mp (not_or.mp (not_or.mp hmay).2).1
  | citizenAccept =>
      simp only [act, citizenAccept, Option.some.injEq] at hq
      split_ifs at hq with hmay
      · rw [← hq]
        apply offerBacked_delItem h htrading
        intro t ht hid
        exact toInt32_le_of_le_toUInt32 (hid ▸ hasItem_nonneg h htrading ht) hmay.2
      · rw [← hq]
        exact h
  | marriageRequest reader =>
      simp only [act, marriageRequest, Option.bind_eq_bind, Option.bind_eq_some_iff] at hq
      obtain ⟨_ | price, hpaid, heq⟩ := hq
      · cases heq
        exact h
      · cases heq
        apply offerBacked_delItem h htrading
        exact htaken (1, price) (by rw [takenBy, hpaid]; rfl)
  | guildCreate reader members validDescription =>
      simp only [act, guildCreate, Option.bind_eq_bind, Option.bind_eq_some_iff,
        Option.pure_def, Option.some.injEq] at hq
      obtain ⟨_, -, _, -, _, -, _, -, _, -, hq⟩ := hq
      split_ifs at hq with hmay
      · rw [← hq]
        exact h
      · rw [← hq]
        apply offerBacked_delItem h htrading
        intro t _ _
        simp only [not_or] at hmay
        exact Int32.not_lt.mp hmay.2.2.2.2.2.1
  | paperdollRemove reader =>
      simp only [act, paperdollRemove, Option.bind_eq_bind, Option.bind_eq_some_iff,
        Option.pure_def, Option.some.injEq] at hq
      obtain ⟨⟨itemid, rest⟩, hread, ⟨subloc, rest'⟩, -, data, -, hq⟩ := hq
      split_ifs at hq with hcursed
      · rw [← hq]
        exact h
      · rw [← hq]
        apply offerBacked_unequip h
        exact hadded (Int16.ofNat itemid) (by rw [addedBy, hread]; rfl)
  | spawnItem id amount =>
      cases hq
      exact offerBacked_addItem h (hadded id rfl)
  | weddingRing =>
      simp only [act, Option.some.injEq] at hq
      split_ifs at hq with hzero
      · rw [← hq]
        exact h
      · rw [← hq]
        exact offerBacked_addItem h (hadded _ rfl)
  | questGiveItem id amount =>
      cases hq
      exact offerBacked_addItem h (hadded id rfl)
  | questRemoveItem id amount =>
      cases hq
      exact offerBacked_delItem h htrading (htaken (id, amount) rfl)
  | itemDrop | itemJunk | itemUse | chestAdd | lockerBuy | shopCreate | shopBuy | shopSell
  | jukeboxMsg | guildBuy | barberBuy | paperdollAdd | commandDropItem => exact absurd rfl ha

end PlayingCharacter

namespace PlayWorld

/-- A step spares what is offered: no act of a trading character takes of it, and nobody
drops everything in the middle of a trade. -/
def Spares (config : PlayConfig) (w : PlayWorld) : PlayStep → Prop
  | .act c a => ∀ p ∈ w.player c, p.trading = true → p.Spares config a
  | .death c _ => ∀ p ∈ w.player c, p.trading = true → config.deadly = true →
      p.canInteractItems = true → p.tradeInventory = []
  | .trade _ | .become .. => True

instance (config : PlayConfig) (w : PlayWorld) : ∀ s, Decidable (Spares config w s)
  | .act c a => inferInstanceAs (Decidable (∀ p ∈ w.player c, p.trading = true →
      p.Spares config a))
  | .death c _ => inferInstanceAs (Decidable (∀ p ∈ w.player c, p.trading = true →
      config.deadly = true → p.canInteractItems = true → p.tradeInventory = []))
  | .trade _ | .become .. => inferInstanceAs (Decidable True)

variable {config : PlayConfig} {w w' : PlayWorld} {c : Addr} {rest : Addr → CharacterRest}
  {s : PlayStep} {p q : PlayingCharacter}

theorem every_spares_trade (w : PlayWorld) (steps : List TradeStep) :
    RunSteps.Every (step config) (Spares config) w (steps.map .trade) := by
  induction steps generalizing w with
  | nil => trivial
  | cons t steps ih => exact ⟨trivial, fun w' _ => ih w'⟩

theorem offerBacked_moves (hspares : Spares config w s) (hp : w.player c = some p)
    (hmoves : Moves config c p q s) (htrading : p.trading = true)
    (h : PlayingCharacter.OfferBacked config p p) :
    PlayingCharacter.OfferBacked config p q := by
  cases s with
  | trade t => exact hmoves.elim
  | act c' a =>
      obtain ⟨rfl, ha⟩ := hmoves
      exact PlayingCharacter.offerBacked_act h htrading a (hspares p hp htrading) ha
  | death c' spawnMap =>
      obtain ⟨rfl, rfl⟩ := hmoves
      split_ifs with hdeadly
      · by_cases hitems : p.canInteractItems = true
        · rw [PlayingCharacter.OfferBacked, hspares p hp htrading hdeadly hitems]
          exact Inventory.backed_nil
        · rw [PlayingCharacter.dropAll, if_pos (by simpa using hitems)]
          exact h
      · exact h
  | become c' canInteractItems rest =>
      obtain ⟨rfl, rfl⟩ := hmoves
      exact h

theorem sound_backs_play (h : w.trade.Sound ∅ ∅ (Backs config.items))
    (hspares : Spares config w s) (hw : w.step config s = some w') :
    w'.trade.Sound ∅ ∅ (Backs config.items) := by
  apply sound_step h (tradeLocal_backs config.items) (fun _ _ _ hb => hb) _ hw
  intro c p q hp hmoves hsame hback
  have htrade : q.trading = p.trading ∧ q.tradeInventory = p.tradeInventory := by
    rw [hsame]
    exact ⟨rfl, rfl⟩
  rw [Backs, htrade.1, htrade.2]
  refine ⟨hback.1, ?_⟩
  cases htrading : p.trading with
  | false =>
      rw [hback.1 htrading]
      exact Inventory.backed_nil
  | true => exact offerBacked_moves hspares hp hmoves htrading hback.2

/-- In a run whose steps spare what is offered, every offer is in the inventory of who makes
it, and completing a trade makes no item. -/
theorem offers_backed (steps : List PlayStep)
    (hspares : RunSteps.Every (step config) (Spares config) (empty rest) steps)
    (hreach : RunSteps.Reaches (step config) (empty rest) steps w) :
    (∀ c x, w.trade.characters c = some x → x.trading = true → ∀ t ∈ x.tradeInventory,
      ∃ it, Inventory.stack x.inventory t.id = some it ∧ t.amount ≤ it.amount) ∧
    ∀ c reader, w.trade.Completes c reader →
      ∃ x p y w' x' y', w.trade.characters c = some x ∧ x.tradePartner = some p ∧
        w.trade.characters p = some y ∧ w.step config (.trade (.agree c reader)) = some w' ∧
        w'.trade.characters c = some x' ∧ w'.trade.characters p = some y' ∧
        ∀ item, Inventory.total x'.inventory item + Inventory.total y'.inventory item ≤
          Inventory.total x.inventory item + Inventory.total y.inventory item := by
  have hsound : w.trade.Sound ∅ ∅ (Backs config.items) := by
    apply RunSteps.invariant_of_every (fun w => w.trade.Sound ∅ ∅ (Backs config.items)) _ _
      hspares hreach
    · intro w s w' h hs hw
      exact sound_backs_play h hs hw
    · exact World.sound_empty
  constructor
  · intro c x hx _ t ht
    exact Inventory.stack_of_covers
      ((hsound.each c x (Set.notMem_empty c) hx).2.backed t ht).covers
  · intro c reader hc
    have hbacks : w.trade.Sound ∅ ∅ (Backs config.trade.items) := hsound
    obtain ⟨x, p, y, w', x', y', hx, hp, -, hy, hw', hx', hy', htotal⟩ := hbacks.exchange_total hc
    refine ⟨x, p, y, { w with trade := w' }, x', y', hx, hp, hy, ?_, hx', hy', fun item =>
      (htotal item).1⟩
    rw [step, hw']
    rfl

/-! ## At the fair -/

/-- Something is added in the middle of a trade. -/
def spawnInTrade : List PlayStep := oneOffer.map .trade ++ [.act 2 (.spawnItem 1 3)]

theorem offers_backed_spawnInTrade :
    ∃ w x, RunSteps.Reaches (step fair) (empty atLawyer) spawnInTrade w ∧
      w.trade.characters 2 = some x ∧ ∀ t ∈ x.tradeInventory,
        ∃ it, Inventory.stack x.inventory t.id = some it ∧ t.amount ≤ it.amount := by
  have hview : (RunSteps.run (step fair) (empty atLawyer) spawnInTrade).map
      (fun w => w.trade.characters 2) =
      some (some { visitor 2 [⟨1, 8⟩] with
        trading := true, tradePartner := some 1, tradeInventory := [⟨1, 5⟩] }) := by
    decide
  have hoffer : ((RunSteps.run (step fair) (empty atLawyer) (oneOffer.map .trade)).bind
      fun w => w.trade.characters 2).map (·.tradeInventory) = some [⟨1, 5⟩] := by
    decide
  obtain ⟨w, hw, hx⟩ := Option.map_eq_some_iff.mp hview
  have hreach := RunSteps.reaches_of_run hw
  have hspares : RunSteps.Every (step fair) (Spares fair) (empty atLawyer) spawnInTrade := by
    apply RunSteps.every_append (every_spares_trade _ _)
    intro w₁ hw₁
    refine ⟨?_, fun _ _ => trivial⟩
    intro p hp _
    rw [hw₁, Option.bind_some, player_eq_some hp, Option.map_some, Option.some.injEq] at hoffer
    rw [PlayingCharacter.Spares, hoffer]
    refine ⟨(fun _ hr => nomatch hr), ?_⟩
    intro item _
    have hmax : ∀ t ∈ [(⟨1, 5⟩ : CharacterItem)], t.amount ≤ fair.items.maxItem := by decide
    exact fun t ht _ => hmax t ht
  exact ⟨w, _, hreach, hx, (offers_backed spawnInTrade hspares hreach).1 2 _ hx rfl⟩

/-- The second visitor offers all five gold, and pays for a marriage with them. -/
def marriageInTrade : List PlayStep :=
  twoOffers.map .trade ++
    [.act 2 (.marriageRequest (tradePacket [2, 254, 254, 254, 254, 1, 97, 98, 99, 100]))]

/-- Or dies. -/
def deathWithOffers : List PlayStep := twoOffers.map .trade ++ [.death 2 1]

/-- Both agree. -/
def bothAgree : List PlayStep :=
  [.trade (.agree 1 (tradePacket [2])), .trade (.agree 2 (tradePacket [2]))]

/-- The gold that the second visitor no longer has is delivered all the same. -/
def DeliversUnheld (steps : List PlayStep) : Prop :=
  ∃ w x w' y', RunSteps.Reaches (step fair) (empty atLawyer) steps w ∧
    w.trade.characters 2 = some x ∧ x.trading = true ∧ x.tradeInventory = [⟨1, 5⟩] ∧
    Inventory.stack x.inventory 1 = none ∧
    RunSteps.run (step fair) (empty atLawyer) (steps ++ bothAgree) = some w' ∧
    w'.trade.characters 1 = some y' ∧ Inventory.total y'.inventory 1 = 10

theorem deliversUnheld_of_run {steps : List PlayStep}
    (hbefore : ((RunSteps.run (step fair) (empty atLawyer) steps).map
      fun w => w.trade.characters 2) =
        some (some { visitor 2 [] with
          trading := true, tradePartner := some 1, tradeInventory := [⟨1, 5⟩] }))
    (hafter : ((RunSteps.run (step fair) (empty atLawyer) (steps ++ bothAgree)).map
      fun w => w.trade.characters 1) =
        some (some { visitor 1 [⟨1, 10⟩] with tradeAgree := true })) :
    DeliversUnheld steps := by
  obtain ⟨w, hw, hx⟩ := Option.map_eq_some_iff.mp hbefore
  obtain ⟨w', hw', hy'⟩ := Option.map_eq_some_iff.mp hafter
  exact ⟨w, _, w', _, RunSteps.reaches_of_run hw, hx, rfl, rfl, rfl, hw', hy', by decide⟩

theorem not_offers_backed_fair :
    DeliversUnheld marriageInTrade ∧ DeliversUnheld deathWithOffers :=
  ⟨deliversUnheld_of_run (by decide) (by decide),
    deliversUnheld_of_run (by decide) (by decide)⟩

end PlayWorld

end ArenaServ
