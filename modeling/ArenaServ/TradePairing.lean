import ArenaServ.ItemChanges
import ArenaServ.RunSteps

/-!
# Who trades with whom, and how much they offer

Pairs of traders are kept through everything that may happen to either of them. Only
`Trade_Add` makes an offer longer, and it stops at ten items.
-/

namespace ArenaServ

namespace World

/-- Nobody comes online, and no offer gets longer. -/
def OffersShrink (w w' : World) : Prop :=
  ∀ b x', w'.characters b = some x' → ∃ x, w.characters b = some x ∧ x'.online = x.online ∧
    x'.tradeInventory.Sublist x.tradeInventory

variable {config : TradeConfig} {rules : ItemRules} {w w' w'' : World} {b c p : Addr}
  {item : Int16} {amount : Int32} {reader : PacketReader}

theorem OffersShrink.refl (w : World) : OffersShrink w w :=
  fun _ x hx => ⟨x, hx, rfl, List.Sublist.refl _⟩

theorem OffersShrink.trans (h : OffersShrink w w') (h' : OffersShrink w' w'') :
    OffersShrink w w'' := by
  intro b x'' hx''
  obtain ⟨x', hx', honline', hoffer'⟩ := h' b x'' hx''
  obtain ⟨x, hx, honline, hoffer⟩ := h b x' hx'
  exact ⟨x, hx, honline'.trans honline, hoffer'.trans hoffer⟩

theorem OffersShrink.congr (h : OffersShrink w w') (hsame : w''.characters = w'.characters) :
    OffersShrink w w'' := by
  unfold OffersShrink
  rw [hsame]
  exact h

theorem OffersShrink.modify (h : OffersShrink w w') (c : Addr) (f : Character → Character)
    (hf : ∀ x, (f x).online = x.online ∧ (f x).tradeInventory.Sublist x.tradeInventory) :
    OffersShrink w (w'.modify c f) := by
  apply h.trans
  intro b x' hx'
  by_cases hbc : b = c
  · subst hbc
    rw [modify_self, Option.map_eq_some_iff] at hx'
    obtain ⟨x, hx, rfl⟩ := hx'
    exact ⟨x, hx, hf x⟩
  · rw [modify_of_ne f hbc] at hx'
    exact ⟨x', hx', rfl, List.Sublist.refl _⟩

theorem OffersShrink.effect (h : OffersShrink w w') (e : Effect) :
    OffersShrink w (w'.effect e) := h.congr rfl

/-- A change of other fields. -/
theorem OffersShrink.keep (h : OffersShrink w w') (c : Addr) (f : Character → Character)
    (hf : ∀ x, (f x).online = x.online ∧ (f x).tradeInventory = x.tradeInventory) :
    OffersShrink w (w'.modify c f) := by
  apply h.modify c f
  intro x
  rw [(hf x).2]
  exact ⟨(hf x).1, List.Sublist.refl _⟩

theorem OffersShrink.stopTrading (h : OffersShrink w w') (c : Addr) :
    OffersShrink w (w'.modify c Character.stopTrading) :=
  h.modify c _ fun _ => ⟨rfl, List.nil_sublist _⟩

theorem OffersShrink.disagree (h : OffersShrink w w') (c : Addr) :
    OffersShrink w (w'.modify c Character.disagree) := h.keep c _ fun _ => ⟨rfl, rfl⟩

theorem OffersShrink.forgetPartner (h : OffersShrink w w') (c : Addr) :
    OffersShrink w (w'.modify c Character.forgetPartner) := h.keep c _ fun _ => ⟨rfl, rfl⟩

theorem OffersShrink.stopDisagree (h : OffersShrink w w') (c : Addr) :
    OffersShrink w (w'.modify c fun x => x.stopTrading.disagree) :=
  h.modify c _ fun _ => ⟨rfl, List.nil_sublist _⟩

/-- A deleted character has no offer left. -/
theorem OffersShrink.delete (h : OffersShrink w w') (c : Addr)
    (hsame : w''.characters = fun b => if b = c then none else w'.characters b) :
    OffersShrink w w'' := by
  intro b x' hx'
  rw [hsame] at hx'
  dsimp only at hx'
  by_cases hbc : b = c
  · rw [if_pos hbc] at hx'
    cases hx'
  · rw [if_neg hbc] at hx'
    exact h b x' hx'

/-! ## Every handler but one -/

theorem offersShrink_addItem (hw : w.addItem noQuests rules c item amount = some w') :
    OffersShrink w w' := by
  simp only [addItem, Option.bind_eq_bind, Option.bind_eq_some_iff] at hw
  obtain ⟨x, -, hw⟩ := hw
  cases hadd : Inventory.addItem rules x.inventory item amount with
  | none =>
      rw [hadd] at hw
      cases hw
      exact OffersShrink.refl w
  | some inventory =>
      rw [hadd] at hw
      cases hw
      exact (OffersShrink.refl w).keep c _ fun _ => ⟨rfl, rfl⟩

theorem offersShrink_delItem (hw : w.delItem noQuests c item amount = some w') :
    OffersShrink w w' := by
  simp only [delItem, Option.bind_eq_bind, Option.bind_eq_some_iff] at hw
  obtain ⟨x, -, hw⟩ := hw
  cases hdel : Inventory.delItem x.inventory item amount with
  | none =>
      rw [hdel] at hw
      cases hw
      exact OffersShrink.refl w
  | some inventory =>
      rw [hdel] at hw
      cases hw
      exact (OffersShrink.refl w).keep c _ fun _ => ⟨rfl, rfl⟩

theorem offersShrink_takeOffer {offer : List CharacterItem}
    (hw : takeOffer noQuests rules c offer w = some w') : OffersShrink w w' := by
  induction offer generalizing w with
  | nil =>
      cases hw
      exact OffersShrink.refl _
  | cons t rest ih =>
      simp only [takeOffer, Option.bind_eq_bind, Option.bind_eq_some_iff] at hw
      obtain ⟨⟨q, y⟩, -, w₁, hdel, w₂, hadd, hrest⟩ := hw
      exact ((offersShrink_delItem hdel).trans (offersShrink_addItem hadd)).trans (ih hrest)

theorem offersShrink_giveOffer {offer : List CharacterItem}
    (hw : giveOffer noQuests rules c offer w = some w') : OffersShrink w w' := by
  induction offer generalizing w with
  | nil =>
      cases hw
      exact OffersShrink.refl _
  | cons t rest ih =>
      simp only [giveOffer, Option.bind_eq_bind, Option.bind_eq_some_iff] at hw
      obtain ⟨w₁, hdel, ⟨q, y⟩, -, w₂, hadd, hrest⟩ := hw
      exact ((offersShrink_delItem hdel).trans (offersShrink_addItem hadd)).trans (ih hrest)

theorem offersShrink_completeTrade (hw : w.completeTrade noQuests rules c = some w') :
    OffersShrink w w' := by
  simp only [completeTrade, noQuests, Option.bind_eq_bind, Option.bind_eq_some_iff,
    Option.bind_some, Option.pure_def, Option.some.injEq] at hw
  obtain ⟨⟨q, y⟩, -, w₁, htake, x, -, w₂, hgive, ⟨q₂, y₂⟩, -, ⟨q₃, y₃⟩, -, ⟨q₄, y₄⟩, -, rfl⟩ := hw
  have h₂ := (offersShrink_takeOffer htake).trans (offersShrink_giveOffer hgive)
  apply OffersShrink.forgetPartner
  apply OffersShrink.forgetPartner
  apply OffersShrink.disagree
  apply OffersShrink.stopTrading
  apply OffersShrink.stopDisagree
  exact (((h₂.effect _).effect _).effect _).effect _

theorem offersShrink_agreeReply {agree : ℕ} (hw : w.agreeReply c agree = some w') :
    OffersShrink w w' := by
  simp only [agreeReply, Option.bind_eq_bind, Option.bind_eq_some_iff, Option.pure_def,
    Option.some.injEq] at hw
  obtain ⟨⟨q, y⟩, -, rfl⟩ := hw
  exact ((OffersShrink.refl w).effect _).effect _

theorem offersShrink_stopTrade (hw : w.stopTrade noQuests c = some w') : OffersShrink w w' := by
  simp only [stopTrade, noQuests, Option.bind_eq_bind, Option.bind_eq_some_iff,
    Option.bind_some, Option.pure_def, Option.some.injEq] at hw
  obtain ⟨x, -, ⟨q, y⟩, -, ⟨q₂, y₂⟩, -, ⟨q₃, y₃⟩, -, rfl⟩ := hw
  apply OffersShrink.forgetPartner
  apply OffersShrink.forgetPartner
  apply OffersShrink.disagree
  apply OffersShrink.stopTrading
  apply OffersShrink.stopDisagree
  exact (OffersShrink.refl w).effect _

theorem offersShrink_offerChanged (hw : w.offerChanged c = some w') : OffersShrink w w' := by
  simp only [offerChanged, Option.bind_eq_bind, Option.bind_eq_some_iff, Option.pure_def,
    Option.some.injEq] at hw
  obtain ⟨x, -, ⟨q, y⟩, -, rfl⟩ := hw
  exact ((((OffersShrink.refl w).effect _).effect _).disagree c).disagree q

theorem offersShrink_leaveMapOf (map : Option ℕ) : OffersShrink w (w.leaveMapOf config map c) :=
  (OffersShrink.refl w).congr (leaveMapOf_characters map c)

theorem offersShrink_logout (hw : w.logout noQuests config c = some w') : OffersShrink w w' := by
  simp only [logout, Option.bind_eq_bind, Option.bind_eq_some_iff] at hw
  obtain ⟨x, -, hw⟩ := hw
  split_ifs at hw with honline htrading
  · rw [Option.pure_def, Option.some.injEq] at hw
    rw [← hw]
    exact OffersShrink.refl _
  · simp only [Option.bind_eq_some_iff, Option.pure_def, Option.some.injEq] at hw
    obtain ⟨⟨q, y⟩, -, w₁, hstop, rfl⟩ := hw
    apply OffersShrink.delete _ c rfl
    apply OffersShrink.trans _ (offersShrink_leaveMapOf _)
    exact (((OffersShrink.refl w).effect _).effect _).trans (offersShrink_stopTrade hstop)
  · simp only [Option.bind_some, Option.pure_def, Option.some.injEq] at hw
    subst hw
    exact (offersShrink_leaveMapOf _).delete c rfl

theorem offersShrink_warp {map : ℕ} (hw : w.warp noQuests config c map = some w') :
    OffersShrink w w' := by
  simp only [warp, noQuests, Option.bind_eq_bind, Option.bind_eq_some_iff] at hw
  obtain ⟨x, -, hw⟩ := hw
  have hleft : OffersShrink w ((w.leaveMapOf config x.map c).modify c
      fun x => { x with map := some map, mapid := map }) :=
    (offersShrink_leaveMapOf x.map).keep c _ fun _ => ⟨rfl, rfl⟩
  split_ifs at hw with hmap htrading
  · cases hw
    exact OffersShrink.refl _
  · simp only [Option.bind_eq_some_iff, Option.some.injEq] at hw
    obtain ⟨w₁, hstop, rfl⟩ := hw
    exact (hleft.trans (offersShrink_stopTrade hstop)).congr rfl
  · simp only [Option.bind_some, Option.some.injEq] at hw
    subst hw
    exact hleft.congr rfl

theorem offersShrink_request (hw : w.tradeRequest config c reader = some w') :
    OffersShrink w w' := by
  rcases tradeRequest_cases hw with rfl | ⟨x, v, packet, -, -, -, rfl⟩
  · exact OffersShrink.refl _
  · exact ((OffersShrink.refl w).effect _).keep c _ fun _ => ⟨rfl, rfl⟩

theorem offersShrink_accept (hw : w.tradeAccept config c reader = some w') :
    OffersShrink w w' := by
  rcases tradeAccept_cases hw with rfl | ⟨x, v, y, packet, packet', -, -, -, -, -, rfl⟩
  · exact OffersShrink.refl _
  refine OffersShrink.keep (OffersShrink.keep ?_ c _ ?_) v _ ?_
  · exact ((OffersShrink.refl w).effect _).effect _
  · exact fun _ => ⟨rfl, rfl⟩
  · exact fun _ => ⟨rfl, rfl⟩

theorem offersShrink_agree (hw : w.tradeAgree noQuests rules c reader = some w') :
    OffersShrink w w' := by
  simp only [tradeAgree, Option.bind_eq_bind, Option.bind_eq_some_iff, Option.pure_def] at hw
  obtain ⟨x, -, hw⟩ := hw
  by_cases htrading : (!x.trading) = true
  · rw [if_pos htrading, Option.some.injEq] at hw
    rw [← hw]
    exact OffersShrink.refl w
  rw [if_neg htrading] at hw
  obtain ⟨⟨agree, rest⟩, -, hw⟩ := Option.bind_eq_some_iff.mp hw
  have hflag : OffersShrink w (w.modify c fun x => { x with tradeAgree := agree ≠ 0 }) :=
    (OffersShrink.refl w).keep c _ fun _ => ⟨rfl, rfl⟩
  by_cases hagree : agree ≠ 0
  · rw [if_pos hagree] at hw
    split_ifs at hw with hempty
    · rw [Option.some.injEq] at hw
      rw [← hw]
      exact hflag
    · obtain ⟨⟨q, y⟩, -, hw⟩ := Option.bind_eq_some_iff.mp hw
      dsimp only at hw
      split_ifs at hw with hboth
      · exact hflag.trans (offersShrink_completeTrade hw)
      · exact hflag.trans (offersShrink_agreeReply hw)
  · rw [if_neg hagree] at hw
    exact hflag.trans (offersShrink_agreeReply hw)

theorem offersShrink_remove (hw : w.tradeRemove noQuests c reader = some w') :
    OffersShrink w w' := by
  simp only [tradeRemove, noQuests, Option.bind_eq_bind, Option.bind_eq_some_iff,
    Option.pure_def] at hw
  obtain ⟨x, hx, hw⟩ := hw
  by_cases htrading : (!x.trading) = true
  · rw [if_pos htrading, Option.some.injEq] at hw
    rw [← hw]
    exact OffersShrink.refl _
  rw [if_neg htrading] at hw
  obtain ⟨⟨itemid, rest⟩, -, hw⟩ := Option.bind_eq_some_iff.mp hw
  split_ifs at hw with hsize
  · rw [Option.some.injEq] at hw
    rw [← hw]
    exact OffersShrink.refl _
  cases hdel : Inventory.delTradeItem x.tradeInventory (Int16.ofNat itemid) with
  | none =>
      simp only [hdel, Option.some.injEq] at hw
      rw [← hw]
      exact OffersShrink.refl _
  | some offer =>
      simp only [hdel, Option.bind_some] at hw
      apply OffersShrink.trans _ (offersShrink_offerChanged hw)
      -- the offer of `c` is replaced by a part of it
      have hsub := Inventory.delTradeItem_sublist hdel
      intro b x' hx'
      by_cases hbc : b = c
      · subst hbc
        rw [modify_self, hx, Option.map_some, Option.some.injEq] at hx'
        exact ⟨x, hx, by rw [← hx'], by rw [← hx']; exact hsub⟩
      · rw [modify_of_ne _ hbc] at hx'
        exact ⟨x', hx', rfl, List.Sublist.refl _⟩

/-! ## At most ten items -/

/-- Everybody is online and offers at most ten items. -/
def SmallOffers (w : World) : Prop :=
  ∀ b x, w.characters b = some x → x.online = true ∧ x.tradeInventory.length ≤ 10

theorem SmallOffers.shrink (h : SmallOffers w) (hshrink : OffersShrink w w') :
    SmallOffers w' := by
  intro b x' hx'
  obtain ⟨x, hx, honline, hoffer⟩ := hshrink b x' hx'
  obtain ⟨hxonline, hlength⟩ := h b x hx
  exact ⟨honline.trans hxonline, hoffer.length_le.trans hlength⟩

theorem length_offerStack (addQuantity : Bool) (item : Int16) (amount : Int32)
    (offer : List CharacterItem) :
    (Inventory.offerStack addQuantity item amount offer).1.length =
      if offer.any (·.id = item) then offer.length else offer.length + 1 := by
  induction offer with
  | nil => rfl
  | cons t rest ih =>
      rw [Inventory.offerStack]
      by_cases ht : t.id = item
      · simp [ht]
      · simp only [ht, ↓reduceIte, List.length_cons, ih, List.any_cons, decide_false,
          Bool.false_or]
        split_ifs <;> rfl

theorem getShort_lt {reader rest : PacketReader} {n : ℕ}
    (hread : reader.getShort = some (n, rest)) : n < 2 ^ 16 := by
  rw [PacketReader.getShort, Option.map_eq_some_iff] at hread
  obtain ⟨⟨m, r⟩, -, heq⟩ := hread
  rw [← (Prod.mk.inj heq).1]
  exact Nat.mod_lt _ (by decide)

/-- A valid id is the number that was read. -/
theorem toInt_ofNat_of_validId {n : ℕ} (hn : n < 2 ^ 16)
    (hvalid : rules.ValidId (Int16.ofNat n)) : (Int16.ofNat n).toInt = n := by
  have hpos : 0 < (Int16.ofNat n).toInt := by
    have hnot := (not_or.mp hvalid).1
    rw [Int16.le_iff_toInt_le, Int16.toInt_zero] at hnot
    omega
  rw [Int16.toInt_ofNat', Int.bmod_def, Int16.size] at hpos ⊢
  split_ifs at hpos ⊢ <;> omega

/-- `Trade_Add` refuses an eleventh item; ids that it does not recognise in the offer are
refused by `AddTradeItem`. -/
theorem SmallOffers.add (h : SmallOffers w)
    (hw : w.tradeAdd noQuests rules c reader = some w') : SmallOffers w' := by
  simp only [tradeAdd, noQuests, Option.bind_eq_bind, Option.bind_eq_some_iff,
    Option.pure_def] at hw
  obtain ⟨x, hx, hw⟩ := hw
  split_ifs at hw with htrading
  · cases hw
    exact h
  simp only [Option.bind_eq_some_iff] at hw
  obtain ⟨⟨itemid, rest⟩, hread, ⟨amount, rest'⟩, -, data, -, hw⟩ := hw
  split_ifs at hw with hlore hfull
  · cases hw
    exact h
  · cases hw
    exact h
  cases hadd : Inventory.addTradeItem rules x.inventory x.trading x.tradeInventory
    (Int16.ofNat itemid) (Int32.ofNat amount) with
  | none =>
      simp only [hadd, Option.some.injEq] at hw
      rw [← hw]
      exact h
  | some result =>
      obtain ⟨offer, pushed⟩ := result
      have hchanged : (w.modify c fun x => { x with tradeInventory := offer }).offerChanged c =
          some w' := by
        simp only [hadd] at hw
        cases pushed <;> exact hw
      refine SmallOffers.shrink ?_ (offersShrink_offerChanged hchanged)
      obtain ⟨honline, hlength⟩ := h c x hx
      obtain ⟨hvalid, n, -, -, -, hstack⟩ := Inventory.addTradeItem_eq_some hadd
      have hid := toInt_ofNat_of_validId (getShort_lt hread) hvalid
      have hsmall : offer.length ≤ 10 := by
        have hlen := length_offerStack rules.tradeAddQuantity (Int16.ofNat itemid) n
          x.tradeInventory
        rw [hstack] at hlen
        dsimp only at hlen
        rw [hlen]
        split_ifs with hany
        · exact hlength
        · have hnone : x.tradeInventory.any (·.id.toInt = itemid) = false := by
            rw [← hid]
            simpa only [Int16.toInt_inj, Bool.not_eq_true] using hany
          rw [hnone] at hfull
          simp at hfull
          omega
      intro b x' hx'
      by_cases hbc : b = c
      · subst hbc
        rw [modify_self, hx, Option.map_some, Option.some.injEq] at hx'
        rw [← hx']
        exact ⟨honline, hsmall⟩
      · rw [modify_of_ne _ hbc] at hx'
        exact h b x' hx'

theorem SmallOffers.login (h : SmallOffers w) {x : Character}
    (hw : w.login noQuests c x = some w') : SmallOffers w' := by
  rw [World.login] at hw
  split_ifs at hw with htaken
  cases hw
  intro b z hz
  by_cases hbc : b = c
  · simp only [enterMap, hbc, ↓reduceIte, Option.some.injEq] at hz
    rw [← hz]
    exact ⟨rfl, Nat.zero_le 10⟩
  · simp only [enterMap, hbc, ↓reduceIte] at hz
    exact h b z hz

theorem SmallOffers.step (h : SmallOffers w) (t : TradeStep)
    (hw : w.step noQuests config t = some w') : SmallOffers w' := by
  cases t with
  | request c reader => exact h.shrink (offersShrink_request hw)
  | accept c reader => exact h.shrink (offersShrink_accept hw)
  | remove c reader => exact h.shrink (offersShrink_remove hw)
  | agree c reader => exact h.shrink (offersShrink_agree hw)
  | add c reader => exact h.add hw
  | close c reader =>
      simp only [World.step, tradeClose, Option.bind_eq_bind, Option.bind_eq_some_iff] at hw
      obtain ⟨x, -, hw⟩ := hw
      split_ifs at hw with htrading
      · cases hw
        exact h
      · obtain ⟨_, -, hstop⟩ := Option.bind_eq_some_iff.mp hw
        exact h.shrink (offersShrink_stopTrade hstop)
  | walk c direction =>
      simp only [World.step, walkCommon, Option.bind_eq_bind, Option.bind_eq_some_iff] at hw
      obtain ⟨x, -, hw⟩ := hw
      split_ifs at hw with hgo
      · exact h.shrink (offersShrink_stopTrade hw)
      · cases hw
        exact h
  | warp c map => exact h.shrink (offersShrink_warp hw)
  | logout c => exact h.shrink (offersShrink_logout hw)
  | login c x => exact h.login hw

end World

/-! ## What is offered of each item -/

/-- Offers belong to trades, and list different items in amounts that may be traded. -/
def OfferFits (rules : ItemRules) (_ : Addr) (x : Character) : Prop :=
  (x.trading = false → x.tradeInventory = []) ∧ (x.tradeInventory.map (·.id)).Nodup ∧
    ∀ t ∈ x.tradeInventory, 1 ≤ t.amount.toInt ∧ t.amount.toInt ≤ rules.maxTrade.toInt

namespace Inventory

variable {rules : ItemRules} {inventory offer offer' : List CharacterItem} {item : Int16}
  {amount : Int32}

/-- The loop of `AddTradeItem` that looks for the item finds what is offered of it. -/
theorem foldl_offered (hnodup : (offer.map (·.id)).Nodup) (item : Int16) (n : Int32) :
    offer.foldl (fun m t => if t.id = item then t.amount else m) n =
      match stack offer item with
      | some u => u.amount
      | none => n := by
  induction offer generalizing n with
  | nil => rfl
  | cons t rest ih =>
      rw [List.map_cons, List.nodup_cons] at hnodup
      rw [List.foldl_cons, ih hnodup.2, stack_cons]
      by_cases ht : t.id = item
      · have hnone : stack rest item = none := by
          rw [stack, List.find?_eq_none]
          intro u hu heq
          have hid : u.id = t.id := (of_decide_eq_true heq).trans ht.symm
          exact hnodup.1 (List.mem_map.mpr ⟨u, hu, hid⟩)
        rw [hnone, if_pos ht, if_pos ht]
      · rw [if_neg ht, if_neg ht]

theorem addTradeItem_fits {trading pushed : Bool} (hnodup : (offer.map (·.id)).Nodup)
    (hfits : ∀ t ∈ offer, 1 ≤ t.amount.toInt ∧ t.amount.toInt ≤ rules.maxTrade.toInt)
    (hadd : addTradeItem rules inventory trading offer item amount = some (offer', pushed)) :
    (offer'.map (·.id)).Nodup ∧
      ∀ t ∈ offer', 1 ≤ t.amount.toInt ∧ t.amount.toInt ≤ rules.maxTrade.toInt := by
  obtain ⟨-, n, -, hrange, hsum, hstack⟩ := addTradeItem_eq_some hadd
  obtain ⟨hids, hnew⟩ := offerStack_spec rules.tradeAddQuantity item n offer hnodup
  rw [hstack] at hids hnew
  refine ⟨hids, ?_⟩
  have hn : 1 ≤ n.toInt ∧ n.toInt ≤ rules.maxTrade.toInt := by
    rw [not_or, Int32.le_iff_toInt_le, Int32.toInt_zero, gt_iff_lt, Int32.lt_iff_toInt_lt] at hrange
    omega
  intro t ht
  rcases hnew t ht with hold | rfl
  · exact hfits t hold
  rw [newAmount]
  cases hoff : stack offer item with
  | none => exact hn
  | some u =>
      dsimp only
      split_ifs with hquantity
      swap
      · exact hn
      -- both amounts are positive, so a sum that is not negative has not overflowed
      rw [foldl_offered hnodup, hoff] at hsum
      obtain ⟨hsum, hmax⟩ := not_or.mp ((not_and.mp hsum) hquantity)
      rw [add_lt_zero_iff (by omega)] at hsum
      have hu := (hfits u (stack_eq_some hoff).1).1
      rw [gt_iff_lt, Int32.lt_iff_toInt_lt] at hmax
      dsimp only at hmax hsum ⊢
      rw [toInt_add_of_lt (by omega) (by omega)] at hmax ⊢
      omega

end Inventory

theorem tradeLocal_offerFits (rules : ItemRules) : TradeLocal rules (OfferFits rules) where
  stopped := by
    intro b x _ hoffer
    refine ⟨fun _ => hoffer, ?_⟩
    rw [hoffer]
    exact ⟨List.nodup_nil, fun _ ht => nomatch ht⟩
  frame := by
    intro b x x' htrading _ hoffer _ h
    rw [OfferFits, htrading, hoffer]
    exact h
  disagree := fun _ _ h => h
  opened := by
    intro b x p _ h
    exact ⟨fun hidle => absurd hidle Bool.true_eq_false_eq_False, h.2⟩
  added := by
    intro b x item amount offer pushed htrading h hadd
    refine ⟨?_, Inventory.addTradeItem_fits h.2.1 h.2.2 hadd⟩
    intro hidle
    exact absurd (htrading.symm.trans hidle) Bool.true_eq_false_eq_False
  removed := by
    intro b x item offer h hdel
    have hsub := Inventory.delTradeItem_sublist hdel
    refine ⟨?_, h.2.1.sublist (hsub.map _), fun t ht => h.2.2 t (hsub.subset ht)⟩
    intro hidle
    rw [h.1 hidle] at hdel
    cases hdel

namespace PlayWorld

variable {config : PlayConfig} {w w' : PlayWorld} {c : Addr} {rest : Addr → CharacterRest}
  {s : PlayStep}

theorem smallOffers_step (h : w.trade.SmallOffers) (hw : w.step config s = some w') :
    w'.trade.SmallOffers := by
  rcases step_cases hw with ⟨t, rfl, htrade⟩ | ⟨c, p, q, p', hp, -, hsame, hp', hw'⟩
  · exact h.step t htrade
  intro b x hx
  rw [hw'] at hx
  by_cases hbc : b = c
  · subst hbc
    have hold := h b p.toCharacter (player_eq_some hp)
    rw [put, World.modify_self, player_eq_some hp, Option.map_some, Option.some.injEq] at hx
    rw [← hx, hp', hsame]
    exact hold
  · rw [put, World.modify_of_ne _ hbc] at hx
    exact h b x hx

theorem sound_offerFits_step (h : w.trade.Sound ∅ ∅ (OfferFits config.items))
    (hw : w.step config s = some w') : w'.trade.Sound ∅ ∅ (OfferFits config.items) := by
  apply sound_step h (tradeLocal_offerFits config.items) (fun _ _ _ hb => hb) _ hw
  intro c p q _ _ hsame hp
  rw [hsame]
  exact hp

/-- Whoever trades has a partner who is online and trades with them, and what they offer are
at most ten different items in amounts from 1 to `MaxTrade`; nobody else offers anything. -/
theorem trading_paired (steps : List PlayStep)
    (hreach : RunSteps.Reaches (step config) (empty rest) steps w) {x : Character}
    (hx : w.trade.characters c = some x) :
    (x.trading = true → (∃ p y, x.tradePartner = some p ∧ p ≠ c ∧
        w.trade.characters p = some y ∧ y.online = true ∧ y.trading = true ∧
        y.tradePartner = some c) ∧
      x.tradeInventory.length ≤ 10 ∧ (x.tradeInventory.map (·.id)).Nodup ∧
      ∀ t ∈ x.tradeInventory,
        1 ≤ t.amount.toInt ∧ t.amount.toInt ≤ config.items.maxTrade.toInt) ∧
    (x.trading = false → x.tradeInventory = []) := by
  have hinv : w.trade.Sound ∅ ∅ (OfferFits config.items) ∧ w.trade.SmallOffers := by
    apply RunSteps.invariant_of_every (Q := fun _ _ => True)
      (fun w => w.trade.Sound ∅ ∅ (OfferFits config.items) ∧ w.trade.SmallOffers) _ _
      (RunSteps.every_of_forall (fun _ _ => trivial) _ steps) hreach
    · intro w s w' h _ hw
      exact ⟨sound_offerFits_step h.1 hw, smallOffers_step h.2 hw⟩
    · exact ⟨World.sound_empty, fun _ _ hx => nomatch hx⟩
  obtain ⟨hsound, hsmall⟩ := hinv
  obtain ⟨hidle, hids, hamounts⟩ := hsound.each c x (Set.notMem_empty c) hx
  refine ⟨?_, hidle⟩
  intro htrading
  obtain ⟨p, y, hp, -, hy, hytrading, hyc⟩ := hsound.paired c x (Set.notMem_empty c) hx htrading
  have hpc : p ≠ c := by
    rintro rfl
    exact hsound.noSelf p x hx hp
  exact ⟨⟨p, y, hp, hpc, hy, (hsmall p y hy).1, hytrading, hyc⟩, (hsmall c x hx).2, hids, hamounts⟩

/-- One of two traders dies, and still trades. -/
def deathInTrade : List PlayStep := oneOffer.map .trade ++ [.death 2 1]

theorem trading_paired_deathInTrade :
    ∃ w x, RunSteps.Reaches (step fair) (empty atLawyer) deathInTrade w ∧
      w.trade.characters 2 = some x ∧ x.trading = true ∧
      (∃ p y, x.tradePartner = some p ∧ p ≠ 2 ∧ w.trade.characters p = some y ∧
        y.online = true ∧ y.trading = true ∧ y.tradePartner = some 2) ∧
      x.tradeInventory.length ≤ 10 := by
  have hview : (RunSteps.run (step fair) (empty atLawyer) deathInTrade).map
      (fun w => w.trade.characters 2) =
      some (some { visitor 2 [] with
        trading := true, tradePartner := some 1, tradeInventory := [⟨1, 5⟩] }) := by
    decide
  obtain ⟨w, hw, hx⟩ := Option.map_eq_some_iff.mp hview
  have hreach := RunSteps.reaches_of_run hw
  have hpaired := (trading_paired deathInTrade hreach hx).1 rfl
  exact ⟨w, _, hreach, hx, rfl, hpaired.1, hpaired.2.1⟩

end PlayWorld

end ArenaServ
