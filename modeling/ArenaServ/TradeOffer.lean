import ArenaServ.Inventory

/-!
# Trade offers and their exchange

An offer is a list of items with pairwise different ids, each covered by the first
stack of that item in the inventory. The completion of a trade moves every offered item
with `DelItem` and `AddItem`, whose results nobody looks at.
-/

namespace ArenaServ.Inventory

/-- `HasItem`. -/
def hasItem (inventory : List CharacterItem) (trading : Bool) (offer : List CharacterItem)
    (item : Int16) (includeTrade : Bool) : Int32 :=
  match stack inventory item with
  | some it =>
      if trading ∧ ¬ includeTrade then
        match stack offer item with
        | some t => max (it.amount - t.amount) 0
        | none => it.amount
      else it.amount
  | none => 0

/-- The last loop of `AddTradeItem`, and whether it gets to `push_back`. -/
def offerStack (addQuantity : Bool) (item : Int16) (amount : Int32) :
    List CharacterItem → List CharacterItem × Bool
  | [] => ([⟨item, amount⟩], true)
  | t :: rest =>
      if t.id = item then
        ({ t with amount := if addQuantity then t.amount + amount else amount } :: rest, false)
      else
        let (rest, pushed) := offerStack addQuantity item amount rest
        (t :: rest, pushed)

/-- `AddTradeItem`; `none` when it returns false. -/
def addTradeItem (rules : ItemRules) (inventory : List CharacterItem) (trading : Bool)
    (offer : List CharacterItem) (item : Int16) (amount : Int32) :
    Option (List CharacterItem × Bool) :=
  if ¬ rules.ValidId item then none
  else
    let amount := min amount (hasItem inventory trading offer item !rules.tradeAddQuantity)
    let tradeitem := offer.foldl (fun n t => if t.id = item then t.amount else n) 0
    if amount ≤ 0 ∨ amount > rules.maxTrade then none
    else if rules.tradeAddQuantity ∧
        (tradeitem + amount < 0 ∨ tradeitem + amount > rules.maxTrade) then none
    else some (offerStack rules.tradeAddQuantity item amount offer)

/-- `DelTradeItem`; `none` when it returns false. -/
def delTradeItem (offer : List CharacterItem) (item : Int16) : Option (List CharacterItem) :=
  if offer.any (·.id = item) then some (offer.eraseP (·.id = item)) else none

/-- An item that `AddTradeItem` accepted. -/
structure BackedItem (rules : ItemRules) (inventory : List CharacterItem) (t : CharacterItem) :
    Prop where
  valid : rules.ValidId t.id
  pos : 0 < t.amount
  covers : Covers (held inventory t.id) t.amount

structure Backed (rules : ItemRules) (inventory offer : List CharacterItem) : Prop where
  distinct : (offer.map (·.id)).Nodup
  backed : ∀ t ∈ offer, BackedItem rules inventory t

variable {rules : ItemRules} {inventory inventory' offer offer' : List CharacterItem} {item : Int16}
  {amount : Int32}

theorem backed_nil : Backed rules inventory [] := ⟨List.nodup_nil, by simp⟩

theorem stack_cons (t : CharacterItem) (rest : List CharacterItem) (item : Int16) :
    stack (t :: rest) item = if t.id = item then some t else stack rest item := by
  rw [stack, List.find?_cons]
  by_cases h : t.id = item
  · simp [h]
  · simp [h, stack]

theorem stack_eq_some {t : CharacterItem} (h : stack offer item = some t) :
    t ∈ offer ∧ t.id = item :=
  ⟨List.mem_of_find?_eq_some h, by simpa using List.find?_some h⟩

theorem covers_of_stack {it : CharacterItem} (h : stack inventory item = some it)
    (hle : amount ≤ it.amount) : Covers (held inventory item) amount :=
  ⟨it.amount, by rw [head?_held, h]; rfl, hle⟩

theorem stack_of_covers (h : Covers (held inventory item) amount) :
    ∃ it, stack inventory item = some it ∧ amount ≤ it.amount := by
  obtain ⟨x, hx, hle⟩ := h
  rw [head?_held, Option.mem_def, Option.map_eq_some_iff] at hx
  obtain ⟨it, hit, rfl⟩ := hx
  exact ⟨it, hit, hle⟩

/-- The amount offered of an item after adding `amount` of it. -/
def newAmount (addQuantity : Bool) (offer : List CharacterItem) (item : Int16) (amount : Int32) :
    Int32 :=
  match stack offer item with
  | some u => if addQuantity then u.amount + amount else amount
  | none => amount

/-- The ids stay different, and only the item added to can be new. -/
theorem offerStack_spec (addQuantity : Bool) (item : Int16) (amount : Int32)
    (offer : List CharacterItem) (hnodup : (offer.map (·.id)).Nodup) :
    ((offerStack addQuantity item amount offer).1.map (·.id)).Nodup ∧
      ∀ t ∈ (offerStack addQuantity item amount offer).1,
        t ∈ offer ∨ t = ⟨item, newAmount addQuantity offer item amount⟩ := by
  induction offer with
  | nil => simp [offerStack, newAmount, stack]
  | cons u rest ih =>
      rw [List.map_cons, List.nodup_cons] at hnodup
      rw [offerStack, newAmount, stack_cons]
      by_cases hu : u.id = item
      · simp only [hu, ↓reduceIte]
        refine ⟨?_, ?_⟩
        · simpa [hu] using hnodup
        · intro t ht
          rcases List.mem_cons.mp ht with rfl | hrest
          · exact Or.inr (by rw [← hu])
          · exact Or.inl (List.mem_cons_of_mem _ hrest)
      · obtain ⟨hids, hnew⟩ := ih hnodup.2
        simp only [hu, ↓reduceIte]
        refine ⟨?_, ?_⟩
        · rw [List.map_cons, List.nodup_cons]
          refine ⟨?_, hids⟩
          intro hmem
          obtain ⟨t, ht, heq⟩ := List.mem_map.mp hmem
          rcases hnew t ht with hold | rfl
          · exact hnodup.1 (List.mem_map.mpr ⟨t, hold, heq⟩)
          · exact hu heq.symm
        · intro t ht
          rcases List.mem_cons.mp ht with rfl | hrest
          · exact Or.inl List.mem_cons_self
          · rcases hnew t hrest with hold | heq
            · exact Or.inl (List.mem_cons_of_mem _ hold)
            · exact Or.inr heq

/-- What is not yet offered of a stack that covers the offer. -/
theorem toInt_max_sub {x y : Int32} (hy : 0 < y.toInt) (hle : y.toInt ≤ x.toInt) :
    (max (x - y) 0).toInt = x.toInt - y.toInt := by
  have hx := x.toInt_lt
  have hsub : (x - y).toInt = x.toInt - y.toInt := toInt_sub_of_le (by omega) (by omega)
  rw [show max (x - y) 0 = if x - y ≤ 0 then 0 else x - y from rfl]
  split_ifs with h
  · rw [Int32.le_iff_toInt_le, hsub, Int32.toInt_zero] at h
    rw [Int32.toInt_zero]
    omega
  · exact hsub

/-- Counted either way, the new amount is at most the stack in the inventory. -/
theorem Backed.newAmount_le (h : Backed rules inventory offer) {it : CharacterItem}
    (hit : stack inventory item = some it) (addQuantity : Bool) (hpos : 0 < amount.toInt)
    (hhas : amount.toInt ≤ (hasItem inventory true offer item !addQuantity).toInt) :
    0 < (newAmount addQuantity offer item amount).toInt ∧
      (newAmount addQuantity offer item amount).toInt ≤ it.amount.toInt := by
  rw [hasItem, hit] at hhas
  rw [newAmount]
  cases addQuantity with
  | false =>
      have hle : amount.toInt ≤ it.amount.toInt := by simpa using hhas
      cases stack offer item with
      | none => exact ⟨hpos, hle⟩
      | some u => exact ⟨hpos, hle⟩
  | true =>
      cases hoff : stack offer item with
      | none =>
          have hle : amount.toInt ≤ it.amount.toInt := by simpa [hoff] using hhas
          exact ⟨hpos, hle⟩
      | some u =>
          obtain ⟨hu, hid⟩ := stack_eq_some hoff
          have hback := h.backed u hu
          obtain ⟨it', hit', hle⟩ := stack_of_covers hback.covers
          rw [hid, hit, Option.some.injEq] at hit'
          subst hit'
          have hupos := hback.pos
          rw [Int32.lt_iff_toInt_lt, Int32.toInt_zero] at hupos
          rw [Int32.le_iff_toInt_le] at hle
          have hfree : amount.toInt ≤ (max (it.amount - u.amount) 0).toInt := by
            simpa [hoff] using hhas
          rw [toInt_max_sub hupos hle] at hfree
          have hit32 := it.amount.toInt_lt
          simp only [↓reduceIte]
          rw [toInt_add_of_lt (by omega) (by omega)]
          omega

/-- What `AddTradeItem` adds, and what it has checked by then. -/
theorem addTradeItem_eq_some {trading pushed : Bool}
    (hadd : addTradeItem rules inventory trading offer item amount = some (offer', pushed)) :
    rules.ValidId item ∧ ∃ n : Int32,
      n = min amount (hasItem inventory trading offer item !rules.tradeAddQuantity) ∧
      ¬ (n ≤ 0 ∨ n > rules.maxTrade) ∧
      ¬ (rules.tradeAddQuantity ∧
        (offer.foldl (fun m t => if t.id = item then t.amount else m) 0 + n < 0 ∨
          offer.foldl (fun m t => if t.id = item then t.amount else m) 0 + n > rules.maxTrade)) ∧
      offerStack rules.tradeAddQuantity item n offer = (offer', pushed) := by
  rw [addTradeItem] at hadd
  by_cases hvalid : rules.ValidId item
  swap
  · rw [if_pos hvalid] at hadd
    cases hadd
  rw [if_neg (not_not.mpr hvalid)] at hadd
  dsimp only at hadd
  split_ifs at hadd with hrange hsum
  rw [Option.some.injEq] at hadd
  exact ⟨hvalid, _, rfl, hrange, hsum, hadd⟩

/-- Adding to an offer keeps it backed. -/
theorem Backed.addTradeItem (h : Backed rules inventory offer) {pushed : Bool}
    (hadd : addTradeItem rules inventory true offer item amount = some (offer', pushed)) :
    Backed rules inventory offer' := by
  obtain ⟨hvalid, n, hn, hrange, -, hstack⟩ := addTradeItem_eq_some hadd
  have hpos : 0 < n.toInt := by
    have := (not_or.mp hrange).1
    rw [Int32.le_iff_toInt_le, Int32.toInt_zero] at this
    omega
  have hhas : n.toInt ≤ (hasItem inventory true offer item !rules.tradeAddQuantity).toInt := by
    rw [hn, toInt_min]
    exact Int.min_le_right _ _
  obtain ⟨it, hit⟩ : ∃ it, stack inventory item = some it := by
    cases hstack : stack inventory item with
    | some it => exact ⟨it, rfl⟩
    | none =>
        rw [hasItem, hstack, Int32.toInt_zero] at hhas
        omega
  obtain ⟨hids, hnew⟩ := offerStack_spec rules.tradeAddQuantity item n offer h.distinct
  rw [hstack] at hids hnew
  refine ⟨hids, ?_⟩
  intro t ht
  rcases hnew t ht with hold | rfl
  · exact h.backed t hold
  · obtain ⟨hmpos, hmle⟩ := h.newAmount_le hit rules.tradeAddQuantity hpos hhas
    refine ⟨hvalid, ?_, covers_of_stack hit ?_⟩
    · rw [Int32.lt_iff_toInt_lt, Int32.toInt_zero]
      exact hmpos
    · rw [Int32.le_iff_toInt_le]
      exact hmle

theorem delTradeItem_sublist (hdel : delTradeItem offer item = some offer') :
    offer'.Sublist offer := by
  rw [delTradeItem] at hdel
  split_ifs at hdel
  rw [Option.some.injEq] at hdel
  rw [← hdel]
  exact List.eraseP_sublist

theorem Backed.delTradeItem (h : Backed rules inventory offer)
    (hdel : delTradeItem offer item = some offer') : Backed rules inventory offer' := by
  have hsub := delTradeItem_sublist hdel
  exact ⟨h.distinct.sublist (hsub.map _), fun t ht => h.backed t (hsub.subset ht)⟩

/-! ## Exchanging two offers -/

/-- `DelItem` of every item of an offer. -/
def giveAll (inventory offer : List CharacterItem) : List CharacterItem :=
  offer.foldl (fun inv t => (delItem inv t.id t.amount).getD inv) inventory

/-- `AddItem` of every item of an offer. -/
def takeAll (rules : ItemRules) (inventory offer : List CharacterItem) : List CharacterItem :=
  offer.foldl (fun inv t => (addItem rules inv t.id t.amount).getD inv) inventory

theorem stack_of_mem {t : CharacterItem} (hnodup : (offer.map (·.id)).Nodup) (ht : t ∈ offer) :
    stack offer t.id = some t := by
  induction offer with
  | nil => cases ht
  | cons u rest ih =>
      rw [List.map_cons, List.nodup_cons] at hnodup
      rw [stack_cons]
      rcases List.mem_cons.mp ht with rfl | hrest
      · exact if_pos rfl
      · have hne : u.id ≠ t.id := by
          intro heq
          exact hnodup.1 (List.mem_map.mpr ⟨t, hrest, heq.symm⟩)
        rw [if_neg hne]
        exact ih hnodup.2 hrest

/-- An operation for every item of an offer changes each item once. -/
theorem held_foldl (op : List CharacterItem → CharacterItem → List CharacterItem)
    (opHeld : Int32 → List Int32 → List Int32)
    (hsame : ∀ t ∈ offer, ∀ inv, held (op inv t) t.id = opHeld t.amount (held inv t.id))
    (hother : ∀ t ∈ offer, ∀ inv k, t.id ≠ k → held (op inv t) k = held inv k)
    (hnodup : (offer.map (·.id)).Nodup) (inv : List CharacterItem) (item : Int16) :
    held (offer.foldl op inv) item =
      match stack offer item with
      | some t => opHeld t.amount (held inv item)
      | none => held inv item := by
  induction offer generalizing inv with
  | nil => rfl
  | cons t rest ih =>
      rw [List.map_cons, List.nodup_cons] at hnodup
      have hrest := ih (fun u hu => hsame u (List.mem_cons_of_mem _ hu))
        (fun u hu => hother u (List.mem_cons_of_mem _ hu)) hnodup.2 (op inv t)
      rw [List.foldl_cons, hrest, stack_cons]
      by_cases ht : t.id = item
      · have hnone : stack rest item = none := by
          rw [stack, List.find?_eq_none]
          intro u hu heq
          refine hnodup.1 (List.mem_map.mpr ⟨u, hu, ?_⟩)
          rw [ht]
          exact of_decide_eq_true heq
        rw [hnone, if_pos ht, ← ht]
        exact hsame t List.mem_cons_self inv
      · rw [if_neg ht, hother t List.mem_cons_self inv item ht]

theorem held_giveAll (h : Backed rules inventory' offer) (inv : List CharacterItem)
    (item : Int16) :
    held (giveAll inv offer) item =
      match stack offer item with
      | some t => delHeld t.amount (held inv item)
      | none => held inv item := by
  have hdel : ∀ t ∈ offer, ∀ inv, delItem inv t.id t.amount = delStack t.id t.amount inv := by
    intro t ht inv
    rw [delItem, if_neg]
    have := (h.backed t ht).pos
    rw [Int32.lt_iff_toInt_lt] at this
    rw [Int32.le_iff_toInt_le]
    omega
  refine held_foldl _ delHeld ?_ ?_ h.distinct inv item
  · intro t ht inv
    rw [hdel t ht, held_delStack]
  · intro t ht inv k hk
    rw [hdel t ht, held_delStack_of_ne hk]

theorem held_takeAll (h : Backed rules inventory' offer) (inv : List CharacterItem)
    (item : Int16) :
    held (takeAll rules inv offer) item =
      match stack offer item with
      | some t => addHeld rules.maxItem t.amount (held inv item)
      | none => held inv item := by
  have hadd : ∀ t ∈ offer, ∀ inv,
      addItem rules inv t.id t.amount = addStack rules.maxItem t.id t.amount inv := by
    intro t ht inv
    have hvalid := (h.backed t ht).valid
    rw [addItem, if_neg, if_neg (not_not.mpr hvalid)]
    have := (h.backed t ht).pos
    rw [Int32.lt_iff_toInt_lt] at this
    rw [Int32.le_iff_toInt_le]
    omega
  refine held_foldl _ (addHeld rules.maxItem) ?_ ?_ h.distinct inv item
  · intro t ht inv
    rw [hadd t ht, held_addStack]
  · intro t ht inv k hk
    rw [hadd t ht, held_addStack_of_ne _ hk]

/-- The receiving inventory has room for an offered item: the stack it goes to, if there
is one, neither overflows nor passes `MaxItem`. -/
def FitsIn (rules : ItemRules) (inv : List CharacterItem) (t : CharacterItem) : Prop :=
  ∀ it, stack inv t.id = some it → 0 ≤ it.amount.toInt + t.amount.toInt ∧
    it.amount.toInt + t.amount.toInt ≤ rules.maxItem.toInt

instance (rules : ItemRules) (inv : List CharacterItem) (t : CharacterItem) :
    Decidable (FitsIn rules inv t) :=
  inferInstanceAs (Decidable (∀ it ∈ stack inv t.id, 0 ≤ it.amount.toInt + t.amount.toInt ∧
    it.amount.toInt + t.amount.toInt ≤ rules.maxItem.toInt))

theorem fitsIn_iff (inv : List CharacterItem) (t : CharacterItem) :
    FitsIn rules inv t ↔ Fits rules.maxItem t.amount (held inv t.id) := by
  rw [FitsIn, Fits, head?_held]
  cases stack inv t.id <;> simp

theorem forall_offered_iff (hnodup : (offer.map (·.id)).Nodup) (P : CharacterItem → Prop) :
    (∀ t ∈ offer, t.id = item → P t) ↔ ∀ t, stack offer item = some t → P t := by
  constructor
  · intro h t ht
    obtain ⟨hmem, hid⟩ := stack_eq_some ht
    exact h t hmem hid
  · rintro h t ht rfl
    exact h t (stack_of_mem hnodup ht)

/-- One item, offered by both sides: nothing is gained, and what the first stacks lose is
never made up. -/
theorem sum_exchange_both (maxItem : Int32) {a b : Int32} (ha : 0 < a.toInt) (hb : 0 < b.toInt)
    {taker giver : List Int32} (hcov : Covers giver a) (hcov' : Covers taker b) :
    sum (delHeld b (addHeld maxItem a taker)) + sum (addHeld maxItem b (delHeld a giver)) ≤
        sum taker + sum giver ∧
      (sum (delHeld b (addHeld maxItem a taker)) + sum (addHeld maxItem b (delHeld a giver)) =
          sum taker + sum giver ↔
        Fits maxItem a taker ∧ Fits maxItem b (delHeld a giver)) := by
  cases taker with
  | nil => simp [Covers] at hcov'
  | cons x xs =>
      have hbx : b.toInt ≤ x.toInt := by
        rw [← Int32.le_iff_toInt_le]
        simpa [Covers] using hcov'
      obtain ⟨x', hadd, hle, hfits⟩ := addHeld_cons maxItem ha x xs
      obtain ⟨hgain, hall⟩ := sum_addHeld maxItem hb (delHeld a giver)
      have hgive := sum_delHeld ha hcov
      rw [hadd, sum_delHeld_cons hb, sum_cons, ← hfits, ← hall]
      omega

/-- What the exchange of two backed offers does to an item: there is never more of it, and
as much exactly when what is offered of it has room on the other side. -/
theorem total_exchange {invC offC invP offP : List CharacterItem}
    (hc : Backed rules invC offC) (hp : Backed rules invP offP) (item : Int16) :
    total (giveAll (takeAll rules invC offP) offC) item +
        total (takeAll rules (giveAll invP offP) offC) item ≤
          total invC item + total invP item ∧
      (total (giveAll (takeAll rules invC offP) offC) item +
          total (takeAll rules (giveAll invP offP) offC) item =
            total invC item + total invP item ↔
        (∀ t ∈ offP, t.id = item → FitsIn rules invC t) ∧
          ∀ t ∈ offC, t.id = item → FitsIn rules (giveAll invP offP) t) := by
  rw [forall_offered_iff hp.distinct, forall_offered_iff hc.distinct]
  simp only [total, held_giveAll hc, held_takeAll hc, held_takeAll hp, fitsIn_iff]
  have hfacts : ∀ {inv off : List CharacterItem}, Backed rules inv off → ∀ t,
      stack off item = some t →
      t.id = item ∧ 0 < t.amount.toInt ∧ Covers (held inv item) t.amount := by
    intro inv off hback t ht
    obtain ⟨hmem, hid⟩ := stack_eq_some ht
    have hitem := hback.backed t hmem
    have hpos := hitem.pos
    rw [Int32.lt_iff_toInt_lt, Int32.toInt_zero] at hpos
    exact ⟨hid, hpos, hid ▸ hitem.covers⟩
  cases hoffP : stack offP item with
  | none =>
      cases hoffC : stack offC item with
      | none => simp [held_giveAll hp, hoffP]
      | some b =>
          obtain ⟨hid, hpos, hcov⟩ := hfacts hc b hoffC
          have hgive := sum_delHeld hpos hcov
          obtain ⟨hgain, hall⟩ := sum_addHeld rules.maxItem hpos (held invP item)
          simp only [held_giveAll hp, hid, hoffP, Option.some.injEq, forall_eq', reduceCtorEq,
            IsEmpty.forall_iff, implies_true, true_and]
          rw [← hall]
          omega
  | some a =>
      obtain ⟨hid, hpos, hcov⟩ := hfacts hp a hoffP
      cases hoffC : stack offC item with
      | none =>
          have hgive := sum_delHeld hpos hcov
          obtain ⟨hgain, hall⟩ := sum_addHeld rules.maxItem hpos (held invC item)
          simp only [held_giveAll hp, hid, hoffP, Option.some.injEq, forall_eq', reduceCtorEq,
            IsEmpty.forall_iff, implies_true, and_true]
          rw [← hall]
          omega
      | some b =>
          obtain ⟨hid', hpos', hcov'⟩ := hfacts hc b hoffC
          simp only [held_giveAll hp, hid, hid', hoffP, Option.some.injEq, forall_eq']
          exact sum_exchange_both rules.maxItem hpos hpos' hcov hcov'

end ArenaServ.Inventory
