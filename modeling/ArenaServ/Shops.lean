import ArenaServ.ItemChanges

/-!
# Shops

A shop takes amounts of items from a character and gives it an amount of another one. The checks of
`Shop_Create`, `Shop_Buy` and `Shop_Sell` are about what the character has before; the amounts go
out through `DelItem`, one by one, and the other one comes in through `AddItem`, which keeps a stack
within `MaxItem`.
-/

namespace ArenaServ

namespace Inventory

/-! ## Several amounts of one item -/

/-- What `DelItem` does to the stacks of its item. -/
def takeHeld (piles : List Int32) (amount : Int32) : List Int32 :=
  if amount ≤ 0 then piles else delHeld amount piles

/-- Each of the amounts is in the first stack when it is its turn. -/
def Yields : List Int32 → List Int32 → Prop
  | _, [] => True
  | piles, amount :: rest =>
      (0 < amount → Covers piles amount) ∧ Yields (takeHeld piles amount) rest

variable {piles amounts : List Int32} {amount : Int32}

/-- No more than the amount is taken, and all of it if the first stack has it. -/
theorem sum_takeHeld (hamount : 0 ≤ amount) (piles : List Int32) :
    sum piles - amount.toInt ≤ sum (takeHeld piles amount) ∧
      (sum (takeHeld piles amount) = sum piles - amount.toInt ↔
        (0 < amount → Covers piles amount)) := by
  rw [Int32.le_iff_toInt_le, Int32.toInt_zero] at hamount
  unfold takeHeld
  by_cases hzero : amount ≤ 0
  · have hnot : ¬ 0 < amount := by
      rw [Int32.le_iff_toInt_le, Int32.toInt_zero] at hzero
      rw [Int32.lt_iff_toInt_lt, Int32.toInt_zero]
      omega
    rw [Int32.le_iff_toInt_le, Int32.toInt_zero] at hzero
    rw [if_pos (by rw [Int32.le_iff_toInt_le, Int32.toInt_zero]; exact hzero)]
    refine ⟨by omega, ?_⟩
    exact iff_of_true (by omega) (fun h => absurd h hnot)
  · have hpos : 0 < amount := by
      rw [Int32.le_iff_toInt_le, Int32.toInt_zero] at hzero
      rw [Int32.lt_iff_toInt_lt, Int32.toInt_zero]
      omega
    have hpos' : 0 < amount.toInt := by
      rwa [Int32.lt_iff_toInt_lt, Int32.toInt_zero] at hpos
    rw [if_neg hzero, imp_iff_right hpos]
    cases piles with
    | nil =>
        refine ⟨?_, ?_⟩
        · change (0 : ℤ) - _ ≤ 0
          omega
        · refine iff_of_false ?_ (fun ⟨x, hx, _⟩ => by cases hx)
          change ¬ (0 : ℤ) = 0 - _
          omega
    | cons x xs =>
        have hcovers : Covers (x :: xs) amount ↔ amount.toInt ≤ x.toInt := by
          rw [← Int32.le_iff_toInt_le]
          simp [Covers]
        rw [hcovers, sum_delHeld_cons hpos', sum_cons]
        omega

theorem sum_foldl_takeHeld (hamounts : ∀ amount ∈ amounts, 0 ≤ amount) (piles : List Int32) :
    sum piles - sum amounts ≤ sum (amounts.foldl takeHeld piles) ∧
      (sum (amounts.foldl takeHeld piles) = sum piles - sum amounts ↔
        Yields piles amounts) := by
  induction amounts generalizing piles with
  | nil =>
      have hnone : sum ([] : List Int32) = 0 := rfl
      rw [List.foldl_nil, hnone, sub_zero]
      exact ⟨le_rfl, iff_of_true rfl trivial⟩
  | cons amount rest ih =>
      obtain ⟨hle, hiff⟩ := sum_takeHeld (hamounts amount List.mem_cons_self) piles
      obtain ⟨hle', hiff'⟩ := ih (fun a ha => hamounts a (List.mem_cons_of_mem _ ha))
        (takeHeld piles amount)
      rw [List.foldl_cons, sum_cons, Yields, ← hiff, ← hiff']
      omega

theorem held_delItem (inventory : List CharacterItem) (item : Int16) (amount : Int32)
    (other : Int16) : held ((delItem inventory item amount).getD inventory) other =
      if item = other then takeHeld (held inventory other) amount else held inventory other := by
  unfold delItem takeHeld
  by_cases hzero : amount ≤ 0
  · rw [if_pos hzero, if_pos hzero, Option.getD_none, ite_self]
  · rw [if_neg hzero, if_neg hzero]
    by_cases hother : item = other
    · rw [if_pos hother, ← hother, held_delStack]
    · rw [if_neg hother, held_delStack_of_ne hother]

end Inventory

open Inventory

namespace PlayingCharacter

variable {p : PlayingCharacter} {price : Int32}

theorem covers_iff_le_hasItem (hprice : 0 < price) (item : Int16) :
    Covers (held p.inventory item) price ↔ price ≤ p.hasItem item true := by
  unfold Covers hasItem Inventory.hasItem
  rw [head?_held]
  cases stack p.inventory item with
  | none =>
      refine iff_of_false (fun ⟨x, hx, _⟩ => by cases hx) ?_
      exact Int32.not_le.mpr hprice
  | some it =>
      dsimp only [Option.map_some]
      rw [if_neg (fun h => h.2 rfl)]
      constructor
      · rintro ⟨x, hx, hle⟩
        rwa [Option.some.inj hx]
      · exact fun hle => ⟨it.amount, rfl, hle⟩

/-- What is deleted is the price if and only if the first stack has it. -/
theorem total_delItem_iff (config : CarryConfig) (price : Int32) (item : Int16) :
    (p.delItem config item price).total item = p.total item - price.toInt ↔
      0 ≤ price ∧ (0 < price → price ≤ p.hasItem item true) := by
  have hheld := held_delItem p.inventory item price item
  rw [if_pos rfl, ← @delItem_inventory config] at hheld
  unfold total Inventory.total
  rw [hheld]
  by_cases hnonneg : 0 ≤ price
  · rw [(sum_takeHeld hnonneg _).2, and_iff_right hnonneg]
    exact forall_congr' fun hpos => covers_iff_le_hasItem hpos item
  · have hnegative : price ≤ 0 := (Int32.le_total 0 price).resolve_left hnonneg
    refine iff_of_false ?_ (fun h => hnonneg h.1)
    rw [Int32.le_iff_toInt_le, Int32.toInt_zero] at hnonneg
    unfold takeHeld
    rw [if_pos hnegative]
    omega

end PlayingCharacter

/-- What is paid for a deal, and what one gets for it. -/
structure Deal where
  paid : List (Int16 × Int32)
  item : Int16
  amount : Int32
  deriving DecidableEq, Repr

namespace Deal

variable (config : CarryConfig)

/-- How much of one item is listed in what is paid. -/
def listed (d : Deal) (item : Int16) : List Int32 :=
  (d.paid.filter (·.1 = item)).map (·.2)

def pay (p : PlayingCharacter) (d : Deal) : PlayingCharacter :=
  d.paid.foldl (fun p i => p.delItem config i.1 i.2) p

def close (p : PlayingCharacter) (d : Deal) : PlayingCharacter :=
  (d.pay config p).addItem config d.item d.amount

/-- All that is listed goes, and then all that one gets comes. It may be the same item. -/
structure Exact (p : PlayingCharacter) (d : Deal) (q : PlayingCharacter) : Prop where
  paid : ∀ item, (d.pay config p).total item = p.total item - sum (d.listed item)
  got : ∀ item, q.total item =
    (d.pay config p).total item + if item = d.item then d.amount.toInt else 0

/-- The stacks of an item that are left when all is paid. -/
def stacksLeft (p : PlayingCharacter) (d : Deal) (item : Int16) : List Int32 :=
  (d.listed item).foldl takeHeld (held p.inventory item)

/-- What is held of each item can be paid with, and there is room for what one gets. -/
structure Fits (p : PlayingCharacter) (d : Deal) : Prop where
  yields : ∀ item, Yields (held p.inventory item) (d.listed item)
  valid : config.items.ValidId d.item
  room : Inventory.Fits config.items.maxItem d.amount (d.stacksLeft p d.item)

/-- The stacks of an item after the deal. -/
def stacksAfter (p : PlayingCharacter) (d : Deal) (item : Int16) : List Int32 :=
  if item = d.item then addHeld config.items.maxItem d.amount (d.stacksLeft p item)
  else d.stacksLeft p item

variable {config} {p : PlayingCharacter} {d : Deal} {item : Int16}

theorem held_pay (d : Deal) (p : PlayingCharacter) (item : Int16) :
    held (d.pay config p).inventory item = d.stacksLeft p item := by
  unfold pay stacksLeft listed
  induction d.paid generalizing p with
  | nil => rfl
  | cons i rest ih =>
      rw [List.foldl_cons, ih, PlayingCharacter.delItem_inventory, held_delItem, List.filter_cons]
      by_cases hitem : i.1 = item
      · rw [if_pos hitem, if_pos (decide_eq_true hitem), List.map_cons, List.foldl_cons]
      · rw [if_neg hitem, if_neg (fun h => hitem (of_decide_eq_true h))]

theorem held_close (hvalid : config.items.ValidId d.item) (hamount : 0 < d.amount.toInt)
    (p : PlayingCharacter) (item : Int16) :
    held (d.close config p).inventory item = d.stacksAfter config p item := by
  unfold close stacksAfter
  rw [PlayingCharacter.addItem_inventory, Inventory.addItem,
    if_neg (PlayingCharacter.not_le_zero hamount), if_neg (not_not.mpr hvalid)]
  by_cases hitem : item = d.item
  · rw [if_pos hitem, hitem, held_addStack, held_pay]
  · rw [if_neg hitem, held_addStack_of_ne _ (Ne.symm hitem), held_pay]

/-- A deal is exact if and only if each amount can be paid in its turn and there is room in the
end. -/
theorem exact_close_iff (hpaid : ∀ i ∈ d.paid, 0 ≤ i.2) (hamount : 0 < d.amount.toInt)
    (p : PlayingCharacter) : d.Exact config p (d.close config p) ↔ d.Fits config p := by
  have hlisted : ∀ item, ∀ amount ∈ d.listed item, 0 ≤ amount := by
    intro item amount hmem
    obtain ⟨i, hi, rfl⟩ := List.mem_map.mp hmem
    exact hpaid i (List.mem_of_mem_filter hi)
  have htotal : ∀ item, (d.pay config p).total item = sum (d.stacksLeft p item) := by
    intro item
    rw [PlayingCharacter.total, Inventory.total, held_pay]
  have hyields : ∀ item, (d.pay config p).total item = p.total item - sum (d.listed item) ↔
      Yields (held p.inventory item) (d.listed item) := by
    intro item
    rw [htotal]
    exact (sum_foldl_takeHeld (hlisted item) _).2
  have hroom : (d.close config p).total d.item = (d.pay config p).total d.item + d.amount.toInt ↔
      config.items.ValidId d.item ∧
        Inventory.Fits config.items.maxItem d.amount (d.stacksLeft p d.item) := by
    unfold close
    rw [PlayingCharacter.total_addItem_iff hamount, PlayingCharacter.HasRoom, fitsIn_iff, held_pay]
  constructor
  · rintro ⟨hexact, hgot⟩
    have hadded := hgot d.item
    rw [if_pos rfl, hroom] at hadded
    exact ⟨fun item => (hyields item).mp (hexact item), hadded.1, hadded.2⟩
  · intro h
    refine ⟨fun item => (hyields item).mpr (h.yields item), ?_⟩
    intro item
    by_cases hitem : item = d.item
    · rw [if_pos hitem, hitem]
      exact hroom.mpr ⟨h.valid, h.room⟩
    · rw [if_neg hitem, add_zero]
      exact PlayingCharacter.total_addItem_of_ne (Ne.symm hitem)

end Deal

/-! ## The handlers -/

/-- What a character asks a shop for. -/
inductive ShopRequest where
  | create (item : Int16)
  | buy (item : Int16) (amount : Int32)
  | sell (item : Int16) (amount : Int32)
  deriving DecidableEq, Repr

def ShopCraftItem.deal (recipe : ShopCraftItem) : Deal where
  paid := recipe.ingredients.map fun i => (i.1.toInt16, i.2.toUInt32.toInt32)
  item := recipe.id.toInt16
  amount := 1

namespace PlayingCharacter

variable (config : PlayConfig)

def hasAll (p : PlayingCharacter) (recipe : ShopCraftItem) : Bool :=
  recipe.ingredients.all fun i => i.2.toUInt32.toInt32 ≤ p.hasItem i.1.toInt16 false

/-- The loop of `Shop_Create`, which goes on when a recipe has been used. -/
def craftEach : List ShopCraftItem → PlayingCharacter → PlayingCharacter × List Deal
  | [], p => (p, [])
  | recipe :: rest, p =>
      if p.hasAll recipe then
        let made := craftEach rest (recipe.deal.close config.carry p)
        (made.1, recipe.deal :: made.2)
      else craftEach rest p

/-- The recipes for an item. -/
def recipes (p : PlayingCharacter) (item : Int16) : List ShopCraftItem :=
  p.npc.shopCraft.filter (·.id.toNat = item.toInt)

def buyDeal (p : PlayingCharacter) (item : Int16) (amount : Int32) : Option Deal :=
  if amount ≤ 0 ∨ config.maxShopBuy < amount ∨ p.maxweight ≤ p.weight ∨ p.npcType ≠ .shop then none
  else
    (p.npc.shopTrade.find? fun check => check.id.toNat = item.toInt && check.buy ≠ 0).bind
      fun check =>
        let cost64 := amount.toInt64 * check.buy.toInt64
        let cost := cost64.toInt32
        if cost64 < 0 ∨ config.items.maxItem.toInt64 < cost64 ∨ p.hasItem 1 false < cost then none
        else some ⟨[(1, cost)], item, amount⟩

def sellDeal (p : PlayingCharacter) (item : Int16) (amount : Int32) : Option Deal :=
  if amount ≤ 0 ∨ config.items.maxItem < amount ∨ p.npcType ≠ .shop then none
  else
    (p.npc.shopTrade.find? fun check => check.id.toNat = item.toInt && check.sell ≠ 0).bind
      fun check =>
        let owed64 := amount.toInt64 * check.sell.toInt64
        if owed64 < 0 ∨ (config.items.maxItem - p.hasItem 1 false).toInt64 < owed64 ∨
            p.hasItem item false < amount then none
        else some ⟨[(item, amount)], 1, owed64.toInt32⟩

/-- What a request leaves of a character, and the deals that have been made. -/
def shopping (p : PlayingCharacter) (request : ShopRequest) : PlayingCharacter × List Deal :=
  if p.trading then (p, [])
  else
    match request with
    | .create item => if p.npcType = .shop then craftEach config (p.recipes item) p else (p, [])
    | .buy item amount =>
        (p.buyDeal config item amount).elim (p, []) fun d => (d.close config.carry p, [d])
    | .sell item amount =>
        (p.sellDeal config item amount).elim (p, []) fun d => (d.close config.carry p, [d])

variable {config} {p q : PlayingCharacter} {item : Int16} {amount : Int32}
  {reader : PacketReader}

/-! ## What the handlers read -/

/-- The product of two `int`s is no overflow of 64 bits. -/
theorem toInt_mul64 (x y : Int32) : (x.toInt64 * y.toInt64).toInt = x.toInt * y.toInt := by
  have hx := x.le_toInt
  have hx' := x.toInt_lt
  have hy := y.le_toInt
  have hy' := y.toInt_lt
  have habs : (x.toInt * y.toInt).natAbs ≤ 2 ^ 31 * 2 ^ 31 := by
    rw [Int.natAbs_mul]
    exact Nat.mul_le_mul (by omega) (by omega)
  rw [Int64.toInt_mul, Int32.toInt_toInt64, Int32.toInt_toInt64]
  exact Int.bmod_eq_of_le (by omega) (by omega)

theorem craft_eq (p : PlayingCharacter) (recipe : ShopCraftItem) :
    p.craft config recipe =
      if p.hasAll recipe then recipe.deal.close config.carry p else p := by
  unfold Deal.close Deal.pay ShopCraftItem.deal
  rw [List.foldl_map]
  rfl

theorem fst_craftEach (recipes : List ShopCraftItem) (p : PlayingCharacter) :
    (craftEach config recipes p).1 = recipes.foldl (fun p recipe => p.craft config recipe) p := by
  induction recipes generalizing p with
  | nil => rfl
  | cons recipe rest ih =>
      rw [List.foldl_cons, ← ih, craft_eq, craftEach]
      by_cases hall : p.hasAll recipe = true
      · rw [if_pos hall, if_pos hall]
      · rw [if_neg hall, if_neg hall]

theorem shopCreate_eq (p : PlayingCharacter) (reader : PacketReader) :
    p.shopCreate config reader = if p.trading then some p
      else reader.getShort.map fun i =>
        (p.shopping config (.create (Int16.ofNat i.1))).1 := by
  unfold shopCreate shopping
  by_cases htrading : p.trading = true
  · rw [if_pos htrading, if_pos htrading]
    rfl
  · rw [if_neg htrading, if_neg htrading]
    cases reader.getShort with
    | none => rfl
    | some i =>
        dsimp only [Option.map_some]
        rw [if_neg htrading]
        change (if p.npcType ≠ .shop then some p else some _) = some _
        by_cases hshop : p.npcType = .shop
        · rw [if_neg (not_not.mpr hshop), if_pos hshop, fst_craftEach]
          rfl
        · rw [if_pos hshop, if_neg hshop]

theorem mul64_lt_zero_iff {x y : Int32} :
    x.toInt64 * y.toInt64 < 0 ↔ x.toInt * y.toInt < 0 := by
  rw [Int64.lt_iff_toInt_lt, toInt_mul64, Int64.toInt_zero]

theorem lt_mul64_iff {x y z : Int32} :
    z.toInt64 < x.toInt64 * y.toInt64 ↔ z.toInt < x.toInt * y.toInt := by
  rw [Int64.lt_iff_toInt_lt, toInt_mul64, Int32.toInt_toInt64]

theorem mul64_toInt32 (x y : Int32) :
    (x.toInt64 * y.toInt64).toInt32 = Int32.ofInt (x.toInt * y.toInt) := by
  rw [← Int32.toInt_inj, Int64.toInt_toInt32, toInt_mul64, Int32.toInt_ofInt]

theorem shopBuy_eq (p : PlayingCharacter) (reader : PacketReader) :
    p.shopBuy config reader = if p.trading then some p
      else reader.getShort.bind fun i => i.2.getInt.map fun a =>
        (p.shopping config (.buy (Int16.ofNat i.1) (Int32.ofNat a.1))).1 := by
  unfold shopBuy shopping
  by_cases htrading : p.trading = true
  · rw [if_pos htrading, if_pos htrading]
    rfl
  · rw [if_neg htrading, if_neg htrading]
    cases reader.getShort with
    | none => rfl
    | some i =>
        change Option.bind i.2.getInt _ = Option.map _ i.2.getInt
        cases i.2.getInt with
        | none => rfl
        | some a =>
            dsimp only [Option.map_some, Option.bind_some]
            rw [if_neg htrading]
            unfold buyDeal
            split_ifs with hguard
            · rfl
            · cases p.npc.shopTrade.find? fun check =>
                check.id.toNat = (Int16.ofNat i.1).toInt && check.buy ≠ 0 with
              | none => rfl
              | some check =>
                  dsimp only [Option.bind_some]
                  have hcost := mul64_toInt32 (Int32.ofNat a.1) check.buy
                  have hiff := or_congr (@mul64_lt_zero_iff (Int32.ofNat a.1) check.buy)
                    (or_congr (@lt_mul64_iff (Int32.ofNat a.1) check.buy config.items.maxItem)
                      (iff_of_eq (congrArg (p.hasItem 1 false < ·) hcost)))
                  split_ifs with hrefused hrefused' hrefused'
                  · rfl
                  · exact absurd (hiff.mpr hrefused) hrefused'
                  · exact absurd (hiff.mp hrefused') hrefused
                  · rw [mul64_toInt32]
                    rfl

theorem shopSell_eq (p : PlayingCharacter) (reader : PacketReader) :
    p.shopSell config reader = if p.trading then some p
      else reader.getShort.bind fun i => i.2.getInt.map fun a =>
        (p.shopping config (.sell (Int16.ofNat i.1) (Int32.ofNat a.1))).1 := by
  unfold shopSell shopping
  by_cases htrading : p.trading = true
  · rw [if_pos htrading, if_pos htrading]
    rfl
  · rw [if_neg htrading, if_neg htrading]
    cases reader.getShort with
    | none => rfl
    | some i =>
        change Option.bind i.2.getInt _ = Option.map _ i.2.getInt
        cases i.2.getInt with
        | none => rfl
        | some a =>
            dsimp only [Option.map_some, Option.bind_some]
            rw [if_neg htrading]
            unfold sellDeal
            split_ifs with hguard
            · rfl
            · cases p.npc.shopTrade.find? fun check =>
                check.id.toNat = (Int16.ofNat i.1).toInt && check.sell ≠ 0 with
              | none => rfl
              | some check =>
                  dsimp only [Option.bind_some]
                  have hiff := or_congr (@mul64_lt_zero_iff (Int32.ofNat a.1) check.sell)
                    (or_congr (@lt_mul64_iff (Int32.ofNat a.1) check.sell
                      (config.items.maxItem - p.hasItem 1 false))
                      (Iff.refl (p.hasItem (Int16.ofNat i.1) false < Int32.ofNat a.1)))
                  split_ifs with hrefused hrefused' hrefused'
                  · rfl
                  · exact absurd (hiff.mpr hrefused) hrefused'
                  · exact absurd (hiff.mp hrefused') hrefused
                  · rw [mul64_toInt32]
                    rfl

end PlayingCharacter

end ArenaServ
