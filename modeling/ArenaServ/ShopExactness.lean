import ArenaServ.BankConservation
import ArenaServ.Shops

/-!
# Exact dealing

A request to a shop changes nothing, or makes one deal that is as listed and exact. That fails where
an ingredient is listed twice but is there only once, where what one gets does not fit, and where
several recipes make the same item.
-/

namespace ArenaServ
open Inventory

namespace PlayingCharacter

/-- A deal is as the shop lists it, its price the product of two integers. -/
def Priced (p : PlayingCharacter) : ShopRequest → Deal → Prop
  | .create item, d => ∃ recipe ∈ p.npc.shopCraft, recipe.id.toNat = item.toInt ∧ d = recipe.deal
  | .buy item amount, d =>
      ∃ check ∈ p.npc.shopTrade, check.id.toNat = item.toInt ∧ ∃ cost : Int32,
        d = ⟨[(1, cost)], item, amount⟩ ∧ cost.toInt = amount.toInt * check.buy.toInt
  | .sell item amount, d =>
      ∃ check ∈ p.npc.shopTrade, check.id.toNat = item.toInt ∧ ∃ owed : Int32,
        d = ⟨[(item, amount)], 1, owed⟩ ∧ owed.toInt = amount.toInt * check.sell.toInt

/-- A request changes nothing, or makes one deal, as it is listed. -/
def ShopsExactly (config : PlayConfig) (p : PlayingCharacter) (request : ShopRequest) : Prop :=
  (p.shopping config request).2 = [] ∧ (p.shopping config request).1 = p ∨
    ∃ d, (p.shopping config request).2 = [d] ∧ p.Priced request d ∧
      d.Exact config.carry p (p.shopping config request).1

/-- What is left after a deal does not suffice for a recipe. -/
def Exhausts (config : PlayConfig) (p : PlayingCharacter) (d : Deal) (recipe : ShopCraftItem) :
    Prop :=
  ∃ i ∈ recipe.ingredients,
    (d.stacksAfter config.carry p i.1.toInt16).head?.getD 0 < i.2.toUInt32.toInt32

/-- The first recipe that all is there for can be paid and its product has room, and the recipes
behind it cannot be made of what is left. -/
def MakesOne (config : PlayConfig) (p : PlayingCharacter) : List ShopCraftItem → Prop
  | [] => True
  | recipe :: rest =>
      if p.hasAll recipe then
        recipe.deal.Fits config.carry p ∧ ∀ later ∈ rest, p.Exhausts config recipe.deal later
      else MakesOne config p rest

/-- There is room for what a request gets, and if it is for crafting then one recipe is used and
finds all its ingredients. -/
def ShopFits (config : PlayConfig) (p : PlayingCharacter) : ShopRequest → Prop
  | .create item =>
      p.trading = false → p.npcType = .shop → p.MakesOne config (p.recipes item)
  | .buy item amount =>
      p.trading = false → ∀ d ∈ p.buyDeal config item amount, d.Fits config.carry p
  | .sell item amount =>
      p.trading = false → ∀ d ∈ p.sellDeal config item amount, d.Fits config.carry p

variable {config : PlayConfig} {p : PlayingCharacter} {item : Int16} {amount : Int32} {d : Deal}
  {recipe : ShopCraftItem}

/-! ## The deals -/

theorem deal_paid_nonneg (recipe : ShopCraftItem) : ∀ i ∈ recipe.deal.paid, 0 ≤ i.2 := by
  intro i hi
  obtain ⟨j, -, rfl⟩ := List.mem_map.mp hi
  rw [Int32.le_iff_toInt_le, Int32.toInt_zero]
  exact toInt_weight_nonneg j.2

theorem deal_amount_pos (recipe : ShopCraftItem) : 0 < recipe.deal.amount.toInt := by
  change 0 < (1 : Int32).toInt
  decide

theorem hasItem_eq_head (htrading : p.trading = false) (item : Int16) :
    p.hasItem item false = (held p.inventory item).head?.getD 0 := by
  rw [hasItem, Inventory.hasItem, htrading, head?_held]
  cases stack p.inventory item with
  | none => rfl
  | some it => rfl

theorem trading_close (d : Deal) (p : PlayingCharacter) :
    (d.close config.carry p).trading = p.trading := by
  have hpay : SameTrade p (d.pay config.carry p) :=
    sameTrade_foldl _ (fun p i => sameTrade_delItem _ p _ _) _ p
  have hclose := hpay.trans (sameTrade_addItem config.carry (d.pay config.carry p) d.item d.amount)
  have hcharacter := congrArg Character.trading hclose
  exact hcharacter

/-- Whether a recipe can be made after a deal that fits. -/
theorem hasAll_close (htrading : p.trading = false) (hvalid : config.items.ValidId d.item)
    (hamount : 0 < d.amount.toInt) (later : ShopCraftItem) :
    (d.close config.carry p).hasAll later = true ↔ ¬ p.Exhausts config d later := by
  have hheld : ∀ item, (d.close config.carry p).hasItem item false =
      (d.stacksAfter config.carry p item).head?.getD 0 := by
    intro item
    have hclose := @Deal.held_close config.carry d hvalid hamount p item
    rw [hasItem_eq_head (by rw [trading_close, htrading]), hclose]
  unfold hasAll Exhausts
  rw [List.all_eq_true]
  simp only [hheld, decide_eq_true_eq, not_exists, not_and, Int32.not_lt]

/-! ## Crafting -/

theorem craftEach_of_none {recipes : List ShopCraftItem}
    (h : ∀ recipe ∈ recipes, p.hasAll recipe = false) : craftEach config recipes p = (p, []) := by
  induction recipes with
  | nil => rfl
  | cons recipe rest ih =>
      rw [craftEach, if_neg (by rw [h recipe List.mem_cons_self]; decide)]
      exact ih fun later hlater => h later (List.mem_cons_of_mem _ hlater)

theorem craftEach_eq_nil_iff (recipes : List ShopCraftItem) :
    (craftEach config recipes p).2 = [] ↔ ∀ recipe ∈ recipes, p.hasAll recipe = false := by
  constructor
  · intro h
    induction recipes with
    | nil => exact fun _ hmem => absurd hmem List.not_mem_nil
    | cons recipe rest ih =>
        rw [craftEach] at h
        by_cases hall : p.hasAll recipe = true
        · rw [if_pos hall] at h
          cases h
        · rw [if_neg hall] at h
          intro later hlater
          rcases List.mem_cons.mp hlater with rfl | hlater
          · rwa [Bool.not_eq_true] at hall
          · exact ih h later hlater
  · intro h
    rw [craftEach_of_none h]

/-- One deal is made of the recipes and it is exact, or none. -/
theorem mem_craftEach {recipes : List ShopCraftItem} (h : d ∈ (craftEach config recipes p).2) :
    ∃ recipe ∈ recipes, d = recipe.deal := by
  induction recipes generalizing p with
  | nil => cases h
  | cons recipe rest ih =>
      have hmore : (∃ later ∈ rest, d = later.deal) → ∃ later ∈ recipe :: rest, d = later.deal :=
        fun ⟨later, hlater, hd⟩ => ⟨later, List.mem_cons_of_mem _ hlater, hd⟩
      rw [craftEach] at h
      by_cases hall : p.hasAll recipe = true
      · rw [if_pos hall] at h
        rcases List.mem_cons.mp h with rfl | h
        · exact ⟨recipe, List.mem_cons_self, rfl⟩
        · exact hmore (ih h)
      · rw [if_neg hall] at h
        exact hmore (ih h)

theorem craftEach_exact_iff (htrading : p.trading = false) (recipes : List ShopCraftItem) :
    ((craftEach config recipes p).2 = [] ∧ (craftEach config recipes p).1 = p ∨
      ∃ d, (craftEach config recipes p).2 = [d] ∧
        d.Exact config.carry p (craftEach config recipes p).1) ↔ p.MakesOne config recipes := by
  induction recipes with
  | nil => exact iff_of_true (Or.inl ⟨rfl, rfl⟩) trivial
  | cons recipe rest ih =>
      rw [craftEach, MakesOne]
      by_cases hall : p.hasAll recipe = true
      · rw [if_pos hall, if_pos hall]
        dsimp only
        have hnone := @craftEach_eq_nil_iff config (recipe.deal.close config.carry p) rest
        have hfits := @Deal.exact_close_iff config.carry recipe.deal (deal_paid_nonneg recipe)
          (deal_amount_pos recipe) p
        constructor
        · rintro (⟨hnil, -⟩ | ⟨d, hone, hexact⟩)
          · cases hnil
          · obtain ⟨rfl, hrest⟩ := List.cons_eq_cons.mp hone
            have hspent := hnone.mp hrest
            rw [craftEach_of_none hspent] at hexact
            have hfit := hfits.mp hexact
            refine ⟨hfit, ?_⟩
            intro later hlater
            by_contra hleft
            have hmore :=
              (hasAll_close htrading hfit.valid (deal_amount_pos recipe) later).mpr hleft
            rw [hspent later hlater] at hmore
            cases hmore
        · rintro ⟨hfit, hspent⟩
          have hno : ∀ later ∈ rest, (recipe.deal.close config.carry p).hasAll later = false := by
            intro later hlater
            rw [← Bool.not_eq_true,
              hasAll_close htrading hfit.valid (deal_amount_pos recipe) later, not_not]
            exact hspent later hlater
          right
          refine ⟨recipe.deal, ?_, ?_⟩
          · rw [hnone.mpr hno]
          · rw [craftEach_of_none hno]
            exact hfits.mpr hfit
      · rw [if_neg hall, if_neg hall, ih]

/-! ## Buying and selling -/

theorem toInt_mul64_toInt32 {x y z : Int32} (hlow : ¬ x.toInt64 * y.toInt64 < 0)
    (hhigh : ¬ z.toInt64 < x.toInt64 * y.toInt64) :
    (x.toInt64 * y.toInt64).toInt32.toInt = x.toInt * y.toInt ∧ 0 ≤ x.toInt * y.toInt := by
  have hz := z.toInt_lt
  rw [mul64_lt_zero_iff] at hlow
  rw [lt_mul64_iff] at hhigh
  have hsize : Int32.size = 2 ^ 32 := rfl
  rw [mul64_toInt32, Int32.toInt_ofInt, hsize]
  exact ⟨Int.bmod_eq_of_le (by omega) (by omega), by omega⟩

theorem toInt_pos (h : ¬ amount ≤ 0) : 0 < amount.toInt := by
  rw [Int32.le_iff_toInt_le, Int32.toInt_zero] at h
  omega

/-- What is found in a shop's table is in it, under its id. -/
theorem mem_of_find {trades : List ShopTradeItem} {check : ShopTradeItem} {P : ShopTradeItem → Bool}
    (h : trades.find? (fun check => check.id.toNat = item.toInt && P check) = some check) :
    check ∈ trades ∧ check.id.toNat = item.toInt ∧ P check = true := by
  have hcheck := List.find?_some h
  rw [Bool.and_eq_true, decide_eq_true_eq] at hcheck
  exact ⟨List.mem_of_find?_eq_some h, hcheck⟩

theorem buyDeal_priced (h : p.buyDeal config item amount = some d) :
    p.Priced (.buy item amount) d ∧ (∀ i ∈ d.paid, 0 ≤ i.2) ∧ 0 < d.amount.toInt := by
  unfold buyDeal at h
  split_ifs at h with hguard
  rw [not_or] at hguard
  obtain ⟨check, hfind, hcheck⟩ := Option.bind_eq_some_iff.mp h
  obtain ⟨hmem, hid, -⟩ := mem_of_find hfind
  dsimp only at hcheck
  split_ifs at hcheck with hrefused
  rw [not_or, not_or] at hrefused
  obtain ⟨hlow, hhigh, -⟩ := hrefused
  obtain ⟨hcost, hnonneg⟩ := toInt_mul64_toInt32 hlow hhigh
  obtain rfl := Option.some.inj hcheck
  refine ⟨⟨check, hmem, hid, _, rfl, hcost⟩, ?_, toInt_pos hguard.1⟩
  intro i hi
  obtain rfl := List.mem_singleton.mp hi
  rw [Int32.le_iff_toInt_le, Int32.toInt_zero, hcost]
  exact hnonneg

theorem sellDeal_priced (h : p.sellDeal config item amount = some d) :
    p.Priced (.sell item amount) d ∧ (∀ i ∈ d.paid, 0 ≤ i.2) ∧ 0 < d.amount.toInt := by
  unfold sellDeal at h
  split_ifs at h with hguard
  rw [not_or] at hguard
  obtain ⟨check, hfind, hcheck⟩ := Option.bind_eq_some_iff.mp h
  obtain ⟨hmem, hid, hsell⟩ := mem_of_find hfind
  dsimp only at hcheck
  split_ifs at hcheck with hrefused
  rw [not_or, not_or] at hrefused
  obtain ⟨hlow, hhigh, -⟩ := hrefused
  obtain ⟨howed, hnonneg⟩ := toInt_mul64_toInt32 hlow hhigh
  obtain rfl := Option.some.inj hcheck
  have hamount := toInt_pos hguard.1
  have hne : check.sell.toInt ≠ 0 := by
    rw [← Int32.toInt_zero, Ne, Int32.toInt_inj]
    exact of_decide_eq_true hsell
  refine ⟨⟨check, hmem, hid, _, rfl, howed⟩, ?_, ?_⟩
  · intro i hi
    obtain rfl := List.mem_singleton.mp hi
    rw [Int32.le_iff_toInt_le, Int32.toInt_zero]
    exact hamount.le
  · change 0 < (amount.toInt64 * check.sell.toInt64).toInt32.toInt
    rw [howed]
    exact lt_of_le_of_ne hnonneg (Ne.symm (mul_ne_zero hamount.ne' hne))

/-- One deal, or none, is exact if and only if it fits. -/
theorem deal_exact_iff {request : ShopRequest} {deal : Option Deal}
    (hdeal : ∀ d ∈ deal, p.Priced request d ∧ (∀ i ∈ d.paid, 0 ≤ i.2) ∧ 0 < d.amount.toInt) :
    ((deal.elim (p, []) fun d => (d.close config.carry p, [d])).2 = [] ∧
        (deal.elim (p, []) fun d => (d.close config.carry p, [d])).1 = p ∨
      ∃ d, (deal.elim (p, []) fun d => (d.close config.carry p, [d])).2 = [d] ∧
        p.Priced request d ∧
        d.Exact config.carry p (deal.elim (p, []) fun d => (d.close config.carry p, [d])).1) ↔
      ∀ d ∈ deal, d.Fits config.carry p := by
  cases deal with
  | none => exact iff_of_true (Or.inl ⟨rfl, rfl⟩) (fun d hd => by cases hd)
  | some deal =>
      obtain ⟨hpriced, hpaid, hamount⟩ := hdeal deal rfl
      have hfits := @Deal.exact_close_iff config.carry deal hpaid hamount p
      dsimp only [Option.elim_some]
      constructor
      · rintro (⟨hnil, -⟩ | ⟨d, hone, -, hexact⟩) d' hd'
        · cases hnil
        · obtain rfl := (List.cons_eq_cons.mp hone).1
          obtain rfl := Option.some.inj hd'
          exact hfits.mp hexact
      · intro h
        exact Or.inr ⟨deal, rfl, hpriced, hfits.mpr (h deal rfl)⟩

/-! ## Every request -/

/-- A request to a shop is exact if and only if what it gets has room and, when something is made,
one recipe is used and its ingredients are there in full. -/
theorem shopsExactly_iff (config : PlayConfig) (p : PlayingCharacter) (request : ShopRequest) :
    p.ShopsExactly config request ↔ p.ShopFits config request := by
  unfold ShopsExactly shopping
  by_cases htrading : p.trading = true
  · rw [if_pos htrading]
    refine iff_of_true (Or.inl ⟨rfl, rfl⟩) ?_
    cases request <;> exact fun h => absurd (h.symm.trans htrading) (by decide)
  · rw [if_neg htrading]
    rw [Bool.not_eq_true] at htrading
    cases request with
    | create item =>
        unfold ShopFits
        dsimp only
        rw [imp_iff_right htrading]
        by_cases hshop : p.npcType = .shop
        · rw [if_pos hshop, imp_iff_right hshop, ← craftEach_exact_iff htrading]
          apply or_congr Iff.rfl
          apply exists_congr
          intro d
          apply and_congr_right
          intro hone
          apply and_iff_right
          have hmem : d ∈ (craftEach config (p.recipes item) p).2 := by
            rw [hone]
            exact List.mem_singleton_self d
          obtain ⟨recipe, hrecipe, rfl⟩ := mem_craftEach hmem
          obtain ⟨hcraft, hid⟩ := List.mem_filter.mp hrecipe
          exact ⟨recipe, hcraft, of_decide_eq_true hid, rfl⟩
        · rw [if_neg hshop]
          exact iff_of_true (Or.inl ⟨rfl, rfl⟩) (fun h => absurd h hshop)
    | buy item amount =>
        unfold ShopFits
        dsimp only
        rw [imp_iff_right htrading]
        exact deal_exact_iff fun d hd => buyDeal_priced hd
    | sell item amount =>
        unfold ShopFits
        dsimp only
        rw [imp_iff_right htrading]
        exact deal_exact_iff fun d hd => sellDeal_priced hd

/-! ## A full pocket -/

/-- Somebody in a shop that sells what there is no room for. -/
def shopper : PlayingCharacter :=
  { Ground.walker 1 [⟨1, 5⟩, ⟨2, 10⟩] with
    npcType := .shop
    npc := ⟨[⟨2, 3, 1⟩], [], []⟩
    maxweight := 70 }

/-- The gold is gone, and nothing has come for it. -/
theorem not_shopsExactly_shopper : ¬ shopper.ShopsExactly fair (.buy 2 1) := by
  rintro (⟨hnone, -⟩ | ⟨d, hd, -, hexact⟩)
  · exact absurd hnone (by decide)
  · have hdeal : (shopper.shopping fair (.buy 2 1)).2 = [⟨[(1, 3)], 2, 1⟩] := by decide
    obtain rfl := List.singleton_inj.mp (hdeal.symm.trans hd)
    exact absurd (hexact.got 2) (by decide)

end PlayingCharacter

end ArenaServ
