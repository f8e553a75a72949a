import ArenaServ.KillRewards
import Mathlib.Algebra.BigOperators.Group.List.Lemmas
import Mathlib.Algebra.Order.BigOperators.Group.List
import Mathlib.Data.List.Perm.Subperm
import Mathlib.Tactic.Linarith
import Mathlib.Tactic.FieldSimp
import Mathlib.Tactic.Positivity

/-!
# The accounts of a kill

What each step of a kill adds to what is given, collected and paid. Shares are rounded up,
each by less than one, and what a character is given is what its experience grows by, as long
as `MaxExp` is not reached.
-/

namespace ArenaServ

/-! ## Sums rounded up -/

section Rounding

variable {α : Type*} (f : α → ℚ)

theorem sum_le_sum_ceil (l : List α) : (l.map f).sum ≤ ((l.map fun x => ⌈f x⌉).sum : ℤ) := by
  induction l with
  | nil => simp
  | cons x l ih =>
      rw [List.map_cons, List.map_cons, List.sum_cons, List.sum_cons, Int.cast_add]
      exact add_le_add (Int.le_ceil _) ih

theorem sum_ceil_lt {l : List α} (h : l ≠ []) :
    (((l.map fun x => ⌈f x⌉).sum : ℤ) : ℚ) < (l.map f).sum + l.length := by
  induction l with
  | nil => exact absurd rfl h
  | cons x l ih =>
      have hx := Int.ceil_lt_add_one (f x)
      rw [List.map_cons, List.map_cons, List.sum_cons, List.sum_cons, Int.cast_add,
        List.length_cons, Nat.cast_add, Nat.cast_one]
      cases l with
      | nil =>
          simp only [List.map_nil, List.sum_nil, List.length_nil, Nat.cast_zero, Int.cast_zero]
          linarith
      | cons y l =>
          have hrest := ih (List.cons_ne_nil _ _)
          linarith

theorem sum_map_mul_div {l : List α} (w : α → ℕ) (exp : ℚ) (h : (l.map w).sum ≠ 0) :
    (l.map fun x => exp * w x / (l.map w).sum).sum = exp := by
  have hsum (d : ℚ) (l : List α) :
      (l.map fun x => exp * w x / d).sum = exp * (l.map w).sum / d := by
    induction l with
    | nil => simp
    | cons x l ih =>
        rw [List.map_cons, List.sum_cons, ih, List.map_cons, List.sum_cons]
        push_cast
        ring
  rw [hsum, mul_div_assoc, div_self (Nat.cast_ne_zero.mpr h), mul_one]

end Rounding

/-! ## The log -/

namespace ExpEvent

/-- The experience given to a character. -/
def amount : ExpEvent → ℤ
  | direct _ reward => reward
  | share _ _ reward => reward
  | _ => 0

def amountTo (c : ℕ) : ExpEvent → ℤ
  | direct d reward => if d = c then reward else 0
  | share _ d reward => if d = c then reward else 0
  | _ => 0

def isShare : ExpEvent → Bool
  | share _ _ _ => true
  | _ => false

def collectedFor (p : ℕ) : ExpEvent → Option ℤ
  | collect q reward => if q = p then some reward else none
  | _ => none

def paidTo (p : ℕ) : ExpEvent → Option ℤ
  | pay q exp => if q = p then some exp else none
  | _ => none

def sharedBy (p : ℕ) : ExpEvent → Option ℤ
  | share q _ reward => if q = p then some reward else none
  | _ => none

end ExpEvent

namespace KillWorld

variable (w : KillWorld)

def granted : ℤ := (w.log.map ExpEvent.amount).sum
def grantedTo (c : ℕ) : ℤ := (w.log.map (ExpEvent.amountTo c)).sum
def rewardedMembers : ℕ := w.log.countP ExpEvent.isShare
def collected (p : ℕ) : List ℤ := w.log.filterMap (ExpEvent.collectedFor p)
def paid (p : ℕ) : List ℤ := w.log.filterMap (ExpEvent.paidTo p)
def shared (p : ℕ) : List ℤ := w.log.filterMap (ExpEvent.sharedBy p)

/-- What is still to be paid to the parties of the kill. -/
def owed : ℤ := (w.parties.map fun p => (w.party p).tempExpsum).sum

end KillWorld

namespace Kill

open KillWorld

variable {k : Kill} {w w' w₀ : KillWorld} {p q c : ℕ} {reward exp : ℤ}

/-! ## One more event -/

theorem granted_record (w : KillWorld) (e : ExpEvent) :
    (w.record e).granted = w.granted + e.amount := by
  rw [granted, record, List.map_append, List.sum_append]
  simp [granted]

theorem grantedTo_record (w : KillWorld) (e : ExpEvent) (c : ℕ) :
    (w.record e).grantedTo c = w.grantedTo c + e.amountTo c := by
  rw [grantedTo, record, List.map_append, List.sum_append]
  simp [grantedTo]

theorem rewardedMembers_record (w : KillWorld) (e : ExpEvent) :
    (w.record e).rewardedMembers = w.rewardedMembers + if e.isShare then 1 else 0 := by
  rw [rewardedMembers, record, List.countP_append, List.countP_singleton]
  rfl

theorem collected_record (w : KillWorld) (e : ExpEvent) (p : ℕ) :
    (w.record e).collected p = w.collected p ++ (e.collectedFor p).toList := by
  rw [collected, record, List.filterMap_append]
  cases h : e.collectedFor p with
  | none => simp [collected, h]
  | some exp => simp [collected, h]

theorem paid_record (w : KillWorld) (e : ExpEvent) (p : ℕ) :
    (w.record e).paid p = w.paid p ++ (e.paidTo p).toList := by
  rw [paid, record, List.filterMap_append]
  cases h : e.paidTo p with
  | none => simp [paid, h]
  | some exp => simp [paid, h]

theorem shared_record (w : KillWorld) (e : ExpEvent) (p : ℕ) :
    (w.record e).shared p = w.shared p ++ (e.sharedBy p).toList := by
  rw [shared, record, List.filterMap_append]
  cases h : e.sharedBy p with
  | none => simp [shared, h]
  | some exp => simp [shared, h]

/-! ## Where everybody is -/

/-- Nobody has moved or left a party. -/
structure SamePlaces (w w' : KillWorld) : Prop where
  map : ∀ c, (w'.fighter c).map = (w.fighter c).map
  nowhere : ∀ c, (w'.fighter c).nowhere = (w.fighter c).nowhere
  canInteractCombat :
    ∀ c, (w'.fighter c).canInteractCombat = (w.fighter c).canInteractCombat
  party : ∀ c, (w'.fighter c).party = (w.fighter c).party
  members : ∀ p, (w'.party p).members = (w.party p).members

theorem SamePlaces.refl (w : KillWorld) : SamePlaces w w :=
  ⟨fun _ => rfl, fun _ => rfl, fun _ => rfl, fun _ => rfl, fun _ => rfl⟩

theorem SamePlaces.trans {w'' : KillWorld} (h : SamePlaces w w') (h' : SamePlaces w' w'') :
    SamePlaces w w'' where
  map c := (h'.map c).trans (h.map c)
  nowhere c := (h'.nowhere c).trans (h.nowhere c)
  canInteractCombat c := (h'.canInteractCombat c).trans (h.canInteractCombat c)
  party c := (h'.party c).trans (h.party c)
  members p := (h'.members p).trans (h.members p)

theorem samePlaces_setEarner (c : ℕ) (f : Earner → Earner) (w : KillWorld) :
    SamePlaces w (w.setEarner c f) := by
  refine ⟨?_, ?_, ?_, ?_, fun _ => rfl⟩
  all_goals
    intro d
    rw [setEarner]
    dsimp only
    rcases eq_or_ne d c with rfl | hne
    · rw [Function.update_self]
    · rw [Function.update_of_ne hne]

theorem samePlaces_setExpsum (p : ℕ) (exp : ℤ) (w : KillWorld) :
    SamePlaces w (w.setExpsum p exp) := by
  refine ⟨fun _ => rfl, fun _ => rfl, fun _ => rfl, fun _ => rfl, ?_⟩
  intro q
  rw [setExpsum]
  dsimp only
  rcases eq_or_ne q p with rfl | hne
  · rw [Function.update_self]
  · rw [Function.update_of_ne hne]

theorem SamePlaces.record (h : SamePlaces w w') (e : ExpEvent) : SamePlaces w (w'.record e) :=
  ⟨h.map, h.nowhere, h.canInteractCombat, h.party, h.members⟩

theorem SamePlaces.present_iff (h : SamePlaces w w') (c : ℕ) :
    k.Present (w'.fighter c) ↔ k.Present (w.fighter c) := by
  rw [Present, Present, h.map, h.nowhere, h.canInteractCombat]

theorem SamePlaces.present (h : SamePlaces w w') (p : ℕ) : k.present w' p = k.present w p := by
  rw [Kill.present, Kill.present, h.members]
  congr 1
  funext c
  exact decide_eq_decide.mpr (h.present_iff c)

theorem SamePlaces.sharingParty (h : SamePlaces w w') (c : ℕ) :
    k.sharingParty (w'.fighter c) = k.sharingParty (w.fighter c) := by
  rw [Kill.sharingParty, Kill.sharingParty, h.party]

/-! ## Shares -/

theorem levelWeight_pos (f : Fighter) : 1 ≤ levelWeight f := by
  rw [levelWeight]
  split_ifs <;> omega

theorem sumlevel_ne_zero (h : k.present w p ≠ []) : k.sumlevel w p ≠ 0 := by
  obtain ⟨c, rest, heq⟩ := List.exists_cons_of_ne_nil h
  have hpos := levelWeight_pos (w.fighter c)
  rw [sumlevel, heq, List.map_cons, List.sum_cons]
  omega

/-- The shares, as the members' levels stand before they are given out. -/
def rewards (k : Kill) (w : KillWorld) (p : ℕ) (exp : ℤ) : List ℤ :=
  (k.present w p).map fun c =>
    k.memberReward exp (k.present w p).length (k.sumlevel w p) (w.fighter c)

/-- Shares are rounded up, each by less than one. -/
theorem rewards_bounds (hpresent : k.present w p ≠ [])
    (hmode : k.partysharemode = 1 ∨ k.partysharemode = 2) :
    exp ≤ (k.rewards w p exp).sum ∧
      (k.rewards w p exp).sum ≤ exp + (k.present w p).length := by
  have hlength : (k.present w p).length ≠ 0 := mt List.length_eq_zero_iff.mp hpresent
  obtain ⟨f, hf, hsum⟩ : ∃ f : ℕ → ℚ,
      k.rewards w p exp = (k.present w p).map (fun c => ⌈f c⌉) ∧
        ((k.present w p).map f).sum = exp := by
    rcases hmode with hmode | hmode
    · refine ⟨fun _ => (exp : ℚ) / (k.present w p).length, ?_, ?_⟩
      · unfold rewards memberReward
        simp only [hmode, if_true]
      · rw [List.map_const', List.sum_replicate, nsmul_eq_mul]
        field_simp
    · refine ⟨fun c => (exp : ℚ) * levelWeight (w.fighter c) / k.sumlevel w p, ?_, ?_⟩
      · unfold rewards memberReward
        simp only [hmode, if_true, if_neg (show ¬ (2 : ℤ) = 1 by decide)]
      · exact sum_map_mul_div (fun c => levelWeight (w.fighter c)) exp (sumlevel_ne_zero hpresent)
  have hlow := sum_le_sum_ceil f (k.present w p)
  have hhigh := sum_ceil_lt f hpresent
  rw [hsum, ← hf] at hlow hhigh
  constructor
  · exact_mod_cast hlow
  · have hlt : (k.rewards w p exp).sum < exp + (k.present w p).length := by exact_mod_cast hhigh
    exact hlt.le

theorem rewards_eq_zero (h1 : k.partysharemode ≠ 1) (h2 : k.partysharemode ≠ 2) :
    (k.rewards w p exp).sum = 0 := by
  unfold rewards memberReward
  rw [List.sum_eq_zero]
  intro x hx
  obtain ⟨c, -, rfl⟩ := List.mem_map.mp hx
  rw [if_neg h1, if_neg h2]

theorem sum_rewards_le (hexp : 0 ≤ exp) :
    (k.rewards w p exp).sum ≤ exp + (k.present w p).length := by
  by_cases hpresent : k.present w p = []
  · rw [rewards, hpresent, List.map_nil, List.sum_nil, List.length_nil]
    omega
  · by_cases hmode : k.partysharemode = 1 ∨ k.partysharemode = 2
    · exact (rewards_bounds hpresent hmode).2
    · rw [not_or] at hmode
      rw [rewards_eq_zero hmode.1 hmode.2]
      omega

theorem rewards_nonneg (hexp : 0 ≤ exp) (n s : ℕ) (f : Fighter) :
    0 ≤ k.memberReward exp n s f := by
  have hq : (0 : ℚ) ≤ exp := Int.cast_nonneg hexp
  rw [memberReward]
  split_ifs
  · exact Int.ceil_nonneg (by positivity)
  · exact Int.ceil_nonneg (by positivity)
  · exact le_rfl

/-- What a loop over members does. -/
structure SharedTo (k : Kill) (p : ℕ) (exp : ℤ) (n s : ℕ) (cs : List ℕ) (w w' : KillWorld) :
    Prop where
  places : SamePlaces w w'
  party : w'.party = w.party
  parties : w'.parties = w.parties
  log : w'.log = w.log ++ (cs.filter fun c => k.Present (w.fighter c)).map fun c =>
    .share p c (k.memberReward exp n s (w.fighter c))

theorem shareMember_of_present {n s : ℕ} (h : k.Present (w.fighter c)) :
    k.shareMember p exp n s w c =
      (w.setEarner c fun e => e.share k.rules
          (Int32.ofInt (k.memberReward exp n s (w.fighter c)))).record
        (.share p c (k.memberReward exp n s (w.fighter c))) := if_pos h

/-- A member that is not passed over gets its share, and nobody else anything. -/
theorem sharedTo_shareMember (k : Kill) (p : ℕ) (exp : ℤ) (n s c : ℕ) (w : KillWorld) :
    SharedTo k p exp n s [c] w (k.shareMember p exp n s w c) ∧
      ∀ d, d ≠ c → (k.shareMember p exp n s w c).fighter d = w.fighter d := by
  by_cases hc : k.Present (w.fighter c)
  · rw [shareMember_of_present hc]
    refine ⟨⟨(samePlaces_setEarner _ _ _).record _, rfl, rfl, ?_⟩, ?_⟩
    · rw [List.filter_cons_of_pos (by simpa using hc)]
      rfl
    · exact fun d hd => Function.update_of_ne hd _ _
  · rw [show k.shareMember p exp n s w c = w from if_neg hc]
    refine ⟨⟨SamePlaces.refl w, rfl, rfl, ?_⟩, fun _ _ => rfl⟩
    rw [List.filter_cons_of_neg (by simpa using hc)]
    exact (List.append_nil _).symm

theorem sharedTo_foldl {n s : ℕ} {cs : List ℕ} (hcs : cs.Nodup) (w : KillWorld) :
    SharedTo k p exp n s cs w (cs.foldl (k.shareMember p exp n s) w) := by
  induction cs generalizing w with
  | nil => exact ⟨SamePlaces.refl w, rfl, rfl, (List.append_nil _).symm⟩
  | cons c cs ih =>
      rw [List.nodup_cons] at hcs
      obtain ⟨hfirst, hothers⟩ := sharedTo_shareMember k p exp n s c w
      have hrest := ih hcs.2 (k.shareMember p exp n s w c)
      -- the members behind `c` are as they were
      have hsame : ∀ d ∈ cs, (k.shareMember p exp n s w c).fighter d = w.fighter d :=
        fun d hd => hothers d (ne_of_mem_of_not_mem hd hcs.1)
      refine ⟨hfirst.places.trans hrest.places, hrest.party.trans hfirst.party,
        hrest.parties.trans hfirst.parties, ?_⟩
      have hfilter : (cs.filter fun d => k.Present ((k.shareMember p exp n s w c).fighter d)) =
          cs.filter fun d => k.Present (w.fighter d) :=
        List.filter_congr fun d hd => by rw [hsame d hd]
      have hmap : ((cs.filter fun d => k.Present (w.fighter d)).map fun d =>
          ExpEvent.share p d
            (k.memberReward exp n s ((k.shareMember p exp n s w c).fighter d))) =
          (cs.filter fun d => k.Present (w.fighter d)).map fun d =>
            ExpEvent.share p d (k.memberReward exp n s (w.fighter d)) :=
        List.map_congr_left fun d hd => by rw [hsame d (List.mem_of_mem_filter hd)]
      rw [List.foldl_cons, hrest.log, hfirst.log, hfilter, hmap, List.append_assoc,
        ← List.map_append, ← List.filter_append, List.singleton_append]

/-- `ShareEXP` pays the members that are present, by the levels they have before. -/
theorem sharedTo_shareEXP (w : KillWorld) (p : ℕ) (exp : ℤ) :
    SharedTo k p exp (k.present w p).length (k.sumlevel w p) (w.party p).members
      (w.record (.pay p exp)) (k.shareEXP p exp w) := by
  rw [shareEXP]
  split_ifs with hnone
  · have hpresent : k.present w p = [] := by
      by_contra hne
      rcases hnone with hlength | hsum
      · exact hne (List.eq_nil_of_length_eq_zero hlength)
      · exact sumlevel_ne_zero hne hsum
    refine ⟨SamePlaces.refl _, rfl, rfl, ?_⟩
    rw [show ((w.party p).members.filter fun c =>
      k.Present ((w.record (.pay p exp)).fighter c)) = [] from hpresent]
    exact (List.append_nil _).symm
  · exact sharedTo_foldl (w.party p).nodup _

theorem log_shareEXP (w : KillWorld) (p : ℕ) (exp : ℤ) :
    (k.shareEXP p exp w).log = w.log ++ .pay p exp :: (k.present w p).map fun c =>
      .share p c (k.memberReward exp (k.present w p).length (k.sumlevel w p) (w.fighter c)) := by
  rw [(sharedTo_shareEXP w p exp).log, record, List.append_assoc, List.singleton_append]
  rfl

theorem samePlaces_shareEXP (w : KillWorld) (p : ℕ) (exp : ℤ) :
    SamePlaces w (k.shareEXP p exp w) :=
  ((SamePlaces.refl w).record _).trans (sharedTo_shareEXP w p exp).places

theorem party_shareEXP (w : KillWorld) (p : ℕ) (exp : ℤ) :
    (k.shareEXP p exp w).party = w.party := (sharedTo_shareEXP w p exp).party

theorem parties_shareEXP (w : KillWorld) (p : ℕ) (exp : ℤ) :
    (k.shareEXP p exp w).parties = w.parties := (sharedTo_shareEXP w p exp).parties

/-! ## What `ShareEXP` adds to the accounts -/

theorem granted_shareEXP (w : KillWorld) (p : ℕ) (exp : ℤ) :
    (k.shareEXP p exp w).granted = w.granted + (k.rewards w p exp).sum := by
  rw [granted, granted, log_shareEXP, List.map_append, List.sum_append, List.map_cons,
    List.sum_cons, List.map_map]
  change _ + (0 + _) = _
  rw [zero_add]
  rfl

theorem rewardedMembers_shareEXP (w : KillWorld) (p : ℕ) (exp : ℤ) :
    (k.shareEXP p exp w).rewardedMembers = w.rewardedMembers + (k.present w p).length := by
  rw [rewardedMembers, rewardedMembers, log_shareEXP, List.countP_append, List.countP_cons,
    List.countP_map]
  congr 1
  exact List.countP_eq_length.mpr fun _ _ => rfl

/-- Shares are neither collections nor payments. -/
theorem filterMap_shares {g : ExpEvent → Option ℤ} (hg : ∀ p c reward, g (.share p c reward) = none)
    (p : ℕ) (f : ℕ → ℤ) (cs : List ℕ) :
    (cs.map fun c => ExpEvent.share p c (f c)).filterMap g = [] := by
  rw [List.filterMap_eq_nil_iff]
  intro e he
  obtain ⟨c, -, rfl⟩ := List.mem_map.mp he
  exact hg p c (f c)

theorem collected_shareEXP (w : KillWorld) (p : ℕ) (exp : ℤ) (q : ℕ) :
    (k.shareEXP p exp w).collected q = w.collected q := by
  rw [collected, collected, log_shareEXP, List.filterMap_append, List.filterMap_cons_none rfl,
    filterMap_shares fun _ _ _ => rfl, List.append_nil]

theorem paid_shareEXP (w : KillWorld) (p : ℕ) (exp : ℤ) (q : ℕ) :
    (k.shareEXP p exp w).paid q = w.paid q ++ if p = q then [exp] else [] := by
  rw [paid, paid, log_shareEXP, List.filterMap_append]
  congr 1
  split_ifs with hpq
  · have hpaid : ExpEvent.paidTo q (.pay p exp) = some exp := if_pos hpq
    rw [List.filterMap_cons_some hpaid, filterMap_shares fun _ _ _ => rfl]
  · have hpaid : ExpEvent.paidTo q (.pay p exp) = none := if_neg hpq
    rw [List.filterMap_cons_none hpaid, filterMap_shares fun _ _ _ => rfl]

theorem shared_shareEXP (w : KillWorld) (p : ℕ) (exp : ℤ) (q : ℕ) :
    (k.shareEXP p exp w).shared q = w.shared q ++ if p = q then k.rewards w p exp else [] := by
  rw [shared, shared, log_shareEXP, List.filterMap_append, List.filterMap_cons_none rfl,
    List.filterMap_map]
  congr 1
  split_ifs with hpq
  · rw [rewards, ← List.filterMap_eq_map]
    apply List.filterMap_congr
    intro c _
    exact if_pos hpq
  · exact List.filterMap_eq_nil_iff.mpr fun c _ => if_neg hpq

/-! ## The experience that is given -/

/-- A character whose experience does not reach `MaxExp` has what was given to it. -/
def Tracks (k : Kill) (w₀ w : KillWorld) : Prop :=
  ∀ c, (w₀.fighter c).earner.exp.toInt + w.grantedTo c ≤ k.rules.maxExp.toInt →
    (w.fighter c).earner.exp.toInt = (w₀.fighter c).earner.exp.toInt + w.grantedTo c

theorem tracks_record (h : Tracks k w₀ w) {e : ExpEvent} (he : ∀ c, e.amountTo c = 0) :
    Tracks k w₀ (w.record e) := by
  intro c
  rw [grantedTo_record, he, add_zero]
  exact h c

theorem toInt_add_ofInt {x : Int32} {r : ℤ} (hlow : -2 ^ 31 ≤ x.toInt + r)
    (hhigh : x.toInt + r < 2 ^ 31) : (x + Int32.ofInt r).toInt = x.toInt + r := by
  have hsize : Int32.size = 2 ^ 32 := rfl
  rw [Int32.toInt_add, Int32.toInt_ofInt, hsize, Int.add_bmod_bmod]
  exact Int.bmod_eq_of_le (by omega) (by omega)

theorem tracks_give (h : Tracks k w₀ w) (hreward : 0 ≤ reward) {f : Earner → Earner}
    (hf : ∀ e, (f e).exp = e.exp + Int32.ofInt reward) {e : ExpEvent}
    (he : ∀ d, e.amountTo d = if c = d then reward else 0) :
    Tracks k w₀ ((w.setEarner c f).record e) := by
  intro d
  have hgranted : (w.setEarner c f).grantedTo d = w.grantedTo d := rfl
  have hmax := k.rules.maxExp.toInt_lt
  have hw := h d
  rw [grantedTo_record, he, hgranted]
  intro hle
  split_ifs at hle ⊢ with hcd
  · subst hcd
    have hlow := (w₀.fighter c).earner.exp.le_toInt
    have hexp := hw (by omega)
    have hlow' := (w.fighter c).earner.exp.le_toInt
    change (Function.update w.fighter c
      { w.fighter c with earner := f (w.fighter c).earner } c).earner.exp.toInt = _
    rw [Function.update_self, hf, toInt_add_ofInt (by omega) (by omega), hexp]
    omega
  · have hfighter : (w.setEarner c f).fighter d = w.fighter d :=
      Function.update_of_ne (Ne.symm hcd) _ _
    change ((w.setEarner c f).fighter d).earner.exp.toInt = _
    rw [hfighter, add_zero]
    exact hw (by omega)

theorem exp_share (rules : ExpRules) (e : Earner) (amount : Int32) :
    (e.share rules amount).exp = e.exp + amount := by
  rw [Earner.share]
  split_ifs <;> rfl

theorem tracks_shareMember (hexp : 0 ≤ exp) (n s : ℕ) (h : Tracks k w₀ w) (c : ℕ) :
    Tracks k w₀ (k.shareMember p exp n s w c) := by
  by_cases hc : k.Present (w.fighter c)
  · rw [shareMember_of_present hc]
    exact tracks_give h (rewards_nonneg hexp n s _) (fun e => exp_share _ e _) fun _ => rfl
  · rw [show k.shareMember p exp n s w c = w from if_neg hc]
    exact h

theorem tracks_shareEXP (h : Tracks k w₀ w) (p : ℕ) (hexp : 0 ≤ exp) :
    Tracks k w₀ (k.shareEXP p exp w) := by
  rw [shareEXP]
  have hpay : Tracks k w₀ (w.record (.pay p exp)) := tracks_record h fun _ => rfl
  split_ifs
  · exact hpay
  · exact List.foldlRecOn _ _ hpay fun w hw c _ => tracks_shareMember hexp _ _ hw c

/-- The loop's body after a reward that is given directly is the award of `NPC::Killed`. -/
theorem earner_settle_direct (hr : 0 < reward) (hlt : reward < 2 ^ 31) (c : ℕ) (w : KillWorld) :
    ((k.settle c (Kill.direct c reward w)).fighter c).earner =
      (w.fighter c).earner.killed k.rules (Int32.ofInt reward) := by
  have hpos : 0 < (Int32.ofInt reward).toInt := by
    rw [Int32.toInt_ofInt_of_le (by omega) hlt]
    exact hr
  rw [Earner.killed, if_pos hpos]
  simp only [Kill.settle, Kill.direct, setEarner, record, Function.update_self]

theorem tracks_settle (h : Tracks k w₀ w) (c : ℕ) : Tracks k w₀ (k.settle c w) := by
  intro d
  have hw := h d
  intro hle
  have hexp := hw hle
  rcases eq_or_ne d c with rfl | hne
  · change (Function.update w.fighter d { w.fighter d with
      earner := ((w.fighter d).earner.capExp k.rules).levelLoop k.rules } d).earner.exp.toInt = _
    rw [Function.update_self, (Earner.levelLoop_raised _ _).1.exp, Earner.toInt_capExp, hexp]
    exact min_eq_left hle
  · change (Function.update w.fighter c _ d).earner.exp.toInt = _
    rw [Function.update_of_ne hne]
    exact hexp

/-! ## The accounts of a kill -/

/-- Nobody has moved, everybody has what was given to them, and what is paid to a party with
somebody present reaches its members. -/
structure Accounted (k : Kill) (w₀ w : KillWorld) : Prop where
  places : SamePlaces w₀ w
  tracks : Tracks k w₀ w
  reaches : ∀ p, k.present w₀ p ≠ [] → k.partysharemode = 1 ∨ k.partysharemode = 2 →
    (w.paid p).sum ≤ (w.shared p).sum

theorem Accounted.shareEXP (h : Accounted k w₀ w) (p : ℕ) (hexp : 0 ≤ exp) :
    Accounted k w₀ (k.shareEXP p exp w) where
  places := h.places.trans (samePlaces_shareEXP w p exp)
  tracks := tracks_shareEXP h.tracks p hexp
  reaches q hq hmode := by
    have hbefore := h.reaches q hq hmode
    rw [paid_shareEXP, shared_shareEXP, List.sum_append, List.sum_append]
    split_ifs with hpq
    · subst hpq
      rw [← h.places.present] at hq
      have hshare : exp ≤ (k.rewards w p exp).sum := (rewards_bounds hq hmode).1
      rw [List.sum_singleton]
      omega
    · rw [List.sum_nil]
      omega

theorem Accounted.direct (h : Accounted k w₀ w) (c : ℕ) (hreward : 0 ≤ reward) :
    Accounted k w₀ (Kill.direct c reward w) where
  places := h.places.trans ((samePlaces_setEarner _ _ _).record _)
  tracks := tracks_give h.tracks hreward (fun _ => rfl) fun _ => rfl
  reaches p hp hmode := by
    rw [Kill.direct, paid_record, shared_record]
    change (w.paid p ++ []).sum ≤ (w.shared p ++ []).sum
    rw [List.append_nil, List.append_nil]
    exact h.reaches p hp hmode

theorem Accounted.collect (h : Accounted k w₀ w) (p : ℕ) (reward : ℤ) :
    Accounted k w₀ (Kill.collect p reward w) where
  places := h.places.trans ((samePlaces_setExpsum _ _ _).record _)
  tracks := tracks_record (w := w.setExpsum p _) h.tracks fun _ => rfl
  reaches q hq hmode := by
    rw [Kill.collect, paid_record, shared_record]
    change (w.paid q ++ []).sum ≤ (w.shared q ++ []).sum
    rw [List.append_nil, List.append_nil]
    exact h.reaches q hq hmode

theorem Accounted.settle (h : Accounted k w₀ w) (c : ℕ) : Accounted k w₀ (k.settle c w) :=
  ⟨h.places.trans (samePlaces_setEarner _ _ _), tracks_settle h.tracks c, h.reaches⟩

theorem Accounted.insertParty (h : Accounted k w₀ w) (p : ℕ) :
    Accounted k w₀ (Kill.insertParty p w) :=
  ⟨⟨h.places.map, h.places.nowhere, h.places.canInteractCombat, h.places.party,
    h.places.members⟩, h.tracks, h.reaches⟩

theorem Accounted.setExpsum (h : Accounted k w₀ w) (p : ℕ) (exp : ℤ) :
    Accounted k w₀ (w.setExpsum p exp) :=
  ⟨h.places.trans (samePlaces_setExpsum p exp w), h.tracks, h.reaches⟩

end Kill

end ArenaServ
