import ArenaServ.KillAccounts
import Mathlib.Tactic.NormNum

/-!
# Experience conserved by a kill

What a kill gives out exceeds the experience of the NPC by rounding only, and what was
collected for a party is paid to it once, in the first three share modes. In the fourth the
reward is multiplied by the number of attackers, and parties are not paid.
-/

namespace ArenaServ
namespace Kill

open KillWorld

variable {k : Kill} {w w' w₀ : KillWorld} {p q c : ℕ} {r exp entitled : ℤ}

/-! ## What the attackers are entitled to -/

/-- The reward of an attacker, before it is routed to its party. -/
def reward (k : Kill) (c : ℕ) (opponent : Opponent) : ℤ :=
  if k.sharemode = 0 then if c = k.killer then k.rewardAll else 0
  else if k.sharemode = 1 then if some c = k.mostDamage then k.rewardAll else 0
  else if k.sharemode = 2 then k.rewardFair opponent
  else if k.sharemode = 3 then k.rewardEqual
  else 0

/-- The reward of a character on the map, if it is an attacker. -/
def rewardOf (k : Kill) (c : ℕ) : ℤ :=
  match k.opponentOf c with
  | none => 0
  | some opponent => k.reward c opponent

/-- The experience of the NPC, after `ExpRate`. -/
def baseReward (k : Kill) : ℚ := k.exp * k.exprate

theorem baseReward_nonneg : 0 ≤ k.baseReward :=
  mul_nonneg (Nat.cast_nonneg _) k.exprate_nonneg

theorem rewardAll_nonneg : 0 ≤ k.rewardAll := Int.ceil_nonneg k.baseReward_nonneg

theorem rewardFair_nonneg (opponent : Opponent) : 0 ≤ k.rewardFair opponent :=
  Int.ceil_nonneg (mul_nonneg k.baseReward_nonneg (by positivity))

theorem rewardEqual_nonneg : 0 ≤ k.rewardEqual :=
  Int.ceil_nonneg (mul_nonneg k.baseReward_nonneg (by positivity))

theorem reward_nonneg (c : ℕ) (opponent : Opponent) : 0 ≤ k.reward c opponent := by
  rw [reward]
  split_ifs
  · exact rewardAll_nonneg
  · exact le_rfl
  · exact rewardAll_nonneg
  · exact le_rfl
  · exact rewardFair_nonneg opponent
  · exact rewardEqual_nonneg
  · exact le_rfl

theorem rewardOf_of_none (h : k.opponentOf c = none) : k.rewardOf c = 0 := by
  rw [rewardOf, h]

theorem rewardOf_of_some {opponent : Opponent} (h : k.opponentOf c = some opponent) :
    k.rewardOf c = k.reward c opponent := by
  rw [rewardOf, h]

theorem rewardOf_nonneg (c : ℕ) : 0 ≤ k.rewardOf c := by
  cases h : k.opponentOf c with
  | none => exact (rewardOf_of_none h).ge
  | some opponent =>
      rw [rewardOf_of_some h]
      exact reward_nonneg c opponent

/-! ## The loop over the characters -/

/-- What holds while the parties of the kill are collected: a party outside of them is owed
nothing, and one of them what was collected for it. -/
structure Collecting (k : Kill) (entitled : ℤ) (w : KillWorld) : Prop where
  nodup : w.parties.Nodup
  unpaid : ∀ p ∈ w.parties, w.paid p = []
  outside : ∀ p, p ∉ w.parties → (w.party p).tempExpsum = 0 ∧ w.collected p = []
  inside : ∀ p ∈ w.parties,
    (w.party p).tempExpsum = (w.collected p).sum ∧ 0 ≤ (w.party p).tempExpsum
  bound : w.granted + w.owed ≤ entitled + w.rewardedMembers

theorem Collecting.shareEXP (h : Collecting k entitled w) (hparties : w.parties = []) (p : ℕ)
    (hexp : 0 ≤ exp) : Collecting k (entitled + exp) (k.shareEXP p exp w) := by
  have hbound := h.bound
  have howed : (k.shareEXP p exp w).owed = w.owed := by
    rw [owed, owed, parties_shareEXP, party_shareEXP]
  have hrewards := sum_rewards_le (k := k) (w := w) (p := p) hexp
  constructor
  · rw [parties_shareEXP]
    exact h.nodup
  · rw [parties_shareEXP, hparties]
    exact fun _ hp => nomatch hp
  · intro q hq
    rw [parties_shareEXP] at hq
    rw [party_shareEXP, collected_shareEXP]
    exact h.outside q hq
  · rw [parties_shareEXP, hparties]
    exact fun _ hp => nomatch hp
  · rw [granted_shareEXP, rewardedMembers_shareEXP, howed]
    push_cast
    omega

theorem Collecting.direct (h : Collecting k entitled w) (c : ℕ) (r : ℤ) :
    Collecting k (entitled + r) (Kill.direct c r w) := by
  have hbound := h.bound
  rw [Kill.direct]
  refine ⟨h.nodup, ?_, ?_, ?_, ?_⟩
  · intro p hp
    rw [paid_record]
    exact (List.append_nil _).trans (h.unpaid p hp)
  · intro p hp
    rw [collected_record]
    exact ⟨(h.outside p hp).1, (List.append_nil _).trans (h.outside p hp).2⟩
  · intro p hp
    rw [collected_record]
    change _ = (w.collected p ++ []).sum ∧ _
    rw [List.append_nil]
    exact h.inside p hp
  · rw [granted_record, rewardedMembers_record]
    change w.granted + r + w.owed ≤ entitled + r + (w.rewardedMembers + 0 : ℕ)
    push_cast
    omega

theorem Collecting.mono (h : Collecting k entitled w) (hr : 0 ≤ r) :
    Collecting k (entitled + r) w :=
  ⟨h.nodup, h.unpaid, h.outside, h.inside, h.bound.trans (by omega)⟩

theorem Collecting.settle (h : Collecting k entitled w) (c : ℕ) :
    Collecting k entitled (k.settle c w) :=
  ⟨h.nodup, h.unpaid, h.outside, h.inside, h.bound⟩

/-- What a sum over distinct keys becomes when the value of one of them is raised. -/
theorem sum_map_update {l : List ℕ} (hl : l.Nodup) {f g : ℕ → ℤ} {p : ℕ} {r : ℤ}
    (hp : g p = f p + r) (hg : ∀ q, q ≠ p → g q = f q) :
    (l.map g).sum = (l.map f).sum + if p ∈ l then r else 0 := by
  induction l with
  | nil => rfl
  | cons q l ih =>
      rw [List.nodup_cons] at hl
      rw [List.map_cons, List.sum_cons, List.map_cons, List.sum_cons, ih hl.2]
      rcases eq_or_ne q p with rfl | hne
      · rw [if_neg hl.1, if_pos List.mem_cons_self, hp]
        omega
      · rw [hg q hne]
        have hmem : p ∈ q :: l ↔ p ∈ l := by simp [hne.symm]
        simp only [hmem]
        omega

theorem tempExpsum_collect (p : ℕ) (r : ℤ) (w : KillWorld) (q : ℕ) :
    ((Kill.collect p r w).party q).tempExpsum =
      (w.party q).tempExpsum + if q = p then r else 0 := by
  change ((Function.update w.party p _) q).tempExpsum = _
  rcases eq_or_ne q p with rfl | hne
  · rw [Function.update_self, if_pos rfl]
  · rw [Function.update_of_ne hne, if_neg hne, add_zero]

theorem collected_collect (p : ℕ) (r : ℤ) (w : KillWorld) (q : ℕ) :
    (Kill.collect p r w).collected q =
      w.collected q ++ if p = q then [r] else [] := by
  rw [Kill.collect, collected_record, ExpEvent.collectedFor]
  split_ifs <;> rfl

theorem mem_insertParty : q ∈ (Kill.insertParty p w).parties ↔ q = p ∨ q ∈ w.parties := by
  rw [Kill.insertParty]
  dsimp only
  split_ifs with hp
  · exact ⟨Or.inr, fun h => h.elim (fun heq => heq ▸ hp) id⟩
  · rw [List.mem_orderedInsert]

/-- A reward that is noted down for a party of the kill. -/
theorem Collecting.collect (h : Collecting k entitled w) (p : ℕ) (hpaid : w.paid p = [])
    (hr : 0 ≤ r) :
    Collecting k (entitled + r) (Kill.insertParty p (Kill.collect p r w)) := by
  have hparties : (Kill.collect p r w).parties = w.parties := rfl
  have hpaid' : ∀ q, (Kill.insertParty p (Kill.collect p r w)).paid q = w.paid q := by
    intro q
    change (Kill.collect p r w).paid q = _
    rw [Kill.collect, paid_record]
    exact List.append_nil _
  have hold : ∀ q, (w.party q).tempExpsum = (w.collected q).sum ∧
      0 ≤ (w.party q).tempExpsum := by
    intro q
    by_cases hq : q ∈ w.parties
    · exact h.inside q hq
    · rw [(h.outside q hq).1, (h.outside q hq).2]
      exact ⟨rfl, le_rfl⟩
  have hsum : (Kill.insertParty p (Kill.collect p r w)).owed = w.owed + r := by
    have htemp : ((Kill.collect p r w).party p).tempExpsum = (w.party p).tempExpsum + r := by
      rw [tempExpsum_collect, if_pos rfl]
    have hother : ∀ q, q ≠ p →
        ((Kill.collect p r w).party q).tempExpsum = (w.party q).tempExpsum := by
      intro q hq
      rw [tempExpsum_collect, if_neg hq, add_zero]
    have hsame := sum_map_update h.nodup (f := fun q => (w.party q).tempExpsum) htemp hother
    rw [owed, owed, Kill.insertParty]
    dsimp only
    rw [hparties]
    split_ifs with hp
    · rw [hsame, if_pos hp]
    · rw [((List.perm_orderedInsert (· ≤ ·) p w.parties).map _).sum_eq, List.map_cons,
        List.sum_cons, hsame, if_neg hp, htemp, (h.outside p hp).1]
      omega
  refine ⟨?_, ?_, ?_, ?_, ?_⟩
  · rw [Kill.insertParty]
    dsimp only
    rw [hparties]
    split_ifs with hp
    · exact h.nodup
    · rw [(List.perm_orderedInsert (· ≤ ·) p w.parties).nodup_iff]
      exact List.nodup_cons.mpr ⟨hp, h.nodup⟩
  · intro q hq
    rw [hpaid']
    rw [mem_insertParty] at hq
    rcases hq with rfl | hq
    · exact hpaid
    · exact h.unpaid q hq
  · intro q hq
    rw [mem_insertParty, not_or, hparties] at hq
    change ((Kill.collect p r w).party q).tempExpsum = 0 ∧
      (Kill.collect p r w).collected q = []
    rw [tempExpsum_collect, collected_collect, if_neg hq.1, if_neg (Ne.symm hq.1), add_zero,
      List.append_nil]
    exact h.outside q hq.2
  · intro q hq
    change ((Kill.collect p r w).party q).tempExpsum =
      ((Kill.collect p r w).collected q).sum ∧ 0 ≤ ((Kill.collect p r w).party q).tempExpsum
    rw [tempExpsum_collect, collected_collect, List.sum_append, (hold q).1]
    have hnonneg := (hold q).2
    rw [(hold q).1] at hnonneg
    by_cases hqp : q = p
    · rw [if_pos hqp, if_pos hqp.symm, List.sum_singleton]
      exact ⟨rfl, by omega⟩
    · rw [if_neg hqp, if_neg (Ne.symm hqp), List.sum_nil]
      exact ⟨rfl, by omega⟩
  · rw [hsum]
    change (Kill.collect p r w).granted + _ ≤ _ + ((Kill.collect p r w).rewardedMembers : ℤ)
    rw [Kill.collect, granted_record, rewardedMembers_record]
    have hbound := h.bound
    change w.granted + 0 + (w.owed + r) ≤ entitled + r + (w.rewardedMembers + 0 : ℕ)
    push_cast
    omega

/-- The loop over the characters: only the third share mode collects, and it pays nobody. -/
structure Looping (k : Kill) (w₀ : KillWorld) (entitled : ℤ) (w : KillWorld) : Prop where
  accounted : Accounted k w₀ w
  collecting : Collecting k entitled w
  parties : k.sharemode ≠ 2 → w.parties = []
  paid : k.sharemode = 2 → ∀ p, w.paid p = []

theorem paid_direct (c : ℕ) (r : ℤ) (w : KillWorld) (p : ℕ) :
    (Kill.direct c r w).paid p = w.paid p := by
  rw [Kill.direct, paid_record]
  exact List.append_nil _

theorem Looping.direct (h : Looping k w₀ entitled w) (c : ℕ) (hr : 0 ≤ r) :
    Looping k w₀ (entitled + r) (Kill.direct c r w) where
  accounted := h.accounted.direct c hr
  collecting := h.collecting.direct c r
  parties := h.parties
  paid hmode p := (paid_direct c r w p).trans (h.paid hmode p)

theorem Looping.mono (h : Looping k w₀ entitled w) (hr : 0 ≤ r) :
    Looping k w₀ (entitled + r) w :=
  ⟨h.accounted, h.collecting.mono hr, h.parties, h.paid⟩

theorem Looping.handOut (h : Looping k w₀ entitled w) (hmode : k.sharemode ≠ 2) (c : ℕ)
    (hr : 0 ≤ r) : Looping k w₀ (entitled + r) (k.handOut c r w) := by
  rw [Kill.handOut]
  split_ifs
  · cases k.sharingParty (w.fighter c) with
    | none => exact h.direct c hr
    | some p =>
        refine ⟨h.accounted.shareEXP p hr, h.collecting.shareEXP (h.parties hmode) p hr, ?_,
          fun htwo => absurd htwo hmode⟩
        exact fun _ => (parties_shareEXP w p r).trans (h.parties hmode)
  · exact h.mono hr

theorem Looping.fairShare (h : Looping k w₀ entitled w) (hmode : k.sharemode = 2) (c : ℕ)
    (hr : 0 ≤ r) : Looping k w₀ (entitled + r) (k.fairShare c r w) := by
  rw [Kill.fairShare]
  split_ifs
  · cases k.sharingParty (w.fighter c) with
    | none => exact h.direct c hr
    | some p =>
        refine ⟨(h.accounted.collect p r).insertParty p,
          h.collecting.collect p (h.paid hmode p) hr, fun hne => absurd hmode hne, ?_⟩
        intro _ q
        change (Kill.collect p r w).paid q = []
        rw [Kill.collect, paid_record]
        exact (List.append_nil _).trans (h.paid hmode q)
  · exact h.mono hr

theorem Looping.rewardCharacter (h : Looping k w₀ entitled w)
    (hmode : k.sharemode = 3 → k.rewardEqual = 0) (c : ℕ) (opponent : Opponent) :
    Looping k w₀ (entitled + k.reward c opponent) (k.rewardCharacter c opponent w) := by
  rw [Kill.rewardCharacter, Kill.reward]
  split_ifs with h0 hkiller h1 hmost h2 h3
  · exact h.handOut (by omega) c rewardAll_nonneg
  · exact h.mono le_rfl
  · exact h.handOut (by omega) c rewardAll_nonneg
  · exact h.mono le_rfl
  · exact h.fairShare h2 c (rewardFair_nonneg opponent)
  · rw [hmode h3, Kill.equalShare, if_neg (lt_irrefl 0)]
    exact h.mono le_rfl
  · exact h.mono le_rfl

theorem Looping.settle (h : Looping k w₀ entitled w) (c : ℕ) :
    Looping k w₀ entitled (k.settle c w) :=
  ⟨h.accounted.settle c, h.collecting.settle c, h.parties, h.paid⟩

theorem Looping.visit (h : Looping k w₀ entitled w)
    (hmode : k.sharemode = 3 → k.rewardEqual = 0) (c : ℕ) :
    Looping k w₀ (entitled + k.rewardOf c) (k.visit w c) := by
  rw [Kill.visit]
  cases hc : k.opponentOf c with
  | none =>
      rw [rewardOf_of_none hc]
      exact h.mono le_rfl
  | some opponent =>
      rw [rewardOf_of_some hc]
      dsimp only
      split_ifs
      · exact (h.rewardCharacter hmode c opponent).settle c
      · exact h.mono (reward_nonneg c opponent)

theorem Looping.foldl (hmode : k.sharemode = 3 → k.rewardEqual = 0)
    (h : Looping k w₀ entitled w) (cs : List ℕ) :
    Looping k w₀ (entitled + (cs.map k.rewardOf).sum) (cs.foldl k.visit w) := by
  induction cs generalizing w entitled with
  | nil =>
      rw [List.map_nil, List.sum_nil, add_zero]
      exact h
  | cons c cs ih =>
      rw [List.map_cons, List.sum_cons, ← add_assoc]
      exact ih (h.visit hmode c)

/-! ## The parties are paid -/

/-- What holds while the parties `ps` are still to be paid. -/
structure Paying (k : Kill) (w₀ : KillWorld) (entitled : ℤ) (ps : List ℕ) (w : KillWorld) :
    Prop where
  accounted : Accounted k w₀ w
  nodup : ps.Nodup
  unpaid : ∀ p ∈ ps, w.paid p = [] ∧ (w.party p).tempExpsum = (w.collected p).sum ∧
    0 ≤ (w.party p).tempExpsum
  done : ∀ p, p ∉ ps → (w.party p).tempExpsum = 0 ∧
    (w.collected p ≠ [] → w.paid p = [(w.collected p).sum])
  bound : w.granted + (ps.map fun p => (w.party p).tempExpsum).sum ≤ entitled + w.rewardedMembers

theorem Looping.paying (h : Looping k w₀ entitled w) : Paying k w₀ entitled w.parties w where
  accounted := h.accounted
  nodup := h.collecting.nodup
  unpaid p hp := ⟨h.collecting.unpaid p hp, h.collecting.inside p hp⟩
  done p hp := ⟨(h.collecting.outside p hp).1,
    fun hne => absurd (h.collecting.outside p hp).2 hne⟩
  bound := h.collecting.bound

theorem Paying.payParty {ps : List ℕ} (h : Paying k w₀ entitled (p :: ps) w) :
    Paying k w₀ entitled ps (k.payParty w p) := by
  obtain ⟨hpaid, htemp, hnonneg⟩ := h.unpaid p List.mem_cons_self
  have hnodup := List.nodup_cons.mp h.nodup
  have htemp' : ∀ q, q ≠ p →
      ((k.payParty w p).party q).tempExpsum = (w.party q).tempExpsum := by
    intro q hq
    rw [Kill.payParty, setExpsum]
    dsimp only
    rw [Function.update_of_ne hq, party_shareEXP]
  have hpaid' : ∀ q, (k.payParty w p).paid q =
      w.paid q ++ if p = q then [(w.party p).tempExpsum] else [] := paid_shareEXP w p _
  have hcollected : ∀ q, (k.payParty w p).collected q = w.collected q := collected_shareEXP w p _
  refine ⟨(h.accounted.shareEXP p hnonneg).setExpsum p 0, hnodup.2, ?_, ?_, ?_⟩
  · intro q hq
    have hne : q ≠ p := ne_of_mem_of_not_mem hq hnodup.1
    rw [hpaid', hcollected, htemp' q hne, if_neg (Ne.symm hne), List.append_nil]
    exact h.unpaid q (List.mem_cons_of_mem _ hq)
  · intro q hq
    rw [hpaid', hcollected]
    rcases eq_or_ne q p with rfl | hne
    · rw [if_pos rfl, hpaid, htemp]
      refine ⟨?_, fun _ => rfl⟩
      rw [Kill.payParty, setExpsum]
      dsimp only
      rw [Function.update_self]
    · rw [if_neg (Ne.symm hne), List.append_nil, htemp' q hne]
      apply h.done q
      rw [List.mem_cons, not_or]
      exact ⟨hne, hq⟩
  · have hbound := h.bound
    have hsum : (ps.map fun q => ((k.payParty w p).party q).tempExpsum) =
        ps.map fun q => (w.party q).tempExpsum :=
      List.map_congr_left fun q hq => htemp' q (ne_of_mem_of_not_mem hq hnodup.1)
    have hrewards := sum_rewards_le (k := k) (w := w) (p := p) hnonneg
    have hgranted : (k.payParty w p).granted =
        w.granted + (k.rewards w p (w.party p).tempExpsum).sum := granted_shareEXP w p _
    have hmembers : (k.payParty w p).rewardedMembers =
        w.rewardedMembers + (k.present w p).length := rewardedMembers_shareEXP w p _
    rw [List.map_cons, List.sum_cons] at hbound
    rw [hsum, hgranted, hmembers]
    push_cast
    omega

theorem Paying.foldl {ps : List ℕ} (h : Paying k w₀ entitled ps w) :
    Paying k w₀ entitled [] (ps.foldl k.payParty w) := by
  induction ps generalizing w with
  | nil => exact h
  | cons p ps ih => exact ih h.payParty

/-! ## The sum of the rewards -/

theorem one_le_length : (1 : ℚ) ≤ k.damagelist.length := by
  have hne : k.damagelist ≠ [] := by
    intro hnil
    have hmem := k.killer_mem
    rw [hnil] at hmem
    exact nomatch hmem
  exact_mod_cast List.length_pos_of_ne_nil hne

/-- At most one of distinct characters takes all. -/
theorem sum_le_of_single {l : List ℕ} (hl : l.Nodup) {f : ℕ → ℤ} {a : ℕ} (hr : 0 ≤ r)
    (hf : ∀ c, f c ≤ if c = a then r else 0) : (l.map f).sum ≤ r := by
  have hsum : (l.map f).sum ≤ if a ∈ l then r else 0 := by
    induction l with
    | nil => exact le_rfl
    | cons c l ih =>
        rw [List.nodup_cons] at hl
        have hc := hf c
        have hrest := ih hl.2
        rw [List.map_cons, List.sum_cons]
        rcases eq_or_ne c a with rfl | hne
        · rw [if_neg hl.1] at hrest
          rw [if_pos rfl] at hc
          rw [if_pos List.mem_cons_self]
          omega
        · have hmem : a ∈ c :: l ↔ a ∈ l := by simp [hne.symm]
          rw [if_neg hne] at hc
          simp only [hmem]
          omega
  refine hsum.trans ?_
  split_ifs
  · exact le_rfl
  · exact hr

theorem rewardOf_le {a : ℕ}
    (h : ∀ opponent, k.reward c opponent ≤ if c = a then k.rewardAll else 0) :
    k.rewardOf c ≤ if c = a then k.rewardAll else 0 := by
  cases hc : k.opponentOf c with
  | none =>
      rw [rewardOf_of_none hc]
      split_ifs
      · exact rewardAll_nonneg
      · exact le_rfl
  | some opponent =>
      rw [rewardOf_of_some hc]
      exact h opponent

theorem rewardAll_lt : (k.rewardAll : ℚ) < k.baseReward + k.damagelist.length := by
  have hceil : (k.rewardAll : ℚ) < k.baseReward + 1 := Int.ceil_lt_add_one _
  have hlength := one_le_length (k := k)
  linarith

/-- What the characters on the map have done to the NPC. -/
def opponentsHere (k : Kill) : List Opponent :=
  k.characters.filterMap k.opponentOf

theorem attacker_of_opponentOf {opponent : Opponent}
    (h : k.opponentOf c = some opponent) : opponent.attacker = c := by
  simpa using List.find?_some h

theorem opponentsHere_subperm : k.opponentsHere.Subperm k.damagelist := by
  apply List.Nodup.subperm
  · apply k.characters_nodup.filterMap
    intro c d opponent hc hd
    rw [← attacker_of_opponentOf hc, ← attacker_of_opponentOf hd]
  · intro opponent hmem
    obtain ⟨c, -, hc⟩ := List.mem_filterMap.mp hmem
    exact List.mem_of_find?_eq_some hc

theorem sum_damage_le : (k.opponentsHere.map (·.damage)).sum ≤ k.totaldamage := by
  obtain ⟨l, hperm, hsub⟩ := opponentsHere_subperm (k := k)
  rw [k.totaldamage_eq, ← (hperm.map _).sum_eq]
  exact (hsub.map _).sum_le_sum fun _ _ => Nat.zero_le _

theorem sum_rewardOf_fair (hmode : k.sharemode = 2) (cs : List ℕ) :
    (cs.map k.rewardOf).sum =
      ((cs.filterMap k.opponentOf).map k.rewardFair).sum := by
  induction cs with
  | nil => rfl
  | cons c cs ih =>
      rw [List.map_cons, List.sum_cons, ih]
      cases hc : k.opponentOf c with
      | none => rw [List.filterMap_cons_none hc, rewardOf_of_none hc, zero_add]
      | some opponent =>
          rw [List.filterMap_cons_some hc, List.map_cons, List.sum_cons, rewardOf_of_some hc,
            reward, hmode]
          rfl

/-- The parts of the damage make up at most the whole reward. -/
theorem sum_parts_le :
    (k.opponentsHere.map fun o => k.baseReward * (o.damage / k.totaldamage)).sum ≤
      k.baseReward := by
  have hsum (l : List Opponent) :
      (l.map fun o => k.baseReward * (o.damage / k.totaldamage)).sum =
        k.baseReward * (((l.map (·.damage)).sum : ℕ) / k.totaldamage) := by
    induction l with
    | nil => simp
    | cons o l ih =>
        rw [List.map_cons, List.sum_cons, ih, List.map_cons, List.sum_cons]
        push_cast
        ring
  have hle : (((k.opponentsHere.map (·.damage)).sum : ℕ) : ℚ) ≤ k.totaldamage := by
    exact_mod_cast sum_damage_le (k := k)
  rw [hsum]
  apply mul_le_of_le_one_right k.baseReward_nonneg
  exact div_le_one_of_le₀ hle (Nat.cast_nonneg _)

theorem sum_rewardOf_lt (hmode : k.sharemode = 3 → k.rewardEqual = 0) :
    (((k.characters.map k.rewardOf).sum : ℤ) : ℚ) < k.baseReward + k.damagelist.length := by
  have hnone : (0 : ℚ) < k.baseReward + k.damagelist.length := by
    have hbase := k.baseReward_nonneg
    have hlength := one_le_length (k := k)
    linarith
  -- in the first two modes one attacker takes all
  have hsingle (a : ℕ) (h : ∀ c, k.rewardOf c ≤ if c = a then k.rewardAll else 0) :
      (((k.characters.map k.rewardOf).sum : ℤ) : ℚ) < k.baseReward + k.damagelist.length := by
    have hle := sum_le_of_single k.characters_nodup rewardAll_nonneg h
    exact lt_of_le_of_lt (by exact_mod_cast hle) rewardAll_lt
  by_cases h0 : k.sharemode = 0
  · apply hsingle k.killer
    intro c
    apply rewardOf_le
    intro opponent
    rw [reward, if_pos h0]
  · by_cases h1 : k.sharemode = 1
    · cases hmost : k.mostDamage with
      | none =>
          apply hsingle k.killer
          intro c
          apply rewardOf_le
          intro opponent
          rw [reward, if_neg h0, if_pos h1, hmost, if_neg (Option.some_ne_none c)]
          split_ifs
          · exact rewardAll_nonneg
          · exact le_rfl
      | some a =>
          apply hsingle a
          intro c
          apply rewardOf_le
          intro opponent
          rw [reward, if_neg h0, if_pos h1, hmost]
          simp only [Option.some.injEq, le_refl]
    · by_cases h2 : k.sharemode = 2
      · rw [sum_rewardOf_fair h2]
        by_cases hempty : k.opponentsHere = []
        · change (((k.opponentsHere.map k.rewardFair).sum : ℤ) : ℚ) < _
          rw [hempty]
          simpa using hnone
        · have hlt := sum_ceil_lt (fun o : Opponent => k.baseReward * (o.damage / k.totaldamage))
            hempty
          have hparts := sum_parts_le (k := k)
          have hlength : (k.opponentsHere.length : ℚ) ≤ k.damagelist.length := by
            exact_mod_cast (opponentsHere_subperm (k := k)).length_le
          have hsame : (((k.opponentsHere.map k.rewardFair).sum : ℤ) : ℚ) <
              (k.opponentsHere.map fun o => k.baseReward * (o.damage / k.totaldamage)).sum +
                k.opponentsHere.length := hlt
          change (((k.opponentsHere.map k.rewardFair).sum : ℤ) : ℚ) < _
          linarith
      · apply hsingle k.killer
        intro c
        apply rewardOf_le
        intro opponent
        have hzero : k.reward c opponent = 0 := by
          rw [reward, if_neg h0, if_neg h1, if_neg h2]
          split_ifs with h3
          · exact hmode h3
          · rfl
        rw [hzero]
        split_ifs
        · exact rewardAll_nonneg
        · exact le_rfl

/-! ## What is promised -/

/-- What is promised of the rewards of a kill: they exceed the experience of the NPC by the
rounding, characters whose experience does not reach `MaxExp` have what was given to them, no
party is owed anything, and what was collected for a party was paid to it once, and reaches
its members if one is present. -/
structure Conserves (k : Kill) (w w' : KillWorld) : Prop where
  total : (w'.granted : ℚ) < k.baseReward + k.damagelist.length + w'.rewardedMembers
  tracks : Tracks k w w'
  cleared : ∀ p, (w'.party p).tempExpsum = 0
  paidOnce : ∀ p, w'.collected p ≠ [] → w'.paid p = [(w'.collected p).sum]
  reaches : ∀ p, k.present w p ≠ [] → k.partysharemode = 1 ∨ k.partysharemode = 2 →
    (w'.paid p).sum ≤ (w'.shared p).sum

/-- The attackers that are on the map. -/
def attackersHere (k : Kill) : List ℕ := k.characters.filter fun c => (k.opponentOf c).isSome

/-- If the experience is split between all attackers, nobody who is here shares with a party,
and as many times the whole experience as there are attackers, for each one here, is not too
much. -/
def Fair (k : Kill) (w : KillWorld) : Prop :=
  k.sharemode = 3 → k.baseReward ≠ 0 →
    (∀ c ∈ k.attackersHere, k.sharingParty (w.fighter c) = none) ∧
      (k.attackersHere.length * ⌈k.baseReward * k.damagelist.length⌉ : ℚ) <
        k.baseReward + k.damagelist.length

/-- The world in which `NPC::Killed` begins. -/
def begun (w : KillWorld) : KillWorld := { w with parties := [], log := [] }

theorem accounted_begun (w : KillWorld) : Accounted k w (begun w) where
  places := ⟨fun _ => rfl, fun _ => rfl, fun _ => rfl, fun _ => rfl, fun _ => rfl⟩
  tracks _ _ := (add_zero _).symm
  reaches _ _ _ := le_rfl

theorem looping_begun (h : ∀ p, (w.party p).tempExpsum = 0) : Looping k w 0 (begun w) where
  accounted := accounted_begun w
  collecting := ⟨List.nodup_nil, (fun _ hp => nomatch hp), fun p _ => ⟨h p, rfl⟩,
    (fun _ hp => nomatch hp), le_rfl⟩
  parties _ := rfl
  paid _ _ := rfl

theorem conserves_killed (h : ∀ p, (w.party p).tempExpsum = 0)
    (hmode : k.sharemode = 3 → k.rewardEqual = 0) : Conserves k w (k.killed w) := by
  have hloop := (looping_begun (k := k) h).foldl hmode k.characters
  have hpaid := hloop.paying.foldl
  have hsum := sum_rewardOf_lt hmode
  have hbound := hpaid.bound
  rw [List.map_nil, List.sum_nil, zero_add, add_zero] at hbound
  have hcast : ((k.killed w).granted : ℚ) ≤
      ((k.characters.map k.rewardOf).sum : ℤ) + (k.killed w).rewardedMembers := by
    exact_mod_cast hbound
  exact ⟨by linarith, hpaid.accounted.tracks, fun p => (hpaid.done p List.not_mem_nil).1,
    fun p => (hpaid.done p List.not_mem_nil).2, hpaid.accounted.reaches⟩

/-! ## The fourth share mode -/

/-- What is noted down for an attacker. -/
def equalEvent (k : Kill) (w : KillWorld) (c : ℕ) : ExpEvent :=
  match k.sharingParty (w.fighter c) with
  | some p => .collect p k.rewardEqual
  | none => .direct c k.rewardEqual

/-- What holds in the fourth share mode after the characters `cs` were visited. -/
structure Splitting (k : Kill) (w₀ : KillWorld) (cs : List ℕ) (w : KillWorld) : Prop where
  accounted : Accounted k w₀ w
  parties : w.parties = []
  log : w.log = (cs.filter fun c => (k.opponentOf c).isSome).map (k.equalEvent w₀)
  temp : ∀ p, (w.party p).tempExpsum = (w.collected p).sum

theorem equalEvent_of_none (h : k.sharingParty (w.fighter c) = none) :
    k.equalEvent w c = .direct c k.rewardEqual := by
  rw [equalEvent, h]

theorem equalEvent_of_some (h : k.sharingParty (w.fighter c) = some p) :
    k.equalEvent w c = .collect p k.rewardEqual := by
  rw [equalEvent, h]

/-- An attacker's share is given to it, or noted down for its party only. -/
theorem Splitting.equalShare {cs : List ℕ} (h : Splitting k w₀ cs w) (hr : 0 < k.rewardEqual)
    (hc : (k.opponentOf c).isSome) :
    Splitting k w₀ (cs ++ [c]) (k.equalShare c k.rewardEqual w) := by
  have hplaces := h.accounted.places.sharingParty (k := k) c
  have hfilter : (cs ++ [c]).filter (fun c => (k.opponentOf c).isSome) =
      cs.filter (fun c => (k.opponentOf c).isSome) ++ [c] := by
    have hlast : [c].filter (fun c => (k.opponentOf c).isSome) = [c] :=
      List.filter_cons_of_pos hc
    rw [List.filter_append, hlast]
  rw [Kill.equalShare, if_pos hr]
  cases hparty : k.sharingParty (w.fighter c) with
  | none =>
      refine ⟨h.accounted.direct c hr.le, h.parties, ?_, ?_⟩
      · rw [hfilter, List.map_append, List.map_singleton, ← h.log,
          equalEvent_of_none (hplaces.symm.trans hparty)]
        rfl
      · intro p
        dsimp only
        rw [Kill.direct, collected_record]
        change _ = (w.collected p ++ []).sum
        rw [List.append_nil]
        exact h.temp p
  | some p =>
      refine ⟨h.accounted.collect p _, h.parties, ?_, ?_⟩
      · rw [hfilter, List.map_append, List.map_singleton, ← h.log,
          equalEvent_of_some (hplaces.symm.trans hparty)]
        rfl
      · intro q
        dsimp only
        rw [tempExpsum_collect, collected_collect, List.sum_append, h.temp q]
        rcases eq_or_ne q p with rfl | hne
        · rw [if_pos rfl, if_pos rfl, List.sum_singleton]
        · rw [if_neg hne, if_neg hne.symm, List.sum_nil]

theorem Splitting.visit {cs : List ℕ} (h : Splitting k w₀ cs w) (hmode : k.sharemode = 3)
    (hr : 0 < k.rewardEqual) (hexp : k.exp ≠ 0) (c : ℕ) :
    Splitting k w₀ (cs ++ [c]) (k.visit w c) := by
  rw [Kill.visit]
  cases hc : k.opponentOf c with
  | none =>
      refine ⟨h.accounted, h.parties, ?_, h.temp⟩
      rw [List.filter_append, List.filter_cons_of_neg (by rw [hc]; decide), List.filter_nil,
        List.append_nil]
      exact h.log
  | some opponent =>
      have hshare := h.equalShare hr (c := c) (by rw [hc]; rfl)
      have hreward : k.rewardCharacter c opponent w = k.equalShare c k.rewardEqual w := by
        rw [Kill.rewardCharacter, hmode]
        rfl
      dsimp only
      rw [if_pos hexp, hreward]
      exact ⟨hshare.accounted.settle c, hshare.parties, hshare.log, hshare.temp⟩

theorem Splitting.foldl {done : List ℕ} (h : Splitting k w₀ done w) (hmode : k.sharemode = 3)
    (hr : 0 < k.rewardEqual) (hexp : k.exp ≠ 0) (cs : List ℕ) :
    Splitting k w₀ (done ++ cs) (cs.foldl k.visit w) := by
  induction cs generalizing done w with
  | nil =>
      rw [List.append_nil]
      exact h
  | cons c cs ih =>
      rw [List.append_cons]
      exact ih (h.visit hmode hr hexp c)

theorem Splitting.rewardedMembers {cs : List ℕ} (h : Splitting k w₀ cs w) :
    w.rewardedMembers = 0 := by
  rw [KillWorld.rewardedMembers, h.log, List.countP_map, List.countP_eq_zero]
  intro c _
  change ¬ (k.equalEvent w₀ c).isShare = true
  rw [equalEvent]
  cases k.sharingParty (w₀.fighter c) with
  | none => exact Bool.false_ne_true
  | some p => exact Bool.false_ne_true

theorem Splitting.paid {cs : List ℕ} (h : Splitting k w₀ cs w) (p : ℕ) : w.paid p = [] := by
  rw [KillWorld.paid, h.log, List.filterMap_eq_nil_iff]
  intro e he
  obtain ⟨c, -, rfl⟩ := List.mem_map.mp he
  rw [equalEvent]
  cases k.sharingParty (w₀.fighter c) with
  | none => rfl
  | some p => rfl

theorem splitting_killed (h : ∀ p, (w.party p).tempExpsum = 0) (hmode : k.sharemode = 3)
    (hr : 0 < k.rewardEqual) (hexp : k.exp ≠ 0) :
    Splitting k w k.characters (k.killed w) := by
  have hbegun : Splitting k w [] (begun w) := ⟨accounted_begun w, rfl, rfl, h⟩
  have hloop := hbegun.foldl hmode hr hexp k.characters
  rw [List.nil_append] at hloop
  have hkilled : k.killed w = k.characters.foldl k.visit (begun w) := by
    change (k.characters.foldl k.visit (begun w)).parties.foldl k.payParty _ = _
    rw [hloop.parties]
    rfl
  rw [hkilled]
  exact hloop

/-- Without parties every attacker that is here is given the reward. -/
theorem Splitting.granted (h : Splitting k w₀ k.characters w)
    (hnone : ∀ c ∈ k.attackersHere, k.sharingParty (w₀.fighter c) = none) :
    w.granted = k.attackersHere.length * k.rewardEqual := by
  have hlog : w.log = k.attackersHere.map fun c => .direct c k.rewardEqual := by
    rw [h.log]
    exact List.map_congr_left fun c hc => equalEvent_of_none (hnone c hc)
  rw [KillWorld.granted, hlog, List.map_map]
  change (k.attackersHere.map fun _ => k.rewardEqual).sum = _
  rw [List.map_const', List.sum_replicate, nsmul_eq_mul]

theorem Splitting.conserves_iff (h : Splitting k w₀ k.characters w) :
    Conserves k w₀ w ↔
      (∀ c ∈ k.attackersHere, k.sharingParty (w₀.fighter c) = none) ∧
        (k.attackersHere.length * k.rewardEqual : ℚ) < k.baseReward + k.damagelist.length := by
  constructor
  · intro hcons
    have hnone : ∀ c ∈ k.attackersHere, k.sharingParty (w₀.fighter c) = none := by
      intro c hc
      rw [← Option.not_isSome_iff_eq_none]
      intro hsome
      obtain ⟨p, hp⟩ := Option.isSome_iff_exists.mp hsome
      have hevent : ExpEvent.collect p k.rewardEqual ∈ w.log := by
        rw [h.log, ← equalEvent_of_some hp]
        exact List.mem_map_of_mem hc
      have hcollected : k.rewardEqual ∈ w.collected p :=
        List.mem_filterMap.mpr ⟨_, hevent, if_pos rfl⟩
      have hpaid := hcons.paidOnce p (List.ne_nil_of_mem hcollected)
      rw [h.paid] at hpaid
      cases hpaid
    have htotal := hcons.total
    rw [h.granted hnone, h.rewardedMembers] at htotal
    push_cast at htotal
    exact ⟨hnone, by linarith⟩
  · rintro ⟨hnone, hlt⟩
    have hcollected : ∀ p, w.collected p = [] := by
      intro p
      rw [KillWorld.collected, h.log, List.filterMap_eq_nil_iff]
      intro e he
      obtain ⟨c, hc, rfl⟩ := List.mem_map.mp he
      rw [equalEvent_of_none (hnone c hc)]
      rfl
    refine ⟨?_, h.accounted.tracks, ?_, fun p hp => absurd (hcollected p) hp,
      h.accounted.reaches⟩
    · rw [h.granted hnone, h.rewardedMembers]
      push_cast
      linarith
    · intro p
      rw [h.temp, hcollected, List.sum_nil]

theorem rewardEqual_eq : k.rewardEqual = ⌈k.baseReward * k.damagelist.length⌉ := by
  rw [rewardEqual, baseReward, div_one]

theorem rewardEqual_pos_iff : 0 < k.rewardEqual ↔ k.baseReward ≠ 0 := by
  have hlength : (0 : ℚ) < k.damagelist.length := by
    have hone := one_le_length (k := k)
    linarith
  rw [rewardEqual_eq, Int.ceil_pos, mul_pos_iff_of_pos_right hlength]
  exact ⟨fun h => h.ne', fun h => lt_of_le_of_ne k.baseReward_nonneg h.symm⟩

/-- A kill gives out the experience of the NPC, up to rounding, and pays every party what was
collected for it, exactly when the experience is not split between all attackers, or there is
no party among them and it comes to little. -/
theorem conserves_killed_iff (k : Kill) (w : KillWorld)
    (h : ∀ p, (w.party p).tempExpsum = 0) : Conserves k w (k.killed w) ↔ k.Fair w := by
  by_cases hmode : k.sharemode = 3 ∧ k.baseReward ≠ 0
  · have hr := rewardEqual_pos_iff.mpr hmode.2
    have hexp : k.exp ≠ 0 := by
      intro hzero
      apply hmode.2
      rw [baseReward, hzero, Nat.cast_zero, zero_mul]
    rw [(splitting_killed h hmode.1 hr hexp).conserves_iff, rewardEqual_eq]
    exact ⟨fun hfair _ _ => hfair, fun hfair => hfair hmode.1 hmode.2⟩
  · apply iff_of_true
    · apply conserves_killed h
      intro h3
      have hzero : ¬ 0 < k.rewardEqual := fun hpos => hmode ⟨h3, rewardEqual_pos_iff.mp hpos⟩
      exact le_antisymm (not_lt.mp hzero) rewardEqual_nonneg
    · exact fun h3 hbase => absurd ⟨h3, hbase⟩ hmode

/-- Two attackers kill an NPC that is worth an experience of ten. -/
def twoAttackers (sharemode : ℤ) : Kill where
  rules := Earner.shippedRules
  exp := 10
  exprate := 1
  exprate_nonneg := zero_le_one
  sharemode := sharemode
  partysharemode := 2
  map := 5
  characters := [1, 2]
  characters_nodup := by decide
  damagelist := [⟨1, 30⟩, ⟨2, 10⟩]
  totaldamage := 40
  totaldamage_eq := rfl
  killer := 1
  killer_mem := List.mem_cons_self

/-- Characters on the map of the kill, without parties. -/
def fighters : KillWorld where
  fighter _ := ⟨Earner.newEarner, 5, false, true, none⟩
  party _ := ⟨[], List.nodup_nil, 0⟩
  parties := []
  log := []

theorem conserves_killed_twoAttackers :
    Conserves (twoAttackers 2) fighters ((twoAttackers 2).killed fighters) ↔
      (twoAttackers 2).Fair fighters :=
  conserves_killed_iff (twoAttackers 2) fighters fun _ => rfl

/-- Each of the two gets the whole experience twice. -/
theorem not_conserves_twoAttackers :
    (∀ p, (fighters.party p).tempExpsum = 0) ∧
      ¬ Conserves (twoAttackers 3) fighters ((twoAttackers 3).killed fighters) := by
  refine ⟨fun _ => rfl, ?_⟩
  have hbase : (twoAttackers 3).baseReward = 10 := by norm_num [baseReward, twoAttackers]
  have hreward : (twoAttackers 3).rewardEqual = 20 := by
    rw [rewardEqual_eq, hbase]
    norm_num [twoAttackers]
  have hsplit : Splitting (twoAttackers 3) fighters (twoAttackers 3).characters
      ((twoAttackers 3).killed fighters) :=
    splitting_killed (fun _ => rfl) rfl (by rw [hreward]; decide) (by decide)
  rw [hsplit.conserves_iff, hreward, hbase]
  rintro ⟨-, hlt⟩
  rw [show (twoAttackers 3).attackersHere = [1, 2] by decide] at hlt
  norm_num [twoAttackers] at hlt

end Kill

end ArenaServ
