import ArenaServ.KillRewards

/-!
# Who gets what an NPC drops

In two of the share modes a random number decides which attacker owns the item: in one of them it is
set against what has been dealt, in the other one against the number of attackers. Those who are out
of range are passed over, and nobody is drawn again.
-/

namespace ArenaServ

/-- The attackers of an NPC with what they have dealt, and who of them is in range of it. -/
structure DropLottery where
  damagelist : List Opponent
  nodup : (damagelist.map (·.attacker)).Nodup
  inRange : ℕ → Bool

namespace DropLottery
variable (l : DropLottery)

def totaldamage : ℕ := (l.damagelist.map (·.damage)).sum

/-- What `util::rand(0, size - 1)` can be, which is 0 for a size of 0. -/
def rolls (size : ℕ) : List ℕ := List.range (max size 1)

/-- The loop of share mode 2. -/
def winnerByDamage (inRange : ℕ → Bool) (rewardedHp : ℕ) : ℕ → List Opponent → Option ℕ
  | _, [] => none
  | countHp, o :: rest =>
      if inRange o.attacker then
        if countHp ≤ rewardedHp ∧ rewardedHp < o.damage then some o.attacker
        else winnerByDamage inRange rewardedHp (countHp + o.damage) rest
      else winnerByDamage inRange rewardedHp countHp rest

/-- The loop of share mode 3. -/
def winnerByCount (inRange : ℕ → Bool) (rand : ℕ) : ℕ → List Opponent → Option ℕ
  | _, [] => none
  | i, o :: rest =>
      if inRange o.attacker then
        if rand = i then some o.attacker else winnerByCount inRange rand (i + 1) rest
      else winnerByCount inRange rand i rest

/-- How many rolls there are, and who wins with each, in share mode 2 or 3. -/
def size (sharemode : ℤ) : ℕ :=
  if sharemode = 2 then l.totaldamage else l.damagelist.length

def winner (sharemode : ℤ) (roll : ℕ) : Option ℕ :=
  if sharemode = 2 then winnerByDamage l.inRange roll 0 l.damagelist
  else winnerByCount l.inRange roll 0 l.damagelist

/-- With how many rolls an attacker wins. -/
def wins (sharemode : ℤ) (c : ℕ) : ℕ :=
  (rolls (l.size sharemode)).countP fun roll => l.winner sharemode roll == some c

def SomeInRange : Prop := ∃ o ∈ l.damagelist, l.inRange o.attacker = true

def AllInRange : Prop := ∀ o ∈ l.damagelist, l.inRange o.attacker = true

/-- Every roll has a winner in range, and the attackers get their shares of the rolls. -/
structure Fair (sharemode : ℤ) : Prop where
  winner : ∀ roll ∈ rolls (l.size sharemode),
    ∃ c, l.winner sharemode roll = some c ∧ l.inRange c = true
  byDamage : sharemode = 2 → l.AllInRange →
    ∀ o ∈ l.damagelist, l.wins sharemode o.attacker = o.damage
  byCount : sharemode = 3 → ∀ o ∈ l.damagelist, ∀ p ∈ l.damagelist,
    l.inRange o.attacker = true → l.inRange p.attacker = true →
      l.wins sharemode o.attacker ≤ l.wins sharemode p.attacker + 1

variable {l} {inRange : ℕ → Bool} {roll c : ℕ} {list : List Opponent}

/-! ## Share mode 2 -/

theorem winnerByDamage_some {countHp : ℕ} (h : winnerByDamage inRange roll countHp list = some c) :
    ∃ o ∈ list, o.attacker = c ∧ inRange c = true ∧ roll < o.damage := by
  induction list generalizing countHp with
  | nil => cases h
  | cons o rest ih =>
      rw [winnerByDamage] at h
      split_ifs at h with hin hwins
      · obtain rfl := Option.some.inj h
        exact ⟨o, List.mem_cons_self, rfl, hin, hwins.2⟩
      all_goals
        obtain ⟨p, hp, hrest⟩ := ih h
        exact ⟨p, List.mem_cons_of_mem _ hp, hrest⟩

/-- Those who have dealt nothing do not win, and do not count. -/
theorem winnerByDamage_alone {front rest : List Opponent} {o : Opponent}
    (hfront : ∀ p ∈ front, p.damage = 0) (hin : inRange o.attacker = true)
    (hroll : roll < o.damage) :
    winnerByDamage inRange roll 0 (front ++ o :: rest) = some o.attacker := by
  induction front with
  | nil => rw [List.nil_append, winnerByDamage, if_pos hin, if_pos ⟨Nat.zero_le _, hroll⟩]
  | cons p front ih =>
      have hp : p.damage = 0 := hfront p List.mem_cons_self
      have hrest := ih fun q hq => hfront q (List.mem_cons_of_mem _ hq)
      have hnot : ¬ (0 ≤ roll ∧ roll < 0) := fun hwins => Nat.not_lt_zero _ hwins.2
      rw [List.cons_append, winnerByDamage, hp, Nat.add_zero, hrest, if_neg hnot, ite_self]

/-- An attacker among the others. -/
theorem total_eq {front rest : List Opponent} {o : Opponent}
    (h : l.damagelist = front ++ o :: rest) : l.totaldamage =
      (front.map (·.damage)).sum + (o.damage + (rest.map (·.damage)).sum) := by
  unfold totaldamage
  rw [h, List.map_append, List.sum_append, List.map_cons, List.sum_cons]

/-- One attacker has dealt everything, and the other ones nothing. -/
def OneDealtAll (l : DropLottery) : Prop :=
  ∃ o ∈ l.damagelist, l.inRange o.attacker = true ∧ 0 < o.damage ∧ o.damage = l.totaldamage

theorem oneDealtAll_of_winner
    (h : ∀ roll ∈ rolls l.totaldamage, ∃ c, winnerByDamage l.inRange roll 0 l.damagelist = some c) :
    l.OneDealtAll := by
  have hlast : l.totaldamage - 1 ∈ rolls l.totaldamage := by
    rw [rolls, List.mem_range]
    omega
  obtain ⟨c, hc⟩ := h _ hlast
  obtain ⟨o, ho, rfl, hin, hroll⟩ := winnerByDamage_some hc
  obtain ⟨front, rest, hsplit⟩ := List.append_of_mem ho
  have htotal := total_eq hsplit
  exact ⟨o, ho, hin, by omega, by omega⟩

/-- Who has dealt everything wins with every roll. -/
theorem winner_of_oneDealtAll {o : Opponent} (ho : o ∈ l.damagelist)
    (hin : l.inRange o.attacker = true) (hall : o.damage = l.totaldamage)
    (hroll : roll < l.totaldamage) :
    winnerByDamage l.inRange roll 0 l.damagelist = some o.attacker := by
  obtain ⟨front, rest, hsplit⟩ := List.append_of_mem ho
  have htotal := total_eq hsplit
  rw [hsplit]
  apply winnerByDamage_alone _ hin (by omega)
  have hzero : (front.map (·.damage)).sum = 0 := by omega
  intro p hp
  exact List.sum_eq_zero_iff_forall_eq_nat.mp hzero _ (List.mem_map_of_mem hp)

/-- Beside somebody who has dealt everything nobody has dealt anything. -/
theorem damage_eq_zero {o p : Opponent} (ho : o ∈ l.damagelist) (hp : p ∈ l.damagelist)
    (hall : o.damage = l.totaldamage) (hne : p.attacker ≠ o.attacker) : p.damage = 0 := by
  obtain ⟨front, rest, hsplit⟩ := List.append_of_mem ho
  have htotal := total_eq hsplit
  have hother : p ∈ front ++ rest := by
    rw [hsplit, List.mem_append, List.mem_cons] at hp
    rcases hp with hp | rfl | hp
    · exact List.mem_append_left _ hp
    · exact absurd rfl hne
    · exact List.mem_append_right _ hp
  have hzero : ((front ++ rest).map (·.damage)).sum = 0 := by
    rw [List.map_append, List.sum_append]
    omega
  exact List.sum_eq_zero_iff_forall_eq_nat.mp hzero _ (List.mem_map_of_mem hother)

theorem fair_byDamage_iff : l.Fair 2 ↔ l.OneDealtAll := by
  have hsize : l.size 2 = l.totaldamage := if_pos rfl
  have hwinner : ∀ roll, l.winner 2 roll = winnerByDamage l.inRange roll 0 l.damagelist :=
    fun roll => if_pos rfl
  constructor
  · intro h
    apply oneDealtAll_of_winner
    intro roll hroll
    obtain ⟨c, hc, -⟩ := h.winner roll (by rwa [hsize])
    exact ⟨c, by rwa [← hwinner]⟩
  · rintro ⟨o, ho, hin, hpos, hall⟩
    have hlt : ∀ roll ∈ rolls (l.size 2), roll < l.totaldamage := by
      intro roll hroll
      rw [hsize, rolls, List.mem_range] at hroll
      omega
    have hwins : ∀ roll ∈ rolls (l.size 2), l.winner 2 roll = some o.attacker := by
      intro roll hroll
      rw [hwinner]
      exact winner_of_oneDealtAll ho hin hall (hlt roll hroll)
    refine ⟨fun roll hroll => ⟨_, hwins roll hroll, hin⟩, ?_, fun h => absurd h (by decide)⟩
    intro _ _ p hp
    unfold wins
    by_cases hsame : p.attacker = o.attacker
    · obtain rfl : p = o := List.inj_on_of_nodup_map l.nodup hp ho hsame
      rw [List.countP_eq_length.mpr, hsize, rolls, List.length_range]
      · omega
      · intro roll hroll
        rw [hwins roll hroll, beq_self_eq_true]
    · rw [damage_eq_zero ho hp hall hsame, List.countP_eq_zero]
      intro roll hroll hother
      rw [hwins roll hroll, beq_iff_eq, Option.some.injEq] at hother
      exact hsame hother.symm

/-! ## Share mode 3 -/

theorem winnerByCount_some {i : ℕ} (h : winnerByCount inRange roll i list = some c) :
    inRange c = true ∧ c ∈ list.map (·.attacker) ∧
      roll < i + list.countP fun o => inRange o.attacker := by
  induction list generalizing i with
  | nil => cases h
  | cons o rest ih =>
      rw [winnerByCount] at h
      rw [List.map_cons, List.countP_cons]
      split_ifs at h ⊢ with hin hroll
      · obtain rfl := Option.some.inj h
        exact ⟨hin, List.mem_cons_self, by omega⟩
      · obtain ⟨hc, hmem, hlt⟩ := ih h
        exact ⟨hc, List.mem_cons_of_mem _ hmem, by omega⟩
      · obtain ⟨hc, hmem, hlt⟩ := ih h
        exact ⟨hc, List.mem_cons_of_mem _ hmem, hlt⟩

/-- Where everybody is in range, every number below that of the attackers is one of them. -/
theorem exists_winnerByCount {i : ℕ} (hall : ∀ o ∈ list, inRange o.attacker = true) (hle : i ≤ roll)
    (hlt : roll < i + list.length) : ∃ c, winnerByCount inRange roll i list = some c := by
  induction list generalizing i with
  | nil =>
      rw [List.length_nil] at hlt
      omega
  | cons o rest ih =>
      rw [List.length_cons] at hlt
      rw [winnerByCount, if_pos (hall o List.mem_cons_self)]
      by_cases hroll : roll = i
      · exact ⟨_, if_pos hroll⟩
      · rw [if_neg hroll]
        exact ih (fun p hp => hall p (List.mem_cons_of_mem _ hp)) (by omega) (by omega)

/-- An attacker is drawn by one number at most. -/
theorem winnerByCount_inj {i roll' : ℕ} (hnodup : (list.map (·.attacker)).Nodup)
    (h : winnerByCount inRange roll i list = some c)
    (h' : winnerByCount inRange roll' i list = some c) : roll = roll' := by
  induction list generalizing i with
  | nil => cases h
  | cons o rest ih =>
      rw [List.map_cons, List.nodup_cons] at hnodup
      obtain ⟨hnot, hrest⟩ := hnodup
      rw [winnerByCount] at h h'
      split_ifs at h h' with hin hroll hroll' hroll'
      · rw [hroll, hroll']
      · obtain rfl := Option.some.inj h
        exact absurd (winnerByCount_some h').2.1 hnot
      · obtain rfl := Option.some.inj h'
        exact absurd (winnerByCount_some h).2.1 hnot
      · exact ih hrest h h'
      · exact ih hrest h h'

theorem winner_byCount (roll : ℕ) :
    l.winner 3 roll = winnerByCount l.inRange roll 0 l.damagelist := if_neg (by decide)

theorem size_byCount : l.size 3 = l.damagelist.length := if_neg (by decide)

theorem wins_le_one (c : ℕ) : l.wins 3 c ≤ 1 := by
  unfold wins
  by_cases hany : ∃ roll, l.winner 3 roll = some c
  · obtain ⟨roll, hroll⟩ := hany
    have honly : ∀ roll' ∈ rolls (l.size 3), (l.winner 3 roll' == some c) = true →
        (roll' == roll) = true := by
      intro roll' _ hroll'
      rw [beq_iff_eq, winner_byCount] at hroll'
      rw [winner_byCount] at hroll
      rw [beq_iff_eq]
      exact winnerByCount_inj l.nodup hroll' hroll
    have honce : (rolls (l.size 3)).count roll ≤ 1 :=
      List.nodup_iff_count_le_one.mp List.nodup_range roll
    exact (List.countP_mono_left honly).trans honce
  · have hzero : (rolls (l.size 3)).countP (fun roll => l.winner 3 roll == some c) = 0 := by
      rw [List.countP_eq_zero]
      intro roll _ hroll
      exact hany ⟨roll, beq_iff_eq.mp hroll⟩
    rw [hzero]
    exact Nat.zero_le 1

theorem fair_byCount_iff (hsome : l.SomeInRange) : l.Fair 3 ↔ l.AllInRange := by
  have hpos : 0 < l.damagelist.length := by
    obtain ⟨o, ho, -⟩ := hsome
    exact List.length_pos_of_mem ho
  constructor
  · intro h
    obtain ⟨c, hc, -⟩ := h.winner (l.damagelist.length - 1) (by
      rw [size_byCount, rolls, List.mem_range]
      omega)
    rw [winner_byCount] at hc
    obtain ⟨-, -, hlt⟩ := winnerByCount_some hc
    have hle := List.countP_le_length (p := fun o : Opponent => l.inRange o.attacker)
      (l := l.damagelist)
    exact List.countP_eq_length.mp (by omega)
  · intro hall
    refine ⟨?_, fun h => absurd h (by decide), ?_⟩
    · intro roll hroll
      rw [size_byCount, rolls, List.mem_range] at hroll
      obtain ⟨c, hc⟩ := exists_winnerByCount hall (Nat.zero_le roll) (by omega)
      rw [winner_byCount]
      exact ⟨c, hc, (winnerByCount_some hc).1⟩
    · intro _ o _ p _ _ _
      exact (wins_le_one o.attacker).trans (Nat.le_add_left 1 _)

/-! ## Both share modes -/

/-- What is set against the rolls is not what has been dealt before, and not how many there are. -/
theorem fair_iff (l : DropLottery) (sharemode : ℤ) :
    (sharemode = 2 ∨ sharemode = 3 → l.SomeInRange → l.Fair sharemode) ↔
      (l.SomeInRange →
        (sharemode = 2 → l.OneDealtAll) ∧ (sharemode = 3 → l.AllInRange)) := by
  constructor
  · intro h hsome
    constructor
    · rintro rfl
      exact fair_byDamage_iff.mp (h (Or.inl rfl) hsome)
    · rintro rfl
      exact (fair_byCount_iff hsome).mp (h (Or.inr rfl) hsome)
  · intro h hmode hsome
    rcases hmode with rfl | rfl
    · exact fair_byDamage_iff.mpr ((h hsome).1 rfl)
    · exact (fair_byCount_iff hsome).mpr ((h hsome).2 rfl)

/-- Two attackers in range who have dealt the same. -/
theorem not_fair_equals : ∃ l : DropLottery,
    l.damagelist = [⟨0, 5⟩, ⟨1, 5⟩] ∧ l.AllInRange ∧ l.SomeInRange ∧ 7 ∈ rolls (l.size 2) ∧
      l.winner 2 7 = none ∧ ¬ l.Fair 2 := by
  refine ⟨⟨[⟨0, 5⟩, ⟨1, 5⟩], by decide, fun _ => true⟩, rfl, fun _ _ => rfl,
    ⟨⟨0, 5⟩, List.mem_cons_self, rfl⟩, by decide, rfl, fun h => ?_⟩
  obtain ⟨c, hc, -⟩ := h.winner 7 (by decide)
  cases hc

end DropLottery

end ArenaServ
