import Mathlib.Data.Int.Notation
import Mathlib.Data.Nat.Notation
import Mathlib.Logic.Function.Basic
import Mathlib.Tactic.IntervalCases
import Mathlib.Tactic.SplitIfs

/-!
# Weddings

A `Wedding` of a map goes through 13 states. Each has its own number of ticks, `NextState` starts
the next one with a tick, and the partners and the priest are looked up on the map each time. What
is said and shown is left out, but not which partner is looked up for it.
-/

namespace ArenaServ

/-- Whether the map finds a character with a name, and the priest. -/
structure WeddingScene where
  onMap : List Char → Bool
  priest : Bool

structure Wedding where
  state : ℕ
  tick : ℤ
  ticking : Bool
  partner1 : List Char
  partner2 : List Char
  requests : List (List Char)
  deriving DecidableEq, Repr

/-- A wedding, who has been recorded as married to each other, and whether a partner that is not
on the map has been dereferenced. -/
structure Ceremony extends Wedding where
  married : List (List Char × List Char)
  fault : Bool
  deriving DecidableEq, Repr

namespace Ceremony

variable (scene : WeddingScene)

def stopTimer (c : Ceremony) : Ceremony := { c with ticking := false }

def startTimer (c : Ceremony) : Ceremony := { c with ticking := true }

def reset (c : Ceremony) : Ceremony :=
  { c with partner1 := [], partner2 := [], state := 0, tick := 0, ticking := false }

def errorOut (c : Ceremony) : Ceremony := c.reset

/-- A member of what `GetPartner1` returns is used. -/
def usePartner1 (c : Ceremony) : Ceremony := { c with fault := c.fault || !scene.onMap c.partner1 }

def usePartner2 (c : Ceremony) : Ceremony := { c with fault := c.fault || !scene.onMap c.partner2 }

def useBoth (c : Ceremony) : Ceremony := (c.usePartner1 scene).usePartner2 scene

/-- The partners of each become the other. -/
def marry (c : Ceremony) : Ceremony :=
  { c.useBoth scene with married := c.married ++ [(c.partner1, c.partner2)] }

def Present (c : Ceremony) : Prop :=
  scene.onMap c.partner1 = true ∧ scene.onMap c.partner2 = true ∧ scene.priest = true

instance (c : Ceremony) : Decidable (c.Present scene) := inferInstanceAs (Decidable (_ ∧ _))

section Open
variable (tick : Ceremony → Ceremony)

def changeState (state : ℕ) (c : Ceremony) : Ceremony := tick { c with state := state, tick := -1 }

/-- `Check`, with what it does when somebody is missing. -/
def check (c : Ceremony) : Ceremony × Bool :=
  if c.Present scene then (c, true)
  else (if c.state < 8 then c.errorOut else c.changeState tick 13, false)

def nextState (c : Ceremony) : Ceremony :=
  let checked := c.check scene tick
  if checked.2 then checked.1.changeState tick (checked.1.state + 1) else checked.1

/-- `Tick`, with the `Tick` that is called in it. -/
def tickWith (c : Ceremony) : Ceremony :=
  let c := if c.state ≠ 0 then { c with tick := c.tick + 1 } else c
  match c.state with
  | 0 => c.stopTimer
  | 1 => if c.tick = 20 then c.nextState scene tick else c
  | 2 =>
      if c.tick = 0 then c.useBoth scene
      else if c.tick = 6 then c.nextState scene tick else c
  | 3 => if c.tick = 6 then c.nextState scene tick else c
  | 4 =>
      if c.tick = 0 then c.useBoth scene
      else if c.tick = 3 then
        let checked := c.check scene tick
        if checked.2 then checked.1.usePartner1 scene else checked.1
      else if c.tick = 13 then c.errorOut else c
  | 5 =>
      let c :=
        if c.tick = 1 then
          let checked := c.check scene tick
          if checked.2 then checked.1.usePartner1 scene else checked.1
        else c
      if c.tick = 7 then c.nextState scene tick else c
  | 6 =>
      if c.tick = 0 then c.useBoth scene
      else if c.tick = 3 then
        let checked := c.check scene tick
        if checked.2 then checked.1.usePartner2 scene else checked.1
      else if c.tick = 13 then c.errorOut else c
  | 7 =>
      if c.tick = 1 then
        let checked := c.check scene tick
        if checked.2 then (checked.1.usePartner2 scene).nextState scene tick else checked.1
      else c
  | 8 =>
      let c := if c.tick = 0 then c.marry scene else c
      if c.tick = 6 then c.nextState scene tick else c
  | 9 => if c.tick = 6 then c.nextState scene tick else c
  | 10 => if c.tick = 5 then c.nextState scene tick else c
  | 11 =>
      if c.tick = 0 then c.useBoth scene
      else if c.tick = 1 then c.nextState scene tick else c
  | 12 =>
      if c.tick = 0 then c.useBoth scene
      else if c.tick = 5 then c.nextState scene tick else c
  | 13 => if c.tick = 0 then c.reset else c
  | _ => c.errorOut

end Open

/-- `Tick`, as deep as a number of calls. -/
def tickTo : ℕ → Ceremony → Ceremony
  | 0, c => c
  | n + 1, c => c.tickWith scene (tickTo n)

/-- `Tick`. The tick that starts a state calls no other. -/
def tickOnce (c : Ceremony) : Ceremony := c.tickTo scene 2

def startWedding (player1 player2 : List Char) (c : Ceremony) : Ceremony :=
  if 0 < c.state then c
  else
    let c := { c with partner1 := player1, partner2 := player2 }
    ((c.nextState scene (tickOnce scene)).tickOnce scene).startTimer

/-- `IDo`, by a character with a name that is on the map or on another one. -/
def iDo (name : List Char) (here : Bool) (c : Ceremony) : Ceremony :=
  let required := if name = c.partner1 then 4 else if name = c.partner2 then 6 else 0
  if required = 0 ∨ c.state ≠ required ∨ here = false then c
  else c.nextState scene (tickOnce scene)

variable {scene} {c : Ceremony} {tick tick' : Ceremony → Ceremony}

/-- The tick that starts a state calls no other. -/
theorem tickWith_of_start (h : c.tick = -1) (hstate : c.state ≠ 0) :
    c.tickWith scene tick = c.tickWith scene tick' := by
  obtain ⟨⟨state, t, ticking, partner1, partner2, requests⟩, married, fault⟩ := c
  dsimp only at h hstate
  subst h
  unfold tickWith
  dsimp only
  rw [if_pos hstate]
  dsimp only
  split <;> rfl

theorem changeState_congr {state : ℕ} (hstate : state ≠ 0) (n m : ℕ) :
    c.changeState (tickTo scene (n + 1)) state = c.changeState (tickTo scene (m + 1)) state :=
  tickWith_of_start rfl hstate

theorem check_congr (n : ℕ) :
    c.check scene (tickTo scene (n + 1)) = c.check scene (tickTo scene 1) := by
  unfold check
  have hthirteen : 13 ≠ 0 := by decide
  rw [changeState_congr hthirteen n 0]

theorem nextState_congr (n : ℕ) :
    c.nextState scene (tickTo scene (n + 1)) = c.nextState scene (tickTo scene 1) := by
  unfold nextState
  rw [check_congr n]
  dsimp only
  rw [changeState_congr (Nat.succ_ne_zero _) n 0]

/-- Two calls are as deep as it gets. -/
theorem tickTo_eq (n : ℕ) : c.tickTo scene (n + 2) = c.tickOnce scene := by
  change c.tickWith scene (tickTo scene (n + 1)) = c.tickWith scene (tickTo scene 1)
  unfold tickWith
  simp only [check_congr n, nextState_congr n]

/-! ## What a tick does -/

/-- A state that has begun, with what its first tick does. -/
def begun (state : ℕ) (c : Ceremony) : Ceremony :=
  if state = 13 then c.reset
  else
    { c with
      state := state
      tick := 0
      married := c.married ++ if state = 8 then [(c.partner1, c.partner2)] else [] }

theorem usePartner1_of_present (h : c.Present scene) : c.usePartner1 scene = c := by
  unfold usePartner1
  rw [h.1, Bool.not_true, Bool.or_false]

theorem usePartner2_of_present (h : c.Present scene) : c.usePartner2 scene = c := by
  unfold usePartner2
  rw [h.2.1, Bool.not_true, Bool.or_false]

theorem useBoth_of_present (h : c.Present scene) : c.useBoth scene = c := by
  unfold useBoth
  rw [usePartner1_of_present h, usePartner2_of_present h]

/-- Nobody is missing when a state begins. -/
theorem changeState_of_present (h : c.Present scene) {state : ℕ} (hpos : state ≠ 0)
    (hle : state ≤ 13) (n : ℕ) : c.changeState (tickTo scene (n + 1)) state = c.begun state := by
  have huse := @useBoth_of_present scene { c with state := state, tick := 0 } h
  change tickWith scene (tickTo scene n) { c with state := state, tick := -1 } = _
  unfold tickWith begun
  dsimp only
  rw [if_pos hpos]
  dsimp only
  have hge : 1 ≤ state := Nat.one_le_iff_ne_zero.mpr hpos
  interval_cases state <;>
    simp [Int.reduceNeg, marry, huse, reset]

theorem nextState_of_present (h : c.Present scene) (hle : c.state ≤ 12) (n : ℕ) :
    c.nextState scene (tickTo scene (n + 1)) = c.begun (c.state + 1) := by
  have hle' : c.state + 1 ≤ 13 := Nat.succ_le_succ hle
  unfold nextState check
  rw [if_pos h]
  exact changeState_of_present h (Nat.succ_ne_zero _) hle' n

/-- When somebody is missing then the wedding is over. -/
theorem check_of_not_present (h : ¬ c.Present scene) (n : ℕ) :
    c.check scene (tickTo scene (n + 1)) = (c.reset, false) := by
  unfold check
  rw [if_neg h]
  split_ifs
  · rfl
  · rfl

theorem check_of_present (h : c.Present scene) (n : ℕ) :
    c.check scene (tickTo scene (n + 1)) = (c, true) := by
  unfold check
  rw [if_pos h]

theorem nextState_of_not_present (h : ¬ c.Present scene) (n : ℕ) :
    c.nextState scene (tickTo scene (n + 1)) = c.reset := by
  unfold nextState
  rw [check_of_not_present h]
  rfl

/-- What a tick of the timer leads to. -/
inductive Ticked (scene : WeddingScene) (c : Ceremony) : Ceremony → Prop
  | stays (t : ℤ) (ticking : Bool) (ht : 0 ≤ t) :
      Ticked scene c { c with tick := t, ticking := ticking }
  | resets : Ticked scene c c.reset
  | advances (h : c.Present scene) (hasked : c.state ≠ 0 ∧ c.state ≠ 4 ∧ c.state ≠ 6)
      (hseven : c.state = 7 → c.tick = 0) : Ticked scene c (c.begun (c.state + 1))

theorem ticked_nextState (hle : c.state ≤ 12)
    (hasked : c.state ≠ 0 ∧ c.state ≠ 4 ∧ c.state ≠ 6) (hseven : c.state = 7 → c.tick = 0)
    (t : ℤ) : Ticked scene c (nextState scene (tickTo scene 1) { c with tick := t }) := by
  by_cases h : c.Present scene
  · rw [nextState_of_present (c := { c with tick := t }) h hle 0]
    exact Ticked.advances h hasked hseven
  · rw [nextState_of_not_present (c := { c with tick := t }) h 0]
    exact Ticked.resets

theorem ticked_check (t : ℤ) (ht : 0 ≤ t) {use : Ceremony → Ceremony}
    (huse : ∀ c : Ceremony, c.Present scene → use c = c) :
    Ticked scene c
      (let checked := check scene (tickTo scene 1) { c with tick := t }
      if checked.2 then use checked.1 else checked.1) := by
  by_cases h : c.Present scene
  · rw [check_of_present (c := { c with tick := t }) h 0]
    dsimp only
    rw [if_pos rfl, huse { c with tick := t } h]
    exact Ticked.stays t c.ticking ht
  · rw [check_of_not_present (c := { c with tick := t }) h 0]
    exact Ticked.resets

/-- A state that waits for an answer asks for it, and is given up after a while. -/
theorem ticked_of_asking {asks late : Prop} [Decidable asks] [Decidable late] {asked : Ceremony}
    {t : ℤ} (ht : 0 ≤ t) (hasked : Ticked scene c asked) :
    Ticked scene c (if asks then asked else if late then errorOut { c with tick := t }
      else { c with tick := t }) := by
  by_cases h : asks
  · rw [if_pos h]
    exact hasked
  rw [if_neg h]
  by_cases hlate : late
  · rw [if_pos hlate]
    exact Ticked.resets
  · rw [if_neg hlate]
    exact Ticked.stays t c.ticking ht

/-- The first of a couple is heard, and the priest goes on after a while. -/
theorem ticked_of_heard (hfive : c.state = 5) {t : ℤ} (ht : 0 ≤ t) :
    Ticked scene c
      (let heard :=
        if t = 1 then
          let checked := check scene (tickTo scene 1) { c with tick := t }
          if checked.2 then checked.1.usePartner1 scene else checked.1
        else { c with tick := t }
      if heard.tick = 7 then heard.nextState scene (tickTo scene 1) else heard) := by
  by_cases h : t = 1
  · subst h
    rw [if_pos rfl]
    by_cases hpresent : c.Present scene
    · rw [check_of_present (c := { c with tick := 1 }) hpresent 0]
      dsimp only
      rw [if_pos rfl, usePartner1_of_present (c := { c with tick := 1 }) hpresent]
      exact Ticked.stays 1 c.ticking ht
    · rw [check_of_not_present (c := { c with tick := 1 }) hpresent 0]
      exact Ticked.resets
  · rw [if_neg h]
    dsimp only
    split_ifs
    · apply ticked_nextState
      · rw [hfive]
        decide
      · rw [hfive]
        decide
      · intro hseven
        rw [hfive] at hseven
        cases hseven
    · exact Ticked.stays t c.ticking ht

/-- The second of a couple is heard, and then they are married. -/
theorem ticked_of_agreed (hseven : c.state = 7) {t : ℤ} (ht : 0 ≤ t) (hfirst : t = 1 → c.tick = 0) :
    Ticked scene c
      (if t = 1 then
        let checked := check scene (tickTo scene 1) { c with tick := t }
        if checked.2 then (checked.1.usePartner2 scene).nextState scene (tickTo scene 1)
        else checked.1
      else { c with tick := t }) := by
  by_cases h : t = 1
  · rw [if_pos h]
    by_cases hpresent : c.Present scene
    · rw [check_of_present (c := { c with tick := t }) hpresent 0]
      dsimp only
      rw [if_pos rfl, usePartner2_of_present (c := { c with tick := t }) hpresent]
      apply ticked_nextState
      · rw [hseven]
        decide
      · rw [hseven]
        decide
      · exact fun _ => hfirst h
    · rw [check_of_not_present (c := { c with tick := t }) hpresent 0]
      exact Ticked.resets
  · rw [if_neg h]
    exact Ticked.stays t c.ticking ht

/-- A tick of the timer only looks up partners that `Check` has just found. -/
theorem ticked_tickOnce (htick : 0 ≤ c.tick) (hle : c.state ≤ 12) :
    Ticked scene c (c.tickOnce scene) := by
  change Ticked scene c (c.tickWith scene (tickTo scene 1))
  have hpos : 0 ≤ c.tick + 1 := by omega
  have hnot : ¬ c.tick + 1 = 0 := by omega
  have hstays : Ticked scene c { c with tick := c.tick + 1 } :=
    Ticked.stays (c.tick + 1) c.ticking hpos
  have hnext := @ticked_nextState scene c hle (t := c.tick + 1)
  have hfirst := @ticked_check scene c (c.tick + 1) hpos _
    (fun _ h => usePartner1_of_present h)
  have hsecond := @ticked_check scene c (c.tick + 1) hpos _
    (fun _ h => usePartner2_of_present h)
  have hheard := @ticked_of_heard scene c (t := c.tick + 1)
  have hagreed := @ticked_of_agreed scene c (t := c.tick + 1)
  obtain ⟨⟨state, t, ticking, partner1, partner2, requests⟩, married, fault⟩ := c
  dsimp only at *
  interval_cases state <;>
    simp only [tickWith, hnot, if_false, if_true, ne_eq, OfNat.ofNat_ne_zero, one_ne_zero,
      not_true_eq_false, not_false_eq_true]
  case «0» => exact Ticked.stays t false htick
  case «4» => exact ticked_of_asking hpos hfirst
  case «5» => exact hheard rfl hpos
  case «6» => exact ticked_of_asking hpos hsecond
  case «7» => exact hagreed rfl hpos (fun h => by omega)
  all_goals
    split_ifs
    · exact hnext (by decide) (fun h => by cases h)
    · exact hstays

/-- The tick that marries. -/
theorem tickOnce_of_agreed (hstate : c.state = 7) (htick : c.tick = 0) (h : c.Present scene) :
    c.tickOnce scene = c.begun (c.state + 1) := by
  change c.tickWith scene (tickTo scene 1) = _
  have hle : c.state ≤ 12 := by omega
  have hnext := nextState_of_present (c := { c with tick := 1 }) h hle 0
  have hcheck := check_of_present (c := { c with tick := 1 }) h 0
  have huse := usePartner2_of_present (c := { c with tick := 1 }) h
  obtain ⟨⟨state, t, ticking, partner1, partner2, requests⟩, married, fault⟩ := c
  dsimp only at *
  subst hstate htick
  simp only [tickWith, ne_eq, OfNat.ofNat_ne_zero, not_false_eq_true, if_true, Int.zero_add,
    hcheck, huse]
  exact hnext

theorem begun_of_quiet {state : ℕ} (hquiet : state ≠ 8 ∧ state ≠ 13) :
    c.begun state = { c with state := state, tick := 0 } := by
  unfold begun
  rw [if_neg hquiet.2, if_neg hquiet.1, List.append_nil]

/-- A wedding only starts where there is none, and only with everybody there. -/
theorem startWedding_cases (player1 player2 : List Char) (hidle : c.state = 0) :
    c.startWedding scene player1 player2 = { c.reset with ticking := true } ∨
      Present scene { c with partner1 := player1, partner2 := player2 } ∧
        c.startWedding scene player1 player2 =
          { c with
            partner1 := player1, partner2 := player2, state := 1, tick := 1, ticking := true } := by
  obtain ⟨⟨state, t, ticking, partner1, partner2, requests⟩, married, fault⟩ := c
  dsimp only at hidle
  subst hidle
  unfold startWedding
  rw [if_neg (Nat.not_lt_zero 0)]
  dsimp only
  have hquiet : 0 + 1 ≠ 8 ∧ 0 + 1 ≠ 13 := by decide
  by_cases h : Present scene ⟨⟨0, t, ticking, player1, player2, requests⟩, married, fault⟩
  · right
    refine ⟨h, ?_⟩
    rw [show tickOnce scene = tickTo scene (1 + 1) from rfl,
      nextState_of_present h (Nat.zero_le 12), begun_of_quiet hquiet]
    rfl
  · left
    rw [show tickOnce scene = tickTo scene (1 + 1) from rfl, nextState_of_not_present h]
    rfl

theorem startWedding_of_busy (player1 player2 : List Char) (hbusy : c.state ≠ 0) :
    c.startWedding scene player1 player2 = c := by
  unfold startWedding
  rw [if_pos (Nat.pos_of_ne_zero hbusy)]

/-- Who has to say it is there to do so, and the other one and the priest as well. -/
theorem iDo_cases (name : List Char) (here : Bool) :
    c.iDo scene name here = c ∨ c.iDo scene name here = c.reset ∨
      c.Present scene ∧ (name = c.partner1 ∧ c.state = 4 ∨
        name ≠ c.partner1 ∧ name = c.partner2 ∧ c.state = 6) ∧
        c.iDo scene name here = { c with state := c.state + 1, tick := 0 } := by
  unfold iDo
  dsimp only
  by_cases hturn : (name = c.partner1 ∧ c.state = 4 ∨
      name ≠ c.partner1 ∧ name = c.partner2 ∧ c.state = 6) ∧ here = true
  · obtain ⟨hturn, hhere⟩ := hturn
    right
    have hle : c.state ≤ 12 := by omega
    have hquiet : c.state + 1 ≠ 8 ∧ c.state + 1 ≠ 13 := by omega
    have hgo : ¬ ((if name = c.partner1 then 4 else if name = c.partner2 then 6 else 0) = 0 ∨
        c.state ≠ (if name = c.partner1 then 4 else if name = c.partner2 then 6 else 0) ∨
        here = false) := by
      rcases hturn with ⟨hname, hstate⟩ | ⟨hfirst, hname, hstate⟩
      · simp [hname, hstate, hhere]
      · rw [if_neg hfirst, if_pos hname]
        simp [hstate, hhere]
    rw [if_neg hgo, show tickOnce scene = tickTo scene (1 + 1) from rfl]
    by_cases h : c.Present scene
    · exact Or.inr ⟨h, hturn, (nextState_of_present h hle 1).trans (begun_of_quiet hquiet)⟩
    · exact Or.inl (nextState_of_not_present h 1)
  · left
    apply if_pos
    by_contra hgo
    apply hturn
    split_ifs at hgo with hfirst hsecond
    · exact ⟨Or.inl ⟨hfirst, by omega⟩, by simpa using (not_or.mp (not_or.mp hgo).2).2⟩
    · exact ⟨Or.inr ⟨hfirst, hsecond, by omega⟩, by simpa using (not_or.mp (not_or.mp hgo).2).2⟩
    · exact absurd (Or.inl rfl) hgo

end Ceremony

end ArenaServ
