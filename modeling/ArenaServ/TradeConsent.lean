import ArenaServ.TradeHandlers
import ArenaServ.TradeQuests

/-!
# Who has agreed to a trade

A watcher notes for every character whether they have agreed, in the present trade, to
the offers as they are: a new trade and any change of an offer clear the note of both
sides. The flags of the source never claim more than the watcher has seen.
-/

namespace ArenaServ

namespace World

def offerOf (w : World) (c : Addr) : Option (List CharacterItem) :=
  (w.characters c).map (·.tradeInventory)

def partnerOf (w : World) (c : Addr) : Option Addr := (w.characters c).bind (·.tradePartner)

def tradingOf (w : World) (c : Addr) : Bool := (w.characters c).any (·.trading)

end World

/-- Forget the agreement of both sides. -/
def withdraw (consent : Addr → Bool) (c : Addr) (p : Option Addr) (b : Addr) : Bool :=
  consent b && b ≠ c && p ≠ some b

/-- The watcher's notes after a step from `w` to `w'`. -/
def consentAfter (w w' : World) (consent : Addr → Bool) : TradeStep → Addr → Bool
  | .accept c _ =>
      if w'.tradingOf c && !w.tradingOf c then withdraw consent c (w'.partnerOf c) else consent
  | .add c _ | .remove c _ =>
      if w'.offerOf c ≠ w.offerOf c then withdraw consent c (w.partnerOf c) else consent
  | .agree c reader =>
      match reader.getChar with
      | some (agree, _) =>
          if w.tradingOf c then fun b => if b = c then agree ≠ 0 else consent b else consent
      | none => consent
  | _ => consent

structure Watch where
  world : World
  consent : Addr → Bool

namespace Watch

def start : Watch := ⟨World.empty, fun _ => false⟩

def step (quests : QuestRules) (config : TradeConfig) (s : Watch) (t : TradeStep) :
    Option Watch :=
  (s.world.step quests config t).map fun w' => ⟨w', consentAfter s.world w' s.consent t⟩

def run (quests : QuestRules) (config : TradeConfig) (s : Watch) : List TradeStep → Option Watch
  | [] => some s
  | t :: steps => (s.step quests config t).bind fun s => s.run quests config steps

end Watch

/-- Who agrees in this step has an offer that satisfies `P`. -/
def AgreesWith (P : List CharacterItem → Prop) (w : World) : TradeStep → Prop
  | .agree c reader => ∀ x ∈ w.characters c, x.trading = true →
      ∀ r ∈ reader.getChar, r.1 ≠ 0 → P x.tradeInventory
  | _ => True

instance (P : List CharacterItem → Prop) [DecidablePred P] (w : World) :
    ∀ t, Decidable (AgreesWith P w t)
  | .agree c reader => inferInstanceAs (Decidable (∀ x ∈ w.characters c, x.trading = true →
      ∀ r ∈ reader.getChar, r.1 ≠ 0 → P x.tradeInventory))
  | .request .. | .accept .. | .remove .. | .add .. | .close .. | .walk .. | .warp .. | .logout ..
  | .login .. => inferInstanceAs (Decidable True)

/-- All steps of a run do so. -/
def Watch.AllAgreeWith (P : List CharacterItem → Prop) (quests : QuestRules)
    (config : TradeConfig) (s : Watch) : List TradeStep → Prop
  | [] => True
  | t :: steps => AgreesWith P s.world t ∧
      ∀ s' ∈ s.step quests config t, s'.AllAgreeWith P quests config steps

instance Watch.decidableAllAgreeWith (P : List CharacterItem → Prop) [DecidablePred P]
    (quests : QuestRules) (config : TradeConfig) (s : Watch) :
    ∀ steps, Decidable (s.AllAgreeWith P quests config steps)
  | [] => inferInstanceAs (Decidable True)
  | t :: steps =>
      have (s' : Watch) : Decidable (s'.AllAgreeWith P quests config steps) :=
        decidableAllAgreeWith P quests config s' steps
      inferInstanceAs (Decidable (AgreesWith P s.world t ∧
        ∀ s' ∈ s.step quests config t, s'.AllAgreeWith P quests config steps))

/-- A flag of a trading character is covered by the watcher's note. -/
def Noted (P : List CharacterItem → Prop) (consent : Addr → Bool) (b : Addr) (x : Character) :
    Prop :=
  x.trading = true → x.tradeAgree = true → consent b = true ∧ P x.tradeInventory

variable {quests : QuestRules} {config : TradeConfig} {rules : ItemRules}
  {P : List CharacterItem → Prop} {consent : Addr → Bool} {w w' : World} {c : Addr}

theorem noted_of_disagree {b : Addr} {x : Character} (h : x.tradeAgree = false) :
    Noted P consent b x := by
  intro _ hagree
  rw [h] at hagree
  cases hagree

theorem tradeLocal_noted (rules : ItemRules) (P : List CharacterItem → Prop)
    (consent : Addr → Bool) : TradeLocal rules (Noted P consent) where
  stopped := by
    intro b x hstopped _ htrading
    rw [hstopped] at htrading
    cases htrading
  frame := by
    intro b x x' htrading hagree hoffer _ h
    rw [Noted, htrading, hagree, hoffer]
    exact h
  disagree := fun _ _ _ => noted_of_disagree rfl
  opened := fun _ _ _ _ _ => noted_of_disagree rfl
  added := fun _ _ _ _ _ _ _ _ _ => noted_of_disagree rfl
  removed := fun _ _ _ _ _ _ => noted_of_disagree rfl

theorem keptByQuests_noted (hquests : OnlyEndTrades quests)
    (P : List CharacterItem → Prop) (consent : Addr → Bool) :
    KeptByQuests quests (Noted P consent) where
  effect := hquests
  keeps := by
    intro c w w' hm hw b x' hx'
    obtain ⟨x, hx, -, hkept⟩ := (hquests c w w' hm hw).kept b x' hx'
    refine ⟨x, hx, ?_, fun _ => noted_of_disagree rfl⟩
    intro h htrading hagree
    obtain ⟨hold, -, hsame, hoffer⟩ := hkept htrading
    rw [hoffer]
    exact h hold (hsame.symm.trans hagree)

/-- Notes may be dropped for those whose flag is down. -/
theorem sound_withdraw (h : w.Sound ∅ ∅ (Noted P consent)) (hc : w.Disagrees c)
    {p : Option Addr} (hp : ∀ q, p = some q → w.Disagrees q) :
    w.Sound ∅ ∅ (Noted P (withdraw consent c p)) := by
  refine ⟨h.paired, h.noSelf, ?_⟩
  intro b x hb hx htrading hagree
  obtain ⟨hconsent, hP⟩ := h.each b x hb hx htrading hagree
  refine ⟨?_, hP⟩
  have hbc : b ≠ c := by
    rintro rfl
    rw [hc x hx] at hagree
    cases hagree
  have hbp : p ≠ some b := by
    intro heq
    rw [hp b heq x hx] at hagree
    cases hagree
  simp [withdraw, hconsent, hbc, hbp]

/-- Whatever a changed offer does to the notes, they still cover the flags. -/
theorem sound_offerStep (h : w.Sound ∅ ∅ (Noted P consent))
    (hstep : World.OfferStep (Noted P consent) w w' c) :
    w'.Sound ∅ ∅ (Noted P (if w'.offerOf c ≠ w.offerOf c then
      withdraw consent c (w.partnerOf c) else consent)) := by
  rcases hstep with rfl | ⟨x, p, hx, hp, hsound, hc, hdis⟩
  · rw [if_neg (not_not.mpr rfl)]
    exact h
  · split_ifs
    · refine sound_withdraw hsound hc ?_
      intro q hq
      rw [World.partnerOf, hx, Option.bind_some, hp, Option.some.injEq] at hq
      rw [← hq]
      exact hdis
    · exact hsound

theorem sound_step (hquests : OnlyEndTrades quests)
    (h : w.Sound ∅ ∅ (Noted P consent)) (t : TradeStep) (hagree : AgreesWith P w t)
    (hw : w.step quests config t = some w') :
    w'.Sound ∅ ∅ (Noted P (consentAfter w w' consent t)) := by
  have hq := keptByQuests_noted hquests P consent
  have hL := tradeLocal_noted config.items P consent
  cases t with
  | request c reader => exact h.tradeRequest hL hw
  | accept c reader =>
      rcases h.tradeAccept hL hw with rfl | ⟨x, v, hx, hv, hsound, hc, hdis⟩
      · simpa [consentAfter] using h
      · rw [consentAfter]
        split_ifs
        · refine sound_withdraw hsound hc ?_
          intro q hq
          rw [World.partnerOf, hx, Option.bind_some, hv, Option.some.injEq] at hq
          rw [← hq]
          exact hdis
        · exact hsound
  | remove c reader => exact sound_offerStep h (h.tradeRemove hq hL hw)
  | add c reader => exact sound_offerStep h (h.tradeAdd hq hL hw)
  | agree c reader =>
      refine h.tradeAgree (keptByQuests_noted hquests P _) (tradeLocal_noted config.items P _)
        ?_ ?_ ?_ hw
      · intro b x hbc hb
        rw [consentAfter]
        cases reader.getChar with
        | none => exact hb
        | some r =>
            simp only
            split_ifs
            · intro htrading hflag
              simpa only [hbc, ↓reduceIte] using hb htrading hflag
            · exact hb
      · intro x hx hidle htrading
        rw [hidle] at htrading
        cases htrading
      · intro x agree rest hx htrading hread _ hflag
        have hne : agree ≠ 0 := by simpa using hflag
        have hin : w.tradingOf c = true := by
          rw [World.tradingOf, hx]
          exact htrading
        simp only [consentAfter, hread, hin, ↓reduceIte]
        exact ⟨decide_eq_true hne, hagree x hx htrading (agree, rest) hread hne⟩
  | close c reader => exact h.tradeClose hq hL hw
  | walk c direction => exact h.walkCommon hq hL hw
  | warp c map => exact h.warp hq hL hw
  | logout c => exact h.logout hq hL hw
  | login c x => exact h.login hq hL hw

namespace Watch

theorem sound_run (hquests : OnlyEndTrades quests) {s s' : Watch}
    (h : s.world.Sound ∅ ∅ (Noted P s.consent)) (steps : List TradeStep)
    (hagree : s.AllAgreeWith P quests config steps) (hs : s.run quests config steps = some s') :
    s'.world.Sound ∅ ∅ (Noted P s'.consent) := by
  induction steps generalizing s with
  | nil =>
      cases hs
      exact h
  | cons t steps ih =>
      rw [run, Option.bind_eq_some_iff] at hs
      obtain ⟨s₁, hs₁, hrun⟩ := hs
      have hrest := hagree.2 s₁ hs₁
      rw [step, Option.map_eq_some_iff] at hs₁
      obtain ⟨w', hw', rfl⟩ := hs₁
      exact ih (sound_step hquests h t hagree.1 hw') hrest hrun

/-- What a completed trade rests on: two offers, and the agreement of both sides to them. -/
def BothAgreed (s : Watch) (c : Addr) (reader : PacketReader) (P : List CharacterItem → Prop) :
    Prop :=
  ∃ x p y, s.world.characters c = some x ∧ x.tradePartner = some p ∧ p ≠ c ∧
    s.world.characters p = some y ∧ y.trading = true ∧ y.tradePartner = some c ∧
    x.tradeInventory ≠ [] ∧ P y.tradeInventory ∧ s.consent p = true ∧
    ∀ w', consentAfter s.world w' s.consent (.agree c reader) c = true

theorem bothAgreed_of_sound {s : Watch} (h : s.world.Sound ∅ ∅ (Noted P s.consent))
    {reader : PacketReader} (hc : s.world.Completes c reader) : s.BothAgreed c reader P := by
  obtain ⟨x, agree, rest, p, y, hx, htrading, hread, hne, hoffer, hp, hpc, hy, hytrading, hyc,
    hagree⟩ := h.completes hc
  obtain ⟨hconsent, hP⟩ := h.each p y (Set.notMem_empty p) hy hytrading hagree
  refine ⟨x, p, y, hx, hp, hpc, hy, hytrading, hyc, hoffer, hP, hconsent, ?_⟩
  intro w'
  have hin : s.world.tradingOf c = true := by
    rw [World.tradingOf, hx]
    exact htrading
  simp [consentAfter, hread, hin, hne]

/-- Agreement is never missing: a completed trade rests on both sides' agreement to the
offers as they are, with no condition on the run. -/
theorem completes_agreed (script : QuestScript) (depth : ℕ) (steps : List TradeStep) {s : Watch}
    (hs : start.run (World.checkQuestRules script config depth) config steps = some s)
    {reader : PacketReader} (hc : s.world.Completes c reader) :
    s.BothAgreed c reader fun _ => True := by
  have hquests := World.checkQuestRules_onlyEndTrades script config depth
  have hall : ∀ (s₀ : Watch) (steps : List TradeStep), s₀.AllAgreeWith (fun _ => True)
      (World.checkQuestRules script config depth) config steps := by
    intro s₀ steps
    induction steps generalizing s₀ with
    | nil => trivial
    | cons t steps ih =>
        refine ⟨?_, fun s' _ => ih s'⟩
        cases t <;> simp [AgreesWith]
  exact bothAgreed_of_sound (sound_run hquests World.sound_empty steps (hall start steps) hs) hc

/-- When nobody agrees while offering nothing, both offers of a completed trade are
non-empty and both sides have agreed to them since their last change. -/
theorem completes_bothOffer (script : QuestScript) (depth : ℕ) (steps : List TradeStep)
    (hagree : start.AllAgreeWith (· ≠ []) (World.checkQuestRules script config depth) config
      steps) {s : Watch}
    (hs : start.run (World.checkQuestRules script config depth) config steps = some s)
    {reader : PacketReader} (hc : s.world.Completes c reader) :
    s.BothAgreed c reader (· ≠ []) :=
  bothAgreed_of_sound (sound_run (World.checkQuestRules_onlyEndTrades script config depth)
    World.sound_empty steps hagree hs) hc

/-- A script of quests that take no actions. -/
def quietScript : QuestScript := fun _ _ _ => []

theorem completes_bothOffer_twoOffers :
    ∃ s, start.run (World.checkQuestRules quietScript hall 1) hall
        (twoOffers ++ [.agree 1 (tradePacket [2])]) = some s ∧
      s.BothAgreed 2 (tradePacket [2]) (· ≠ []) := by
  have hrun : ((start.run (World.checkQuestRules quietScript hall 1) hall
      (twoOffers ++ [.agree 1 (tradePacket [2])])).map fun s =>
        (s.world.characters 1, s.world.characters 2)) =
      some (some { visitor 1 [⟨1, 8⟩, ⟨2, 3⟩] with
          trading := true, tradePartner := some 2, tradeAgree := true, tradeInventory := [⟨2, 3⟩] },
        some { visitor 2 [⟨1, 5⟩] with
          trading := true, tradePartner := some 1, tradeInventory := [⟨1, 5⟩] }) := by
    decide
  obtain ⟨s, hs, hview⟩ := Option.map_eq_some_iff.mp hrun
  obtain ⟨h₁, h₂⟩ := Prod.mk.inj hview
  have hagree : start.AllAgreeWith (· ≠ []) (World.checkQuestRules quietScript hall 1) hall
      (twoOffers ++ [.agree 1 (tradePacket [2])]) := by
    decide
  have hread : (tradePacket [2]).getChar = some (1, ⟨[1, 32, 2], 3⟩) := by decide
  exact ⟨s, hs, completes_bothOffer quietScript 1 _ hagree hs
    (World.completes_of_partner h₂ rfl hread one_ne_zero (List.cons_ne_nil _ _) rfl (by decide) h₁
      rfl)⟩

/-- The first visitor agrees to get five of item 1 for nothing, and the flag stays set. -/
theorem not_bothOffer_oneOffer :
    ∃ s, start.run (World.checkQuestRules quietScript hall 1) hall
        (oneOffer ++ [.agree 1 (tradePacket [2])]) = some s ∧
      s.world.Completes 2 (tradePacket [2]) ∧
      ¬ s.BothAgreed 2 (tradePacket [2]) (· ≠ []) := by
  have hrun : ((start.run (World.checkQuestRules quietScript hall 1) hall
      (oneOffer ++ [.agree 1 (tradePacket [2])])).map fun s =>
        (s.world.characters 1, s.world.characters 2)) =
      some (some { visitor 1 [⟨1, 8⟩, ⟨2, 3⟩] with
          trading := true, tradePartner := some 2, tradeAgree := true },
        some { visitor 2 [⟨1, 5⟩] with
          trading := true, tradePartner := some 1, tradeInventory := [⟨1, 5⟩] }) := by
    decide
  obtain ⟨s, hs, hview⟩ := Option.map_eq_some_iff.mp hrun
  obtain ⟨h₁, h₂⟩ := Prod.mk.inj hview
  have hread : (tradePacket [2]).getChar = some (1, ⟨[1, 32, 2], 3⟩) := by decide
  refine ⟨s, hs, World.completes_of_partner h₂ rfl hread one_ne_zero (List.cons_ne_nil _ _) rfl
    (by decide) h₁ rfl, ?_⟩
  rintro ⟨x, p, y, hx, hp, -, hy, -, -, -, hoffer, -⟩
  rw [h₂, Option.some.injEq] at hx
  subst hx
  obtain rfl : 1 = p := Option.some.inj hp
  rw [h₁, Option.some.injEq] at hy
  subst hy
  exact hoffer rfl

end Watch

end ArenaServ
