import ArenaServ.TradeQuests

/-!
# Quests that move nobody out of a trade

The quests once more, failing where a character is warped who is still marked trading.
Started by one of two partners, they do what the quests do and leave the trade of both as it
is, or the quests have parted the two.
-/

namespace ArenaServ

/-! ## The trade of a character -/

structure TradeView where
  trading : Bool
  partner : Option Addr
  offer : List CharacterItem

def Character.tradeView (x : Character) : TradeView := ⟨x.trading, x.tradePartner, x.tradeInventory⟩

namespace World

/-- The trades of two characters. -/
structure Holds (c p : Addr) (s t : TradeView) (w : World) : Prop where
  own : (w.characters c).map Character.tradeView = some s
  other : (w.characters p).map Character.tradeView = some t

/-- Neither of two characters has a partner. -/
structure Parted (c p : Addr) (w : World) : Prop where
  own : ∀ x, w.characters c = some x → x.tradePartner = none
  other : ∀ x, w.characters p = some x → x.tradePartner = none

/-- Who trades has the other one as a partner. -/
def Partners (c p : Addr) (s t : TradeView) : Prop :=
  s.trading = true ∨ t.trading = true → s.partner = some p ∧ t.partner = some c

/-! ## Quests -/

/-- What the first way gives satisfies `S` and is what the second gives; what the second gives
is what the first gives, or satisfies `P`. -/
structure Yields (S P : World → Prop) (first second : Option World) : Prop where
  same : ∀ w, first = some w → second = some w ∧ S w
  back : ∀ w, second = some w → first = some w ∨ P w

variable {S T P Q : World → Prop} {w : World}

theorem Yields.bind {first second : Option World} {f g : World → Option World}
    (h : Yields S P first second) (hf : ∀ w, S w → Yields T Q (f w) (g w))
    (hg : ∀ w w', P w → g w = some w' → Q w') : Yields T Q (first.bind f) (second.bind g) where
  same := by
    intro w' hw'
    obtain ⟨w, hw, hw'⟩ := Option.bind_eq_some_iff.mp hw'
    obtain ⟨hsecond, hS⟩ := h.same w hw
    obtain ⟨hsame, hT⟩ := (hf w hS).same w' hw'
    exact ⟨Option.bind_eq_some_iff.mpr ⟨w, hsecond, hsame⟩, hT⟩
  back := by
    intro w' hw'
    obtain ⟨w, hw, hw'⟩ := Option.bind_eq_some_iff.mp hw'
    rcases h.back w hw with hfirst | hP
    · rcases (hf w (h.same w hfirst).2).back w' hw' with hsame | hQ
      · exact Or.inl (Option.bind_eq_some_iff.mpr ⟨w, hfirst, hsame⟩)
      · exact Or.inr hQ
    · exact Or.inr (hg w w' hP hw')

theorem Yields.mono {first second : Option World} (h : Yields S P first second)
    (hS : ∀ w, S w → T w) (hP : ∀ w, P w → Q w) : Yields T Q first second where
  same w hw := ⟨(h.same w hw).1, hS w (h.same w hw).2⟩
  back w hw := (h.back w hw).imp_right (hP w)

/-! ## Changes that leave the trades alone -/

variable {c p b : Addr} {s t : TradeView}

theorem Holds.of_characters {w' : World} (h : Holds c p s t w)
    (hsame : w'.characters = w.characters) : Holds c p s t w' := by
  constructor
  · rw [hsame]
    exact h.own
  · rw [hsame]
    exact h.other

theorem Holds.enterMap (h : Holds c p s t w) (m : ℕ) (b : Addr) :
    Holds c p s t (w.enterMap m b) := h.of_characters rfl

theorem Holds.swap (h : Holds c p s t w) : Holds p c t s w := ⟨h.other, h.own⟩

theorem map_tradeView_modify (f : Character → Character)
    (hf : ∀ x, (f x).tradeView = x.tradeView) :
    ((w.modify b f).characters c).map Character.tradeView =
      (w.characters c).map Character.tradeView := by
  by_cases hc : c = b
  · rw [hc, modify_self, Option.map_map]
    exact congrArg (Option.map · _) (funext hf)
  · rw [modify_of_ne f hc]

theorem Holds.modify (h : Holds c p s t w) (b : Addr) (f : Character → Character)
    (hf : ∀ x, (f x).tradeView = x.tradeView) : Holds c p s t (w.modify b f) := by
  constructor
  · rw [map_tradeView_modify f hf]
    exact h.own
  · rw [map_tradeView_modify f hf]
    exact h.other

/-- A change to the trade of the first character. -/
theorem Holds.modify_own (h : Holds c p s t w) (hcp : c ≠ p) {f : Character → Character}
    {g : TradeView → TradeView} (hf : ∀ x, (f x).tradeView = g x.tradeView) :
    Holds c p (g s) t (w.modify c f) := by
  constructor
  · obtain ⟨x, hx, rfl⟩ := Option.map_eq_some_iff.mp h.own
    rw [modify_self, hx]
    exact congrArg some (hf x)
  · rw [modify_of_ne f hcp.symm]
    exact h.other

theorem Holds.modify_other (h : Holds c p s t w) (hcp : c ≠ p) {f : Character → Character}
    {g : TradeView → TradeView} (hf : ∀ x, (f x).tradeView = g x.tradeView) :
    Holds c p s (g t) (w.modify p f) :=
  (h.swap.modify_own hcp.symm hf).swap

/-! ## Parted characters stay parted -/

variable {quests quests' : QuestRules} {config : TradeConfig} {w' : World}

theorem Parted.of_characters (h : Parted c p w) (hsame : w'.characters = w.characters) :
    Parted c p w' := by
  constructor
  · rw [hsame]
    exact h.own
  · rw [hsame]
    exact h.other

theorem Parted.swap (h : Parted c p w) : Parted p c w := ⟨h.other, h.own⟩

theorem Parted.partner (h : Parted c p w) : w.partner c = none := by
  unfold World.partner
  cases hx : w.characters c with
  | none => rfl
  | some x =>
      change (do let q ← x.tradePartner; let y ← w.characters q; return (q, y)) = none
      rw [h.own x hx]
      rfl

theorem Parted.quest (h : Parted c p w) (hw : QuestEffect w w') : Parted c p w' := by
  have hnone (b : Addr) (hb : ∀ x, w.characters b = some x → x.tradePartner = none)
      (x' : Character) (hx' : w'.characters b = some x') : x'.tradePartner = none := by
    obtain ⟨x, hx, hpartner, -⟩ := hw.kept b x' hx'
    rcases hpartner with hsame | hnone
    · rw [hsame]
      exact hb x hx
    · exact hnone
  exact ⟨hnone c h.own, hnone p h.other⟩

theorem Partners.swap (h : Partners c p s t) : Partners p c t s :=
  fun htrading => (h htrading.symm).symm

/-- Two traders have been parted. -/
def Broken (c p : Addr) (s t : TradeView) (w : World) : Prop :=
  (s.trading = true ∨ t.trading = true) ∧ Parted c p w

/-- What a check of the quest rules does to two characters, stay or not. -/
def Stays (staying quests : QuestRules) (c p : Addr) (s t : TradeView) : Prop :=
  ∀ w, Holds c p s t w →
    Yields (Holds c p s t) (Broken c p s t) (staying c w) (quests c w)

theorem Broken.quest {w'' : World} (h : Broken c p s t w') (hw : QuestEffect w' w'') :
    Broken c p s t w'' := ⟨h.1, h.2.quest hw⟩

section Actions
variable {staying : QuestRules} (hstays : Stays staying quests c p s t)
include hstays

end Actions

end World

end ArenaServ
