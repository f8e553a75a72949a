import ArenaServ.TradeConsent
import ArenaServ.TradeStaying

/-!
# How trades end

A completed trade, a closed trade and the abort in a warp under the quests of both sides. They
end well exactly if no quest warps somebody who is still marked trading and none throws;
otherwise the partner that the code goes on to use is null.
-/

namespace ArenaServ.World

variable {quests staying : QuestRules} {config : TradeConfig} {rules : ItemRules}
  {S T P : World → Prop} {w w' : World} {c p : Addr} {s t : TradeView} {x : Character}

/-- The quests of two characters stay with them. -/
structure BothStay (staying quests : QuestRules) (c p : Addr) (s t : TradeView) : Prop where
  own : Stays staying quests c p s t
  other : Stays staying quests p c t s

theorem Broken.swap (h : Broken c p s t w) : Broken p c t s w := ⟨h.1.symm, h.2.swap⟩

theorem Yields.swap {first second : Option World}
    (h : Yields (Holds p c t s) (Broken p c t s) first second) :
    Yields (Holds c p s t) (Broken c p s t) first second :=
  h.mono (fun _ hw => hw.swap) fun _ hw => hw.swap

/-- The partner of the first character, while there is one. -/
theorem Holds.partner (h : Holds c p s t w) (hpartner : s.partner = some p) :
    ∃ y, w.partner c = some (p, y) ∧ y.tradeView = t := by
  obtain ⟨x, hx, rfl⟩ := Option.map_eq_some_iff.mp h.own
  obtain ⟨y, hy, ht⟩ := Option.map_eq_some_iff.mp h.other
  have hp : x.tradePartner = some p := hpartner
  refine ⟨y, ?_, ht⟩
  simp only [World.partner, hx, hp, hy, Option.bind_eq_bind, Option.bind_some]
  rfl

/-! ## The offers -/

section Offers
variable (hq : OnlyEndTrades quests) (hboth : BothStay staying quests c p s t)
  (hpartner : s.partner = some p)
include hq hboth hpartner

end Offers

/-! ## Ending a trade -/

/-- Two versions of the quests, of which the first fails where the second moves a trader. -/
structure QuestPair (staying quests : QuestRules) : Prop where
  effect : OnlyEndTrades quests
  stays : ∀ c p s t, Partners c p s t → Stays staying quests c p s t

theorem QuestPair.both (h : QuestPair staying quests) (hpartners : Partners c p s t) :
    BothStay staying quests c p s t :=
  ⟨h.stays c p s t hpartners, h.stays p c t s hpartners.swap⟩

/-- No trade at all. -/
def noTrade : TradeView := ⟨false, none, []⟩

theorem Holds.forgetPartners (h : Holds c p s t w) (hcp : c ≠ p) (hs : s.trading = false)
    (hs' : s.offer = []) (ht : t.trading = false) (ht' : t.offer = []) :
    Holds c p noTrade noTrade
      ((w.modify p Character.forgetPartner).modify c Character.forgetPartner) := by
  have hforget := (h.modify_other hcp (f := Character.forgetPartner)
    (g := fun t => ⟨t.trading, none, t.offer⟩) fun _ => rfl).modify_own hcp
    (f := Character.forgetPartner) (g := fun s => ⟨s.trading, none, s.offer⟩) fun _ => rfl
  rw [hs, hs', ht, ht'] at hforget
  exact hforget

end ArenaServ.World
