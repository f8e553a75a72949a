import ArenaServ.TradeSteps

/-!
# Quests

What a quest may do to trades and items: its actions warp the character or change the
inventory, and both check the quests again. Which actions a check takes is up to the
quest files and the state of the quests, given here as a script.
-/

namespace ArenaServ

/-- The cases of `DoAction` that reach trades, items or clients. -/
inductive QuestAction where
  /-- `setmap`, `setcoord`, `setrace` and the stats that show. -/
  | warp (map : ℕ)
  | giveItem (id : Int16) (amount : Int32)
  | removeItem (id : Int16) (amount : Int32)
  /-- Recalculated stats. -/
  | checkRules
  | send (character : Addr) (packet : PacketBuilder)

/-- The actions of each check of a character's quest rules. -/
abbrev QuestScript := ℕ → Addr → World → List QuestAction

namespace World

def doAction (quests : QuestRules) (config : TradeConfig) (c : Addr) (w : World) :
    QuestAction → Option World
  | .warp map => w.warp quests config c map
  | .giveItem id amount => w.addItem quests config.items c id amount
  | .removeItem id amount => w.delItem quests c id amount
  | .checkRules => quests c w
  | .send b packet => some (w.send b packet)

def doActions (quests : QuestRules) (config : TradeConfig) (c : Addr) :
    List QuestAction → World → Option World
  | [], w => some w
  | a :: rest, w => (w.doAction quests config c a).bind (doActions quests config c rest)

/-- `CheckQuestRules`; too deep a recursion is an exception. -/
def checkQuestRules (script : QuestScript) (config : TradeConfig) : ℕ → QuestRules
  | 0, _, _ => none
  | depth + 1, c, w =>
      doActions (checkQuestRules script config depth) config c (script w.questChecks c w)
        { w with questChecks := w.questChecks + 1 }

end World

/-! ## Quests only end trades -/

variable {quests : QuestRules} {config : TradeConfig} {rules : ItemRules} {w w' : World}
  {b c p : Addr} {x y : Character}

theorem QuestEffect.trans {w'' : World} (h : QuestEffect w w') (h' : QuestEffect w' w'') :
    QuestEffect w w'' := by
  refine ⟨?_, ?_⟩
  · intro b x'' hx''
    obtain ⟨x', hx', hpartner', hkept'⟩ := h'.kept b x'' hx''
    obtain ⟨x, hx, hpartner, hkept⟩ := h.kept b x' hx'
    refine ⟨x, hx, ?_, ?_⟩
    · rcases hpartner' with hsame | hnone
      · rw [hsame]
        exact hpartner
      · exact Or.inr hnone
    · intro htrading
      obtain ⟨htrading', hp', ha', ho'⟩ := hkept' htrading
      obtain ⟨hold, hp, ha, ho⟩ := hkept htrading'
      exact ⟨hold, hp'.trans hp, ha'.trans ha, ho'.trans ho⟩
  · intro b x'' p y hx'' htrading hp hy hytrading hyb
    obtain ⟨x', hx', -, hkept'⟩ := h'.kept b x'' hx''
    obtain ⟨htrading', hp', -, -⟩ := hkept' htrading
    have hpx' : x'.tradePartner = some p := hp'.symm.trans hp
    obtain ⟨y', hy', hy'trading⟩ := h.both b x' p y hx' htrading' hpx' hy hytrading hyb
    obtain ⟨y₀, hy₀, -, hykept⟩ := h.kept p y' hy'
    rw [hy, Option.some.injEq] at hy₀
    subst hy₀
    exact h'.both b x'' p y' hx'' htrading hp hy' hy'trading ((hykept hy'trading).2.1.trans hyb)

theorem QuestEffect.congr (hsame : w'.characters = w.characters) : QuestEffect w w' := by
  refine ⟨?_, ?_⟩
  · intro b x' hx'
    rw [hsame] at hx'
    exact ⟨x', hx', Or.inl rfl, fun htrading => ⟨htrading, rfl, rfl, rfl⟩⟩
  · intro b x' p y _ _ _ hy hytrading _
    rw [hsame]
    exact ⟨y, hy, hytrading⟩

namespace World

/-- A change to a character that leaves the trade alone. -/
theorem questEffect_modify (w : World) (c : Addr) (f : Character → Character)
    (hf : ∀ x, (f x).trading = x.trading ∧ (f x).tradePartner = x.tradePartner ∧
      (f x).tradeAgree = x.tradeAgree ∧ (f x).tradeInventory = x.tradeInventory) :
    QuestEffect w (w.modify c f) := by
  refine ⟨?_, ?_⟩
  · intro b x' hx'
    by_cases hb : b = c
    · subst hb
      rw [modify_self, Option.map_eq_some_iff] at hx'
      obtain ⟨x, hx, rfl⟩ := hx'
      obtain ⟨htrading, hrest⟩ := hf x
      exact ⟨x, hx, Or.inl hrest.1, fun h => ⟨htrading.symm.trans h, hrest⟩⟩
    · rw [modify_of_ne f hb] at hx'
      exact ⟨x', hx', Or.inl rfl, fun h => ⟨h, rfl, rfl, rfl⟩⟩
  · intro b x' p y _ _ _ hy hytrading _
    by_cases hp : p = c
    · subst hp
      refine ⟨f y, ?_, (hf y).1.trans hytrading⟩
      rw [modify_self, hy]
      rfl
    · rw [modify_of_ne f hp]
      exact ⟨y, hy, hytrading⟩

/-- Forgetting the partner of someone who does not trade. -/
theorem questEffect_forgetPartner (hc : w.Stopped c) :
    QuestEffect w (w.modify c Character.forgetPartner) := by
  refine ⟨?_, ?_⟩
  · intro b x' hx'
    by_cases hb : b = c
    · subst hb
      rw [modify_self, Option.map_eq_some_iff] at hx'
      obtain ⟨x, hx, rfl⟩ := hx'
      refine ⟨x, hx, Or.inr rfl, ?_⟩
      intro htrading
      exact absurd ((hc x hx).symm.trans htrading) Bool.false_ne_true
    · rw [modify_of_ne _ hb] at hx'
      exact ⟨x', hx', Or.inl rfl, fun h => ⟨h, rfl, rfl, rfl⟩⟩
  · intro b x' p y _ _ _ hy hytrading _
    have hp : p ≠ c := by
      rintro rfl
      exact absurd ((hc y hy).symm.trans hytrading) Bool.false_ne_true
    rw [modify_of_ne _ hp]
    exact ⟨y, hy, hytrading⟩

/-- A change to a character that keeps the partner. -/
theorem partner_kept_of_modify (w : World) (c : Addr) (f : Character → Character)
    (hf : ∀ x, (f x).tradePartner = x.tradePartner) {x' : Character}
    (hx' : (w.modify c f).characters b = some x') :
    ∃ x, w.characters b = some x ∧ x'.tradePartner = x.tradePartner := by
  by_cases hb : b = c
  · subst hb
    rw [modify_self, Option.map_eq_some_iff] at hx'
    obtain ⟨x, hx, rfl⟩ := hx'
    exact ⟨x, hx, hf x⟩
  · rw [modify_of_ne f hb] at hx'
    exact ⟨x', hx', rfl⟩

/-- Two partners stop trading together. -/
theorem questEffect_stop (hm : w.Mutual c) (hx : w.characters c = some x)
    (htrading : x.trading = true) (hp : x.tradePartner = some p)
    (hstop : ∀ b, b = c ∨ b = p → w'.Stopped b)
    (hpartner : ∀ b x', w'.characters b = some x' →
      ∃ x, w.characters b = some x ∧ x'.tradePartner = x.tradePartner)
    (hrest : ∀ b, b ≠ c → b ≠ p → w'.characters b = w.characters b) : QuestEffect w w' := by
  refine ⟨?_, ?_⟩
  · intro b x' hx'
    obtain ⟨z, hz, hsame⟩ := hpartner b x' hx'
    refine ⟨z, hz, Or.inl hsame, ?_⟩
    intro htr
    by_cases hb : b = c ∨ b = p
    · exact absurd ((hstop b hb x' hx').symm.trans htr) Bool.false_ne_true
    · rw [not_or] at hb
      rw [hrest b hb.1 hb.2, hz, Option.some.injEq] at hx'
      subst hx'
      exact ⟨htr, rfl, rfl, rfl⟩
  · intro b x' q y hx' htr _ hy hytrading hyb
    have hb : ¬ (b = c ∨ b = p) :=
      fun hb => absurd ((hstop b hb x' hx').symm.trans htr) Bool.false_ne_true
    rw [not_or] at hb
    have hqc : q ≠ c := by
      rintro rfl
      rw [hx, Option.some.injEq] at hy
      subst hy
      rw [hp, Option.some.injEq] at hyb
      exact hb.2 hyb.symm
    have hqp : q ≠ p := by
      rintro rfl
      have hyc := hm x q y hx htrading hp hy hytrading
      rw [hyc, Option.some.injEq] at hyb
      exact hb.1 hyb.symm
    rw [hrest q hqc hqp]
    exact ⟨y, hy, hytrading⟩

theorem mutual_of_stopped (h : w.Stopped c) : w.Mutual c := by
  intro x p y hx htrading
  exact absurd ((h x hx).symm.trans htrading) Bool.false_ne_true

theorem questEffect_addItem (hq : OnlyEndTrades quests) (hm : w.Mutual c) {item : Int16}
    {amount : Int32} (hw : w.addItem quests rules c item amount = some w') :
    QuestEffect w w' := by
  simp only [World.addItem, Option.bind_eq_bind, Option.bind_eq_some_iff] at hw
  obtain ⟨x, hx, hw⟩ := hw
  cases hadd : Inventory.addItem rules x.inventory item amount with
  | none =>
      rw [hadd] at hw
      cases hw
      exact QuestEffect.refl w
  | some inventory =>
      rw [hadd] at hw
      have hmod := questEffect_modify w c (fun x => { x with inventory := inventory })
        (fun _ => ⟨rfl, rfl, rfl, rfl⟩)
      exact hmod.trans (hq c _ w' (hm.quest hmod) hw)

theorem questEffect_delItem (hq : OnlyEndTrades quests) (hm : w.Mutual c) {item : Int16}
    {amount : Int32} (hw : w.delItem quests c item amount = some w') : QuestEffect w w' := by
  simp only [World.delItem, Option.bind_eq_bind, Option.bind_eq_some_iff] at hw
  obtain ⟨x, hx, hw⟩ := hw
  cases hdel : Inventory.delItem x.inventory item amount with
  | none =>
      rw [hdel] at hw
      cases hw
      exact QuestEffect.refl w
  | some inventory =>
      rw [hdel] at hw
      have hmod := questEffect_modify w c (fun x => { x with inventory := inventory })
        (fun _ => ⟨rfl, rfl, rfl, rfl⟩)
      exact hmod.trans (hq c _ w' (hm.quest hmod) hw)

theorem questEffect_stopTrade (hq : OnlyEndTrades quests) (hm : w.Mutual c)
    (hx : w.characters c = some x) (htrading : x.trading = true)
    (hw : w.stopTrade quests c = some w') : QuestEffect w w' ∧ w'.Stopped c := by
  simp only [World.stopTrade, Option.bind_eq_bind, Option.bind_eq_some_iff] at hw
  obtain ⟨x₀, hx₀, ⟨p, y₀⟩, hp₀, w₄, hw₄, ⟨p₄, y₄⟩, hp₄, w₅, hw₅, ⟨p₅, y₅⟩, hp₅, heq⟩ := hw
  obtain ⟨x₁, hx₁, hp, -⟩ := partner_eq_some hp₀
  rw [hx, Option.some.injEq] at hx₁
  subst hx₁
  set w₀ := w.send p ((PacketBuilder.new .trade .close).addShort x₀.playerId.toUInt16)
  set w₃ := ((w₀.modify c fun x => x.stopTrading.disagree).modify p
    Character.stopTrading).modify c Character.disagree with hw₃
  have hc₃ : w₃.Stopped c :=
    ((stopped_modify w₀ c _ (fun _ => rfl)).modify p _ (fun _ _ => rfl)).modify c _
      (fun _ hz => hz)
  have hp₃ : w₃.Stopped p := (stopped_modify _ p _ (fun _ => rfl)).modify c _ (fun _ hz => hz)
  have hpartner : ∀ b x', w₃.characters b = some x' →
      ∃ x, w.characters b = some x ∧ x'.tradePartner = x.tradePartner := by
    intro b x₃ hx₃
    obtain ⟨x₂, hx₂, h₃⟩ := partner_kept_of_modify _ c Character.disagree (fun _ => rfl) hx₃
    obtain ⟨x₁, hx₁, h₂⟩ := partner_kept_of_modify _ p Character.stopTrading (fun _ => rfl) hx₂
    obtain ⟨x₀, hx₀, h₁⟩ :=
      partner_kept_of_modify w₀ c (fun x => x.stopTrading.disagree) (fun _ => rfl) hx₁
    exact ⟨x₀, hx₀, h₃.trans (h₂.trans h₁)⟩
  have hrest : ∀ b, b ≠ c → b ≠ p → w₃.characters b = w.characters b := by
    intro b hbc hbp
    rw [hw₃, modify_of_ne _ hbc, modify_of_ne _ hbp, modify_of_ne _ hbc]
    rfl
  have h₃ : QuestEffect w w₃ := by
    refine questEffect_stop hm hx htrading hp ?_ hpartner hrest
    rintro b (rfl | rfl)
    · exact hc₃
    · exact hp₃
  have hpartner₃ : w₃.PartnerIs c p := by
    refine ⟨?_, mutual_of_stopped hc₃, mutual_of_stopped hp₃⟩
    intro x' hx'
    obtain ⟨z, hz, hsame⟩ := hpartner c x' hx'
    rw [hx, Option.some.injEq] at hz
    subst hz
    exact Or.inl (hsame.trans hp)
  have h₄ := hq c w₃ w₄ hpartner₃.own hw₄
  have hpartner₄ := hpartner₃.quest h₄
  obtain rfl := hpartner₄.eq hp₄
  have h₅ := hq p₄ w₄ w₅ hpartner₄.other hw₅
  obtain rfl := (hpartner₄.quest h₅).eq hp₅
  have hc₅ := (hc₃.quest h₄).quest h₅
  have hp₅ := (hp₃.quest h₄).quest h₅
  have hkeep : ∀ z : Character, z.trading = false → z.forgetPartner.trading = false :=
    fun _ hz => hz
  have hforget := (questEffect_forgetPartner hp₅).trans
    (questEffect_forgetPartner (hc₅.modify p₅ _ hkeep))
  rw [Option.pure_def, Option.some.injEq] at heq
  rw [← heq]
  exact ⟨h₃.trans (h₄.trans (h₅.trans hforget)), (hc₅.modify p₅ _ hkeep).modify c _ hkeep⟩

theorem questEffect_warp (hq : OnlyEndTrades quests) (hm : w.Mutual c) {map : ℕ}
    (hw : w.warp quests config c map = some w') : QuestEffect w w' := by
  simp only [World.warp, Option.bind_eq_bind, Option.bind_eq_some_iff] at hw
  obtain ⟨x, hx, hw⟩ := hw
  by_cases hmap : map = 0 ∨ config.maps[map - 1]? ≠ some true
  · rw [if_pos hmap] at hw
    cases hw
    exact QuestEffect.refl w
  rw [if_neg hmap] at hw
  set w₁ := (w.leaveMapOf config x.map c).modify c
    fun x => { x with map := some map, mapid := map } with hw₁
  have h₁ : QuestEffect w w₁ :=
    (QuestEffect.congr (leaveMapOf_characters x.map c)).trans
      (questEffect_modify _ c _ fun _ => ⟨rfl, rfl, rfl, rfl⟩)
  have hx₁ : w₁.characters c = some { x with map := some map, mapid := map } := by
    rw [hw₁, modify_self, leaveMapOf_characters, hx]
    rfl
  cases htrading : x.trading with
  | false =>
      simp only [htrading, Bool.false_eq_true, ↓reduceIte, Option.bind_some] at hw
      have henter : QuestEffect w₁ (w₁.enterMap map c) := QuestEffect.congr rfl
      have h₂ := h₁.trans henter
      exact h₂.trans (hq c _ w' (hm.quest h₂) hw)
  | true =>
      simp only [htrading, ↓reduceIte, Option.bind_eq_some_iff] at hw
      obtain ⟨w₂, hstop, hw⟩ := hw
      obtain ⟨h₂, -⟩ := questEffect_stopTrade hq (hm.quest h₁) hx₁ htrading hstop
      have henter : QuestEffect w₂ (w₂.enterMap map c) := QuestEffect.congr rfl
      have h₃ := (h₁.trans h₂).trans henter
      exact h₃.trans (hq c _ w' (hm.quest h₃) hw)

theorem questEffect_doAction (hq : OnlyEndTrades quests) (hm : w.Mutual c) (a : QuestAction)
    (hw : w.doAction quests config c a = some w') : QuestEffect w w' := by
  cases a with
  | warp map => exact questEffect_warp hq hm hw
  | giveItem id amount => exact questEffect_addItem hq hm hw
  | removeItem id amount => exact questEffect_delItem hq hm hw
  | checkRules => exact hq c w w' hm hw
  | send b packet =>
      cases hw
      exact QuestEffect.congr rfl

theorem questEffect_doActions (hq : OnlyEndTrades quests) (hm : w.Mutual c)
    (actions : List QuestAction) (hw : doActions quests config c actions w = some w') :
    QuestEffect w w' := by
  induction actions generalizing w with
  | nil =>
      rw [doActions, Option.some.injEq] at hw
      rw [← hw]
      exact QuestEffect.refl w
  | cons a rest ih =>
      rw [doActions, Option.bind_eq_some_iff] at hw
      obtain ⟨w₁, hw₁, hrest⟩ := hw
      have h₁ := questEffect_doAction hq hm a hw₁
      exact h₁.trans (ih (hm.quest h₁) hrest)

/-- Whatever the quest files say, at any depth of the recursion. -/
theorem checkQuestRules_onlyEndTrades (script : QuestScript) (config : TradeConfig)
    (depth : ℕ) : OnlyEndTrades (checkQuestRules script config depth) := by
  induction depth with
  | zero =>
      intro c w w' _ hw
      cases hw
  | succ depth ih =>
      intro c w w' hm hw
      have hcheck : QuestEffect w { w with questChecks := w.questChecks + 1 } :=
        QuestEffect.congr rfl
      exact hcheck.trans (questEffect_doActions ih (hm.quest hcheck) _ hw)

end World

end ArenaServ
