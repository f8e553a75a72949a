import ArenaServ.PlayWorld

/-!
# What acts do to a trade

Nothing that adds or removes items touches the trade fields of a character, and most of it
does nothing at all while the character trades.
-/

namespace ArenaServ.PlayingCharacter

/-- Of the fields in `Character`, at most the inventory differs. -/
def SameTrade (p p' : PlayingCharacter) : Prop :=
  p'.toCharacter = { p.toCharacter with inventory := p'.inventory }

variable {carry : CarryConfig} {config : PlayConfig} {p p' p'' : PlayingCharacter} {item : Int16}
  {amount : Int32}

theorem SameTrade.refl (p : PlayingCharacter) : SameTrade p p := rfl

theorem SameTrade.trans (h : SameTrade p p') (h' : SameTrade p' p'') : SameTrade p p'' := by
  unfold SameTrade at h h' ⊢
  rw [h', h]

theorem sameTrade_addItem (carry : CarryConfig) (p : PlayingCharacter) (item : Int16)
    (amount : Int32) : SameTrade p (p.addItem carry item amount) := by
  unfold addItem
  cases Inventory.addItem carry.items p.inventory item amount with
  | none => rfl
  | some inventory => rfl

theorem sameTrade_delItem (carry : CarryConfig) (p : PlayingCharacter) (item : Int16)
    (amount : Int32) : SameTrade p (p.delItem carry item amount) := by
  unfold delItem
  cases Inventory.delItem p.inventory item amount with
  | none => rfl
  | some inventory => rfl

theorem sameTrade_foldl {β : Type*} (f : PlayingCharacter → β → PlayingCharacter)
    (hf : ∀ p b, SameTrade p (f p b)) (bs : List β) (p : PlayingCharacter) :
    SameTrade p (bs.foldl f p) := by
  induction bs generalizing p with
  | nil => exact SameTrade.refl p
  | cons b bs ih => exact (hf p b).trans (ih (f p b))

theorem sameTrade_ite {cond : Prop} [Decidable cond] (h : SameTrade p p') :
    SameTrade p (if cond then p else p') := by
  split_ifs
  · exact SameTrade.refl p
  · exact h

theorem sameTrade_ite' {cond : Prop} [Decidable cond] (h : SameTrade p p') :
    SameTrade p (if cond then p' else p) := by
  split_ifs
  · exact h
  · exact SameTrade.refl p

/-- What a handler that may fail makes of a character has the same trade. -/
def KeepsTrade (p : PlayingCharacter) (result : Option PlayingCharacter) : Prop :=
  ∀ p' ∈ result, SameTrade p p'

theorem keepsTrade_some (h : SameTrade p p') : KeepsTrade p (some p') := by
  intro q hq
  rw [Option.mem_some_iff] at hq
  rw [← hq]
  exact h

theorem keepsTrade_bind {α : Type*} {o : Option α} {f : α → Option PlayingCharacter}
    (h : ∀ a ∈ o, KeepsTrade p (f a)) : KeepsTrade p (o.bind f) := by
  intro q hq
  obtain ⟨a, ha, hfa⟩ := Option.bind_eq_some_iff.mp hq
  exact h a ha q hfa

theorem keepsTrade_ite {cond : Prop} [Decidable cond] {o o' : Option PlayingCharacter}
    (h : KeepsTrade p o) (h' : KeepsTrade p o') : KeepsTrade p (if cond then o else o') := by
  split_ifs
  · exact h
  · exact h'

/-! ## The acts one by one -/

theorem sameTrade_unequip (p : PlayingCharacter) (item : Int16) (subloc : ℕ) :
    SameTrade p (p.unequip config item subloc) := by
  unfold unequip
  apply sameTrade_ite
  split
  · exact SameTrade.refl p
  · next i _ =>
      exact sameTrade_addItem config.carry { p with paperdoll := p.paperdoll.set i 0 } item 1

theorem keepsTrade_equip (p : PlayingCharacter) (item : Int16) (subloc : ℕ) :
    KeepsTrade p (p.equip config item subloc) := by
  have hrefl := keepsTrade_some (SameTrade.refl p)
  unfold equip
  apply keepsTrade_ite hrefl
  apply keepsTrade_bind
  intro info _
  apply keepsTrade_ite hrefl
  split
  · exact hrefl
  · next slot1 slot2 _ =>
      apply keepsTrade_ite hrefl
      apply keepsTrade_some
      exact sameTrade_delItem config.carry { p with paperdoll := p.paperdoll.set _ _ } item 1

theorem sameTrade_craft (p : PlayingCharacter) (recipe : ShopCraftItem) :
    SameTrade p (p.craft config recipe) := by
  unfold craft
  apply sameTrade_ite'
  apply SameTrade.trans _ (sameTrade_addItem _ _ _ _)
  exact sameTrade_foldl _ (fun p i => sameTrade_delItem _ p _ _) _ p

theorem sameTrade_dropAll (p : PlayingCharacter) : SameTrade p (p.dropAll config) := by
  unfold dropAll
  apply sameTrade_ite
  have hdrop : SameTrade p (p.dropInventory config) := rfl
  apply hdrop.trans
  apply sameTrade_foldl
  intro p slot
  unfold dropEquipped
  apply sameTrade_ite
  exact (sameTrade_unequip p _ _).trans (sameTrade_delItem _ _ _ _)

theorem keepsTrade_itemDrop (m : GroundMap) (time : ℤ) (reader : PacketReader) :
    KeepsTrade p ((p.itemDrop config.toGroundConfig m time reader).map (·.1)) := by
  unfold itemDrop
  rcases p.itemDropped config.toGroundConfig m reader with _ | _ | d
  · exact fun _ h => nomatch h
  · exact keepsTrade_some (SameTrade.refl p)
  · exact keepsTrade_some (sameTrade_delItem _ p _ _)

theorem keepsTrade_itemGet (m : GroundMap) (time : ℤ) (reader : PacketReader) :
    KeepsTrade p ((p.itemGet config.toGroundConfig m time reader).map (·.1)) := by
  unfold itemGet
  rcases p.itemTaken config.toGroundConfig m time reader with _ | _ | ⟨it, taken⟩
  · exact fun _ h => nomatch h
  · exact keepsTrade_some (SameTrade.refl p)
  · exact keepsTrade_some (sameTrade_addItem _ p _ _)

theorem keepsTrade_chestAdd (m : ChestMap) (reader : PacketReader) :
    KeepsTrade p ((p.chestAdd config.toChestConfig m reader).map (·.1)) := by
  unfold chestAdd
  rcases p.chestAdded config.toChestConfig m reader with _ | _ | ⟨id, amount, chests⟩
  · exact fun _ h => nomatch h
  · exact keepsTrade_some (SameTrade.refl p)
  · exact keepsTrade_some (sameTrade_delItem _ p _ _)

theorem keepsTrade_chestTake (m : ChestMap) (time : ℤ) (reader : PacketReader) :
    KeepsTrade p ((p.chestTake config.toChestConfig m time reader).map (·.1)) := by
  unfold chestTake
  rcases p.chestTaken config.toChestConfig m time reader with _ | _ | ⟨id, taken, chests⟩
  · exact fun _ h => nomatch h
  · exact keepsTrade_some (SameTrade.refl p)
  · exact keepsTrade_some (sameTrade_addItem _ p _ _)

theorem keepsTrade_bankStep (m : MapTiles) (s : BankStep) :
    KeepsTrade p (p.bankStep config.toBankConfig m s) := by
  cases s with
  | bankAdd reader =>
      change KeepsTrade p (p.bankAdd _ _)
      unfold bankAdd
      rcases p.bankAdded config.toBankConfig reader with _ | _ | amount
      · exact fun _ h => nomatch h
      · exact keepsTrade_some (SameTrade.refl p)
      · exact keepsTrade_some (sameTrade_delItem config.carry p 1 amount)
  | bankTake reader =>
      change KeepsTrade p (p.bankTake _ _)
      unfold bankTake
      rcases p.bankTaken reader with _ | _ | amount
      · exact fun _ h => nomatch h
      · exact keepsTrade_some (SameTrade.refl p)
      · exact keepsTrade_some (sameTrade_addItem config.carry { p with goldbank := _ } 1 amount)
  | lockerAdd reader =>
      change KeepsTrade p (p.lockerAdd _ _ _)
      unfold lockerAdd
      rcases p.lockerAdded config.toBankConfig m reader with _ | _ | ⟨id, amount, bank⟩
      · exact fun _ h => nomatch h
      · exact keepsTrade_some (SameTrade.refl p)
      · exact keepsTrade_some (sameTrade_delItem config.carry { p with bank := bank } id amount)
  | lockerTake reader =>
      change KeepsTrade p (p.lockerTake _ _ _)
      unfold lockerTake
      rcases p.lockerTaken config.toBankConfig m reader with _ | _ | ⟨id, taken⟩
      · exact fun _ h => nomatch h
      · exact keepsTrade_some (SameTrade.refl p)
      · exact keepsTrade_some (sameTrade_addItem config.carry p id taken)

theorem keepsTrade_act (a : Act) : KeepsTrade p (p.act config a) := by
  have hrefl := keepsTrade_some (SameTrade.refl p)
  have hdel := fun item amount => sameTrade_delItem config.carry p item amount
  have hadd := fun item amount => sameTrade_addItem config.carry p item amount
  cases a with
  | itemDrop m time reader => exact keepsTrade_itemDrop m time reader
  | itemGet m time reader => exact keepsTrade_itemGet m time reader
  | itemJunk reader =>
      change KeepsTrade p (p.itemJunk config reader)
      unfold itemJunk
      apply keepsTrade_ite hrefl
      apply keepsTrade_bind
      intro id _
      apply keepsTrade_bind
      intro amount _
      exact keepsTrade_some (sameTrade_ite' (hdel _ _))
  | itemUse reader scroll spawn =>
      change KeepsTrade p (p.itemUse config reader scroll spawn)
      unfold itemUse
      apply keepsTrade_ite hrefl
      apply keepsTrade_bind
      intro id _
      apply keepsTrade_bind
      intro info _
      exact keepsTrade_some (sameTrade_ite' (hdel _ _))
  | chestAdd m reader => exact keepsTrade_chestAdd m reader
  | chestTake m time reader => exact keepsTrade_chestTake m time reader
  | bank m s => exact keepsTrade_bankStep m s
  | lockerBuy =>
      apply keepsTrade_some
      unfold lockerBuy
      apply sameTrade_ite
      apply sameTrade_ite
      exact sameTrade_delItem config.carry { p with bankmax := _ } 1 _
  | shopCreate reader =>
      change KeepsTrade p (p.shopCreate config reader)
      unfold shopCreate
      apply keepsTrade_ite hrefl
      apply keepsTrade_bind
      intro item _
      apply keepsTrade_ite hrefl
      exact keepsTrade_some (sameTrade_foldl _ (fun p recipe => sameTrade_craft p recipe) _ p)
  | shopBuy reader =>
      change KeepsTrade p (p.shopBuy config reader)
      unfold shopBuy
      apply keepsTrade_ite hrefl
      apply keepsTrade_bind
      intro item _
      apply keepsTrade_bind
      intro amount _
      apply keepsTrade_ite hrefl
      split
      · exact hrefl
      · apply keepsTrade_ite hrefl
        exact keepsTrade_some ((hdel _ _).trans (sameTrade_addItem _ _ _ _))
  | shopSell reader =>
      change KeepsTrade p (p.shopSell config reader)
      unfold shopSell
      apply keepsTrade_ite hrefl
      apply keepsTrade_bind
      intro item _
      apply keepsTrade_bind
      intro amount _
      apply keepsTrade_ite hrefl
      split
      · exact hrefl
      · apply keepsTrade_ite hrefl
        exact keepsTrade_some ((hdel _ _).trans (sameTrade_addItem _ _ _ _))
  | statSkillTake reader =>
      change KeepsTrade p (p.statSkillTake config reader)
      unfold statSkillTake
      apply keepsTrade_bind
      intro shop _
      apply keepsTrade_bind
      intro spell _
      apply keepsTrade_ite hrefl
      split
      · exact hrefl
      · apply keepsTrade_ite hrefl
        exact keepsTrade_some (hdel _ _)
  | citizenAccept => exact keepsTrade_some (sameTrade_ite' (hdel _ _))
  | jukeboxMsg reader playing =>
      change KeepsTrade p (p.jukeboxMsg config reader playing)
      unfold jukeboxMsg
      apply keepsTrade_ite hrefl
      apply keepsTrade_bind
      intro x _
      apply keepsTrade_bind
      intro y _
      apply keepsTrade_bind
      intro track _
      exact keepsTrade_some (sameTrade_ite (hdel _ _))
  | marriageRequest reader =>
      change KeepsTrade p (p.marriageRequest config reader)
      unfold marriageRequest
      rcases p.marriagePaid config reader with _ | _ | price
      · exact fun _ h => nomatch h
      · exact hrefl
      · exact keepsTrade_some (hdel _ _)
  | guildCreate reader members validDescription =>
      change KeepsTrade p (p.guildCreate config reader members validDescription)
      unfold guildCreate
      apply keepsTrade_bind
      intro session _
      apply keepsTrade_bind
      intro byte _
      apply keepsTrade_bind
      intro tag _
      apply keepsTrade_bind
      intro name _
      apply keepsTrade_bind
      intro description _
      exact keepsTrade_some (sameTrade_ite (hdel _ _))
  | guildBuy reader bank =>
      change KeepsTrade p (p.guildBuy config reader bank)
      unfold guildBuy
      apply keepsTrade_ite hrefl
      apply keepsTrade_ite hrefl
      apply keepsTrade_bind
      intro session _
      apply keepsTrade_bind
      intro gold _
      exact keepsTrade_some (sameTrade_ite (hdel _ _))
  | barberBuy reader =>
      change KeepsTrade p (p.barberBuy config reader)
      unfold barberBuy
      apply keepsTrade_ite hrefl
      apply keepsTrade_bind
      intro style _
      apply keepsTrade_bind
      intro color _
      exact keepsTrade_some (sameTrade_ite (hdel _ _))
  | paperdollAdd reader =>
      change KeepsTrade p (p.paperdollAdd config reader)
      unfold paperdollAdd
      apply keepsTrade_ite hrefl
      apply keepsTrade_bind
      intro item _
      apply keepsTrade_bind
      intro subloc _
      exact keepsTrade_equip p _ _
  | paperdollRemove reader =>
      change KeepsTrade p (p.paperdollRemove config reader)
      unfold paperdollRemove
      apply keepsTrade_bind
      intro item _
      apply keepsTrade_bind
      intro subloc _
      apply keepsTrade_bind
      intro data _
      exact keepsTrade_some (sameTrade_ite (sameTrade_unequip p _ _))
  | spawnItem id amount => exact keepsTrade_some (hadd _ _)
  | commandDropItem id amount =>
      exact keepsTrade_some (sameTrade_ite (sameTrade_ite' (hdel _ _)))
  | weddingRing => exact keepsTrade_some (sameTrade_ite (hadd _ _))
  | questGiveItem id amount => exact keepsTrade_some (hadd _ _)
  | questRemoveItem id amount => exact keepsTrade_some (hdel _ _)

end ArenaServ.PlayingCharacter

namespace ArenaServ.PlayWorld

variable {config : PlayConfig} {L : Addr → Character → Prop} {w w' : PlayWorld} {c : Addr}
  {p p' : PlayingCharacter}

theorem player_eq_some (hp : w.player c = some p) :
    w.trade.characters c = some p.toCharacter := by
  rw [player, Option.map_eq_some_iff] at hp
  obtain ⟨x, hx, rfl⟩ := hp
  exact hx

theorem modify_congr (w : World) (c : Addr) {f g : Character → Character}
    (h : ∀ x, w.characters c = some x → f x = g x) : w.modify c f = w.modify c g := by
  unfold World.modify
  congr 1
  funext b
  by_cases hbc : b = c
  · subst hbc
    rw [if_pos rfl, if_pos rfl]
    cases hb : w.characters b with
    | none => rfl
    | some x => exact congrArg some (h x hb)
  · rw [if_neg hbc, if_neg hbc]

/-- What a character becomes outside trade steps, when it still trades with the same partner. -/
theorem sound_put (h : w.trade.Sound ∅ ∅ L) (hp : w.player c = some p)
    (htrading : p'.trading = p.trading) (hpartner : p'.tradePartner = p.tradePartner)
    (hL : L c p'.toCharacter) : (w.put c p').trade.Sound ∅ ∅ L := by
  -- the new character, as a change that leaves the pairing alone
  set f : Character → Character := fun x =>
    { p'.toCharacter with trading := x.trading, tradePartner := x.tradePartner } with hf
  have hchar : ∀ x, w.trade.characters c = some x → f x = p'.toCharacter := by
    intro x hx
    rw [player_eq_some hp, Option.some.injEq] at hx
    rw [hf, ← hx]
    dsimp only
    rw [← htrading, ← hpartner]
  have hput : (w.put c p').trade = w.trade.modify c f :=
    modify_congr w.trade c fun x hx => (hchar x hx).symm
  rw [hput]
  apply h.modify c f (fun _ hb => Or.inr hb) (fun _ => ⟨rfl, rfl⟩)
  intro _ x hx
  rw [hchar x hx]
  exact hL

/-- In this step the items of `p` become those of `q`. -/
def Moves (config : PlayConfig) (c : Addr) (p q : PlayingCharacter) : PlayStep → Prop
  | .act c' a => c' = c ∧ p.act config a = some q
  | .death c' _ => c' = c ∧ q = if config.deadly then p.dropAll config else p
  | .become c' _ _ => c' = c ∧ q = p
  | .trade _ => False

/-- A step is a step of a trade, or one character gets or loses items and goes on. -/
theorem step_cases {s : PlayStep} (hw : w.step config s = some w') :
    (∃ t, s = .trade t ∧ w.trade.step noQuests config.trade t = some w'.trade) ∨
    ∃ c p q p', w.player c = some p ∧ Moves config c p q s ∧ PlayingCharacter.SameTrade p q ∧
      p'.toCharacter = { q.toCharacter with
        canInteractItems := p'.canInteractItems, map := p'.map, mapid := p'.mapid } ∧
      w'.trade.characters = (w.put c p').trade.characters := by
  cases s with
  | trade t =>
      rw [step, Option.map_eq_some_iff] at hw
      obtain ⟨trade, htrade, rfl⟩ := hw
      exact Or.inl ⟨t, rfl, htrade⟩
  | act c a =>
      simp only [step, Option.bind_eq_bind, Option.bind_eq_some_iff, Option.pure_def,
        Option.some.injEq] at hw
      obtain ⟨p, hp, p', hp', rfl⟩ := hw
      have hsame := PlayingCharacter.keepsTrade_act a p' hp'
      exact Or.inr ⟨c, p, p', p', hp, ⟨rfl, hp'⟩, hsame, rfl, rfl⟩
  | death c spawnMap =>
      simp only [step, deathRespawn, Option.bind_eq_bind, Option.bind_eq_some_iff,
        Option.pure_def, Option.some.injEq] at hw
      obtain ⟨p, hp, m, -, m', -, rfl⟩ := hw
      set q := if config.deadly then p.dropAll config else p with hq
      have hsame : PlayingCharacter.SameTrade p q :=
        PlayingCharacter.sameTrade_ite' (PlayingCharacter.sameTrade_dropAll p)
      exact Or.inr ⟨c, p, q, { q with map := some m', mapid := spawnMap }, hp, ⟨rfl, hq⟩, hsame,
        rfl, rfl⟩
  | become c canInteractItems rest =>
      simp only [step, Option.bind_eq_bind, Option.bind_eq_some_iff, Option.pure_def,
        Option.some.injEq] at hw
      obtain ⟨p, hp, rfl⟩ := hw
      exact Or.inr ⟨c, p, p, ⟨{ p.toCharacter with canInteractItems := canInteractItems }, rest⟩,
        hp, ⟨rfl, rfl⟩, PlayingCharacter.SameTrade.refl p, rfl, rfl⟩

theorem sound_step (h : w.trade.Sound ∅ ∅ L) (hL : TradeLocal config.items L)
    (hagree : ∀ b x agree, L b x → L b { x with tradeAgree := agree }) {s : PlayStep}
    (hitems : ∀ c p q, w.player c = some p → Moves config c p q s →
      PlayingCharacter.SameTrade p q → L c p.toCharacter → L c q.toCharacter)
    (hw : w.step config s = some w') : w'.trade.Sound ∅ ∅ L := by
  rcases step_cases hw with ⟨t, rfl, htrade⟩ | ⟨c, p, q, p', hp, hmoves, hsame, hp', hw'⟩
  · exact h.step (keptByQuests_noQuests L) hL hagree t htrade
  · have hold := h.each c p.toCharacter (Set.notMem_empty c) (player_eq_some hp)
    have hq := hitems c p q hp hmoves hsame hold
    refine World.Sound.congr (sound_put h hp ?_ ?_ ?_) hw'
    · rw [hp', hsame]
    · rw [hp', hsame]
    · rw [hp']
      exact hL.frame c q.toCharacter _ rfl rfl rfl rfl hq

end ArenaServ.PlayWorld
