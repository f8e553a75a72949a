import ArenaServ.Shops

/-!
# Requests to a lawyer

`Marriage_Request` asks `HasItem` for the price where it takes whether to include what is offered in
a trade, so it finds out whether there is any gold. `DelItem` takes the price then, or all that is
there when it is less.
-/

namespace ArenaServ
open Inventory

inductive MarriageReply where
  | alreadyHavePartner
  | notEnoughGold
  | notMarried
  | wrongName
  | success (gold : Int32)
  deriving DecidableEq, Repr

/-- The partner of whoever has the name in a request, as a character in the game and in the
database. -/
structure PartnerRecord where
  online : Option Bytes
  row : Option Bytes
  deriving DecidableEq, Repr

/-- What a divorce does to it, where `name` is who divorces. -/
def PartnerRecord.divorced (other : PartnerRecord) (name : Bytes) : PartnerRecord :=
  if other.online.isSome then { other with online := some [] }
  else { other with row := other.row.map fun partner => if partner = name then [] else partner }

namespace PlayingCharacter

variable (config : PlayConfig)

/-- `Marriage_Request`: the character after it, the one with the name in it, and the answer. -/
def marriageAnswer (p : PlayingCharacter) (other : PartnerRecord) (request : ℕ) (name : Bytes) :
    PlayingCharacter × PartnerRecord × Option MarriageReply :=
  if p.npcType ≠ .law then (p, other, none)
  else if request = 1 then
    if p.partner ≠ [] then (p, other, some .alreadyHavePartner)
    -- the price stands where `HasItem` takes `include_trade`
    else if p.hasItem 1 (config.marriagePrice ≠ 0) = 0 then (p, other, some .notEnoughGold)
    else if validCharacterName name then
      let q := { p.delItem config.carry 1 config.marriagePrice with fiance := name }
      (q, other, some (.success (q.hasItem 1 false)))
    else (p, other, none)
  else if request = 2 then
    if p.partner = [] then (p, other, some .notMarried)
    else if p.hasItem 1 (config.divorcePrice ≠ 0) = 0 then (p, other, some .notEnoughGold)
    else if p.partner ≠ name then (p, other, some .wrongName)
    else
      let q := { p with partner := [] }.delItem config.carry 1 config.divorcePrice
      (q, other.divorced p.sourceName, some (.success (q.hasItem 1 false)))
  else (p, other, none)

/-- The price of what is requested. -/
def requestPrice (request : ℕ) : Int32 :=
  if request = 1 then config.marriagePrice else config.divorcePrice

/-- A request that is granted costs its price out of what is not offered in a trade, and any other
changes nothing. -/
structure MarriageExact (p : PlayingCharacter) (other : PartnerRecord) (request : ℕ) (name : Bytes)
    (q : PlayingCharacter) (other' : PartnerRecord) (reply : Option MarriageReply) : Prop where
  granted : ∀ gold, reply = some (.success gold) →
    requestPrice config request ≤ p.hasItem 1 false ∧
      q.total 1 = p.total 1 - (requestPrice config request).toInt
  refused : (∀ gold, reply ≠ some (.success gold)) →
    q.total 1 = p.total 1 ∧ q.fiance = p.fiance ∧ q.partner = p.partner ∧ other' = other

/-- What is requested can be had by a character with the gold for it. -/
def MayRequest (p : PlayingCharacter) (request : ℕ) (name : Bytes) : Prop :=
  p.npcType = .law ∧ (request = 1 ∧ p.partner = [] ∧ validCharacterName name = true ∨
    request = 2 ∧ p.partner ≠ [] ∧ p.partner = name)

/-- There is no gold at all, or as much as the price, with and without what is offered in a
trade. -/
def GoldFits (p : PlayingCharacter) (price : Int32) : Prop :=
  p.hasItem 1 (price ≠ 0) = 0 ∨
    0 ≤ price ∧ price ≤ p.hasItem 1 false ∧ (0 < price → price ≤ p.hasItem 1 true)

variable {config} {p : PlayingCharacter} {other : PartnerRecord} {request : ℕ} {name : Bytes}
  {price : Int32}

/-! ## Granted and refused -/

theorem marriageExact_refused (reply : Option MarriageReply)
    (h : ∀ gold, reply ≠ some (.success gold)) :
    p.MarriageExact config other request name p other reply where
  granted gold hgold := absurd hgold (h gold)
  refused _ := ⟨rfl, rfl, rfl, rfl⟩

theorem marriageExact_granted {q : PlayingCharacter} {other' : PartnerRecord} {gold : Int32}
    (hgold : p.hasItem 1 (requestPrice config request ≠ 0) ≠ 0)
    (htotal : q.total 1 = (p.delItem config.carry 1 (requestPrice config request)).total 1) :
    p.MarriageExact config other request name q other' (some (.success gold)) ↔
      p.GoldFits (requestPrice config request) := by
  have hpaid := @total_delItem_iff p config.carry (requestPrice config request) 1
  rw [← htotal] at hpaid
  unfold GoldFits
  rw [or_iff_right hgold]
  constructor
  · intro h
    obtain ⟨hfree, hexact⟩ := h.granted gold rfl
    obtain ⟨hnonneg, hstack⟩ := hpaid.mp hexact
    exact ⟨hnonneg, hfree, hstack⟩
  · rintro ⟨hnonneg, hfree, hstack⟩
    exact
      { granted := fun _ _ => ⟨hfree, hpaid.mpr ⟨hnonneg, hstack⟩⟩
        refused := fun h => absurd rfl (h gold) }

/-- A request is exact if and only if it cannot be had anyway or the gold is none or enough. -/
theorem marriageExact_iff (config : PlayConfig) (p : PlayingCharacter) (other : PartnerRecord)
    (request : ℕ) (name : Bytes) :
    p.MarriageExact config other request name (p.marriageAnswer config other request name).1
        (p.marriageAnswer config other request name).2.1
        (p.marriageAnswer config other request name).2.2 ↔
      (p.MayRequest request name → p.GoldFits (requestPrice config request)) := by
  have hrefuse : ∀ reply : Option MarriageReply, (∀ gold, reply ≠ some (.success gold)) →
      (p.MayRequest request name → p.GoldFits (requestPrice config request)) →
      (p.MarriageExact config other request name p other reply ↔
        (p.MayRequest request name → p.GoldFits (requestPrice config request))) :=
    fun reply hreply hfits => iff_of_true (marriageExact_refused reply hreply) hfits
  unfold marriageAnswer
  by_cases hlaw : p.npcType = .law
  · rw [if_neg (not_not.mpr hlaw)]
    by_cases hone : request = 1
    · have hprice : requestPrice config request = config.marriagePrice := if_pos hone
      rw [if_pos hone]
      by_cases hmarried : p.partner = []
      · rw [if_neg (not_not.mpr hmarried)]
        by_cases hgold : p.hasItem 1 (config.marriagePrice ≠ 0) = 0
        · rw [if_pos hgold]
          refine hrefuse _ (fun _ h => by cases h) (fun _ => Or.inl ?_)
          rw [hprice]
          exact hgold
        · rw [if_neg hgold]
          by_cases hname : validCharacterName name = true
          · have hmay : p.MayRequest request name := ⟨hlaw, Or.inl ⟨hone, hmarried, hname⟩⟩
            rw [if_pos hname, imp_iff_right hmay]
            rw [← hprice] at hgold
            apply marriageExact_granted hgold
            rw [hprice]
            rfl
          · rw [if_neg hname]
            refine hrefuse _ (fun _ h => by cases h) ?_
            rintro ⟨-, ⟨-, -, hvalid⟩ | ⟨htwo, -⟩⟩
            · exact absurd hvalid hname
            · omega
      · rw [if_pos hmarried]
        refine hrefuse _ (fun _ h => by cases h) ?_
        rintro ⟨-, ⟨-, hfree, -⟩ | ⟨htwo, -⟩⟩
        · exact absurd hfree hmarried
        · omega
    · rw [if_neg hone]
      by_cases htwo : request = 2
      · have hprice : requestPrice config request = config.divorcePrice := if_neg hone
        rw [if_pos htwo]
        by_cases hmarried : p.partner = []
        · rw [if_pos hmarried]
          refine hrefuse _ (fun _ h => by cases h) ?_
          rintro ⟨-, ⟨hfirst, -⟩ | ⟨-, hpartner, -⟩⟩
          · exact absurd hfirst hone
          · exact absurd hmarried hpartner
        · rw [if_neg hmarried]
          by_cases hgold : p.hasItem 1 (config.divorcePrice ≠ 0) = 0
          · rw [if_pos hgold]
            refine hrefuse _ (fun _ h => by cases h) (fun _ => Or.inl ?_)
            rw [hprice]
            exact hgold
          · rw [if_neg hgold]
            by_cases hname : p.partner = name
            · have hmay : p.MayRequest request name := ⟨hlaw, Or.inr ⟨htwo, hmarried, hname⟩⟩
              rw [if_neg (not_not.mpr hname), imp_iff_right hmay]
              rw [← hprice] at hgold
              apply marriageExact_granted hgold
              rw [hprice]
              unfold total
              rw [delItem_inventory, delItem_inventory]
            · rw [if_pos hname]
              refine hrefuse _ (fun _ h => by cases h) ?_
              rintro ⟨-, ⟨hfirst, -⟩ | ⟨-, -, hpartner⟩⟩
              · exact absurd hfirst hone
              · exact absurd hpartner hname
      · rw [if_neg htwo]
        refine hrefuse _ (fun _ h => by cases h) ?_
        rintro ⟨-, ⟨hfirst, -⟩ | ⟨hsecond, -⟩⟩
        · exact absurd hfirst hone
        · exact absurd hsecond htwo
  · rw [if_pos hlaw]
    refine hrefuse _ (fun _ h => by cases h) ?_
    exact fun hmay => absurd hmay.1 hlaw

/-- The inventory is that of `marriageRequest`. -/
theorem inventory_marriageRequest (p : PlayingCharacter) (other : PartnerRecord)
    (reader : PacketReader) : (p.marriageRequest config reader).map (·.inventory) =
      reader.getChar.bind fun request => request.2.getInt.bind fun session =>
        session.2.getByte.bind fun byte => byte.2.getEndString.map fun name =>
          (p.marriageAnswer config other request.1 (lowercase name.1)).1.inventory := by
  unfold marriageRequest marriagePaid
  cases reader.getChar with
  | none => rfl
  | some request =>
      change Option.map _ (Option.bind (Option.bind request.2.getInt _) _) =
        Option.bind request.2.getInt _
      cases request.2.getInt with
      | none => rfl
      | some session =>
          change Option.map _ (Option.bind (Option.bind session.2.getByte _) _) =
            Option.bind session.2.getByte _
          cases session.2.getByte with
          | none => rfl
          | some byte =>
              change Option.map _ (Option.bind (Option.bind byte.2.getEndString _) _) =
                Option.map _ byte.2.getEndString
              cases byte.2.getEndString with
              | none => rfl
              | some text =>
                  dsimp only [Option.bind_some, Option.map_some]
                  generalize lowercase text.1 = name
                  generalize request.1 = request
                  unfold marriageAnswer
                  by_cases hlaw : p.npcType = .law
                  · rw [if_neg (not_not.mpr hlaw), if_neg (not_not.mpr hlaw)]
                    by_cases hone : request = 1
                    · rw [if_pos hone, if_pos hone]
                      split_ifs with hrefused hmarried hgold hname hmarried hgold hname
                      · rfl
                      · rfl
                      · rcases hrefused with hpartner | hnone | hinvalid
                        · exact absurd hpartner hmarried
                        · exact absurd hnone hgold
                        · rw [hname] at hinvalid
                          cases hinvalid
                      · rfl
                      · exact absurd (Or.inl hmarried) hrefused
                      · exact absurd (Or.inr (Or.inl hgold)) hrefused
                      · rfl
                      · have hinvalid : (!validCharacterName name) = true := by
                          rw [Bool.eq_false_of_not_eq_true hname]
                          rfl
                        exact absurd (Or.inr (Or.inr hinvalid)) hrefused
                    · rw [if_neg hone, if_neg hone]
                      split_ifs with htwo hrefused hmarried hgold hname hmarried hgold hname
                      · rfl
                      · rfl
                      · rfl
                      · rcases hrefused with hpartner | hnone | hother
                        · exact absurd hpartner hmarried
                        · exact absurd hnone hgold
                        · exact absurd hother hname
                      · exact absurd (Or.inl hmarried) hrefused
                      · exact absurd (Or.inr (Or.inl hgold)) hrefused
                      · exact absurd (Or.inr (Or.inr hname)) hrefused
                      · change some (p.delItem config.carry 1 config.divorcePrice).inventory =
                          some (delItem config.carry _ 1 config.divorcePrice).inventory
                        rw [delItem_inventory, delItem_inventory]
                      · rfl
                  · rw [if_pos hlaw, if_pos hlaw]
                    rfl

/-! ## Not enough gold -/

/-- Somebody with one piece of gold, who is at a lawyer. -/
def suitor : PlayingCharacter :=
  { Ground.walker 1 [⟨1, 1⟩] with npcType := .law }

/-- The approval costs six, and is granted for one. -/
theorem not_marriageExact_suitor :
    ¬ suitor.MarriageExact fair ⟨none, none⟩ 1 [97, 108, 105, 99, 101]
      (suitor.marriageAnswer fair ⟨none, none⟩ 1 [97, 108, 105, 99, 101]).1
      (suitor.marriageAnswer fair ⟨none, none⟩ 1 [97, 108, 105, 99, 101]).2.1
      (suitor.marriageAnswer fair ⟨none, none⟩ 1 [97, 108, 105, 99, 101]).2.2 := by
  intro h
  have hgranted := (h.granted 0 (by decide)).1
  exact absurd hgranted (by decide)

end PlayingCharacter

end ArenaServ
