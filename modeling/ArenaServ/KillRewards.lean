import ArenaServ.Experience
import Mathlib.Algebra.BigOperators.Group.List.Basic
import Mathlib.Data.List.Sort
import Mathlib.Data.Rat.Floor
import Mathlib.Logic.Function.Basic

/-!
# The rewards of a kill

`NPC::Killed` gives the experience of an NPC to its attackers, or to their parties. In two of
the four share modes what the members of a party have earned is collected first and paid to
the party at the end. What is given out is kept in a log; the numbers of the rewards are
exact.
-/

namespace ArenaServ

/-- A character as `NPC::Killed` and `Party::ShareEXP` see it. -/
structure Fighter where
  earner : Earner
  map : ℕ
  nowhere : Bool
  canInteractCombat : Bool
  party : Option ℕ

structure SharingParty where
  members : List ℕ
  nodup : members.Nodup
  tempExpsum : ℤ

/-- `NPC_Opponent`. -/
structure Opponent where
  attacker : ℕ
  damage : ℕ
  deriving DecidableEq

/-- The NPC, the configuration, the characters on its map and `from`. What an NPC has been
dealt is in its list of attackers, with the killer. -/
structure Kill where
  rules : ExpRules
  exp : ℕ
  exprate : ℚ
  exprate_nonneg : 0 ≤ exprate
  sharemode : ℤ
  partysharemode : ℤ
  map : ℕ
  characters : List ℕ
  characters_nodup : characters.Nodup
  damagelist : List Opponent
  totaldamage : ℕ
  totaldamage_eq : totaldamage = (damagelist.map (·.damage)).sum
  killer : ℕ
  killer_mem : killer ∈ damagelist.map (·.attacker)

inductive ExpEvent where
  | direct (c : ℕ) (reward : ℤ)
  | collect (p : ℕ) (reward : ℤ)
  | pay (p : ℕ) (exp : ℤ)
  | share (p c : ℕ) (reward : ℤ)
  deriving DecidableEq

/-- What there is at the addresses of characters and of parties, the local `parties` of
`NPC::Killed`, and what has been given out. -/
structure KillWorld where
  fighter : ℕ → Fighter
  party : ℕ → SharingParty
  parties : List ℕ
  log : List ExpEvent

namespace KillWorld

def setEarner (c : ℕ) (f : Earner → Earner) (w : KillWorld) : KillWorld :=
  { w with
    fighter := Function.update w.fighter c
      { w.fighter c with earner := f (w.fighter c).earner } }

def setExpsum (p : ℕ) (exp : ℤ) (w : KillWorld) : KillWorld :=
  { w with party := Function.update w.party p { w.party p with tempExpsum := exp } }

def record (e : ExpEvent) (w : KillWorld) : KillWorld := { w with log := w.log ++ [e] }

end KillWorld

namespace Kill

variable (k : Kill)

/-! ## `Party::ShareEXP` -/

/-- The members that are not passed over. -/
def Present (f : Fighter) : Prop :=
  f.canInteractCombat = true ∧ f.map = k.map ∧ f.nowhere = false

instance (f : Fighter) : Decidable (k.Present f) := inferInstanceAs (Decidable (_ ∧ _))

def present (w : KillWorld) (p : ℕ) : List ℕ :=
  (w.party p).members.filter fun c => k.Present (w.fighter c)

def levelWeight (f : Fighter) : ℕ := if f.earner.level = 0 then 1 else f.earner.level

def sumlevel (w : KillWorld) (p : ℕ) : ℕ :=
  ((k.present w p).map fun c => levelWeight (w.fighter c)).sum

def memberReward (exp : ℤ) (members sumlevel : ℕ) (f : Fighter) : ℤ :=
  if k.partysharemode = 1 then ⌈(exp : ℚ) / members⌉
  else if k.partysharemode = 2 then ⌈(exp : ℚ) * levelWeight f / sumlevel⌉
  else 0

def shareMember (p : ℕ) (exp : ℤ) (members sumlevel : ℕ) (w : KillWorld) (c : ℕ) : KillWorld :=
  if k.Present (w.fighter c) then
    (w.setEarner c fun e => e.share k.rules
        (Int32.ofInt (k.memberReward exp members sumlevel (w.fighter c)))).record
      (.share p c (k.memberReward exp members sumlevel (w.fighter c)))
  else w

def shareEXP (p : ℕ) (exp : ℤ) (w : KillWorld) : KillWorld :=
  if (k.present w p).length = 0 ∨ k.sumlevel w p = 0 then w.record (.pay p exp)
  else
    (w.party p).members.foldl (k.shareMember p exp (k.present w p).length (k.sumlevel w p))
      (w.record (.pay p exp))

/-! ## `NPC::Killed` -/

/-- The party that gets what a character has earned. -/
def sharingParty (f : Fighter) : Option ℕ := if k.partysharemode ≠ 0 then f.party else none

def direct (c : ℕ) (reward : ℤ) (w : KillWorld) : KillWorld :=
  (w.setEarner c fun e => e.addExp (Int32.ofInt reward)).record (.direct c reward)

/-- Share modes 0 and 1: one takes all. -/
def handOut (c : ℕ) (reward : ℤ) (w : KillWorld) : KillWorld :=
  if 0 < reward then
    match k.sharingParty (w.fighter c) with
    | some p => k.shareEXP p reward w
    | none => direct c reward w
  else w

def collect (p : ℕ) (reward : ℤ) (w : KillWorld) : KillWorld :=
  (w.setExpsum p ((w.party p).tempExpsum + reward)).record (.collect p reward)

/-- The parties of the kill, in the order of their addresses. -/
def insertParty (p : ℕ) (w : KillWorld) : KillWorld :=
  { w with parties := if p ∈ w.parties then w.parties else w.parties.orderedInsert (· ≤ ·) p }

/-- Share mode 2. -/
def fairShare (c : ℕ) (reward : ℤ) (w : KillWorld) : KillWorld :=
  if 0 < reward then
    match k.sharingParty (w.fighter c) with
    | some p => insertParty p (collect p reward w)
    | none => direct c reward w
  else w

/-- Share mode 3, which does not note down the party. -/
def equalShare (c : ℕ) (reward : ℤ) (w : KillWorld) : KillWorld :=
  if 0 < reward then
    match k.sharingParty (w.fighter c) with
    | some p => collect p reward w
    | none => direct c reward w
  else w

/-- The first of those who did most damage. -/
def mostDamage : Option ℕ :=
  (k.damagelist.foldl
    (fun (most : ℕ × Option ℕ) opponent =>
      if most.1 < opponent.damage then (opponent.damage, some opponent.attacker) else most)
    (0, none)).2

def rewardAll : ℤ := ⌈(k.exp : ℚ) * k.exprate⌉

def rewardFair (opponent : Opponent) : ℤ :=
  ⌈(k.exp : ℚ) * k.exprate * (opponent.damage / k.totaldamage)⌉

def rewardEqual : ℤ := ⌈(k.exp : ℚ) * k.exprate * (k.damagelist.length / 1)⌉

def rewardCharacter (c : ℕ) (opponent : Opponent) (w : KillWorld) : KillWorld :=
  if k.sharemode = 0 then if c = k.killer then k.handOut c k.rewardAll w else w
  else if k.sharemode = 1 then if some c = k.mostDamage then k.handOut c k.rewardAll w else w
  else if k.sharemode = 2 then k.fairShare c (k.rewardFair opponent) w
  else if k.sharemode = 3 then k.equalShare c k.rewardEqual w
  else w

/-- The end of the loop's body: the limit, and the levels. -/
def settle (c : ℕ) (w : KillWorld) : KillWorld :=
  w.setEarner c fun e => (e.capExp k.rules).levelLoop k.rules

/-- `findopp`. -/
def opponentOf (c : ℕ) : Option Opponent := k.damagelist.find? (·.attacker = c)

def visit (w : KillWorld) (c : ℕ) : KillWorld :=
  match k.opponentOf c with
  | none => w
  | some opponent => if k.exp ≠ 0 then k.settle c (k.rewardCharacter c opponent w) else w

def payParty (w : KillWorld) (p : ℕ) : KillWorld :=
  (k.shareEXP p (w.party p).tempExpsum w).setExpsum p 0

/-- The rewards of `NPC::Killed`. -/
def killed (w : KillWorld) : KillWorld :=
  let w' := k.characters.foldl k.visit { w with parties := [], log := [] }
  w'.parties.foldl k.payParty w'

end Kill

end ArenaServ
