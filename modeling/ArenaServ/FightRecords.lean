import ArenaServ.FirstMatch
import ArenaServ.PlayingCharacter
import ArenaServ.RunSteps
import Mathlib.Algebra.Order.BigOperators.Group.List
import Mathlib.Algebra.Order.Ring.Int
import Mathlib.Logic.Function.Basic

/-!
# The records of the fights agree

The damage an NPC has taken is the sum of what its attackers have dealt it, and the attackers
of an NPC are the characters online that have to be taken off it.
-/

/-!
## Who has hit an NPC

An NPC has a list of its attackers with what each has dealt it, and the sum of that. A
character has the list of the NPCs to be taken off when it logs out. `NPC::Damage` writes both,
and both are cleared when an NPC dies.
-/

namespace ArenaServ

/-- `NPC_Opponent`. -/
structure NpcOpponent where
  attacker : ℕ
  damage : Int32
  deriving DecidableEq, Repr

/-- An NPC. The health of its kind is read from three bytes. -/
structure FightingNpc where
  type : NpcType
  boss : Bool
  child : Bool
  temporary : Bool
  maxhp : Fin (2 ^ 24)
  map : ℕ
  alive : Bool
  hp : Int32
  totaldamage : Int32
  damagelist : List NpcOpponent

structure FightingCharacter where
  online : Bool
  unregisterNpc : List ℕ
  deriving DecidableEq, Repr

/-- What there is at the addresses of NPCs and of characters, and the NPCs of each map. -/
structure NpcFights where
  npcs : ℕ → FightingNpc
  mapNpcs : ℕ → List ℕ
  characters : ℕ → FightingCharacter

namespace FightingNpc

/-- A sum that is not used when it has not become larger. -/
def grown (damage amount : Int32) : Int32 :=
  if damage.toInt < (damage + amount).toInt then damage + amount else damage

def limitamount (n : FightingNpc) (amount : Int32) : Int32 :=
  if n.hp.toInt ≤ amount.toInt then n.hp else amount

def attackers (n : FightingNpc) : List ℕ := n.damagelist.map (·.attacker)

/-- `Damage`, as far as the NPC itself is concerned. -/
def hurt (limitDamage : Bool) (c : ℕ) (amount : Int32) (n : FightingNpc) : FightingNpc :=
  { n with
    hp :=
      if n.type = .passive ∨ n.type = .aggressive then
        n.hp - if limitDamage then n.limitamount amount else amount
      else 0
    totaldamage := grown n.totaldamage (n.limitamount amount)
    damagelist :=
      if c ∈ n.attackers then
        n.damagelist.map fun o =>
          if o.attacker = c then { o with damage := grown o.damage (n.limitamount amount) } else o
      else n.damagelist ++ [⟨c, n.limitamount amount⟩] }

/-- The first entry of an attacker is taken off. -/
def forget (c : ℕ) (n : FightingNpc) : FightingNpc :=
  match n.damagelist.find? (·.attacker = c) with
  | none => n
  | some o =>
      { n with
        totaldamage := n.totaldamage - o.damage
        damagelist := FirstMatch.alterFirst (·.attacker = c) (fun _ => none) n.damagelist }

end FightingNpc

namespace NpcFights

def setNpc (i : ℕ) (n : FightingNpc) (w : NpcFights) : NpcFights :=
  { w with npcs := Function.update w.npcs i n }

def setCharacter (c : ℕ) (p : FightingCharacter) (w : NpcFights) : NpcFights :=
  { w with characters := Function.update w.characters c p }

/-- An NPC is removed from what a character has to be taken off from. -/
def unregister (i : ℕ) (w : NpcFights) (c : ℕ) : NpcFights :=
  w.setCharacter c
    { w.characters c with unregisterNpc := (w.characters c).unregisterNpc.filter (· ≠ i) }

/-- What `Killed` and `Die` do to the attackers of an NPC. -/
def clearAttackers (i : ℕ) (w : NpcFights) : NpcFights :=
  let w := (w.npcs i).attackers.foldl (unregister i) w
  w.setNpc i { w.npcs i with damagelist := [], totaldamage := 0 }

/-- A temporary NPC is taken from its map and deleted. -/
def deleteTemporary (i : ℕ) (w : NpcFights) : NpcFights :=
  if (w.npcs i).temporary then
    { w with
      mapNpcs := Function.update w.mapNpcs (w.npcs i).map
        ((w.mapNpcs (w.npcs i).map).filter (· ≠ i)) }
  else w

def kill (i : ℕ) (w : NpcFights) : NpcFights :=
  (w.setNpc i { w.npcs i with alive := false }).clearAttackers i

def die (w : NpcFights) (i : ℕ) : NpcFights :=
  if (w.npcs i).alive then (w.kill i).deleteTemporary i else w

/-- The living children on the map of a boss. -/
def children (i : ℕ) (w : NpcFights) : List ℕ :=
  (w.mapNpcs (w.npcs i).map).filter fun j =>
    (w.npcs j).child && !(w.npcs j).boss && (w.npcs j).alive

/-- `Killed`, without what the attackers are given. -/
def killed (i : ℕ) (w : NpcFights) : NpcFights :=
  let w := w.kill i
  let w := if (w.npcs i).boss then (w.children i).foldl die w else w
  w.deleteTemporary i

/-- `Damage`. -/
def damage (limitDamage : Bool) (c i : ℕ) (amount : Int32) (w : NpcFights) : NpcFights :=
  let n := (w.npcs i).hurt limitDamage c amount
  let hit := w.setNpc i n
  let hit :=
    if c ∈ (w.npcs i).attackers then hit
    else hit.setCharacter c
      { w.characters c with unregisterNpc := (w.characters c).unregisterNpc ++ [i] }
  if 0 < n.hp.toInt then hit else hit.killed i

/-- `Logout`, as far as NPCs are concerned. -/
def logout (c : ℕ) (w : NpcFights) : NpcFights :=
  if (w.characters c).online then
    let w := (w.characters c).unregisterNpc.foldl
      (fun w i => w.setNpc i ((w.npcs i).forget c)) w
    w.setCharacter c { w.characters c with online := false }
  else w

/-- `Spawn`. -/
def spawn (i : ℕ) (w : NpcFights) : NpcFights :=
  if (w.npcs i).alive then w
  else w.setNpc i { w.npcs i with alive := true, hp := Int32.ofNat (w.npcs i).maxhp }

/-- A new character, where there is none online. -/
def login (c : ℕ) (w : NpcFights) : NpcFights :=
  if (w.characters c).online then w else w.setCharacter c ⟨true, []⟩

end NpcFights

inductive FightEvent where
  | damage (limitDamage : Bool) (c i : ℕ) (amount : Int32)
  | killed (i : ℕ)
  | die (i : ℕ)
  | logout (c : ℕ)
  | spawn (i : ℕ)
  | login (c : ℕ)

def NpcFights.step (w : NpcFights) : FightEvent → Option NpcFights
  | .damage limitDamage c i amount => some (w.damage limitDamage c i amount)
  | .killed i => some (w.killed i)
  | .die i => some (w.die i)
  | .logout c => some (w.logout c)
  | .spawn i => some (w.spawn i)
  | .login c => some (w.login c)

end ArenaServ

namespace ArenaServ

namespace FightingNpc

variable {n : FightingNpc} {c : ℕ} {amount : Int32}

def dealt (n : FightingNpc) : ℤ := (n.damagelist.map (·.damage.toInt)).sum

/-- What an NPC records of its attackers. -/
structure Tallied (n : FightingNpc) : Prop where
  total : n.totaldamage.toInt = n.dealt
  nodup : n.attackers.Nodup
  nonneg : ∀ o ∈ n.damagelist, 0 ≤ o.damage.toInt

theorem toInt_add {a b : Int32} (ha : 0 ≤ a.toInt) (hb : 0 ≤ b.toInt)
    (h : a.toInt + b.toInt < 2 ^ 31) : (a + b).toInt = a.toInt + b.toInt := by
  rw [Int32.toInt_add]
  apply Int.bmod_eq_of_le <;> omega

theorem toInt_grown {a b : Int32} (ha : 0 ≤ a.toInt) (hb : 0 ≤ b.toInt)
    (h : a.toInt + b.toInt < 2 ^ 31) : (grown a b).toInt = a.toInt + b.toInt := by
  have hadd := toInt_add ha hb h
  unfold grown
  split_ifs <;> omega

theorem mem_attackers : c ∈ n.attackers ↔ ∃ o ∈ n.damagelist, o.attacker = c :=
  List.mem_map

theorem damage_le_dealt (h : n.Tallied) {o : NpcOpponent} (ho : o ∈ n.damagelist) :
    o.damage.toInt ≤ n.dealt := by
  apply List.single_le_sum _ _ (List.mem_map_of_mem ho)
  intro d hd
  obtain ⟨o', ho', rfl⟩ := List.mem_map.mp hd
  exact h.nonneg o' ho'

theorem dealt_nonneg (h : n.Tallied) : 0 ≤ n.dealt := by
  apply List.sum_nonneg
  intro d hd
  obtain ⟨o, ho, rfl⟩ := List.mem_map.mp hd
  exact h.nonneg o ho

/-- One of several attackers deals more. -/
theorem sum_map_attacker {opponents : List NpcOpponent} {f : NpcOpponent → ℤ} (limit : ℤ)
    (hnodup : (opponents.map (·.attacker)).Nodup) (hc : c ∈ opponents.map (·.attacker))
    (hf : ∀ o ∈ opponents,
      f o = if o.attacker = c then o.damage.toInt + limit else o.damage.toInt) :
    (opponents.map f).sum = (opponents.map (·.damage.toInt)).sum + limit := by
  induction opponents with
  | nil => cases hc
  | cons o rest ih =>
      obtain ⟨ho, hrest⟩ := List.nodup_cons.mp hnodup
      rw [List.map_cons, List.map_cons, List.sum_cons, List.sum_cons, hf o List.mem_cons_self]
      have hfrest := fun o' ho' => hf o' (List.mem_cons_of_mem _ ho')
      by_cases hoc : o.attacker = c
      · have hsame : rest.map f = rest.map (·.damage.toInt) := by
          apply List.map_congr_left
          intro o' ho'
          rw [hfrest o' ho', if_neg]
          intro heq
          apply ho
          change o.attacker ∈ _
          rw [hoc, ← heq]
          exact List.mem_map_of_mem ho'
        rw [if_pos hoc, hsame]
        omega
      · have hmem := List.mem_of_ne_of_mem (Ne.symm hoc) hc
        rw [if_neg hoc, ih hrest hmem hfrest]
        omega

section Hurt
variable {limitDamage : Bool}

theorem attackers_hurt :
    (n.hurt limitDamage c amount).attackers =
      if c ∈ n.attackers then n.attackers else n.attackers ++ [c] := by
  unfold hurt attackers
  dsimp only
  split_ifs
  · rw [List.map_map]
    apply List.map_congr_left
    intro o _
    dsimp only [Function.comp_apply]
    split_ifs <;> rfl
  · rw [List.map_append]
    rfl

/-- Damage to a living NPC, as long as the sum can be told. -/
theorem tallied_hurt (h : n.Tallied) (hhp : 0 ≤ n.hp.toInt) (hamount : 0 ≤ amount.toInt)
    (hsum : n.totaldamage.toInt + (n.limitamount amount).toInt < 2 ^ 31) :
    (n.hurt limitDamage c amount).Tallied := by
  have hlimit : 0 ≤ (n.limitamount amount).toInt := by
    unfold limitamount
    split_ifs <;> omega
  have htotal := toInt_grown (by rw [h.total]; exact dealt_nonneg h) hlimit hsum
  have hgrown : ∀ o ∈ n.damagelist,
      (grown o.damage (n.limitamount amount)).toInt =
        o.damage.toInt + (n.limitamount amount).toInt := by
    intro o ho
    apply toInt_grown (h.nonneg o ho) hlimit
    have hle := damage_le_dealt h ho
    have htot := h.total
    omega
  constructor
  · change (grown n.totaldamage (n.limitamount amount)).toInt = _
    rw [htotal, h.total]
    unfold dealt hurt
    dsimp only
    split_ifs with hc
    · rw [List.map_map]
      symm
      apply sum_map_attacker _ h.nodup hc
      intro o ho
      dsimp only [Function.comp_apply]
      split_ifs
      · exact hgrown o ho
      · rfl
    · rw [List.map_append, List.sum_append, List.map_singleton, List.sum_singleton]
  · rw [attackers_hurt]
    split_ifs with hc
    · exact h.nodup
    · apply h.nodup.append (List.nodup_singleton c)
      intro c' hc' hmem
      rw [List.mem_singleton] at hmem
      exact hc (hmem ▸ hc')
  · intro o ho
    unfold hurt at ho
    dsimp only at ho
    split_ifs at ho
    · obtain ⟨o', ho', rfl⟩ := List.mem_map.mp ho
      have hold := h.nonneg o' ho'
      have hnew := hgrown o' ho'
      split_ifs
      · dsimp only
        omega
      · exact hold
    · rcases List.mem_append.mp ho with hold | hnew
      · exact h.nonneg o hold
      · rw [List.mem_singleton.mp hnew]
        exact hlimit

end Hurt

/-- An attacker that is forgotten is forgotten altogether. -/
theorem tallied_forget (h : n.Tallied) :
    (n.forget c).Tallied ∧ ∀ c', c' ∈ (n.forget c).attackers ↔ c' ∈ n.attackers ∧ c' ≠ c := by
  unfold forget
  cases hfind : n.damagelist.find? (·.attacker = c) with
  | none =>
      refine ⟨h, fun c' => ⟨fun hc' => ⟨hc', ?_⟩, And.left⟩⟩
      rintro rfl
      obtain ⟨o, ho, heq⟩ := mem_attackers.mp hc'
      exact List.find?_eq_none.mp hfind o ho (decide_eq_true heq)
  | some o =>
      have ho : o.attacker = c := by simpa using List.find?_some hfind
      have hmem := List.mem_of_find?_eq_some hfind
      obtain ⟨front, rest, hlist, halter⟩ := FirstMatch.exists_of_find? hfind
      have hnew : FirstMatch.alterFirst (·.attacker = c) (fun _ => none) n.damagelist =
          front ++ rest := by
        rw [halter, Option.toList_none, List.nil_append]
      have hperm : n.damagelist.Perm (o :: (front ++ rest)) := by
        rw [hlist]
        exact List.perm_middle
      have hattackers : n.attackers.Perm (c :: (front ++ rest).map (·.attacker)) := by
        rw [← ho]
        exact hperm.map _
      have hnodup := hattackers.nodup_iff.mp h.nodup
      have hdealt : n.dealt = o.damage.toInt + ((front ++ rest).map (·.damage.toInt)).sum :=
        (hperm.map fun o : NpcOpponent => o.damage.toInt).sum_eq
      dsimp only
      rw [hnew]
      refine ⟨⟨?_, (List.nodup_cons.mp hnodup).2, ?_⟩, ?_⟩
      · change (n.totaldamage - o.damage).toInt = ((front ++ rest).map (·.damage.toInt)).sum
        have hle := damage_le_dealt h hmem
        have hnonneg := h.nonneg o hmem
        have htotal := h.total
        have hbound := Int32.toInt_lt n.totaldamage
        rw [Int32.toInt_sub, Int.bmod_eq_of_le] <;> omega
      · intro o' ho'
        exact h.nonneg o' (hperm.mem_iff.mpr (List.mem_cons_of_mem _ ho'))
      · intro c'
        change c' ∈ (front ++ rest).map (·.attacker) ↔ _
        rw [hattackers.mem_iff, List.mem_cons]
        constructor
        · intro hc'
          refine ⟨Or.inr hc', ?_⟩
          rintro rfl
          exact (List.nodup_cons.mp hnodup).1 hc'
        · rintro ⟨hc', hne⟩
          exact hc'.resolve_left hne

end FightingNpc

namespace NpcFights

/-- The records of NPCs and of characters say the same. -/
structure Booked (w : NpcFights) : Prop where
  tallied : ∀ i, (w.npcs i).Tallied
  online : ∀ i, ∀ c ∈ (w.npcs i).attackers, (w.characters c).online = true
  registered : ∀ c, (w.characters c).online = true →
    ∀ i, i ∈ (w.characters c).unregisterNpc ↔ c ∈ (w.npcs i).attackers
  once : ∀ c, (w.characters c).online = true → (w.characters c).unregisterNpc.Nodup

def Living (w : NpcFights) : Prop := ∀ i, (w.npcs i).alive = true → 0 ≤ (w.npcs i).hp.toInt

variable {w : NpcFights} {c i : ℕ}

/-- An NPC whose record is the same. -/
theorem Booked.setNpc {n : FightingNpc} (h : w.Booked)
    (htotal : n.totaldamage = (w.npcs i).totaldamage)
    (hlist : n.damagelist = (w.npcs i).damagelist) : (w.setNpc i n).Booked := by
  have hattackers : ∀ j, ((w.setNpc i n).npcs j).attackers = (w.npcs j).attackers := by
    intro j
    change (Function.update w.npcs i n j).attackers = _
    by_cases hj : j = i
    · subst hj
      rw [Function.update_self, FightingNpc.attackers, hlist]
      rfl
    · rw [Function.update_of_ne hj]
  refine ⟨?_, ?_, ?_, h.once⟩
  · intro j
    change (Function.update w.npcs i n j).Tallied
    by_cases hj : j = i
    · subst hj
      rw [Function.update_self]
      obtain ⟨hsum, hnodup, hnonneg⟩ := h.tallied j
      refine ⟨?_, ?_, ?_⟩
      · rw [htotal, hsum, FightingNpc.dealt, FightingNpc.dealt, hlist]
      · rw [FightingNpc.attackers, hlist]
        exact hnodup
      · rw [hlist]
        exact hnonneg
    · rw [Function.update_of_ne hj]
      exact h.tallied j
  · intro j c hc
    rw [hattackers j] at hc
    exact h.online j c hc
  · intro c hc j
    rw [hattackers j]
    exact h.registered c hc j

/-! ## The attackers are cleared -/

theorem npcs_foldl_unregister (cs : List ℕ) : (cs.foldl (unregister i) w).npcs = w.npcs := by
  induction cs generalizing w with
  | nil => rfl
  | cons c rest ih => exact ih

/-- Each of the characters loses the NPC, the others lose nothing. -/
theorem characters_foldl_unregister (cs : List ℕ) (c : ℕ) :
    ((cs.foldl (unregister i) w).characters c).online = (w.characters c).online ∧
    ((cs.foldl (unregister i) w).characters c).unregisterNpc =
      if c ∈ cs then (w.characters c).unregisterNpc.filter (· ≠ i)
      else (w.characters c).unregisterNpc := by
  induction cs generalizing w with
  | nil => exact ⟨rfl, rfl⟩
  | cons d rest ih =>
      rw [List.foldl_cons]
      obtain ⟨honline, hlist⟩ := ih (w := w.unregister i d)
      rw [honline, hlist]
      by_cases hd : c = d
      · subst hd
        have hself : (w.unregister i c).characters c =
            { w.characters c with
              unregisterNpc := (w.characters c).unregisterNpc.filter (· ≠ i) } :=
          Function.update_self ..
        rw [hself, if_pos List.mem_cons_self]
        refine ⟨rfl, ?_⟩
        split_ifs
        · rw [List.filter_filter]
          simp only [Bool.and_self]
        · rfl
      · have hother : (w.unregister i d).characters c = w.characters c :=
          Function.update_of_ne hd ..
        rw [hother]
        refine ⟨rfl, ?_⟩
        simp only [List.mem_cons, hd, false_or]

theorem characters_clearAttackers (c : ℕ) :
    ((w.clearAttackers i).characters c).online = (w.characters c).online ∧
    ((w.clearAttackers i).characters c).unregisterNpc =
      if c ∈ (w.npcs i).attackers then (w.characters c).unregisterNpc.filter (· ≠ i)
      else (w.characters c).unregisterNpc :=
  characters_foldl_unregister (w.npcs i).attackers c

theorem npcs_clearAttackers :
    (w.clearAttackers i).npcs =
      Function.update w.npcs i { w.npcs i with damagelist := [], totaldamage := 0 } := by
  unfold clearAttackers setNpc
  dsimp only
  rw [npcs_foldl_unregister]

theorem Booked.clearAttackers (h : w.Booked) (i : ℕ) : (w.clearAttackers i).Booked := by
  have hself : ((w.clearAttackers i).npcs i).damagelist = [] := by
    rw [npcs_clearAttackers, Function.update_self]
  have hother : ∀ j, j ≠ i → (w.clearAttackers i).npcs j = w.npcs j := by
    intro j hj
    rw [npcs_clearAttackers, Function.update_of_ne hj]
  have hunregister : ∀ c, (w.characters c).online = true → ∀ j,
      j ∈ ((w.clearAttackers i).characters c).unregisterNpc ↔
        j ∈ (w.characters c).unregisterNpc ∧ j ≠ i := by
    intro c hc j
    rw [(characters_clearAttackers c).2]
    split_ifs with hmem
    · rw [List.mem_filter, decide_eq_true_iff]
    · constructor
      · intro hj
        refine ⟨hj, ?_⟩
        rintro rfl
        exact hmem ((h.registered c hc j).mp hj)
      · exact And.left
  constructor
  · intro j
    by_cases hj : j = i
    · subst hj
      rw [npcs_clearAttackers, Function.update_self]
      exact ⟨Int32.toInt_zero, List.nodup_nil, fun o ho => by cases ho⟩
    · rw [hother j hj]
      exact h.tallied j
  · intro j c hc
    rw [(characters_clearAttackers c).1]
    by_cases hj : j = i
    · subst hj
      rw [FightingNpc.attackers, hself] at hc
      cases hc
    · rw [hother j hj] at hc
      exact h.online j c hc
  · intro c hc j
    rw [(characters_clearAttackers c).1] at hc
    rw [hunregister c hc j]
    by_cases hj : j = i
    · subst hj
      rw [FightingNpc.attackers, hself]
      exact iff_of_false (fun hmem => hmem.2 rfl) List.not_mem_nil
    · rw [hother j hj, and_iff_left hj]
      exact h.registered c hc j
  · intro c hc
    rw [(characters_clearAttackers c).1] at hc
    rw [(characters_clearAttackers c).2]
    split_ifs
    · exact (h.once c hc).filter _
    · exact h.once c hc

/-! ## Deaths -/

theorem booked_deleteTemporary (h : w.Booked) (i : ℕ) : (w.deleteTemporary i).Booked := by
  unfold deleteTemporary
  split_ifs
  · exact ⟨h.tallied, h.online, h.registered, h.once⟩
  · exact h

theorem Booked.kill (h : w.Booked) (i : ℕ) : (w.kill i).Booked :=
  Booked.clearAttackers (Booked.setNpc (n := { w.npcs i with alive := false }) h rfl rfl) i

theorem Booked.die (h : w.Booked) (i : ℕ) : (w.die i).Booked := by
  unfold NpcFights.die
  split_ifs
  · exact booked_deleteTemporary (h.kill i) i
  · exact h

theorem booked_foldl_die (h : w.Booked) (is : List ℕ) : (is.foldl NpcFights.die w).Booked := by
  induction is generalizing w with
  | nil => exact h
  | cons i rest ih => exact ih (h.die i)

theorem Booked.killed (h : w.Booked) (i : ℕ) : (w.killed i).Booked := by
  unfold NpcFights.killed
  dsimp only
  split_ifs
  · exact booked_deleteTemporary (booked_foldl_die (h.kill i) _) i
  · exact booked_deleteTemporary (h.kill i) i

/-- What happens to the health of NPCs where some of them die. -/
def Dying (w w' : NpcFights) : Prop :=
  ∀ j, (w'.npcs j).alive = true → (w.npcs j).alive = true ∧ (w'.npcs j).hp = (w.npcs j).hp

theorem Dying.trans {w' w'' : NpcFights} (h : Dying w w') (h' : Dying w' w'') : Dying w w'' := by
  intro j hj
  obtain ⟨halive, hhp⟩ := h' j hj
  exact ⟨(h j halive).1, hhp.trans (h j halive).2⟩

theorem dying_kill (i : ℕ) : Dying w (w.kill i) ∧ ((w.kill i).npcs i).alive = false := by
  have hnpcs : (w.kill i).npcs = Function.update (Function.update w.npcs i
      { w.npcs i with alive := false }) i
      { w.npcs i with alive := false, damagelist := [], totaldamage := 0 } := by
    unfold kill
    rw [npcs_clearAttackers]
    change Function.update (Function.update w.npcs i _) i
      { Function.update w.npcs i { w.npcs i with alive := false } i with
        damagelist := [], totaldamage := 0 } = _
    rw [Function.update_self]
  constructor
  · intro j hj
    rw [hnpcs] at hj ⊢
    by_cases hji : j = i
    · subst hji
      rw [Function.update_self] at hj
      cases hj
    · rw [Function.update_of_ne hji, Function.update_of_ne hji] at hj ⊢
      exact ⟨hj, rfl⟩
  · rw [hnpcs, Function.update_self]

theorem dying_deleteTemporary (i : ℕ) : Dying w (w.deleteTemporary i) := by
  unfold deleteTemporary
  split_ifs
  · exact fun j hj => ⟨hj, rfl⟩
  · exact fun j hj => ⟨hj, rfl⟩

theorem dying_die (i : ℕ) : Dying w (w.die i) := by
  unfold die
  split_ifs
  · exact (dying_kill i).1.trans (dying_deleteTemporary i)
  · exact fun j hj => ⟨hj, rfl⟩

theorem dying_foldl_die (is : List ℕ) : Dying w (is.foldl die w) := by
  induction is generalizing w with
  | nil => exact fun j hj => ⟨hj, rfl⟩
  | cons i rest ih => exact (dying_die i).trans ih

theorem dying_killed (i : ℕ) : Dying (w.kill i) (w.killed i) := by
  unfold killed
  dsimp only
  split_ifs
  · exact (dying_foldl_die _).trans (dying_deleteTemporary i)
  · exact dying_deleteTemporary i

theorem Living.of_dying {w' : NpcFights} (h : w.Living) (hdying : Dying w w') : w'.Living := by
  intro j hj
  obtain ⟨halive, hhp⟩ := hdying j hj
  rw [hhp]
  exact h j halive

/-! ## Damage -/

/-- What `Damage` is used for: a character online hits a living NPC, and the sum of what the NPC
has been dealt can be told. -/
structure Hit (w : NpcFights) (c i : ℕ) (amount : Int32) : Prop where
  online : (w.characters c).online = true
  alive : (w.npcs i).alive = true
  nonneg : 0 ≤ amount.toInt
  sum : (w.npcs i).totaldamage.toInt + ((w.npcs i).limitamount amount).toInt < 2 ^ 31

/-- `Damage` up to the death of the NPC. -/
def struck (limitDamage : Bool) (c i : ℕ) (amount : Int32) (w : NpcFights) : NpcFights :=
  let hit := w.setNpc i ((w.npcs i).hurt limitDamage c amount)
  if c ∈ (w.npcs i).attackers then hit
  else hit.setCharacter c
    { w.characters c with unregisterNpc := (w.characters c).unregisterNpc ++ [i] }

theorem damage_eq (limitDamage : Bool) (c i : ℕ) (amount : Int32) (w : NpcFights) :
    w.damage limitDamage c i amount =
      if 0 < ((w.npcs i).hurt limitDamage c amount).hp.toInt then w.struck limitDamage c i amount
      else (w.struck limitDamage c i amount).killed i :=
  rfl

section Struck
variable {limitDamage : Bool} {amount : Int32}

theorem npcs_struck :
    (w.struck limitDamage c i amount).npcs =
      Function.update w.npcs i ((w.npcs i).hurt limitDamage c amount) := by
  unfold struck
  dsimp only
  split_ifs <;> rfl

theorem characters_struck (d : ℕ) :
    (w.struck limitDamage c i amount).characters d =
      if d = c ∧ c ∉ (w.npcs i).attackers then
        { w.characters c with unregisterNpc := (w.characters c).unregisterNpc ++ [i] }
      else w.characters d := by
  unfold struck
  dsimp only
  by_cases hc : c ∈ (w.npcs i).attackers
  · rw [if_pos hc, if_neg fun h => h.2 hc]
    rfl
  · rw [if_neg hc]
    by_cases hd : d = c
    · subst hd
      rw [if_pos ⟨rfl, hc⟩]
      exact Function.update_self ..
    · rw [if_neg fun h => hd h.1]
      exact Function.update_of_ne hd ..

theorem mem_attackers_struck (d j : ℕ) :
    d ∈ ((w.struck limitDamage c i amount).npcs j).attackers ↔
      d ∈ (w.npcs j).attackers ∨ (j = i ∧ d = c) := by
  rw [npcs_struck]
  by_cases hj : j = i
  · subst hj
    rw [Function.update_self, FightingNpc.attackers_hurt]
    split_ifs with hc
    · constructor
      · exact Or.inl
      · rintro (hd | ⟨-, rfl⟩)
        · exact hd
        · exact hc
    · rw [List.mem_append, List.mem_singleton]
      simp only [true_and]
  · rw [Function.update_of_ne hj]
    simp only [hj, false_and, or_false]

theorem Booked.struck (h : w.Booked) (hliving : w.Living) (hhit : w.Hit c i amount) :
    (w.struck limitDamage c i amount).Booked := by
  have honline : ∀ d, ((w.struck limitDamage c i amount).characters d).online =
      (w.characters d).online := by
    intro d
    rw [characters_struck]
    split_ifs with hd
    · rw [hd.1]
    · rfl
  constructor
  · intro j
    rw [npcs_struck]
    by_cases hj : j = i
    · subst hj
      rw [Function.update_self]
      exact FightingNpc.tallied_hurt (h.tallied j) (hliving j hhit.alive) hhit.nonneg hhit.sum
    · rw [Function.update_of_ne hj]
      exact h.tallied j
  · intro j d hd
    rw [honline]
    rcases (mem_attackers_struck d j).mp hd with hold | ⟨-, rfl⟩
    · exact h.online j d hold
    · exact hhit.online
  · intro d hd j
    rw [honline] at hd
    rw [mem_attackers_struck, characters_struck, ← h.registered d hd j]
    split_ifs with hnew
    · obtain ⟨rfl, -⟩ := hnew
      rw [List.mem_append, List.mem_singleton]
      simp only [and_true]
    · constructor
      · exact Or.inl
      · rintro (hold | ⟨rfl, rfl⟩)
        · exact hold
        · rw [h.registered d hd j]
          by_contra hnot
          exact hnew ⟨rfl, hnot⟩
  · intro d hd
    rw [honline] at hd
    rw [characters_struck]
    split_ifs with hnew
    · obtain ⟨rfl, hnot⟩ := hnew
      apply (h.once d hd).append (List.nodup_singleton i)
      intro j hj hmem
      rw [List.mem_singleton] at hmem
      exact hnot ((h.registered d hd i).mp (hmem ▸ hj))
    · exact h.once d hd

theorem booked_damage (h : w.Booked) (hliving : w.Living) (hhit : w.Hit c i amount) :
    (w.damage limitDamage c i amount).Booked ∧ (w.damage limitDamage c i amount).Living := by
  have hstruck : (w.struck limitDamage c i amount).Booked := h.struck hliving hhit
  have hothers : ∀ j, j ≠ i → ((w.struck limitDamage c i amount).npcs j) = w.npcs j := by
    intro j hj
    rw [npcs_struck, Function.update_of_ne hj]
  rw [damage_eq]
  by_cases hhp : 0 < ((w.npcs i).hurt limitDamage c amount).hp.toInt
  · rw [if_pos hhp]
    refine ⟨hstruck, ?_⟩
    intro j hj
    by_cases hji : j = i
    · subst hji
      rw [npcs_struck, Function.update_self]
      omega
    · rw [hothers j hji] at hj ⊢
      exact hliving j hj
  · rw [if_neg hhp]
    refine ⟨hstruck.killed i, ?_⟩
    apply Living.of_dying _ (dying_killed i)
    intro j hj
    obtain ⟨hdying, hdead⟩ := dying_kill (w := w.struck limitDamage c i amount) i
    obtain ⟨halive, heq⟩ := hdying j hj
    by_cases hji : j = i
    · subst hji
      rw [hdead] at hj
      cases hj
    · rw [heq, hothers j hji]
      rw [hothers j hji] at halive
      exact hliving j halive

end Struck

/-! ## Logging in and out -/

theorem npcs_foldl_forget {is : List ℕ} (hnodup : is.Nodup) (j : ℕ) :
    (is.foldl (fun w i => w.setNpc i ((w.npcs i).forget c)) w).npcs j =
      if j ∈ is then (w.npcs j).forget c else w.npcs j := by
  induction is generalizing w with
  | nil => rfl
  | cons i rest ih =>
      obtain ⟨hi, hrest⟩ := List.nodup_cons.mp hnodup
      rw [List.foldl_cons, ih hrest]
      by_cases hj : j = i
      · subst hj
        rw [if_neg hi, if_pos List.mem_cons_self]
        exact Function.update_self ..
      · have hsame : (w.setNpc i ((w.npcs i).forget c)).npcs j = w.npcs j :=
          Function.update_of_ne hj ..
        rw [hsame]
        simp only [List.mem_cons, hj, false_or]

theorem characters_foldl_forget (is : List ℕ) :
    (is.foldl (fun w i => w.setNpc i ((w.npcs i).forget c)) w).characters = w.characters := by
  induction is generalizing w with
  | nil => rfl
  | cons i rest ih => exact ih

/-- A character that logs out is in no list of attackers then. -/
theorem npcs_logout (h : w.Booked) (hc : (w.characters c).online = true) (j : ℕ) :
    ((w.logout c).npcs j).Tallied ∧
    (∀ d, d ∈ ((w.logout c).npcs j).attackers ↔ d ∈ (w.npcs j).attackers ∧ d ≠ c) ∧
    ((w.logout c).npcs j).alive = (w.npcs j).alive ∧
    ((w.logout c).npcs j).hp = (w.npcs j).hp := by
  have hnpcs : (w.logout c).npcs j =
      if j ∈ (w.characters c).unregisterNpc then (w.npcs j).forget c else w.npcs j := by
    unfold logout
    rw [if_pos hc]
    exact npcs_foldl_forget (h.once c hc) j
  rw [hnpcs]
  split_ifs with hj
  · refine ⟨(FightingNpc.tallied_forget (h.tallied j)).1,
      (FightingNpc.tallied_forget (h.tallied j)).2, ?_⟩
    unfold FightingNpc.forget
    split
    · exact ⟨rfl, rfl⟩
    · exact ⟨rfl, rfl⟩
  · refine ⟨h.tallied j, ?_, rfl, rfl⟩
    intro d
    constructor
    · intro hd
      refine ⟨hd, ?_⟩
      rintro rfl
      exact hj ((h.registered d hc j).mpr hd)
    · exact And.left

theorem characters_logout (hc : (w.characters c).online = true) (d : ℕ) :
    (w.logout c).characters d =
      if d = c then { w.characters c with online := false } else w.characters d := by
  unfold logout
  rw [if_pos hc]
  dsimp only [setCharacter]
  rw [characters_foldl_forget, Function.update_apply]

theorem booked_logout (h : w.Booked) (hliving : w.Living) (c : ℕ) :
    (w.logout c).Booked ∧ (w.logout c).Living := by
  by_cases hc : (w.characters c).online = true
  · have hstill : ∀ d, ((w.logout c).characters d).online = true →
        d ≠ c ∧ (w.logout c).characters d = w.characters d := by
      intro d hd
      rw [characters_logout hc] at hd ⊢
      split_ifs at hd ⊢ with hdc
      exact ⟨hdc, rfl⟩
    refine ⟨⟨fun j => (npcs_logout h hc j).1, ?_, ?_, ?_⟩, ?_⟩
    · intro j d hd
      obtain ⟨hold, hdc⟩ := ((npcs_logout h hc j).2.1 d).mp hd
      rw [characters_logout hc, if_neg hdc]
      exact h.online j d hold
    · intro d hd j
      obtain ⟨hdc, hsame⟩ := hstill d hd
      rw [hsame] at hd ⊢
      rw [(npcs_logout h hc j).2.1 d, and_iff_left hdc]
      exact h.registered d hd j
    · intro d hd
      obtain ⟨-, hsame⟩ := hstill d hd
      rw [hsame] at hd ⊢
      exact h.once d hd
    · intro j hj
      obtain ⟨-, -, halive, hhp⟩ := npcs_logout h hc j
      rw [hhp]
      exact hliving j (halive ▸ hj)
  · unfold logout
    rw [if_neg hc]
    exact ⟨h, hliving⟩

theorem booked_login (h : w.Booked) (c : ℕ) : (w.login c).Booked := by
  unfold login
  by_cases hc : (w.characters c).online = true
  · rw [if_pos hc]
    exact h
  rw [if_neg hc]
  have hcharacters : ∀ d, (w.setCharacter c ⟨true, []⟩).characters d =
      if d = c then ⟨true, []⟩ else w.characters d :=
    fun d => Function.update_apply ..
  refine ⟨h.tallied, ?_, ?_, ?_⟩
  · intro j d hd
    rw [hcharacters]
    split_ifs
    · rfl
    · exact h.online j d hd
  · intro d hd j
    rw [hcharacters] at hd ⊢
    split_ifs at hd ⊢ with hdc
    · subst hdc
      exact iff_of_false List.not_mem_nil fun hmem => hc (h.online j d hmem)
    · exact h.registered d hd j
  · intro d hd
    rw [hcharacters] at hd ⊢
    split_ifs at hd ⊢
    · exact List.nodup_nil
    · exact h.once d hd

theorem booked_spawn (h : w.Booked) (hliving : w.Living) (i : ℕ) :
    (w.spawn i).Booked ∧ (w.spawn i).Living := by
  unfold spawn
  split_ifs
  · exact ⟨h, hliving⟩
  · refine ⟨h.setNpc rfl rfl, ?_⟩
    intro j hj
    change 0 ≤ (Function.update w.npcs i _ j).hp.toInt
    change (Function.update w.npcs i _ j).alive = true at hj
    by_cases hji : j = i
    · subst hji
      rw [Function.update_self]
      have hlt := (w.npcs j).maxhp.isLt
      dsimp only
      rw [Int32.toInt_ofNat_of_lt (by omega)]
      omega
    · rw [Function.update_of_ne hji] at hj ⊢
      exact hliving j hj

/-! ## Runs -/

/-- Only damage has to be that of a character online to a living NPC. -/
def Allowed (w : NpcFights) : FightEvent → Prop
  | .damage _ c i amount => w.Hit c i amount
  | _ => True

theorem booked_step {e : FightEvent} (h : w.Booked ∧ w.Living) (hallowed : w.Allowed e)
    {w' : NpcFights} (hstep : w.step e = some w') : w'.Booked ∧ w'.Living := by
  cases e with
  | damage limitDamage c i amount =>
      cases hstep
      exact booked_damage h.1 h.2 hallowed
  | killed i =>
      cases hstep
      exact ⟨h.1.killed i, (h.2.of_dying (dying_kill i).1).of_dying (dying_killed i)⟩
  | die i =>
      cases hstep
      exact ⟨h.1.die i, h.2.of_dying (dying_die i)⟩
  | logout c =>
      cases hstep
      exact booked_logout h.1 h.2 c
  | spawn i =>
      cases hstep
      exact booked_spawn h.1 h.2 i
  | login c =>
      cases hstep
      refine ⟨booked_login h.1 c, ?_⟩
      unfold login
      split_ifs
      · exact h.2
      · exact h.2

/-- Nobody has been hit. -/
structure Fresh (w : NpcFights) : Prop where
  npcs : ∀ i, (w.npcs i).totaldamage = 0 ∧ (w.npcs i).damagelist = []
  living : w.Living
  characters : ∀ c, (w.characters c).unregisterNpc = []

theorem booked_of_fresh (h : w.Fresh) : w.Booked := by
  have hnone : ∀ i, (w.npcs i).attackers = [] := by
    intro i
    rw [FightingNpc.attackers, (h.npcs i).2]
    rfl
  constructor
  · intro i
    obtain ⟨htotal, hlist⟩ := h.npcs i
    refine ⟨?_, ?_, ?_⟩
    · rw [htotal, FightingNpc.dealt, hlist]
      exact Int32.toInt_zero
    · rw [hnone]
      exact List.nodup_nil
    · rw [hlist]
      exact fun o ho => by cases ho
  · intro i c hc
    rw [hnone] at hc
    cases hc
  · intro c _ i
    rw [h.characters, hnone]
    exact iff_of_false List.not_mem_nil List.not_mem_nil
  · intro c _
    rw [h.characters]
    exact List.nodup_nil

/-- In every state of a run the records agree, as far as characters online are concerned. -/
theorem booked_of_reaches (h : w.Fresh) {events : List FightEvent}
    (hallowed : RunSteps.Every step Allowed w events) {u : NpcFights}
    (hu : RunSteps.Reaches step w events u) : u.Booked :=
  (RunSteps.invariant_of_every (fun w => w.Booked ∧ w.Living)
    (fun _ _ _ hw ha hs => booked_step hw ha hs) ⟨booked_of_fresh h, h.living⟩ hallowed hu).1

/-- An NPC that can be hit, and characters online. -/
def duel : NpcFights where
  npcs _ := ⟨.aggressive, false, false, false, 100, 0, true, 100, 0, []⟩
  mapNpcs _ := [0]
  characters _ := ⟨true, []⟩

theorem fresh_duel : duel.Fresh :=
  ⟨fun _ => ⟨rfl, rfl⟩, fun _ _ => by change 0 ≤ (100 : Int32).toInt; decide, fun _ => rfl⟩

theorem hit_duel : duel.Hit 1 0 30 := ⟨rfl, rfl, by decide, by decide⟩

theorem booked_of_reaches_duel :
    ∃ u, RunSteps.Reaches step duel [.damage false 1 0 30] u ∧
      (u.npcs 0).totaldamage = 30 ∧ u.Booked := by
  have hallowed : RunSteps.Every step Allowed duel [.damage false 1 0 30] :=
    ⟨hit_duel, fun _ _ => trivial⟩
  have hreaches : RunSteps.Reaches step duel [.damage false 1 0 30]
      (duel.damage false 1 0 30) := Or.inr ⟨_, rfl, rfl⟩
  exact ⟨_, hreaches, by decide, booked_of_reaches fresh_duel hallowed hreaches⟩

/-- A character that has logged out keeps its list of NPCs. -/
theorem not_registered_iff :
    ¬ ∀ w : NpcFights, w.Fresh → ∀ events, RunSteps.Every step Allowed w events →
      ∀ u, RunSteps.Reaches step w events u → ∀ c i,
        i ∈ (u.characters c).unregisterNpc ↔ c ∈ (u.npcs i).attackers := by
  intro hall
  have hallowed : RunSteps.Every step Allowed duel [.damage false 1 0 30, .logout 1] :=
    ⟨hit_duel, fun _ _ => ⟨trivial, fun _ _ => trivial⟩⟩
  have hiff := hall duel fresh_duel _ hallowed _ (Or.inr ⟨_, rfl, Or.inr ⟨_, rfl, rfl⟩⟩) 1 0
  revert hiff
  decide

end NpcFights

end ArenaServ
