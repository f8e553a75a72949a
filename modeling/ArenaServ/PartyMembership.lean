import ArenaServ.Party

/-!
# Party membership

A character's pointer and the lists of members agree in every state of a run exactly when no
leader of more than two members names a character that is in another party: `Leave` clears
the pointer of the character that it is called with, member or not.
-/

namespace ArenaServ
open RunSteps

namespace PartyWorld

/-- What is promised of parties: a character that is online points to the party that has it as
a member once, a party has at least two members, and its leader is one of them. -/
structure Consistent (w : PartyWorld) : Prop where
  membership : ∀ c ∈ w.characters, ∀ p, (w.character c).party = some p ↔
    ∃ party, w.party p = some party ∧ party.members.count c = 1
  two : ∀ p party, w.party p = some party → 2 ≤ party.members.length
  leader : ∀ p party, w.party p = some party → party.leader ∈ party.members

/-- With what makes the promise an invariant: members are online, none is in a list twice, and
what is not in use yet is not in use. -/
structure Sound (w : PartyWorld) : Prop where
  membership : ∀ c ∈ w.characters, ∀ p, (w.character c).party = some p ↔
    ∃ party, w.party p = some party ∧ c ∈ party.members
  two : ∀ p party, w.party p = some party → 2 ≤ party.members.length
  leader : ∀ p party, w.party p = some party → party.leader ∈ party.members
  nodup : ∀ p party, w.party p = some party → party.members.Nodup
  online : ∀ p party, w.party p = some party → party.members ⊆ w.characters
  freshCharacter : ∀ c ∈ w.characters, c < w.nextCharacter
  freshParty : ∀ p, w.nextParty ≤ p → w.party p = none

variable {w w' : PartyWorld} {c d p : ℕ} {party : Party}

theorem Sound.consistent (h : w.Sound) : w.Consistent where
  membership c hc p := by
    rw [h.membership c hc p]
    constructor
    · rintro ⟨party, hparty, hmem⟩
      exact ⟨party, hparty, List.count_eq_one_of_mem (h.nodup p party hparty) hmem⟩
    · rintro ⟨party, hparty, hcount⟩
      exact ⟨party, hparty, List.count_pos_iff.mp (by omega)⟩
  two := h.two
  leader := h.leader

theorem sound_start : start.Sound where
  membership _ h := nomatch h
  two _ _ h := nomatch h
  leader _ _ h := nomatch h
  nodup _ _ h := nomatch h
  online _ _ h := nomatch h
  freshCharacter _ h := nomatch h
  freshParty _ _ := rfl

/-- The party that a member points to. -/
theorem Sound.party_of_mem (h : w.Sound) (hparty : w.party p = some party)
    (hc : c ∈ party.members) : (w.character c).party = some p :=
  (h.membership c (h.online p party hparty hc) p).mpr ⟨party, hparty, hc⟩

/-- Changes that touch no party. -/
theorem Sound.of_same (h : w.Sound) (hcharacters : w'.characters = w.characters)
    (hsame : ∀ c, (w'.character c).party = (w.character c).party)
    (hparty : w'.party = w.party) (hnextCharacter : w'.nextCharacter = w.nextCharacter)
    (hnextParty : w'.nextParty = w.nextParty) : w'.Sound := by
  obtain ⟨characters, character, parties, nextCharacter, nextParty⟩ := w'
  dsimp only at hcharacters hsame hparty hnextCharacter hnextParty
  rw [hcharacters, hparty, hnextCharacter, hnextParty]
  refine { h with membership := ?_ }
  intro c hc p
  dsimp only
  rw [hsame]
  exact h.membership c hc p

theorem sound_setCharacter (h : w.Sound) (c : ℕ) {f : PartyCharacter → PartyCharacter}
    (hf : ∀ x, (f x).party = x.party) : (w.setCharacter c f).Sound := by
  refine h.of_same rfl ?_ rfl rfl rfl
  intro d
  unfold setCharacter
  by_cases hd : d = c
  · rw [hd]
    dsimp only
    rw [Function.update_self, hf]
  · dsimp only
    rw [Function.update_of_ne hd]

@[simp] theorem party_setParty_self (w : PartyWorld) (c : ℕ) (q : Option ℕ) :
    ((w.setParty c q).character c).party = q := by
  unfold setParty setCharacter
  dsimp only
  rw [Function.update_self]

theorem party_setParty_of_ne (w : PartyWorld) (q : Option ℕ) (h : d ≠ c) :
    ((w.setParty c q).character d).party = (w.character d).party := by
  unfold setParty setCharacter
  dsimp only
  rw [Function.update_of_ne h]

/-- A party gets another list of members, and the pointers follow: those of the new members,
who were in no other party, and those of the members that it has no more. -/
theorem Sound.replace (h : w.Sound) (p : ℕ) (party' : Party)
    (hcharacters : w'.characters = w.characters)
    (hparty : w'.party = Function.update w.party p (some party'))
    (hset : ∀ d ∈ w.characters, (w'.character d).party =
      if d ∈ party'.members then some p
      else if (w.character d).party = some p then none else (w.character d).party)
    (hold : ∀ d ∈ party'.members, (w.character d).party = none ∨ (w.character d).party = some p)
    (htwo : 2 ≤ party'.members.length) (hleader : party'.leader ∈ party'.members)
    (hnodup : party'.members.Nodup) (honline : party'.members ⊆ w.characters)
    (hnext : w'.nextCharacter = w.nextCharacter) (hp : p < w'.nextParty)
    (hle : w.nextParty ≤ w'.nextParty) : w'.Sound := by
  have hcases : ∀ q party'', w'.party q = some party'' →
      q = p ∧ party'' = party' ∨ q ≠ p ∧ w.party q = some party'' := by
    intro q party'' hq
    rw [hparty] at hq
    by_cases hqp : q = p
    · rw [hqp, Function.update_self, Option.some.injEq] at hq
      exact Or.inl ⟨hqp, hq.symm⟩
    · rw [Function.update_of_ne hqp] at hq
      exact Or.inr ⟨hqp, hq⟩
  have hself : w'.party p = some party' := by rw [hparty, Function.update_self]
  refine ⟨?_, ?_, ?_, ?_, ?_, ?_, ?_⟩
  · intro d hd q
    rw [hcharacters] at hd
    rw [hset d hd]
    by_cases hmem : d ∈ party'.members
    · rw [if_pos hmem, Option.some.injEq]
      constructor
      · rintro rfl
        exact ⟨party', hself, hmem⟩
      · rintro ⟨party'', hq, hmem'⟩
        rcases hcases q party'' hq with ⟨rfl, -⟩ | ⟨hne, hq'⟩
        · rfl
        · have hother := h.party_of_mem hq' hmem'
          rcases hold d hmem with hnone | hsome
          · rw [hnone] at hother
            cases hother
          · rw [hsome, Option.some.injEq] at hother
            exact hother
    · have hnot : ∀ party'', w'.party q = some party'' → d ∈ party''.members →
          q ≠ p ∧ w.party q = some party'' := by
        intro party'' hq hmem'
        rcases hcases q party'' hq with ⟨-, rfl⟩ | hother
        · exact absurd hmem' hmem
        · exact hother
      rw [if_neg hmem]
      by_cases hwas : (w.character d).party = some p
      · rw [if_pos hwas]
        apply iff_of_false (fun heq => nomatch heq)
        rintro ⟨party'', hq, hmem'⟩
        obtain ⟨hne, hq'⟩ := hnot party'' hq hmem'
        exact hne (Option.some.inj ((h.party_of_mem hq' hmem').symm.trans hwas))
      · rw [if_neg hwas, h.membership d hd q]
        constructor
        · rintro ⟨party'', hq, hmem'⟩
          have hne : q ≠ p := by
            rintro rfl
            exact hwas (h.party_of_mem hq hmem')
          exact ⟨party'', by rw [hparty, Function.update_of_ne hne, hq], hmem'⟩
        · rintro ⟨party'', hq, hmem'⟩
          exact ⟨party'', (hnot party'' hq hmem').2, hmem'⟩
  · intro q party'' hq
    rcases hcases q party'' hq with ⟨-, rfl⟩ | ⟨-, hq'⟩
    · exact htwo
    · exact h.two q party'' hq'
  · intro q party'' hq
    rcases hcases q party'' hq with ⟨-, rfl⟩ | ⟨-, hq'⟩
    · exact hleader
    · exact h.leader q party'' hq'
  · intro q party'' hq
    rcases hcases q party'' hq with ⟨-, rfl⟩ | ⟨-, hq'⟩
    · exact hnodup
    · exact h.nodup q party'' hq'
  · intro q party'' hq
    rw [hcharacters]
    rcases hcases q party'' hq with ⟨-, rfl⟩ | ⟨-, hq'⟩
    · exact honline
    · exact h.online q party'' hq'
  · rw [hcharacters, hnext]
    exact h.freshCharacter
  · intro q hq
    rw [hparty, Function.update_of_ne (by omega)]
    exact h.freshParty q (by omega)

theorem Sound.lt_nextParty (h : w.Sound) (hparty : w.party p = some party) : p < w.nextParty := by
  by_contra hle
  rw [h.freshParty p (by omega)] at hparty
  cases hparty

/-! ## Leaving -/

/-- A party that is deleted is that of none of its members any more. -/
theorem sound_deleteParty (h : w.Sound) (hparty : w.party p = some party) :
    (w.deleteParty p party).Sound ∧
      (∀ d ∈ party.members, ((w.deleteParty p party).character d).party = none) := by
  have hold : ∀ q party', (w.deleteParty p party).party q = some party' →
      q ≠ p ∧ w.party q = some party' := by
    intro q party' hq
    unfold deleteParty at hq
    by_cases hqp : q = p
    · rw [hqp] at hq
      simp only [Function.update_self] at hq
      cases hq
    · exact ⟨hqp, (Function.update_of_ne hqp _ _).symm.trans hq⟩
  have hgone : ∀ d ∈ party.members, ((w.deleteParty p party).character d).party = none := by
    intro d hd
    unfold deleteParty
    dsimp only
    rw [if_pos hd]
  refine ⟨⟨?_, ?_, ?_, ?_, ?_, h.freshCharacter, ?_⟩, hgone⟩
  · intro d hd q
    by_cases hmem : d ∈ party.members
    · rw [hgone d hmem]
      apply iff_of_false (fun heq => nomatch heq)
      rintro ⟨party', hq, hmem'⟩
      obtain ⟨hne, hq'⟩ := hold q party' hq
      exact hne (Option.some.inj ((h.party_of_mem hq' hmem').symm.trans
        (h.party_of_mem hparty hmem)))
    · have hsame : ((w.deleteParty p party).character d).party = (w.character d).party := by
        unfold deleteParty
        dsimp only
        rw [if_neg hmem]
      rw [hsame, h.membership d hd q]
      constructor
      · rintro ⟨party', hq, hmem'⟩
        have hne : q ≠ p := by
          rintro rfl
          rw [hparty, Option.some.injEq] at hq
          exact hmem (hq ▸ hmem')
        exact ⟨party', (Function.update_of_ne hne _ _).trans hq, hmem'⟩
      · rintro ⟨party', hq, hmem'⟩
        exact ⟨party', (hold q party' hq).2, hmem'⟩
  · exact fun q party' hq => h.two q party' (hold q party' hq).2
  · exact fun q party' hq => h.leader q party' (hold q party' hq).2
  · exact fun q party' hq => h.nodup q party' (hold q party' hq).2
  · exact fun q party' hq => h.online q party' (hold q party' hq).2
  · intro q hq
    unfold deleteParty
    dsimp only
    by_cases hqp : q = p
    · rw [hqp, Function.update_self]
    · rw [Function.update_of_ne hqp]
      exact h.freshParty q hq

/-- A member leaves a party, and points to none then. -/
theorem sound_leaveParty (h : w.Sound) (hparty : w.party p = some party)
    (hc : c ∈ party.members) :
    (w.leaveParty p party c).Sound ∧ ((w.leaveParty p party c).character c).party = none := by
  unfold leaveParty
  by_cases hbig : 2 < party.members.length ∧ c ≠ party.leader
  · rw [if_pos hbig]
    have hnodup := h.nodup p party hparty
    refine ⟨?_, party_setParty_self w c none⟩
    refine h.replace p { party with members := party.members.erase c } rfl rfl
      ?_ ?_ ?_ ?_ ?_ ?_ ?_ ?_ ?_
    · intro d hd
      by_cases hdc : d = c
      · rw [hdc, if_neg hnodup.not_mem_erase, if_pos (h.party_of_mem hparty hc)]
        exact party_setParty_self w c none
      · refine (party_setParty_of_ne w none hdc).trans ?_
        by_cases hmem : d ∈ party.members
        · rw [if_pos ((List.mem_erase_of_ne hdc).mpr hmem), h.party_of_mem hparty hmem]
        · rw [if_neg (fun hmem' => hmem (List.mem_of_mem_erase hmem')), if_neg]
          rw [h.membership d hd p]
          rintro ⟨party', hparty', hmem'⟩
          rw [hparty, Option.some.injEq] at hparty'
          exact hmem (hparty' ▸ hmem')
    · exact fun d hd => Or.inr (h.party_of_mem hparty (List.mem_of_mem_erase hd))
    · dsimp only
      rw [List.length_erase_of_mem hc]
      omega
    · exact (List.mem_erase_of_ne hbig.2.symm).mpr (h.leader p party hparty)
    · exact hnodup.erase c
    · exact fun d hd => h.online p party hparty (List.mem_of_mem_erase hd)
    · rfl
    · exact h.lt_nextParty hparty
    · exact le_refl _
  · rw [if_neg hbig]
    obtain ⟨hsound, hgone⟩ := sound_deleteParty h hparty
    exact ⟨hsound, hgone c hc⟩

/-- A character leaves its party, if it has one. -/
theorem sound_leave (h : w.Sound) (hc : c ∈ w.characters) :
    (w.leave c).Sound ∧ ((w.leave c).character c).party = none ∧
      (w.leave c).characters = w.characters := by
  unfold leave
  cases hp : (w.character c).party with
  | none => exact ⟨h, hp, rfl⟩
  | some p =>
      obtain ⟨party, hparty, hmem⟩ := (h.membership c hc p).mp hp
      dsimp only
      rw [hparty]
      dsimp only
      obtain ⟨hsound, hnone⟩ := sound_leaveParty h hparty hmem
      refine ⟨hsound, hnone, ?_⟩
      unfold leaveParty
      split_ifs <;> rfl

/-! ## Joining -/

theorem sound_newParty (h : w.Sound) (hc : c ∈ w.characters) (hd : d ∈ w.characters)
    (hne : c ≠ d) (hcparty : (w.character c).party = none)
    (hdparty : (w.character d).party = none) : (w.newParty c d).Sound := by
  have hother : ∀ e ∈ w.characters, (w.character e).party ≠ some w.nextParty := by
    intro e he heq
    obtain ⟨party, hparty, -⟩ := (h.membership e he _).mp heq
    have hlt := h.lt_nextParty hparty
    omega
  refine h.replace w.nextParty ⟨c, [c, d]⟩ rfl rfl ?_ ?_ (le_refl 2) List.mem_cons_self ?_ ?_
    rfl (Nat.lt_succ_self _) (Nat.le_succ _)
  · intro e he
    rw [if_neg (hother e he)]
    unfold newParty
    by_cases hed : e = d
    · rw [hed, if_pos (List.mem_cons_of_mem _ List.mem_cons_self)]
      exact party_setParty_self _ d _
    · refine (party_setParty_of_ne _ _ hed).trans ?_
      by_cases hec : e = c
      · rw [hec, if_pos List.mem_cons_self]
        exact party_setParty_self _ c _
      · refine (party_setParty_of_ne _ _ hec).trans ?_
        rw [if_neg]
        simp [hec, hed]
  · intro e he
    rcases List.mem_cons.mp he with rfl | he
    · exact Or.inl hcparty
    · rw [List.mem_singleton.mp he]
      exact Or.inl hdparty
  · exact List.nodup_cons.mpr ⟨by simpa using hne, List.nodup_singleton _⟩
  · intro e he
    rcases List.mem_cons.mp he with rfl | he
    · exact hc
    · rw [List.mem_singleton.mp he]
      exact hd

theorem sound_joinParty (h : w.Sound) (hparty : w.party p = some party) (hc : c ∈ w.characters)
    (hcparty : (w.character c).party = none) : (w.joinParty p party c).Sound := by
  have hnot : c ∉ party.members := by
    intro hmem
    rw [h.party_of_mem hparty hmem] at hcparty
    cases hcparty
  refine h.replace p { party with members := party.members ++ [c] } rfl rfl
    ?_ ?_ ?_ ?_ ?_ ?_ ?_ ?_ ?_
  · intro d hd
    by_cases hdc : d = c
    · rw [hdc, if_pos (List.mem_append_right _ List.mem_cons_self)]
      exact party_setParty_self w c _
    · refine (party_setParty_of_ne w _ hdc).trans ?_
      by_cases hmem : d ∈ party.members
      · rw [if_pos (List.mem_append_left _ hmem), h.party_of_mem hparty hmem]
      · rw [if_neg (by simp [hmem, hdc]), if_neg]
        rw [h.membership d hd p]
        rintro ⟨party', hparty', hmem'⟩
        rw [hparty, Option.some.injEq] at hparty'
        exact hmem (hparty' ▸ hmem')
  · intro d hd
    rcases List.mem_append.mp hd with hd | hd
    · exact Or.inr (h.party_of_mem hparty hd)
    · rw [List.mem_singleton.mp hd]
      exact Or.inl hcparty
  · have htwo := h.two p party hparty
    dsimp only
    rw [List.length_append]
    omega
  · exact List.mem_append_left _ (h.leader p party hparty)
  · exact (h.nodup p party hparty).append (List.nodup_singleton c)
      (List.disjoint_singleton.mpr hnot)
  · intro d hd
    rcases List.mem_append.mp hd with hd | hd
    · exact h.online p party hparty hd
    · rw [List.mem_singleton.mp hd]
      exact hc
  · rfl
  · exact h.lt_nextParty hparty
  · exact le_refl _

theorem sound_joinOther (h : w.Sound) (hd : d ∈ w.characters) (hc : c ∈ w.characters) (hne : d ≠ c)
    (hcparty : (w.character c).party = none) : (w.joinOther d c).Sound := by
  unfold joinOther
  cases hp : (w.character d).party with
  | none => exact sound_newParty h hd hc hne hp hcparty
  | some p =>
      obtain ⟨party, hparty, -⟩ := (h.membership d hd p).mp hp
      dsimp only
      rw [hparty]
      exact sound_joinParty h hparty hc hcparty

/-! ## Names and trust -/

/-- No two characters that are online have one id, and none waits for itself. -/
structure Named (w : PartyWorld) : Prop where
  distinct : ∀ c ∈ w.characters, ∀ d ∈ w.characters,
    (w.character c).playerId = (w.character d).playerId → c = d
  trust : ∀ c, (w.character c).trustSend ≠ some c

/-- What joining and leaving do not touch. -/
structure Untouched (w w' : PartyWorld) : Prop where
  characters : w'.characters = w.characters
  playerId : ∀ c, (w'.character c).playerId = (w.character c).playerId
  trustSend : ∀ c, (w'.character c).trustSend = (w.character c).trustSend

theorem Untouched.rfl : Untouched w w := ⟨Eq.refl _, fun _ => Eq.refl _, fun _ => Eq.refl _⟩

theorem Untouched.trans {w'' : PartyWorld} (h : Untouched w w') (h' : Untouched w' w'') :
    Untouched w w'' where
  characters := h'.characters.trans h.characters
  playerId c := (h'.playerId c).trans (h.playerId c)
  trustSend c := (h'.trustSend c).trans (h.trustSend c)

theorem untouched_setCharacter (w : PartyWorld) (c : ℕ) {f : PartyCharacter → PartyCharacter}
    (hid : ∀ x, (f x).playerId = x.playerId) (htrust : ∀ x, (f x).trustSend = x.trustSend) :
    Untouched w (w.setCharacter c f) := by
  unfold setCharacter
  refine ⟨rfl, ?_, ?_⟩ <;> intro d <;> by_cases hd : d = c
  · rw [hd]
    exact (congrArg PartyCharacter.playerId (Function.update_self c _ _)).trans (hid _)
  · exact congrArg PartyCharacter.playerId (Function.update_of_ne hd _ _)
  · rw [hd]
    exact (congrArg PartyCharacter.trustSend (Function.update_self c _ _)).trans (htrust _)
  · exact congrArg PartyCharacter.trustSend (Function.update_of_ne hd _ _)

theorem untouched_setParty (w : PartyWorld) (c : ℕ) (q : Option ℕ) :
    Untouched w (w.setParty c q) :=
  untouched_setCharacter w c (fun _ => rfl) (fun _ => rfl)

/-- The parties themselves are of no account here. -/
theorem Untouched.with (h : Untouched w w') (parties : ℕ → Option Party) (n : ℕ) :
    Untouched w { w' with party := parties, nextParty := n } :=
  ⟨h.characters, h.playerId, h.trustSend⟩

theorem untouched_leaveParty (w : PartyWorld) (p : ℕ) (party : Party) (c : ℕ) :
    Untouched w (w.leaveParty p party c) := by
  unfold leaveParty
  split_ifs with hbig
  · exact (untouched_setParty w c none).with _ _
  · unfold deleteParty
    refine ⟨rfl, ?_, ?_⟩ <;> intro d <;> dsimp only <;> split_ifs <;> rfl

theorem untouched_leave (w : PartyWorld) (c : ℕ) : Untouched w (w.leave c) := by
  unfold leave
  cases (w.character c).party with
  | none => exact Untouched.rfl
  | some p =>
      cases hparty : w.party p with
      | none =>
          dsimp only
          rw [hparty]
          exact Untouched.rfl
      | some party =>
          dsimp only
          rw [hparty]
          exact untouched_leaveParty w p party c

theorem untouched_joinOther (w : PartyWorld) (d c : ℕ) : Untouched w (w.joinOther d c) := by
  unfold joinOther
  cases (w.character d).party with
  | none =>
      exact ((Untouched.rfl.with _ _).trans (untouched_setParty _ d _)).trans
        (untouched_setParty _ c _)
  | some p =>
      cases hparty : w.party p with
      | none =>
          dsimp only
          rw [hparty]
          exact Untouched.rfl
      | some party =>
          dsimp only
          rw [hparty]
          exact (untouched_setParty w c _).with _ _

theorem Untouched.named (h : Untouched w w') (hw : w.Named) : w'.Named where
  distinct c hc d hd heq := by
    rw [h.characters] at hc hd
    rw [h.playerId, h.playerId] at heq
    exact hw.distinct c hc d hd heq
  trust c := by
    rw [h.trustSend]
    exact hw.trust c

/-- Who waits may change, but not for itself. -/
theorem named_setCharacter (h : w.Named) (c : ℕ) {f : PartyCharacter → PartyCharacter}
    (hid : ∀ x, (f x).playerId = x.playerId) (htrust : (f (w.character c)).trustSend ≠ some c) :
    (w.setCharacter c f).Named := by
  unfold setCharacter
  constructor
  · have hsame : ∀ d, (Function.update w.character c (f (w.character c)) d).playerId =
        (w.character d).playerId := by
      intro d
      by_cases hd : d = c
      · rw [hd, Function.update_self, hid]
      · rw [Function.update_of_ne hd]
    intro d hd e he heq
    dsimp only at heq
    rw [hsame, hsame] at heq
    exact h.distinct d hd e he heq
  · intro d
    dsimp only
    by_cases hd : d = c
    · rw [hd, Function.update_self]
      exact htrust
    · rw [Function.update_of_ne hd]
      exact h.trust d

/-- The whole invariant of a run. -/
def Kept (w : PartyWorld) : Prop := w.Sound ∧ w.Named

theorem kept_setCharacter (h : w.Kept) (c : ℕ) {f : PartyCharacter → PartyCharacter}
    (hid : ∀ x, (f x).playerId = x.playerId) (hparty : ∀ x, (f x).party = x.party)
    (htrust : (f (w.character c)).trustSend ≠ some c) : (w.setCharacter c f).Kept :=
  ⟨sound_setCharacter h.1 c hparty, named_setCharacter h.2 c hid htrust⟩

/-! ## Handlers -/

theorem mem_of_getCharacterPID {id : ℕ} {among : ℕ → Bool}
    (h : w.getCharacterPID id among = some c) :
    c ∈ w.characters ∧ (w.character c).playerId = id := by
  have htest := List.find?_some h
  rw [Bool.and_eq_true, decide_eq_true_iff] at htest
  exact ⟨List.mem_of_find?_eq_some h, htest.2⟩

theorem kept_request (h : w.Kept) {sight : Sight} {reader : PacketReader}
    (hrequest : w.request c sight reader = some w') : w'.Kept := by
  unfold request at hrequest
  obtain ⟨⟨type, reader₁⟩, -, hrequest⟩ := Option.bind_eq_some_iff.mp hrequest
  obtain ⟨⟨id, reader₂⟩, -, hrequest⟩ := Option.bind_eq_some_iff.mp hrequest
  dsimp only at hrequest
  cases htype : PartyRequestType.ofNumber type with
  | none =>
      rw [htype] at hrequest
      cases hrequest
      exact h
  | some type =>
      rw [htype] at hrequest
      dsimp only at hrequest
      cases hinvitee : w.getCharacterPID id sight.onMap with
      | none =>
          rw [hinvitee] at hrequest
          cases hrequest
          exact h
      | some invitee =>
          rw [hinvitee] at hrequest
          dsimp only at hrequest
          split_ifs at hrequest with hrefused
          · cases hrequest
            exact h
          · cases hrequest
            have hne : invitee ≠ c := fun heq => hrefused (Or.inl heq.symm)
            have hsent := kept_setCharacter (f := ({ · with trustSend := invitee })) h c
              (fun _ => rfl) (fun _ => rfl) (fun heq => hne (Option.some.inj heq))
            have hreceived := kept_setCharacter (f := ({ · with trustRecv := c })) hsent invitee
              (fun _ => rfl) (fun _ => rfl) (hsent.2.trust invitee)
            exact kept_setCharacter (f := ({ · with sendType := type })) hreceived c
              (fun _ => rfl) (fun _ => rfl) (hreceived.2.trust c)

/-- One character leaves its party for that of another. -/
theorem kept_leave_joinOther (h : w.Kept) (hc : c ∈ w.characters) (hd : d ∈ w.characters)
    (hne : d ≠ c) : ((w.leave c).joinOther d c).Kept := by
  obtain ⟨hsound, hnone, hcharacters⟩ := sound_leave h.1 hc
  constructor
  · apply sound_joinOther hsound _ _ hne hnone
    · rw [hcharacters]
      exact hd
    · rw [hcharacters]
      exact hc
  · exact ((untouched_leave w c).trans (untouched_joinOther _ d c)).named h.2

theorem kept_accept (h : w.Kept) (hc : c ∈ w.characters) {sight : Sight} {reader : PacketReader}
    (haccept : w.accept c sight reader = some w') : w'.Kept := by
  unfold accept at haccept
  obtain ⟨⟨type, reader₁⟩, -, haccept⟩ := Option.bind_eq_some_iff.mp haccept
  obtain ⟨⟨id, reader₂⟩, -, haccept⟩ := Option.bind_eq_some_iff.mp haccept
  dsimp only at haccept
  cases hinviter : w.getCharacterPID id sight.onMap with
  | none =>
      rw [hinviter] at haccept
      cases haccept
      exact h
  | some inviter =>
      rw [hinviter] at haccept
      dsimp only at haccept
      split_ifs at haccept with hrefused
      · cases haccept
        exact h
      · cases haccept
        have htrust : (w.character inviter).trustSend = some c := by
          by_contra hother
          exact hrefused (Or.inr (Or.inl hother))
        -- the inviter waits for the one who accepts, so it is another
        have hne : c ≠ inviter := by
          rintro rfl
          exact h.2.trust c htrust
        have hmem := (mem_of_getCharacterPID hinviter).1
        have hcleared : ∀ v : PartyWorld, v.Kept →
            ((v.setCharacter c ({ · with trustRecv := none })).setCharacter inviter
              ({ · with trustSend := none })).Kept := by
          intro v hv
          have hreceived := kept_setCharacter (f := ({ · with trustRecv := none })) hv c
            (fun _ => rfl) (fun _ => rfl) (hv.2.trust c)
          exact kept_setCharacter (f := ({ · with trustSend := none })) hreceived inviter
            (fun _ => rfl) (fun _ => rfl) (fun heq => nomatch heq)
        apply hcleared
        cases (w.character inviter).sendType with
        | none => exact h
        | some type =>
            cases type with
            | join => exact kept_leave_joinOther h hmem hc hne
            | invite => exact kept_leave_joinOther h hc hmem hne.symm

/-- What `Leave` is called with by a member itself, or by its leader. -/
theorem removed_cases {reader : PacketReader} {leaver : ℕ}
    (h : w.removed c reader = some (some (p, party, leaver))) :
    (w.character c).party = some p ∧ w.party p = some party ∧ ∃ id reader',
      reader.getShort = some (id, reader') ∧ w.getCharacterPID id (fun _ => true) = some leaver ∧
        (id = (w.character c).playerId ∨ c = party.leader) := by
  unfold removed at h
  cases hp : (w.character c).party with
  | none =>
      rw [hp] at h
      cases h
  | some q =>
      rw [hp] at h
      obtain ⟨⟨id, reader'⟩, hread, h⟩ := Option.bind_eq_some_iff.mp h
      dsimp only at h
      cases hparty : w.party q with
      | none =>
          rw [hparty] at h
          cases h
      | some party' =>
          rw [hparty] at h
          dsimp only at h
          split_ifs at h with hallowed
          · obtain ⟨leaver', hleaver, heq⟩ := Option.map_eq_some_iff.mp (Option.some.inj h)
            cases heq
            exact ⟨rfl, hparty, id, reader', hread, hleaver, hallowed⟩
          · cases h

/-- A leader of more than two members names one of them, or a character without a party. -/
def RemovesOwn (w : PartyWorld) : PartyStep → Prop
  | .remove c reader => ∀ p party id reader' leaver, c ∈ w.characters →
      (w.character c).party = some p → w.party p = some party → c = party.leader →
      2 < party.members.length → reader.getShort = some (id, reader') →
      w.getCharacterPID id (fun _ => true) = some leaver →
      leaver ∈ party.members ∨ (w.character leaver).party = none
  | _ => True

/-- A character that is in no party leaves one, which changes nothing. -/
theorem sound_leaveParty_of_none (h : w.Sound) (hparty : w.party p = some party)
    (hc : c ∉ party.members) (hbig : 2 < party.members.length)
    (hnone : (w.character c).party = none) : (w.leaveParty p party c).Sound := by
  have hleader : c ≠ party.leader := by
    rintro rfl
    exact hc (h.leader p party hparty)
  unfold leaveParty
  rw [if_pos ⟨hbig, hleader⟩, List.erase_of_not_mem hc]
  refine h.of_same rfl ?_ ?_ rfl rfl
  · intro d
    by_cases hd : d = c
    · rw [hd, hnone]
      exact party_setParty_self w c none
    · exact party_setParty_of_ne w none hd
  · exact (congrArg (Function.update w.party p) hparty.symm).trans
      (Function.update_eq_self p w.party)

theorem kept_remove (h : w.Kept) (hc : c ∈ w.characters) {reader : PacketReader}
    (hown : w.RemovesOwn (.remove c reader)) (hremove : w.remove c reader = some w') :
    w'.Kept := by
  obtain ⟨x, hx, rfl⟩ := Option.map_eq_some_iff.mp hremove
  cases x with
  | none => exact h
  | some x =>
      obtain ⟨p, party, leaver⟩ := x
      obtain ⟨hp, hparty, id, reader', hread, hleaver, hallowed⟩ := removed_cases hx
      refine ⟨?_, (untouched_leaveParty w p party leaver).named h.2⟩
      dsimp only
      obtain ⟨party', hparty', hcmem⟩ := (h.1.membership c hc p).mp hp
      rw [hparty, Option.some.injEq] at hparty'
      rw [← hparty'] at hcmem
      by_cases hmem : leaver ∈ party.members
      · exact (sound_leaveParty h.1 hparty hmem).1
      · by_cases hbig : 2 < party.members.length
        · rcases hallowed with hself | hlead
          · -- its own id is that of no other
            obtain ⟨hleavermem, hid⟩ := mem_of_getCharacterPID hleaver
            have heq := h.2.distinct leaver hleavermem c hc (hid.trans hself)
            rw [heq] at hmem
            exact absurd hcmem hmem
          · rcases hown p party id reader' leaver hc hp hparty hlead hbig hread hleaver with
              hin | hnone
            · exact absurd hin hmem
            · exact sound_leaveParty_of_none h.1 hparty hmem hbig hnone
        · unfold leaveParty
          rw [if_neg (fun hboth => hbig hboth.1)]
          exact (sound_deleteParty h.1 hparty).1

/-- A member of another party is left without a pointer to it. -/
theorem not_consistent_leaveParty (h : w.Sound) (hparty : w.party p = some party)
    (hc : c ∈ w.characters) (hout : c ∉ party.members) (hbig : 2 < party.members.length)
    (hother : (w.character c).party ≠ none) : ¬(w.leaveParty p party c).Consistent := by
  intro hconsistent
  obtain ⟨q, hq⟩ := Option.ne_none_iff_exists'.mp hother
  obtain ⟨party', hparty', hmem⟩ := (h.membership c hc q).mp hq
  have hleader : c ≠ party.leader := by
    rintro rfl
    exact hout (h.leader p party hparty)
  have hne : q ≠ p := by
    rintro rfl
    rw [hparty, Option.some.injEq] at hparty'
    exact hout (hparty' ▸ hmem)
  have hleave : w.leaveParty p party c =
      { w.setParty c none with
        party := Function.update w.party p
          (some { party with members := party.members.erase c }) } := by
    unfold leaveParty
    rw [if_pos ⟨hbig, hleader⟩]
  have hlisted : (w.leaveParty p party c).party q = some party' := by
    rw [hleave]
    exact (Function.update_of_ne hne _ _).trans hparty'
  have hpoints := (hconsistent.membership c (by rw [hleave]; exact hc) q).mpr
    ⟨party', hlisted, List.count_eq_one_of_mem (h.nodup q party' hparty') hmem⟩
  rw [hleave] at hpoints
  exact nomatch (party_setParty_self w c none).symm.trans hpoints

theorem kept_login (h : w.Kept) {playerId : ℕ}
    (hnew : ¬∃ c ∈ w.characters, (w.character c).playerId = playerId) :
    (w.login playerId).Kept := by
  have hfresh : w.nextCharacter ∉ w.characters := by
    intro hmem
    exact absurd (h.1.freshCharacter _ hmem) (lt_irrefl _)
  have hself : (w.login playerId).character w.nextCharacter =
      ⟨playerId, none, none, none, none⟩ := Function.update_self _ _ _
  have hother : ∀ c, c ≠ w.nextCharacter → (w.login playerId).character c = w.character c :=
    fun c hc => Function.update_of_ne hc _ _
  have hmem : ∀ c ∈ (w.login playerId).characters,
      c ∈ w.characters ∧ c ≠ w.nextCharacter ∨ c = w.nextCharacter := by
    intro c hc
    rcases List.mem_append.mp hc with hc | hc
    · exact Or.inl ⟨hc, fun heq => hfresh (heq ▸ hc)⟩
    · exact Or.inr (List.mem_singleton.mp hc)
  refine ⟨⟨?_, h.1.two, h.1.leader, h.1.nodup, ?_, ?_, h.1.freshParty⟩, ?_, ?_⟩
  · intro c hc p
    rcases hmem c hc with ⟨hc, hne⟩ | rfl
    · rw [hother c hne]
      exact h.1.membership c hc p
    · rw [hself]
      apply iff_of_false (fun heq => nomatch heq)
      rintro ⟨party, hparty, hin⟩
      exact hfresh (h.1.online p party hparty hin)
  · intro p party hparty c hc
    exact List.mem_append_left _ (h.1.online p party hparty hc)
  · intro c hc
    change c < w.nextCharacter + 1
    rcases hmem c hc with ⟨hc, -⟩ | rfl
    · have hlt := h.1.freshCharacter c hc
      omega
    · omega
  · intro c hc d hd heq
    rcases hmem c hc with ⟨hc, hcne⟩ | rfl <;> rcases hmem d hd with ⟨hd, hdne⟩ | rfl
    · rw [hother c hcne, hother d hdne] at heq
      exact h.2.distinct c hc d hd heq
    · rw [hother c hcne, hself] at heq
      exact absurd ⟨c, hc, heq⟩ hnew
    · rw [hother d hdne, hself] at heq
      exact absurd ⟨d, hd, heq.symm⟩ hnew
    · rfl
  · intro c
    by_cases hc : c = w.nextCharacter
    · rw [hc, hself]
      exact fun heq => nomatch heq
    · rw [hother c hc]
      exact h.2.trust c

theorem kept_logout (h : w.Kept) (hc : c ∈ w.characters) : (w.logout c).Kept := by
  obtain ⟨hsound, hnone, hcharacters⟩ := sound_leave h.1 hc
  have hnamed := (untouched_leave w c).named h.2
  have hmem : ∀ d ∈ (w.logout c).characters, d ∈ (w.leave c).characters := by
    intro d hd
    exact List.mem_of_mem_filter hd
  refine ⟨⟨?_, hsound.two, hsound.leader, hsound.nodup, ?_, ?_, hsound.freshParty⟩, ?_,
    hnamed.trust⟩
  · exact fun d hd => hsound.membership d (hmem d hd)
  · intro p party hparty d hd
    apply List.mem_filter.mpr
    refine ⟨hsound.online p party hparty hd, ?_⟩
    have hne : d ≠ c := by
      rintro rfl
      have hpoints := hsound.party_of_mem hparty hd
      rw [hnone] at hpoints
      cases hpoints
    exact decide_eq_true hne
  · exact fun d hd => hsound.freshCharacter d (hmem d hd)
  · exact fun d hd e he => hnamed.distinct d (hmem d hd) e (hmem e he)

/-! ## Runs -/

theorem kept_next (h : w.Kept) {a : PartyStep} (hown : w.RemovesOwn a)
    (hnext : w.next a = some w') : w'.Kept := by
  cases a with
  | login playerId =>
      rw [next] at hnext
      split_ifs at hnext with hused
      cases hnext
      exact kept_login h hused
  | request c sight reader =>
      rw [next] at hnext
      split_ifs at hnext with hc
      exact kept_request h hnext
  | accept c sight reader =>
      rw [next] at hnext
      split_ifs at hnext with hc
      exact kept_accept h hc hnext
  | remove c reader =>
      rw [next] at hnext
      split_ifs at hnext with hc
      exact kept_remove h hc hown hnext
  | logout c =>
      rw [next] at hnext
      split_ifs at hnext with hc
      cases hnext
      exact kept_logout h hc

/-- What a step leads to agrees exactly when no leader removes a member of another party. -/
theorem consistent_next_iff (h : w.Kept) (a : PartyStep) :
    (∀ w' ∈ w.next a, w'.Consistent) ↔ w.RemovesOwn a := by
  constructor
  · intro hafter
    cases a with
    | remove c reader =>
        intro p party id reader' leaver hc hp hparty hlead hbig hread hleaver
        by_contra hneither
        obtain ⟨hout, hother⟩ := not_or.mp hneither
        have hremoved : w.removed c reader = some (some (p, party, leaver)) := by
          unfold removed
          rw [hp]
          dsimp only
          rw [hread, Option.bind_eq_bind, Option.bind_some]
          dsimp only
          rw [hparty]
          dsimp only
          rw [if_pos (Or.inr hlead), hleaver]
          rfl
        have hnext : w.next (.remove c reader) = some (w.leaveParty p party leaver) := by
          rw [next, if_pos hc, remove, hremoved]
          rfl
        exact not_consistent_leaveParty h.1 hparty (mem_of_getCharacterPID hleaver).1 hout hbig
          hother (hafter _ hnext)
    | login | request | accept | logout => trivial
  · exact fun hown w' hnext => (kept_next h hown hnext).1.consistent

theorem kept_start : start.Kept where
  left := sound_start
  right := ⟨(fun _ h => nomatch h), (fun _ h => nomatch h)⟩

/-- In every state of a run the pointers and the lists agree, exactly when no leader of more than
two removes a member of another party. -/
theorem consistent_iff_every_removesOwn (steps : List PartyStep) :
    (∀ w, Reaches next start steps w → w.Consistent) ↔ Every next RemovesOwn start steps := by
  rw [forall_reaches_iff, and_iff_right kept_start.1.consistent]
  apply every_iff Kept _ _ kept_start
  · exact fun w a h => consistent_next_iff h a
  · exact fun w a w' h hown hnext => kept_next h hown hnext

end PartyWorld

namespace Expelled

/-- Everybody is in sight. -/
def sight : Sight := ⟨fun _ => true, fun _ => true⟩

/-- Five characters: the first invites the second and the third, and the fourth the fifth. Then
the first removes the fifth. -/
def steps : List PartyStep :=
  [.login 1, .login 2, .login 3, .login 4, .login 5,
    .request 0 sight ⟨[2, 3, 254], 0⟩, .accept 1 sight ⟨[2, 2, 254], 0⟩,
    .request 0 sight ⟨[2, 4, 254], 0⟩, .accept 2 sight ⟨[2, 2, 254], 0⟩,
    .request 3 sight ⟨[2, 6, 254], 0⟩, .accept 4 sight ⟨[2, 5, 254], 0⟩,
    .remove 0 ⟨[6, 254], 0⟩]

end Expelled

/-- The fifth has no party any more, and is a member of one. -/
theorem PartyWorld.not_consistent_expelled :
    ¬ ∀ w, Reaches PartyWorld.next PartyWorld.start Expelled.steps w → w.Consistent := by
  intro h
  have hrun : ((run PartyWorld.next PartyWorld.start Expelled.steps).map fun w =>
      (w.characters, (w.character 4).party, w.party 1)) =
        some ([0, 1, 2, 3, 4], none, some ⟨3, [3, 4]⟩) := by decide
  obtain ⟨w, hw, heq⟩ := Option.map_eq_some_iff.mp hrun
  obtain ⟨hcharacters, hnone, hparty⟩ : w.characters = [0, 1, 2, 3, 4] ∧
      (w.character 4).party = none ∧ w.party 1 = some ⟨3, [3, 4]⟩ := by
    simpa using heq
  have hmem : 4 ∈ w.characters := by
    rw [hcharacters]
    decide
  have hpoints := ((h w (reaches_of_run hw)).membership 4 hmem 1).mpr ⟨_, hparty, by decide⟩
  rw [hnone] at hpoints
  cases hpoints

end ArenaServ
