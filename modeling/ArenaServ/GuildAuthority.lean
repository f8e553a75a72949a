import ArenaServ.GuildRanks
import Mathlib.Data.Set.Basic

/-!
# Who may change ranks

A request changes one member at most, who is no founder: another member whose rank number is
smaller, or a founder, asks for it, and gives no smaller number than its own. So the members of
a group give nobody a smaller number than the smallest of theirs.
-/

namespace ArenaServ.GuildWorld

/-- What a request by a member may change in the list of its guild. -/
structure Authorized (actor : GuildMember) (members members' : List GuildMember) : Prop where
  founders : ∀ m ∈ members, m.rank = 0 → m ∈ members'
  newFounders : ∀ m ∈ members', m.rank = 0 → m ∉ members → actor.rank = 0
  change : members' = members ∨
    ∃ target ∈ members, (actor.rank = 0 ∨ actor.rank < target.rank) ∧
      ((∃ r, actor.rank ≤ r ∧ members' = regradedList target.name r members) ∨
        members' = members.eraseP (·.name = target.name))

variable {g c r : ℕ} {guild : Guild} {w w' : GuildWorld} {actor target : GuildMember}
  {members : List GuildMember}

theorem authorized_refl (actor : GuildMember) (members : List GuildMember) :
    Authorized actor members members :=
  ⟨fun _ hm _ => hm, fun _ hm _ hnot => absurd hm hnot, Or.inl rfl⟩

theorem authorized_regraded (hnames : (members.map (·.name)).Nodup) (htarget : target ∈ members)
    (hfounder : target.rank ≠ 0) (hown : actor.rank = 0 ∨ actor.rank < target.rank)
    (hr : actor.rank ≤ r) : Authorized actor members (regradedList target.name r members) := by
  refine ⟨?_, ?_, Or.inr ⟨target, htarget, hown, Or.inl ⟨r, hr, rfl⟩⟩⟩
  · intro m hm hzero
    have hne : m.name ≠ target.name := by
      intro heq
      rw [List.inj_on_of_nodup_map hnames hm htarget heq] at hzero
      exact hfounder hzero
    refine List.mem_map.mpr ⟨m, hm, ?_⟩
    rw [if_neg hne]
  · intro m' hm' hzero hnew
    obtain ⟨m, hm, rfl⟩ := List.mem_map.mp hm'
    split_ifs at hzero hnew with hname
    · have hr0 : r = 0 := hzero
      omega
    · exact absurd hm hnew

theorem authorized_eraseP (hnames : (members.map (·.name)).Nodup) (htarget : target ∈ members)
    (hown : actor.rank < target.rank) :
    Authorized actor members (members.eraseP (·.name = target.name)) := by
  refine ⟨?_, ?_, Or.inr ⟨target, htarget, Or.inr hown, Or.inr rfl⟩⟩
  · intro m hm hzero
    have hne : m.name ≠ target.name := by
      intro heq
      rw [List.inj_on_of_nodup_map hnames hm htarget heq] at hzero
      omega
    exact (List.mem_eraseP_of_neg (by simpa using hne)).mpr hm
  · intro m hm _ hnew
    exact absurd (List.mem_of_mem_eraseP hm) hnew

/-- What `Guild_Rank` asks before it changes anything. -/
theorem rank_cases (cfg : RankConfig) (c : ℕ) (scene : GuildScene) (r : ℕ) (name : List Char)
    (hguild : (w.character c).guild = some g) (hlive : w.guild g = some guild) :
    w.rank cfg c scene r name = w ∨
      ∃ target ∈ guild.members, target.rank ≠ 0 ∧
        ((w.character c).rank = 0 ∨ (w.character c).rank < target.rank) ∧
        (w.character c).rank ≤ r ∧ w.rank cfg c scene r name = w.setMemberRank g target.name r := by
  unfold rank
  by_cases haway : 10 < r ∨ 12 < name.length ∨ scene.atMaster = false
  · rw [if_pos haway]
    exact Or.inl rfl
  rw [if_neg haway, hguild]
  dsimp only
  rw [hlive]
  dsimp only
  cases hfind : guild.members.find? (·.name = RealName.of name) with
  | none => exact Or.inl rfl
  | some target =>
      have htarget := List.mem_of_find?_eq_some hfind
      dsimp only
      by_cases hfounder : target.rank = 0
      · rw [if_pos hfounder]
        exact Or.inl rfl
      rw [if_neg hfounder]
      by_cases hzero : r = 0
      · rw [if_pos hzero]
        split_ifs with hown
        · refine Or.inr ⟨target, htarget, hfounder, Or.inl hown.1, ?_, ?_⟩
          · omega
          · rw [hzero]
        · exact Or.inl rfl
      rw [if_neg hzero]
      by_cases hmay : mayRank cfg (w.character c).rank target.rank r = true
      · rw [if_pos hmay]
        unfold mayRank at hmay
        simp only [Bool.and_eq_true, Bool.or_eq_true, decide_eq_true_eq] at hmay
        obtain ⟨⟨-, hown⟩, hr⟩ := hmay
        refine Or.inr ⟨target, htarget, hfounder, hown, ?_, rfl⟩
        rcases hr with hlt | ⟨-, hle⟩
        · omega
        · exact hle
      · rw [if_neg hmay]
        exact Or.inl rfl

theorem kick_cases (cfg : GuildConfig) (c : ℕ) (scene : GuildScene) (name : List Char)
    (hguild : (w.character c).guild = some g) (hlive : w.guild g = some guild) :
    w.kick cfg c scene name = w ∨
      ∃ target ∈ guild.members, target.name = RealName.of name ∧
        (w.character c).rank < target.rank ∧
        w.kick cfg c scene name = w.delMember none g name := by
  unfold kick
  by_cases haway : 12 < name.length ∨ scene.atMaster = false
  · rw [if_pos haway]
    exact Or.inl rfl
  rw [if_neg haway, hguild]
  dsimp only
  rw [hlive]
  dsimp only
  split_ifs
  · cases hfind : guild.members.find? (·.name = RealName.of name) with
    | none => exact Or.inl rfl
    | some target =>
        have hname : target.name = RealName.of name := by simpa using List.find?_some hfind
        dsimp only
        split_ifs with hrank
        · exact Or.inr ⟨target, List.mem_of_find?_eq_some hfind, hname, hrank, rfl⟩
        · exact Or.inl rfl
  · exact Or.inl rfl

/-- The entry of who makes a request. -/
def entry (w : GuildWorld) (c : ℕ) : GuildMember := ⟨(w.character c).name, (w.character c).rank⟩

theorem graded_rankStep (h : w.Graded g guild) {a : RankStep} (hstep : w.rankStep g a = some w') :
    ∃ guild', w'.Graded g guild' ∧ w.entry a.actor ∈ guild.members ∧
      Authorized (w.entry a.actor) guild.members guild'.members := by
  unfold rankStep at hstep
  split_ifs at hstep with hactor
  obtain ⟨honline, hguild⟩ := hactor
  have hentry : w.entry a.actor ∈ guild.members := h.graded _ (h.online honline) hguild
  cases a with
  | rank cfg c scene r name =>
      cases hstep
      rcases rank_cases cfg c scene r name hguild h.live with
        hsame | ⟨target, htarget, hfounder, hown, hr, heq⟩
      · rw [hsame]
        exact ⟨guild, h, hentry, authorized_refl _ _⟩
      · rw [heq]
        exact ⟨_, graded_setMemberRank h (List.mem_map_of_mem htarget), hentry,
          authorized_regraded h.names htarget hfounder hown hr⟩
  | kick cfg c scene name =>
      cases hstep
      rcases kick_cases cfg c scene name hguild h.live with
        hsame | ⟨target, htarget, hname, hown, heq⟩
      · rw [hsame]
        exact ⟨guild, h, hentry, authorized_refl _ _⟩
      · have hne : (w.character c).name ≠ RealName.of name := by
          intro hself
          have heq' := List.inj_on_of_nodup_map h.names hentry htarget (hself.trans hname.symm)
          rw [← heq'] at hown
          exact absurd hown (Nat.lt_irrefl _)
        rw [heq]
        refine ⟨_, graded_delMember h (h.online honline) hguild hne, hentry, ?_⟩
        change Authorized _ _ (guild.members.eraseP (·.name = RealName.of name))
        rw [← hname]
        exact authorized_eraseP h.names htarget hown

/-! ## Runs -/

def membersOf (g : ℕ) (w : GuildWorld) : List GuildMember := ((w.guild g).map (·.members)).getD []

theorem Graded.membersOf_eq (h : w.Graded g guild) : w.membersOf g = guild.members := by
  unfold membersOf
  rw [h.live]
  rfl

/-- A group whose members have no smaller rank number than `b`, and what it has left of the list
of its guild. -/
structure Bounded (group : Set RealName) (b : ℕ) (start members : List GuildMember) : Prop where
  own : ∀ m ∈ members, m.name ∈ group → b ≤ m.rank
  others : ∀ m ∈ members, b ≤ m.rank ∨ ∃ old ∈ start, old.name = m.name ∧ old.rank ≤ m.rank

theorem Bounded.authorized {group : Set RealName} {b : ℕ} {start members' : List GuildMember}
    (h : Bounded group b start members) (hactor : actor ∈ members) (hgroup : actor.name ∈ group)
    (hchange : Authorized actor members members') : Bounded group b start members' := by
  have hb := h.own actor hactor hgroup
  rcases hchange.change with rfl | ⟨target, -, -, ⟨r, hr, rfl⟩ | rfl⟩
  · exact h
  · constructor
    · intro m hm hmg
      obtain ⟨m', hm', rfl⟩ := List.mem_map.mp hm
      split_ifs at hmg ⊢
      · change b ≤ r
        omega
      · exact h.own m' hm' hmg
    · intro m hm
      obtain ⟨m', hm', rfl⟩ := List.mem_map.mp hm
      split_ifs
      · left
        change b ≤ r
        omega
      · exact h.others m' hm'
  · exact ⟨fun m hm => h.own m (List.mem_of_mem_eraseP hm),
      fun m hm => h.others m (List.mem_of_mem_eraseP hm)⟩

/-- In every run of requests by the members of a guild, each request changes what it may; its
founders stay founders; and where all of the requests are those of a group, nobody has a smaller
rank number in the end than the group or than at the start. -/
theorem rank_authority (h : w.Graded g guild) (steps : List RankStep) :
    RunSteps.Every (rankStep g) (fun s a => ∀ s' ∈ s.rankStep g a,
      s.entry a.actor ∈ s.membersOf g ∧
        Authorized (s.entry a.actor) (s.membersOf g) (s'.membersOf g)) w steps ∧
    (∀ u, RunSteps.Reaches (rankStep g) w steps u →
      ∀ m ∈ guild.members, m.rank = 0 → m ∈ u.membersOf g) ∧
    ∀ (group : Set RealName) (b : ℕ), (∀ m ∈ guild.members, m.name ∈ group → b ≤ m.rank) →
      RunSteps.Every (rankStep g) (fun s a => (s.character a.actor).name ∈ group) w steps →
      ∀ u, RunSteps.Reaches (rankStep g) w steps u → ∀ m ∈ u.membersOf g,
        b ≤ m.rank ∨ ∃ old ∈ guild.members, old.name = m.name ∧ old.rank ≤ m.rank := by
  refine ⟨?_, ?_, ?_⟩
  · apply RunSteps.every_of_every (Q := fun _ _ => True) (fun s => ∃ guild, s.Graded g guild) _ _
      ⟨guild, h⟩ (RunSteps.every_of_forall (fun _ _ => trivial) w steps)
    · rintro s a ⟨guild, hs⟩ - s' hs'
      obtain ⟨guild', hs'', hentry, hauth⟩ := graded_rankStep hs hs'
      rw [hs.membersOf_eq, hs''.membersOf_eq]
      exact ⟨hentry, hauth⟩
    · rintro s a s' ⟨guild, hs⟩ - hs'
      obtain ⟨guild', hs'', -⟩ := graded_rankStep hs hs'
      exact ⟨guild', hs''⟩
  · intro u hu m hm hzero
    obtain ⟨guild', hu', hmem⟩ := RunSteps.invariant_of_every (Q := fun _ _ => True)
      (fun s => ∃ guild', s.Graded g guild' ∧ m ∈ guild'.members)
      (by
        rintro s a s' ⟨guild, hs, hmem⟩ - hs'
        obtain ⟨guild', hs'', -, hauth⟩ := graded_rankStep hs hs'
        exact ⟨guild', hs'', hauth.founders m hmem hzero⟩)
      ⟨guild, h, hm⟩ (RunSteps.every_of_forall (fun _ _ => trivial) w steps) hu
    rw [hu'.membersOf_eq]
    exact hmem
  · intro group b hb hgroup u hu
    obtain ⟨guild', hu', hbounded⟩ := RunSteps.invariant_of_every
      (fun s => ∃ guild', s.Graded g guild' ∧ Bounded group b guild.members guild'.members)
      (by
        rintro s a s' ⟨guild₁, hs, hbounded⟩ hactor hs'
        obtain ⟨guild', hs'', hentry, hauth⟩ := graded_rankStep hs hs'
        exact ⟨guild', hs'', hbounded.authorized hentry hactor hauth⟩)
      ⟨guild, h, hb, fun m hm => Or.inr ⟨m, hm, rfl, Nat.le_refl _⟩⟩ hgroup hu
    rw [hu'.membersOf_eq]
    exact hbounded.others

def hallGuild : Guild where
  id := ⟨['A', 'A'], ['h', 'a', 'l', 'l'], by decide, by decide, by decide, by decide⟩
  members := [⟨RealName.of ['a'], 0⟩, ⟨RealName.of ['b'], 5⟩]
  bank := 0

/-- A guild whose founder and another member are online. -/
def hall : GuildWorld :=
  { start [RealName.of ['a'], RealName.of ['b']] (by decide) with
    loaded := [0, 1]
    characters := [0, 1]
    character := fun c =>
      if c = 0 then ⟨RealName.of ['a'], 1, some 0, 0, [], [], none⟩
      else ⟨RealName.of ['b'], 2, some 0, 5, [], [], none⟩
    guild := fun g => if g = 0 then some hallGuild else none }

theorem graded_hall : hall.Graded 0 hallGuild :=
  ⟨rfl, by decide, by decide, List.Subset.refl _, by decide, by decide⟩

/-- The founder promotes the other member. -/
def promotion : RankStep :=
  .rank ⟨1, 1, 0, false⟩ 0 ⟨true, 0, fun _ => true⟩ 3 ['b']

theorem rank_authority_hall :
    ∃ u, RunSteps.Reaches (rankStep 0) hall [promotion] u ∧
      ⟨RealName.of ['b'], 3⟩ ∈ u.membersOf 0 ∧
      ∀ m ∈ hallGuild.members, m.rank = 0 → m ∈ u.membersOf 0 := by
  have hrun : (RunSteps.run (rankStep 0) hall [promotion]).map (membersOf 0) =
      some [⟨RealName.of ['a'], 0⟩, ⟨RealName.of ['b'], 3⟩] := by decide
  obtain ⟨u, hu, hmembers⟩ := Option.map_eq_some_iff.mp hrun
  have hreaches := RunSteps.reaches_of_run hu
  refine ⟨u, hreaches, ?_, (rank_authority graded_hall [promotion]).2.1 u hreaches⟩
  rw [hmembers]
  exact List.mem_cons_of_mem _ List.mem_cons_self

end ArenaServ.GuildWorld
