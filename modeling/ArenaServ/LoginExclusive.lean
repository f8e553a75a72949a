import ArenaServ.FlagLock
import ArenaServ.LoginChanges

/-!
# One client for a username

The pending flag of a name is a lock that the operation in flight holds until its client
has the player. It excludes others as long as nobody clears a flag without holding it.
The online check looks at valid names only, and no account with another name is created.
-/

namespace ArenaServ

namespace AsyncOperation

/-- The name whose credentials are being checked. -/
def checking : AsyncOperation → Option Bytes
  | ⟨_, .login username .check⟩ => some username
  | _ => none

/-- The client of the operation has its player already. -/
def Assigned (op : AsyncOperation) : Prop :=
  ∃ username, op.operation = .login username (.clearPending .ok)

end AsyncOperation

namespace LoginServer

/-- The account of a client that is connected. -/
def account (s : LoginServer) (c : ℕ) : Option Bytes := do
  let x ← s.client c
  if x.connected then x.player.map (·.username) else none

/-- The name that the online check found in use. -/
def LoginCheck.inUse : LoginCheck → Option Bytes
  | .online username => some username
  | .ignored | .banned | .refused _ | .full | .accepted _ => none

/-- No request is refused because its name is pending, and no account has a name that is
not valid. -/
def KeepsFlags (config : LoginConfig) (s : LoginServer) : LoginStep → Prop
  | .loginRequest c reader banned characters =>
      ∀ x ∈ s.client c, x.connected = true → x.state = .initialized →
        ∀ username ∈ (s.checkRequest config reader banned characters).bind (·.inUse),
          s.pendingLogins username = false
  | .work i .success => ∀ op ∈ s.ops[i]?, ∀ username ∈ op.checking, validName username = true
  | _ => True

instance (config : LoginConfig) (s : LoginServer) : ∀ t, Decidable (KeepsFlags config s t)
  | .loginRequest c reader banned characters => inferInstanceAs (Decidable
      (∀ x ∈ s.client c, x.connected = true → x.state = .initialized →
        ∀ username ∈ (s.checkRequest config reader banned characters).bind (·.inUse),
          s.pendingLogins username = false))
  | .work i .success => inferInstanceAs (Decidable
      (∀ op ∈ s.ops[i]?, ∀ username ∈ op.checking, validName username = true))
  | .connect | .init _ | .accountRequest .. | .accountCreate .. | .accountAgree ..
  | .welcomeRequest _ | .welcomeMsg _ | .close _ | .kick _ | .bury _
  | .work _ (.failure _) | .work _ .thrown => inferInstanceAs (Decidable True)

/-- The operations hold different names, and nobody else has the player of a name that is
held. -/
structure ExclusiveLogins (s : LoginServer) : Prop where
  locks : FlagLock.Exclusive validName s.pendingLogins s.locks
  waiting : ∀ op ∈ s.ops, ∀ username ∈ op.lock, ∀ c, s.HasPlayer c username →
    op.Assigned ∧ c = op.client
  unique : ∀ c c' username, s.HasPlayer c username → s.HasPlayer c' username → c = c'
  validPlayers : ∀ c username, s.HasPlayer c username → validName username = true
  validOps : ∀ op ∈ s.ops, ∀ username, op.operation = .login username .setPlayer →
    validName username = true

variable {config : LoginConfig} {s s' : LoginServer} {pending : Bytes → Bool} {count : ℤ}
  {ops : List AsyncOperation} {username : Bytes} {op op' : AsyncOperation}
  {before after : List AsyncOperation}

/-- An operation that joins the others without harm: nobody has the player of its name, and
a name whose credentials were right is valid. -/
structure Joins (s : LoginServer) (op : AsyncOperation) : Prop where
  free : ∀ username ∈ op.lock, ∀ c, ¬ s.HasPlayer c username
  valid : ∀ username, op.operation = .login username .setPlayer → validName username = true

/-- A step that gives nobody a player. -/
theorem ExclusiveLogins.becomes (h : s.ExclusiveLogins) (hb : Becomes s s' pending count ops)
    (hlocks : FlagLock.Exclusive validName pending (ops.filterMap (·.lock)))
    (hops : ∀ op ∈ ops, op ∈ s.ops ∨ s.Joins op) : s'.ExclusiveLogins := by
  refine ⟨?_, ?_, ?_, ?_, ?_⟩
  · rw [LoginServer.locks, hb.pendingLogins, hb.ops]
    exact hlocks
  · intro op hop username hlock c hc
    rw [hb.ops] at hop
    have hc' := hb.players c username hc
    rcases hops op hop with hold | hjoins
    · exact h.waiting op hold username hlock c hc'
    · exact absurd hc' (hjoins.free username hlock c)
  · intro c c' username hc hc'
    exact h.unique c c' username (hb.players c username hc) (hb.players c' username hc')
  · intro c username hc
    exact h.validPlayers c username (hb.players c username hc)
  · intro op hop username hstage
    rw [hb.ops] at hop
    rcases hops op hop with hold | hjoins
    · exact h.validOps op hold username hstage
    · exact hjoins.valid username hstage

theorem joins_of_lock_none (hlock : op.lock = none) : s.Joins op := by
  refine ⟨?_, ?_⟩
  · intro username hu
    rw [hlock] at hu
    cases hu
  · intro username hstage
    obtain ⟨c, operation⟩ := op
    obtain rfl : operation = .login username .setPlayer := hstage
    cases hlock

/-! ## The online check -/

theorem checkRequest_accepted {reader : PacketReader} {banned : Bool} {characters : ℕ}
    (h : s.checkRequest config reader banned characters = some (.accepted username)) :
    s.playerOnline username = false := by
  simp only [checkRequest, Option.bind_eq_bind, Option.bind_eq_some_iff, Option.pure_def] at h
  obtain ⟨⟨name, reader₁⟩, -, ⟨password, reader₂⟩, -, h⟩ := h
  split_ifs at h with h₁ h₂ h₃ h₄ h₅ h₆ <;> cases h
  simpa using h₆

theorem not_pending_of_not_playerOnline (h : s.playerOnline username = false)
    (hvalid : validName username = true) : s.pendingLogins username = false := by
  rw [playerOnline, hvalid, Bool.true_and, Bool.or_eq_false_iff] at h
  exact h.1

/-- Names that the online check does not find. -/
theorem ExclusiveLogins.free (h : s.ExclusiveLogins)
    (honline : s.playerOnline username = false) (c : ℕ) : ¬ s.HasPlayer c username := by
  intro hc
  have hvalid := h.validPlayers c username hc
  obtain ⟨x, p, hx, hp, hname⟩ := hc
  have hmem : some x ∈ s.clients := by
    rw [client, Option.join_eq_some_iff] at hx
    exact List.mem_of_getElem? hx
  rw [playerOnline, hvalid, Bool.true_and, Bool.or_eq_false_iff, List.any_eq_false] at honline
  have hno := honline.2 (some x) hmem
  simp [hp, hname] at hno

/-! ## One operation among others -/

theorem mem_of_mem_middle (h : op ∈ before ++ op' :: after) : op = op' ∨ op ∈ before ++ after := by
  rw [List.perm_middle.mem_iff, List.mem_cons] at h
  exact h

theorem mem_middle_of_mem (h : op ∈ before ++ after) : op ∈ before ++ op' :: after := by
  rw [List.perm_middle.mem_iff]
  exact List.mem_cons_of_mem _ h

/-- An operation takes the place of another. -/
theorem mem_or_joins_of_mem_middle (hops : s.ops = before ++ op :: after) (hjoins : s.Joins op') :
    ∀ o ∈ before ++ op' :: after, o ∈ s.ops ∨ s.Joins o := by
  intro o ho
  rcases mem_of_mem_middle ho with rfl | hother
  · exact Or.inr hjoins
  · exact Or.inl (hops ▸ mem_middle_of_mem hother)

theorem not_assigned_check {c : ℕ} :
    ¬ AsyncOperation.Assigned ⟨c, .login username .check⟩ := by
  rintro ⟨u, hu⟩
  cases hu

theorem not_assigned_setPlayer {c : ℕ} :
    ¬ AsyncOperation.Assigned ⟨c, .login username .setPlayer⟩ := by
  rintro ⟨u, hu⟩
  cases hu

/-- Before the operation assigns the player, nobody has it. -/
theorem ExclusiveLogins.not_hasPlayer (h : s.ExclusiveLogins)
    (hops : s.ops = before ++ op :: after) (hlock : op.lock = some username)
    (hop : ¬ op.Assigned) (c : ℕ) : ¬ s.HasPlayer c username := by
  intro hc
  have hmem : op ∈ s.ops := by
    rw [hops]
    exact List.mem_append_right _ List.mem_cons_self
  exact hop (h.waiting op hmem username hlock c hc).1

/-! ## Steps -/

/-- The success callback gives the player to the client of the operation. -/
theorem ExclusiveLogins.assigned (h : s.ExclusiveLogins) {c : ℕ}
    (hops : s.ops = before ++ ⟨c, .login username .setPlayer⟩ :: after)
    (hpending : s'.pendingLogins = s.pendingLogins)
    (hops' : s'.ops = before ++ ⟨c, .login username (.clearPending .ok)⟩ :: after)
    (hplayers : ∀ b u, s'.HasPlayer b u → s.HasPlayer b u ∨ (b = c ∧ u = username)) :
    s'.ExclusiveLogins := by
  have hnobody := h.not_hasPlayer hops rfl not_assigned_setPlayer
  have hlocks := h.locks
  rw [locks_some hops rfl] at hlocks
  have hvalid : validName username = true := by
    refine h.validOps ⟨c, .login username .setPlayer⟩ ?_ username rfl
    rw [hops]
    exact List.mem_append_right _ List.mem_cons_self
  refine ⟨?_, ?_, ?_, ?_, ?_⟩
  · rw [locks_some hops' rfl, hpending]
    exact hlocks
  · intro op hop u hu b hb
    rw [hops'] at hop
    rcases mem_of_mem_middle hop with rfl | hother
    · obtain rfl : username = u := Option.some.inj hu
      rcases hplayers b username hb with hold | ⟨rfl, -⟩
      · exact absurd hold (hnobody b)
      · exact ⟨⟨username, rfl⟩, rfl⟩
    · rcases hplayers b u hb with hold | ⟨-, rfl⟩
      · exact h.waiting op (hops ▸ mem_middle_of_mem hother) u hu b hold
      · -- two operations would hold the name
        have hothers := hlocks.notMem_others hvalid
        rw [← List.filterMap_append] at hothers
        exact absurd (List.mem_filterMap.mpr ⟨op, hother, hu⟩) hothers
  · intro b b' u hb hb'
    rcases hplayers b u hb with hold | ⟨rfl, rfl⟩
    · rcases hplayers b' u hb' with hold' | ⟨-, rfl⟩
      · exact h.unique b b' u hold hold'
      · exact absurd hold (hnobody b)
    · rcases hplayers b' u hb' with hold' | ⟨rfl, -⟩
      · exact absurd hold' (hnobody b')
      · rfl
  · intro b u hb
    rcases hplayers b u hb with hold | ⟨-, rfl⟩
    · exact h.validPlayers b u hold
    · exact hvalid
  · intro op hop u hstage
    rw [hops'] at hop
    rcases mem_of_mem_middle hop with rfl | hother
    · cases hstage
    · exact h.validOps op (hops ▸ mem_middle_of_mem hother) u hstage

theorem ExclusiveLogins.step (h : s.ExclusiveLogins) {t : LoginStep}
    (hkeeps : KeepsFlags config s t) (hstep : s.step config t = some s') :
    s'.ExclusiveLogins := by
  cases step_change hstep with
  | calm hb => exact h.becomes hb h.locks fun op hop => Or.inl hop
  | refused username x hready hcheck hb =>
      have hfree : s.pendingLogins username = false := by
        refine hkeeps x hready.1 hready.2.1 hready.2.2 username ?_
        rw [hcheck]
        rfl
      refine h.becomes hb (h.locks.clearFlag ?_) fun op hop => Or.inl hop
      exact fun hvalid => h.locks.notMem hvalid hfree
  | busy username x hready hcheck hb =>
      have hfree := not_pending_of_not_playerOnline (checkRequest_accepted hcheck)
      refine h.becomes hb (h.locks.clearFlag ?_) fun op hop => Or.inl hop
      exact fun hvalid => h.locks.notMem hvalid (hfree hvalid)
  | threw username x hready hcheck hpending count hb =>
      exact h.becomes hb (h.locks.setFlag username) fun op hop => Or.inl hop
  | started username x hready hcheck hb =>
      have honline := checkRequest_accepted hcheck
      refine h.becomes hb ?_ ?_
      · rw [filterMap_lock_some rfl, List.filterMap_nil]
        exact h.locks.acquire (not_pending_of_not_playerOnline honline)
      · intro op hop
        rcases List.mem_append.mp hop with hold | hnew
        · exact Or.inl hold
        · rw [List.mem_singleton.mp hnew]
          refine Or.inr ⟨?_, nofun⟩
          intro u hu
          obtain rfl : username = u := Option.some.inj hu
          exact h.free honline
  | account op hlock hlogin hb =>
      refine h.becomes hb ?_ ?_
      · rw [filterMap_lock_none hlock, List.filterMap_nil, List.append_nil]
        exact h.locks
      · intro op' hop'
        rcases List.mem_append.mp hop' with hold | hnew
        · exact Or.inl hold
        · rw [List.mem_singleton.mp hnew]
          exact Or.inr (joins_of_lock_none hlock)
  | checked before after c username stage hops hholds hstage hb =>
      have hlock : AsyncOperation.lock ⟨c, .login username stage⟩ = some username := by
        rw [AsyncOperation.lock, if_pos hholds]
      have hlocks := h.locks
      rw [locks_some hops rfl] at hlocks
      refine h.becomes hb ?_ (mem_or_joins_of_mem_middle hops ⟨?_, ?_⟩)
      · rw [filterMap_lock_some hlock]
        exact hlocks
      · intro u hu
        obtain rfl : username = u := Option.some.inj (hlock.symm.trans hu)
        exact h.not_hasPlayer hops rfl not_assigned_check
      · intro u hu
        cases hu
        obtain rfl := hstage rfl
        refine hkeeps ⟨c, .login username .check⟩ ?_ username rfl
        rw [hops]
        simp
  | assigned before after c username hops hpending hcount hops' hplayers =>
      exact h.assigned hops hpending hops' hplayers
  | cleared before after c username result hops hb =>
      have hlocks := h.locks
      rw [locks_some hops rfl] at hlocks
      refine h.becomes hb ?_ (mem_or_joins_of_mem_middle hops (joins_of_lock_none rfl))
      rw [filterMap_lock_none rfl]
      exact hlocks.release
  | aborted before after c username stage hops hholds hb =>
      have hlock : AsyncOperation.lock ⟨c, .login username stage⟩ = some username := by
        rw [AsyncOperation.lock, if_pos hholds]
      have hlocks := h.locks
      rw [locks_some hops hlock] at hlocks
      refine h.becomes hb ?_ (mem_or_joins_of_mem_middle hops (joins_of_lock_none rfl))
      rw [filterMap_lock_none rfl]
      exact hlocks.abandon
  | moved before after op op' hops hlock hlock' hlogin hb =>
      have hlocks := h.locks
      rw [locks_none hops hlock] at hlocks
      refine h.becomes hb ?_ (mem_or_joins_of_mem_middle hops (joins_of_lock_none hlock'))
      rw [filterMap_lock_none hlock']
      exact hlocks
  | finished before after op hops hlock hb =>
      have hlocks := h.locks
      rw [locks_none hops hlock, ← List.filterMap_append] at hlocks
      refine h.becomes hb hlocks ?_
      intro op' hop'
      exact Or.inl (hops ▸ mem_middle_of_mem hop')

/-! ## Runs -/

end LoginServer

end ArenaServ
