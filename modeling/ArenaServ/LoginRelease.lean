import ArenaServ.FlagLock
import ArenaServ.LoginChanges

/-!
# What a login takes is given back

The pending flag of a name and the place in the login queue go with an operation in
flight. The callbacks give them back; an exception of a worker goes past those that clear
the flag, and one of `AsyncOperation::Execute` comes when both are taken already.
-/

namespace ArenaServ

theorem AsyncOperation.login_of_lock {op : AsyncOperation} {username : Bytes}
    (h : op.lock = some username) : ∃ stage, op.operation = .login username stage := by
  obtain ⟨c, operation⟩ := op
  cases operation with
  | login name stage =>
      rw [lock] at h
      split_ifs at h
      exact ⟨stage, by rw [Option.some.inj h]⟩
  | createAccount stage => cases h
  | setPassword stage => cases h

namespace LoginServer

/-- Pending names have a login in flight, and the logins in flight are counted. -/
structure Released (s : LoginServer) : Prop where
  pending : ∀ username, s.pendingLogins username = true →
    ∃ op ∈ s.ops, ∃ stage, op.operation = .login username stage
  counted : s.processCount = s.ops.countP (·.isLogin)

/-- When all logins have ended, no account and no place in the queue stays locked. -/
theorem Released.idle {s : LoginServer} (h : s.Released)
    (hidle : ∀ op ∈ s.ops, op.isLogin = false) :
    s.processCount = 0 ∧ ∀ username, s.pendingLogins username = false := by
  refine ⟨?_, ?_⟩
  · rw [h.counted, List.countP_eq_zero.mpr]
    · rfl
    · intro op hop
      rw [hidle op hop]
      exact Bool.false_ne_true
  · intro username
    rw [Bool.eq_false_iff]
    intro hpending
    obtain ⟨⟨c, operation⟩, hop, stage, rfl⟩ := h.pending username hpending
    cases hidle _ hop

/-- The name of a login that is let in. -/
def LoginCheck.letIn : LoginCheck → Option Bytes
  | .accepted username => some username
  | .ignored | .banned | .refused _ | .full | .online _ => none

/-- No login is let in for a client that runs an operation already, and no worker throws
before it has cleared the flag. -/
def ReleasesLocks (config : LoginConfig) (s : LoginServer) : LoginStep → Prop
  | .loginRequest c reader banned characters =>
      ∀ x ∈ s.client c, x.connected = true → x.state = .initialized → x.asyncOpPending = true →
        (s.checkRequest config reader banned characters).bind (·.letIn) = none
  | .work i .thrown => ∀ op ∈ s.ops[i]?, op.lock = none
  | _ => True

instance (config : LoginConfig) (s : LoginServer) : ∀ t, Decidable (ReleasesLocks config s t)
  | .loginRequest c reader banned characters => inferInstanceAs (Decidable
      (∀ x ∈ s.client c, x.connected = true → x.state = .initialized → x.asyncOpPending = true →
        (s.checkRequest config reader banned characters).bind (·.letIn) = none))
  | .work i .thrown => inferInstanceAs (Decidable (∀ op ∈ s.ops[i]?, op.lock = none))
  | .connect | .init _ | .accountRequest .. | .accountCreate .. | .accountAgree ..
  | .welcomeRequest _ | .welcomeMsg _ | .close _ | .kick _ | .bury _
  | .work _ .success | .work _ (.failure _) => inferInstanceAs (Decidable True)

/-- Flags that are set are held by operations in flight. -/
structure ReleasedLogins (s : LoginServer) : Prop where
  accounted : FlagLock.Accounted s.pendingLogins s.locks
  counted : s.processCount = s.ops.countP (·.isLogin)

variable {config : LoginConfig} {s s' : LoginServer} {pending : Bytes → Bool} {count : ℤ}
  {ops : List AsyncOperation} {op op' : AsyncOperation} {before after : List AsyncOperation}

theorem ReleasedLogins.released (h : s.ReleasedLogins) : s.Released := by
  refine ⟨?_, h.counted⟩
  intro username hpending
  obtain ⟨op, hop, hlock⟩ := List.mem_filterMap.mp (h.accounted username hpending)
  exact ⟨op, hop, AsyncOperation.login_of_lock hlock⟩

/-! ## Steps -/

theorem ReleasedLogins.becomes (hb : Becomes s s' pending count ops)
    (haccounted : FlagLock.Accounted pending (ops.filterMap (·.lock)))
    (hcounted : count = ops.countP (·.isLogin)) : s'.ReleasedLogins := by
  refine ⟨?_, ?_⟩
  · rw [locks, hb.pendingLogins, hb.ops]
    exact haccounted
  · rw [hb.processCount, hb.ops]
    exact hcounted

/-- An operation takes the place of another of its kind. -/
theorem ReleasedLogins.counted_middle (h : s.ReleasedLogins)
    (hops : s.ops = before ++ op :: after) (hlogin : op'.isLogin = op.isLogin) :
    s.processCount = (before ++ op' :: after).countP (·.isLogin) := by
  rw [h.counted, hops]
  simp only [List.countP_append, List.countP_cons, hlogin]

theorem ReleasedLogins.step (h : s.ReleasedLogins) {t : LoginStep}
    (hreleases : ReleasesLocks config s t) (hstep : s.step config t = some s') :
    s'.ReleasedLogins := by
  cases step_change hstep with
  | calm hb => exact .becomes hb h.accounted h.counted
  | refused username x hready hcheck hb =>
      exact .becomes hb (h.accounted.clearFlag username) h.counted
  | busy username x hready hcheck hb =>
      exact .becomes hb (h.accounted.clearFlag username) h.counted
  | threw username x hready hcheck hpending count hb =>
      have hnone := hreleases x hready.1 hready.2.1 hready.2.2 hpending
      rw [hcheck] at hnone
      cases hnone
  | started username x hready hcheck hb =>
      refine .becomes hb ?_ ?_
      · rw [filterMap_lock_some rfl, List.filterMap_nil]
        exact h.accounted.acquire username
      · rw [h.counted, List.countP_append]
        rfl
  | account op hlock hlogin hb =>
      refine .becomes hb ?_ ?_
      · rw [filterMap_lock_none hlock, List.filterMap_nil, List.append_nil]
        exact h.accounted
      · rw [h.counted, List.countP_append, List.countP_singleton, hlogin]
        rfl
  | checked before after c username stage hops hholds hstage hb =>
      have hlock : AsyncOperation.lock ⟨c, .login username stage⟩ = some username := by
        rw [AsyncOperation.lock, if_pos hholds]
      have haccounted := h.accounted
      rw [locks_some hops rfl] at haccounted
      refine .becomes hb ?_ (h.counted_middle hops rfl)
      rw [filterMap_lock_some hlock]
      exact haccounted
  | assigned before after c username hops hpending hcount hops' hplayers =>
      have haccounted := h.accounted
      rw [locks_some hops rfl] at haccounted
      refine ⟨?_, ?_⟩
      · rw [locks_some hops' rfl, hpending]
        exact haccounted
      · rw [hcount, hops']
        exact h.counted_middle hops rfl
  | cleared before after c username result hops hb =>
      have haccounted := h.accounted
      rw [locks_some hops rfl] at haccounted
      refine .becomes hb ?_ (h.counted_middle hops rfl)
      rw [filterMap_lock_none rfl]
      exact haccounted.release
  | aborted before after c username stage hops hholds hb =>
      have hnone : AsyncOperation.lock ⟨c, .login username stage⟩ = none := by
        refine hreleases _ ?_
        rw [hops]
        simp
      rw [AsyncOperation.lock, if_pos hholds] at hnone
      cases hnone
  | moved before after op op' hops hlock hlock' hlogin hb =>
      have haccounted := h.accounted
      rw [locks_none hops hlock] at haccounted
      refine .becomes hb ?_ (h.counted_middle hops hlogin)
      rw [filterMap_lock_none hlock']
      exact haccounted
  | finished before after op hops hlock hb =>
      have haccounted := h.accounted
      rw [locks_none hops hlock, ← List.filterMap_append] at haccounted
      refine .becomes hb haccounted ?_
      rw [h.counted, hops]
      simp only [List.countP_append, List.countP_cons, Nat.cast_add, Nat.cast_ite, Nat.cast_one,
        Nat.cast_zero]
      ring

/-! ## Runs -/

theorem releasedLogins_empty : empty.ReleasedLogins := by
  refine ⟨?_, rfl⟩
  intro username hpending
  cases hpending

theorem released_of_releasesLocks (steps : List LoginStep)
    (hreleases : empty.AllSteps (ReleasesLocks config) config steps)
    (hrun : empty.run config steps = some s) : s.Released := by
  have h : s.ReleasedLogins := run_invariant (fun s s' t hs ht hstep => hs.step ht hstep)
    releasedLogins_empty steps hreleases hrun
  exact h.released

/-- The login is in flight and its client has the player. -/
def oneRequest : List LoginStep :=
  [.connect, .init 0, .loginRequest 0 (credentials alice) false 0, .work 0 .success,
    .work 0 .success]

theorem released_of_releasesLocks_oneRequest :
    ∃ s, empty.run defaults oneRequest = some s ∧ s.Released := by
  have hsome : (empty.run defaults oneRequest).isSome = true := by decide
  obtain ⟨s, hs⟩ := Option.isSome_iff_exists.mp hsome
  have hreleases : empty.AllSteps (ReleasesLocks defaults) defaults oneRequest := by
    decide
  exact ⟨s, hs, released_of_releasesLocks oneRequest hreleases hs⟩

/-- A client asks for a second login while its first is checked. -/
def otherRequest : List LoginStep :=
  [.connect, .init 0, .loginRequest 0 (credentials alice) false 0,
    .loginRequest 0 (credentials bobby) false 0] ++ succeeds

theorem not_released_otherRequest :
    ∃ s, empty.run defaults otherRequest = some s ∧ ¬ s.Released := by
  have hrun : ((empty.run defaults otherRequest).map fun s => (s.ops, s.processCount)) =
      some ([], 1) := by
    decide
  obtain ⟨s, hs, hview⟩ := Option.map_eq_some_iff.mp hrun
  obtain ⟨hops, hcount⟩ := Prod.mk.inj hview
  refine ⟨s, hs, ?_⟩
  intro h
  have hzero : s.processCount = 0 := by
    rw [h.counted, hops]
    rfl
  omega

end LoginServer

end ArenaServ
