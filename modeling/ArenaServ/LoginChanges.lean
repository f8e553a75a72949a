import ArenaServ.Login

/-!
# What steps of the login change

The pending flags, the process count, the operations in flight and who has which player:
`Change` lists what a step can do to these. All else about a client is left open.
-/

namespace ArenaServ

/-- The worker has not yet cleared the pending flag. -/
def LoginStage.holds : LoginStage → Bool
  | .check | .setPlayer | .clearPending _ => true
  | .callback _ | .asyncDone | .complete => false

namespace AsyncOperation

/-- The name whose pending flag the worker has yet to clear. -/
def lock : AsyncOperation → Option Bytes
  | ⟨_, .login username stage⟩ => if stage.holds then some username else none
  | ⟨_, .createAccount _⟩ | ⟨_, .setPassword _⟩ => none

def isLogin : AsyncOperation → Bool
  | ⟨_, .login _ _⟩ => true
  | ⟨_, .createAccount _⟩ | ⟨_, .setPassword _⟩ => false

end AsyncOperation

namespace LoginServer

/-- The names that operations in flight hold. -/
def locks (s : LoginServer) : List Bytes := s.ops.filterMap (·.lock)

/-- `c` is logged in to the account `username`. -/
def HasPlayer (s : LoginServer) (c : ℕ) (username : Bytes) : Prop :=
  ∃ x p, s.client c = some x ∧ x.player = some p ∧ p.username = username

/-- `Login_Request` is let through for the client. -/
def Ready (s : LoginServer) (c : ℕ) (x : LoginClient) : Prop :=
  s.client c = some x ∧ x.connected = true ∧ x.state = .initialized

/-- The flags, the count and the operations after a step that gives nobody a player. -/
structure Becomes (s s' : LoginServer) (pending : Bytes → Bool) (count : ℤ)
    (ops : List AsyncOperation) : Prop where
  pendingLogins : s'.pendingLogins = pending
  processCount : s'.processCount = count
  ops : s'.ops = ops
  players : ∀ c username, s'.HasPlayer c username → s.HasPlayer c username

/-- Nothing of interest changes. -/
def Calm (s s' : LoginServer) : Prop := Becomes s s' s.pendingLogins s.processCount s.ops

variable {config : LoginConfig} {s s' s'' : LoginServer} {c i : ℕ} {x : LoginClient}
  {username : Bytes} {pending : Bytes → Bool} {count : ℤ} {ops : List AsyncOperation}

theorem Calm.refl (s : LoginServer) : Calm s s := ⟨rfl, rfl, rfl, fun _ _ h => h⟩

theorem Becomes.calm (h : Becomes s s' pending count ops) (h' : Calm s' s'') :
    Becomes s s'' pending count ops :=
  ⟨h'.pendingLogins.trans h.pendingLogins, h'.processCount.trans h.processCount,
    h'.ops.trans h.ops, fun c u hu => h.players c u (h'.players c u hu)⟩

theorem Calm.trans (h : Calm s s') (h' : Calm s' s'') : Calm s s'' := Becomes.calm h h'

/-! ## Single operations -/

theorem client_modify (s : LoginServer) (c b : ℕ) (f : LoginClient → LoginClient) :
    (s.modify c f).client b = if b = c then (s.client b).map f else s.client b := by
  simp only [client, modify, List.getElem?_modify]
  by_cases hb : c = b
  · subst hb
    cases s.clients[c]? <;> simp
  · have hb' : b ≠ c := fun h => hb h.symm
    cases s.clients[b]? <;> simp [hb, hb']

theorem calm_modify (s : LoginServer) (c : ℕ) (f : LoginClient → LoginClient)
    (hf : ∀ x p, (f x).player = some p → ∃ q, x.player = some q ∧ q.username = p.username) :
    Calm s (s.modify c f) := by
  refine ⟨rfl, rfl, rfl, ?_⟩
  rintro b username ⟨x', p, hx', hp, hname⟩
  rw [client_modify] at hx'
  split_ifs at hx' with hb
  · obtain ⟨x, hx, rfl⟩ := Option.map_eq_some_iff.mp hx'
    obtain ⟨q, hq, hsame⟩ := hf x p hp
    exact ⟨x, q, hx, hq, hsame.trans hname⟩
  · exact ⟨x', p, hx', hp, hname⟩

theorem calm_modify_of_player (s : LoginServer) (c : ℕ) (f : LoginClient → LoginClient)
    (hf : ∀ x, (f x).player = x.player) : Calm s (s.modify c f) :=
  calm_modify s c f fun x p hp => ⟨p, (hf x).symm.trans hp, rfl⟩

theorem calm_send (s : LoginServer) (c : ℕ) (message : LoginMessage) :
    Calm s (s.send c message) := ⟨rfl, rfl, rfl, fun _ _ h => h⟩

theorem calm_close (s : LoginServer) (c : ℕ) : Calm s (s.close c) :=
  calm_modify_of_player s c _ fun _ => rfl

theorem calm_setAsyncOpPending (s : LoginServer) (c : ℕ) (b : Bool) :
    Calm s (s.setAsyncOpPending c b) := calm_modify_of_player s c _ fun _ => rfl

theorem calm_kick (s : LoginServer) (c : ℕ) : Calm s (s.kick c) :=
  (calm_setAsyncOpPending s c false).trans (calm_close _ c)

theorem becomes_setPendingLogin (s : LoginServer) (username : Bytes) (b : Bool) :
    Becomes s (s.setPendingLogin username b) (Function.update s.pendingLogins username b)
      s.processCount s.ops := ⟨rfl, rfl, rfl, fun _ _ h => h⟩

theorem calm_loginFailed {reason : LoginReply} (h : s.loginFailed config c reason = some s') :
    Calm s s' := by
  simp only [loginFailed, Option.bind_eq_bind, Option.bind_eq_some_iff, Option.pure_def] at h
  obtain ⟨x, -, h⟩ := h
  have hsend := calm_send s c (.login reason)
  have hcount := hsend.trans (calm_modify_of_player _ c
    (fun x => { x with loginAttempts := x.loginAttempts + 1 }) fun _ => rfl)
  split_ifs at h <;> rw [Option.some.injEq] at h <;> rw [← h]
  · exact hsend
  · exact hcount.trans (calm_close _ c)
  · exact hcount

theorem calm_loginSucceeded {thrown : Bool} (h : s.loginSucceeded c thrown = some s') :
    Calm s s' := by
  simp only [loginSucceeded, Option.bind_eq_bind, Option.bind_eq_some_iff, Option.pure_def] at h
  obtain ⟨x, -, h⟩ := h
  by_cases hconnected : x.connected = true
  · rw [if_neg (not_not.mpr hconnected)] at h
    have hstate := calm_modify_of_player s c
      (fun x => { x with state := ClientState.loggedIn }) fun _ => rfl
    cases hplayer : x.player with
    | none =>
        cases thrown <;> simp only [hplayer] at h <;> cases h
        · exact calm_send s c _
        · exact Calm.refl s
    | some p =>
        cases thrown <;> simp only [hplayer] at h <;> cases h
        · exact hstate.trans (calm_send _ c _)
        · exact hstate
  · rw [if_pos hconnected] at h
    cases h
    exact Calm.refl s

theorem calm_accountCallback (s : LoginServer) (c : ℕ) (x : LoginClient)
    (create success : Bool) : Calm s (s.accountCallback c x create success) := by
  cases create <;> cases success <;> cases hconnected : x.connected <;>
    simp only [accountCallback, hconnected, Bool.false_eq_true, not_true_eq_false,
      not_false_eq_true, ↓reduceIte]
  · exact Calm.refl s
  · exact calm_send s c _
  · exact Calm.refl s
  · exact calm_send s c _
  · exact calm_close s c
  · exact calm_close s c
  · exact Calm.refl s
  · exact (calm_send s c _).trans (calm_modify_of_player _ c _ fun _ => rfl)

theorem calm_connect (s : LoginServer) : Calm s s.connect := by
  refine ⟨rfl, rfl, rfl, ?_⟩
  rintro c username ⟨x, p, hx, hp, hname⟩
  rw [client, connect, List.getElem?_append] at hx
  split_ifs at hx with hc
  · exact ⟨x, p, hx, hp, hname⟩
  · rw [List.getElem?_singleton] at hx
    split_ifs at hx
    · rw [Option.join_some, Option.some.injEq] at hx
      rw [← hx] at hp
      cases hp
    · cases hx

theorem calm_delete (s : LoginServer) (c : ℕ) :
    Calm s { s with clients := s.clients.set c none } := by
  refine ⟨rfl, rfl, rfl, ?_⟩
  rintro b username ⟨x, p, hx, hp, hname⟩
  simp only [client, List.getElem?_set] at hx
  split_ifs at hx
  · cases hx
  · cases hx
  · exact ⟨x, p, hx, hp, hname⟩

/-! ## Steps -/

/-- What a step changes: a login request may clear a flag, or set one, with or without
starting an operation; a worker goes on with one of the operations. -/
inductive Change (config : LoginConfig) (s s' : LoginServer) : LoginStep → Prop where
  | calm {t : LoginStep} (h : Calm s s') : Change config s s' t
  | refused {c : ℕ} {reader : PacketReader} {banned : Bool} {characters : ℕ} (username : Bytes)
      (x : LoginClient) (hready : s.Ready c x)
      (hcheck : s.checkRequest config reader banned characters = some (.online username))
      (h : Becomes s s' (Function.update s.pendingLogins username false) s.processCount s.ops) :
      Change config s s' (.loginRequest c reader banned characters)
  | busy {c : ℕ} {reader : PacketReader} {banned : Bool} {characters : ℕ} (username : Bytes)
      (x : LoginClient) (hready : s.Ready c x)
      (hcheck : s.checkRequest config reader banned characters = some (.accepted username))
      (h : Becomes s s' (Function.update s.pendingLogins username false) s.processCount s.ops) :
      Change config s s' (.loginRequest c reader banned characters)
  | threw {c : ℕ} {reader : PacketReader} {banned : Bool} {characters : ℕ} (username : Bytes)
      (x : LoginClient) (hready : s.Ready c x)
      (hcheck : s.checkRequest config reader banned characters = some (.accepted username))
      (hpending : x.asyncOpPending = true) (count : ℤ)
      (h : Becomes s s' (Function.update s.pendingLogins username true) count s.ops) :
      Change config s s' (.loginRequest c reader banned characters)
  | started {c : ℕ} {reader : PacketReader} {banned : Bool} {characters : ℕ} (username : Bytes)
      (x : LoginClient) (hready : s.Ready c x)
      (hcheck : s.checkRequest config reader banned characters = some (.accepted username))
      (h : Becomes s s' (Function.update s.pendingLogins username true) (s.processCount + 1)
        (s.ops ++ [⟨c, .login username .check⟩])) :
      Change config s s' (.loginRequest c reader banned characters)
  | account {t : LoginStep} (op : AsyncOperation) (hlock : op.lock = none)
      (hlogin : op.isLogin = false)
      (h : Becomes s s' s.pendingLogins s.processCount (s.ops ++ [op])) : Change config s s' t
  | checked {outcome : WorkerOutcome} (before after : List AsyncOperation) (c : ℕ)
      (username : Bytes) (stage : LoginStage)
      (hops : s.ops = before ++ ⟨c, .login username .check⟩ :: after) (hholds : stage.holds = true)
      (hstage : stage = .setPlayer → outcome = .success)
      (h : Becomes s s' s.pendingLogins s.processCount
        (before ++ ⟨c, .login username stage⟩ :: after)) :
      Change config s s' (.work before.length outcome)
  | assigned {i : ℕ} (before after : List AsyncOperation) (c : ℕ) (username : Bytes)
      (hops : s.ops = before ++ ⟨c, .login username .setPlayer⟩ :: after)
      (hpending : s'.pendingLogins = s.pendingLogins) (hcount : s'.processCount = s.processCount)
      (hops' : s'.ops = before ++ ⟨c, .login username (.clearPending .ok)⟩ :: after)
      (hplayers : ∀ b u, s'.HasPlayer b u → s.HasPlayer b u ∨ (b = c ∧ u = username)) :
      Change config s s' (.work i .success)
  | cleared {i : ℕ} (before after : List AsyncOperation) (c : ℕ) (username : Bytes)
      (result : LoginReply)
      (hops : s.ops = before ++ ⟨c, .login username (.clearPending result)⟩ :: after)
      (h : Becomes s s' (Function.update s.pendingLogins username false) s.processCount
        (before ++ ⟨c, .login username (.callback result)⟩ :: after)) :
      Change config s s' (.work i .success)
  | aborted (before after : List AsyncOperation) (c : ℕ) (username : Bytes) (stage : LoginStage)
      (hops : s.ops = before ++ ⟨c, .login username stage⟩ :: after) (hholds : stage.holds = true)
      (h : Becomes s s' s.pendingLogins s.processCount
        (before ++ ⟨c, .login username .asyncDone⟩ :: after)) :
      Change config s s' (.work before.length .thrown)
  | moved {i : ℕ} {outcome : WorkerOutcome} (before after : List AsyncOperation)
      (op op' : AsyncOperation) (hops : s.ops = before ++ op :: after) (hlock : op.lock = none)
      (hlock' : op'.lock = none) (hlogin : op'.isLogin = op.isLogin)
      (h : Becomes s s' s.pendingLogins s.processCount (before ++ op' :: after)) :
      Change config s s' (.work i outcome)
  | finished {i : ℕ} {outcome : WorkerOutcome} (before after : List AsyncOperation)
      (op : AsyncOperation) (hops : s.ops = before ++ op :: after) (hlock : op.lock = none)
      (h : Becomes s s' s.pendingLogins (s.processCount - if op.isLogin then 1 else 0)
        (before ++ after)) :
      Change config s s' (.work i outcome)

/-- `Execute` starts the operation, or throws when the client runs another one. -/
theorem execute_cases {operation : Operation} (h : s.execute c operation = some s') :
    ∃ x, s.client c = some x ∧
      ((x.asyncOpPending = true ∧ Calm s s') ∨
        Becomes s s' s.pendingLogins s.processCount (s.ops ++ [⟨c, operation⟩])) := by
  simp only [execute, Option.bind_eq_bind, Option.bind_eq_some_iff, Option.pure_def] at h
  obtain ⟨x, hx, h⟩ := h
  refine ⟨x, hx, ?_⟩
  split_ifs at h with hpending
  · rw [Option.some.injEq] at h
    rw [← h]
    exact Or.inl ⟨hpending, calm_kick s c⟩
  · rw [Option.some.injEq] at h
    rw [← h]
    have hset := calm_setAsyncOpPending s c true
    exact Or.inr ⟨rfl, rfl, rfl, hset.players⟩

/-- A busy login manager clears the flag at once; otherwise a check is started or not. -/
theorem checkCredential_cases (h : s.checkCredential config c username = some s') :
    ∃ x, s.client c = some x ∧
      ((x.asyncOpPending = true ∧ ∃ count, Becomes s s' s.pendingLogins count s.ops) ∨
        Becomes s s' (Function.update s.pendingLogins username false) s.processCount s.ops ∨
        Becomes s s' s.pendingLogins (s.processCount + 1)
          (s.ops ++ [⟨c, .login username .check⟩])) := by
  by_cases hbusy : s.loginBusy config = true
  · simp only [checkCredential, hbusy, ↓reduceIte, Option.bind_eq_bind, Option.bind_eq_some_iff,
      Option.pure_def] at h
    obtain ⟨x, hx, h⟩ := h
    refine ⟨x, hx, ?_⟩
    split_ifs at h with hpending
    · rw [Option.some.injEq] at h
      rw [← h]
      exact Or.inl ⟨hpending, _, calm_kick s c⟩
    · rw [Option.bind_eq_some_iff] at h
      obtain ⟨s₁, hfailed, h⟩ := h
      rw [Option.some.injEq] at h
      rw [← h]
      have hset := (calm_setAsyncOpPending s c true)
      have hclear : Becomes s ((s.setAsyncOpPending c true).setPendingLogin username false)
          (Function.update s.pendingLogins username false) s.processCount s.ops :=
        ⟨rfl, rfl, rfl, hset.players⟩
      exact Or.inr (Or.inl ((hclear.calm (calm_loginFailed hfailed)).calm
        (calm_setAsyncOpPending s₁ c false)))
  · simp only [checkCredential, hbusy, Bool.false_eq_true, ↓reduceIte] at h
    obtain ⟨x, hx, hcases⟩ := execute_cases h
    refine ⟨x, hx, ?_⟩
    rcases hcases with ⟨hpending, hcalm⟩ | hstart
    · exact Or.inl ⟨hpending, _, hcalm.pendingLogins, hcalm.processCount, hcalm.ops, hcalm.players⟩
    · exact Or.inr (Or.inr ⟨hstart.pendingLogins, hstart.processCount, hstart.ops,
        hstart.players⟩)

theorem loginRequest_change {reader : PacketReader} {banned : Bool} {characters : ℕ}
    (h : s.loginRequest config c reader banned characters = some s') :
    Change config s s' (.loginRequest c reader banned characters) := by
  simp only [loginRequest, Option.bind_eq_bind, Option.bind_eq_some_iff, Option.pure_def] at h
  obtain ⟨x, hx, h⟩ := h
  by_cases hstate : ¬ x.connected ∨ x.state ≠ .initialized
  · rw [if_pos hstate] at h
    cases h
    exact .calm (Calm.refl s)
  rw [if_neg hstate] at h
  have hready : s.Ready c x := ⟨hx, by simpa using hstate⟩
  cases hcheck : s.checkRequest config reader banned characters with
  | none =>
      simp only [hcheck, Option.some.injEq] at h
      rw [← h]
      exact .calm (calm_kick s c)
  | some check =>
      cases check with
      | ignored =>
          simp only [hcheck, Option.some.injEq] at h
          rw [← h]
          exact .calm (Calm.refl s)
      | banned =>
          simp only [hcheck, Option.some.injEq] at h
          rw [← h]
          exact .calm ((calm_send s c _).trans (calm_close _ c))
      | refused reply =>
          simp only [hcheck, Option.some.injEq] at h
          rw [← h]
          exact .calm (calm_send s c _)
      | full =>
          simp only [hcheck, Option.some.injEq] at h
          rw [← h]
          exact .calm ((calm_send s c _).trans (calm_close _ c))
      | online username =>
          simp only [hcheck] at h
          exact .refused username x hready hcheck
            ((becomes_setPendingLogin s username false).calm (calm_loginFailed h))
      | accepted username =>
          simp only [hcheck] at h
          have hset := becomes_setPendingLogin s username true
          obtain ⟨x₁, hx₁, hcases⟩ := checkCredential_cases h
          rcases hcases with ⟨hpending, count, hleak⟩ | hbusy | hstart
          · rw [show s.client c = some x₁ from hx₁, Option.some.injEq] at hx
            exact .threw username x hready hcheck (hx ▸ hpending) count
              ⟨hleak.pendingLogins, hleak.processCount, hleak.ops, hleak.players⟩
          · refine .busy username x hready hcheck ⟨?_, hbusy.processCount, hbusy.ops, hbusy.players⟩
            rw [hbusy.pendingLogins, hset.pendingLogins, Function.update_idem]
          · exact .started username x hready hcheck
              ⟨hstart.pendingLogins, hstart.processCount, hstart.ops, hstart.players⟩

/-! ## Workers -/

variable {before after : List AsyncOperation} {op : AsyncOperation} {outcome : WorkerOutcome}

theorem filterMap_lock_some (hlock : op.lock = some username) :
    (before ++ op :: after).filterMap (·.lock) =
      before.filterMap (·.lock) ++ username :: after.filterMap (·.lock) := by
  rw [List.filterMap_append, List.filterMap_cons_some hlock]

theorem filterMap_lock_none (hlock : op.lock = none) :
    (before ++ op :: after).filterMap (·.lock) =
      before.filterMap (·.lock) ++ after.filterMap (·.lock) := by
  rw [List.filterMap_append, List.filterMap_cons_none hlock]

theorem locks_some (hops : s.ops = before ++ op :: after) (hlock : op.lock = some username) :
    s.locks = before.filterMap (·.lock) ++ username :: after.filterMap (·.lock) := by
  rw [locks, hops, filterMap_lock_some hlock]

theorem locks_none (hops : s.ops = before ++ op :: after) (hlock : op.lock = none) :
    s.locks = before.filterMap (·.lock) ++ after.filterMap (·.lock) := by
  rw [locks, hops, filterMap_lock_none hlock]

theorem becomes_resume (h : Becomes s s' pending count s.ops)
    (hops : s.ops = before ++ op :: after) (operation : Operation) :
    Becomes s (s'.resume before.length c (some operation)) pending count
      (before ++ ⟨c, operation⟩ :: after) := by
  refine ⟨h.pendingLogins, h.processCount, ?_, h.players⟩
  rw [resume, h.ops, hops]
  simp

theorem becomes_finish (h : Becomes s s' pending count s.ops)
    (hops : s.ops = before ++ op :: after) :
    Becomes s (s'.resume before.length c none) pending count (before ++ after) := by
  refine ⟨h.pendingLogins, h.processCount, ?_, h.players⟩
  rw [resume, h.ops, hops]
  simp [List.eraseIdx_append]

theorem hasPlayer_setPlayer {b : ℕ} {u : Bytes}
    (h : (s.modify c fun x => { x with player := some ⟨username, false⟩ }).HasPlayer b u) :
    s.HasPlayer b u ∨ (b = c ∧ u = username) := by
  obtain ⟨x', p, hx', hp, hname⟩ := h
  rw [client_modify] at hx'
  split_ifs at hx' with hb
  · obtain ⟨x, -, rfl⟩ := Option.map_eq_some_iff.mp hx'
    cases hp
    exact Or.inr ⟨hb, hname.symm⟩
  · exact Or.inl ⟨x', p, hx', hp, hname⟩

theorem loginWork_callback {result : LoginReply} {next : Option LoginStage}
    (h : s.loginWork config c username (.callback result) outcome = some (s', next)) :
    Calm s s' ∧ next = some .asyncDone := by
  cases outcome with
  | success =>
      cases result with
      | ok =>
          obtain ⟨s₁, hs₁, heq⟩ := Option.map_eq_some_iff.mp h
          cases heq
          exact ⟨calm_loginSucceeded hs₁, rfl⟩
      | wrongUser | wrongUserpass | accountBanned | loggedin | busy =>
          obtain ⟨s₁, hs₁, heq⟩ := Option.map_eq_some_iff.mp h
          cases heq
          exact ⟨calm_loginFailed hs₁, rfl⟩
  | failure reason => cases result <;> cases h
  | thrown =>
      cases result with
      | ok =>
          obtain ⟨s₁, hs₁, heq⟩ := Option.map_eq_some_iff.mp h
          cases heq
          exact ⟨calm_loginSucceeded hs₁, rfl⟩
      | wrongUser | wrongUserpass | accountBanned | loggedin | busy =>
          obtain ⟨x, hx, heq⟩ := Option.map_eq_some_iff.mp h
          cases heq
          exact ⟨Calm.refl s, rfl⟩

theorem loginWork_change {stage : LoginStage} {next : Option LoginStage}
    (hops : s.ops = before ++ ⟨c, .login username stage⟩ :: after)
    (h : s.loginWork config c username stage outcome = some (s', next)) :
    Change config s (s'.resume before.length c (next.map (.login username)))
      (.work before.length outcome) := by
  cases stage with
  | check =>
      cases outcome with
      | success =>
          cases h
          exact .checked before after c username _ hops rfl (fun _ => rfl)
            (becomes_resume (Calm.refl s) hops _)
      | failure reason =>
          rw [loginWork] at h
          split_ifs at h
          cases h
          exact .checked before after c username (.clearPending reason) hops rfl nofun
            (becomes_resume (Calm.refl s) hops _)
      | thrown =>
          cases h
          exact .aborted before after c username _ hops rfl (becomes_resume (Calm.refl s) hops _)
  | setPlayer =>
      cases outcome with
      | success =>
          obtain ⟨x, hx, heq⟩ := Option.map_eq_some_iff.mp h
          cases heq
          have hresume : Becomes s (s.resume before.length c
              (some (.login username (.clearPending .ok)))) s.pendingLogins s.processCount _ :=
            becomes_resume (Calm.refl s) hops _
          exact .assigned before after c username hops rfl rfl hresume.ops
            fun b u hu => hasPlayer_setPlayer hu
      | failure reason => cases h
      | thrown =>
          obtain ⟨x, hx, heq⟩ := Option.map_eq_some_iff.mp h
          cases heq
          exact .aborted before after c username _ hops rfl (becomes_resume (Calm.refl s) hops _)
  | clearPending result =>
      cases outcome with
      | success =>
          obtain ⟨x, hx, heq⟩ := Option.map_eq_some_iff.mp h
          cases heq
          exact .cleared before after c username result hops
            (becomes_resume (becomes_setPendingLogin s username false) hops _)
      | failure reason => cases h
      | thrown => cases h
  | callback result =>
      obtain ⟨hcalm, rfl⟩ := loginWork_callback h
      exact .moved before after _ ⟨c, .login username .asyncDone⟩ hops rfl rfl rfl
        (becomes_resume hcalm hops _)
  | asyncDone =>
      cases outcome with
      | success =>
          obtain ⟨x, hx, heq⟩ := Option.map_eq_some_iff.mp h
          cases heq
          exact .moved before after _ ⟨c, .login username .complete⟩ hops rfl rfl rfl
            (becomes_resume (calm_setAsyncOpPending s c false) hops _)
      | failure reason => cases h
      | thrown => cases h
  | complete =>
      cases outcome with
      | success =>
          cases h
          exact .finished before after _ hops rfl
            (becomes_finish ⟨rfl, rfl, rfl, fun _ _ hu => hu⟩ hops)
      | failure reason => cases h
      | thrown => cases h

theorem accountWork_cases {create : Bool} {stage : AccountStage} {next : Option AccountStage}
    (h : s.accountWork c create stage outcome = some (s', next)) : Calm s s' := by
  cases stage with
  | check => cases outcome <;> cases h <;> exact Calm.refl s
  | callback success =>
      cases outcome with
      | success =>
          obtain ⟨x, hx, heq⟩ := Option.map_eq_some_iff.mp h
          cases heq
          exact calm_accountCallback s c x create success
      | failure reason => cases h
      | thrown =>
          obtain ⟨x, hx, heq⟩ := Option.map_eq_some_iff.mp h
          cases heq
          exact Calm.refl s
  | asyncDone =>
      cases outcome with
      | success =>
          obtain ⟨x, hx, heq⟩ := Option.map_eq_some_iff.mp h
          cases heq
          exact calm_setAsyncOpPending s c false
      | failure reason => cases h
      | thrown => cases h

/-- An account operation goes on or ends. -/
theorem resume_change {i : ℕ} {operation : Operation} {next : Option Operation}
    (hops : s.ops = before ++ ⟨c, operation⟩ :: after) (hcalm : Calm s s')
    (hop : AsyncOperation.isLogin ⟨c, operation⟩ = false)
    (hnext : ∀ operation', next = some operation' →
      AsyncOperation.isLogin ⟨c, operation'⟩ = false) :
    Change config s (s'.resume before.length c next) (.work i outcome) := by
  have hlock : ∀ {operation' : Operation}, AsyncOperation.isLogin ⟨c, operation'⟩ = false →
      AsyncOperation.lock ⟨c, operation'⟩ = none := by
    intro operation' hop'
    cases operation' with
    | login username stage => cases hop'
    | createAccount stage => rfl
    | setPassword stage => rfl
  cases next with
  | none =>
      have hfinish : Becomes s (s'.resume before.length c none) s.pendingLogins
          (s.processCount - if AsyncOperation.isLogin ⟨c, operation⟩ then 1 else 0)
          (before ++ after) := by
        rw [hop, if_neg Bool.false_ne_true, Int.sub_zero]
        exact becomes_finish hcalm hops
      exact .finished before after _ hops (hlock hop) hfinish
  | some operation' =>
      have hop' := hnext operation' rfl
      exact .moved before after _ ⟨c, operation'⟩ hops (hlock hop) (hlock hop')
        (hop'.trans hop.symm) (becomes_resume hcalm hops _)

theorem work_change (h : s.work config i outcome = some s') :
    Change config s s' (.work i outcome) := by
  simp only [work, Option.bind_eq_bind, Option.bind_eq_some_iff] at h
  obtain ⟨⟨c, operation⟩, hop, h⟩ := h
  obtain ⟨before, after, hops, rfl⟩ : ∃ before after,
      s.ops = before ++ ⟨c, operation⟩ :: after ∧ before.length = i := by
    obtain ⟨hlt, hget⟩ := List.getElem?_eq_some_iff.mp hop
    refine ⟨s.ops.take i, s.ops.drop (i + 1), ?_, List.length_take_of_le hlt.le⟩
    rw [← hget, List.getElem_cons_drop, List.take_append_drop]
  cases operation with
  | login username stage =>
      obtain ⟨⟨s₁, next⟩, hwork, heq⟩ := Option.bind_eq_some_iff.mp h
      cases heq
      exact loginWork_change hops hwork
  | createAccount stage =>
      obtain ⟨⟨s₁, next⟩, hwork, heq⟩ := Option.bind_eq_some_iff.mp h
      cases heq
      refine resume_change hops (accountWork_cases hwork) rfl ?_
      intro operation' hnext
      obtain ⟨stage', -, rfl⟩ := Option.map_eq_some_iff.mp hnext
      rfl
  | setPassword stage =>
      obtain ⟨⟨s₁, next⟩, hwork, heq⟩ := Option.bind_eq_some_iff.mp h
      cases heq
      refine resume_change hops (accountWork_cases hwork) rfl ?_
      intro operation' hnext
      obtain ⟨stage', -, rfl⟩ := Option.map_eq_some_iff.mp hnext
      rfl

/-! ## All steps -/

theorem answerAccount_change {t : LoginStep} {operation : Operation} {check : Option AccountCheck}
    (hlogin : AsyncOperation.isLogin ⟨c, operation⟩ = false)
    (hlock : AsyncOperation.lock ⟨c, operation⟩ = none)
    (h : s.answerAccount c operation check = some s') : Change config s s' t := by
  cases check with
  | none =>
      cases h
      exact .calm (calm_kick s c)
  | some check =>
      cases check with
      | ignored =>
          cases h
          exact .calm (Calm.refl s)
      | closed =>
          cases h
          exact .calm (calm_close s c)
      | refused reply =>
          cases h
          exact .calm (calm_send s c _)
      | accepted =>
          obtain ⟨x, -, ⟨-, hcalm⟩ | hstart⟩ := execute_cases h
          · exact .calm hcalm
          · exact .account _ hlock hlogin hstart

theorem calm_accountRequest {reader : PacketReader} {found : Bool} {createId : ℕ}
    (h : s.accountRequest c reader found createId = some s') : Calm s s' := by
  simp only [accountRequest, Option.bind_eq_bind, Option.bind_eq_some_iff, Option.pure_def] at h
  obtain ⟨x, -, h⟩ := h
  by_cases hstate : ¬ x.connected ∨ x.state ≠ .initialized
  · rw [if_pos hstate] at h
    cases h
    exact Calm.refl s
  rw [if_neg hstate] at h
  cases hread : reader.getEndString with
  | none =>
      simp only [hread, Option.some.injEq] at h
      rw [← h]
      exact calm_kick s c
  | some r =>
      simp only [hread] at h
      split_ifs at h <;> rw [Option.some.injEq] at h <;> rw [← h]
      · exact calm_send s c _
      · exact calm_send s c _
      · exact (calm_modify_of_player s c (fun x => { x with createId := createId })
          fun _ => rfl).trans (calm_send _ c _)

theorem step_change {t : LoginStep} (h : s.step config t = some s') : Change config s s' t := by
  cases t with
  | connect =>
      cases h
      exact .calm (calm_connect s)
  | init c =>
      simp only [step, init, Option.bind_eq_bind, Option.bind_eq_some_iff, Option.pure_def] at h
      obtain ⟨x, -, h⟩ := h
      split_ifs at h <;> rw [Option.some.injEq] at h <;> rw [← h]
      · exact .calm (Calm.refl s)
      · exact .calm (calm_modify_of_player s c _ fun _ => rfl)
  | loginRequest c reader banned characters => exact loginRequest_change h
  | accountRequest c reader found createId => exact .calm (calm_accountRequest h)
  | accountCreate c reader found =>
      simp only [step, accountCreate, Option.bind_eq_bind, Option.bind_eq_some_iff,
        Option.pure_def] at h
      obtain ⟨x, -, h⟩ := h
      split_ifs at h
      · cases h
        exact .calm (Calm.refl s)
      · exact answerAccount_change rfl rfl h
  | accountAgree c reader found =>
      simp only [step, accountAgree, Option.bind_eq_bind, Option.bind_eq_some_iff,
        Option.pure_def] at h
      obtain ⟨x, -, h⟩ := h
      split_ifs at h
      · cases h
        exact .calm (Calm.refl s)
      · obtain ⟨player, -, h⟩ := Option.bind_eq_some_iff.mp h
        split_ifs at h
        · cases h
          exact .calm (Calm.refl s)
        · exact answerAccount_change rfl rfl h
  | welcomeRequest c =>
      simp only [step, welcomeRequest, Option.bind_eq_bind, Option.bind_eq_some_iff,
        Option.pure_def] at h
      obtain ⟨x, -, h⟩ := h
      split_ifs at h <;> rw [Option.some.injEq] at h <;> rw [← h]
      · exact .calm (Calm.refl s)
      · refine .calm (calm_modify s c _ ?_)
        intro x p hp
        obtain ⟨q, hq, rfl⟩ := Option.map_eq_some_iff.mp hp
        exact ⟨q, hq, rfl⟩
  | welcomeMsg c =>
      simp only [step, welcomeMsg, Option.bind_eq_bind, Option.bind_eq_some_iff,
        Option.pure_def] at h
      obtain ⟨x, -, h⟩ := h
      split_ifs at h
      · cases h
        exact .calm (Calm.refl s)
      · obtain ⟨player, -, h⟩ := Option.bind_eq_some_iff.mp h
        split_ifs at h <;> rw [Option.some.injEq] at h <;> rw [← h]
        · exact .calm (calm_modify_of_player s c _ fun _ => rfl)
        · exact .calm (Calm.refl s)
  | close c =>
      cases h
      exact .calm (calm_close s c)
  | kick c =>
      cases h
      exact .calm (calm_kick s c)
  | bury c =>
      simp only [step, bury, Option.bind_eq_bind, Option.bind_eq_some_iff, Option.pure_def] at h
      obtain ⟨x, -, h⟩ := h
      split_ifs at h <;> rw [Option.some.injEq] at h <;> rw [← h]
      · exact .calm (Calm.refl s)
      · exact .calm (calm_delete s c)
  | work i outcome => exact work_change h

/-! ## Runs under a condition on the steps -/

def AllSteps (P : LoginServer → LoginStep → Prop) (config : LoginConfig) (s : LoginServer) :
    List LoginStep → Prop
  | [] => True
  | t :: steps => P s t ∧ ∀ s' ∈ s.step config t, s'.AllSteps P config steps

instance decidableAllSteps (P : LoginServer → LoginStep → Prop) [∀ s t, Decidable (P s t)]
    (config : LoginConfig) (s : LoginServer) : ∀ steps, Decidable (s.AllSteps P config steps)
  | [] => inferInstanceAs (Decidable True)
  | t :: steps =>
      have (s' : LoginServer) : Decidable (s'.AllSteps P config steps) :=
        decidableAllSteps P config s' steps
      inferInstanceAs (Decidable (P s t ∧ ∀ s' ∈ s.step config t, s'.AllSteps P config steps))

theorem run_invariant {P : LoginServer → LoginStep → Prop} {I : LoginServer → Prop}
    (hstep : ∀ s s' t, I s → P s t → s.step config t = some s' → I s') (hs : I s)
    (steps : List LoginStep) (hall : s.AllSteps P config steps)
    (hrun : s.run config steps = some s') : I s' := by
  induction steps generalizing s with
  | nil =>
      cases hrun
      exact hs
  | cons t steps ih =>
      obtain ⟨s₁, hs₁, hrest⟩ := Option.bind_eq_some_iff.mp hrun
      exact ih (hstep s s₁ t hs hall.1 hs₁) (hall.2 s₁ hs₁) hrest

end LoginServer

end ArenaServ
