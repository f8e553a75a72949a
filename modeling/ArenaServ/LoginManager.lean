import Mathlib.Logic.Function.Basic
import Mathlib.Data.Nat.Notation
import Mathlib.Tactic.SplitIfs
import ArenaServ.RunSteps

/-!
# Logins and password changes

Logins and password changes run on the worker threads. A login with a password whose hash has
an old version queues an update of the version, which carries the password. Each statement of
the database is atomic, and between two statements of one worker the others go on.
-/

namespace ArenaServ

inductive HashFunc where
  | none
  | sha256
  | bcrypt
  deriving DecidableEq

/-- The value of the enumeration. -/
def HashFunc.val : HashFunc → ℕ
  | .none => 0
  | .sha256 => 1
  | .bcrypt => 2

structure Hasher where
  /-- The hash of a password, with the salt that is drawn for it. -/
  hash : String → ℕ → String
  check : String → String → Bool

structure PasswordConfig where
  passwordSalt : String
  passwordCurrentVersion : HashFunc
  /-- A version without a hasher is a null pointer. -/
  passwordHashers : HashFunc → Option Hasher

/-- The columns of an account that logins read. -/
structure AccountPassword where
  password : String
  passwordVersion : HashFunc

namespace PasswordConfig

variable (config : PasswordConfig)

def saltPassword (username password : String) : String :=
  config.passwordSalt ++ username ++ password

def check (row : AccountPassword) (username password : String) : Option Bool :=
  (config.passwordHashers row.passwordVersion).map fun hasher =>
    hasher.check (config.saltPassword username password) row.password

/-- What `UPDATE` writes into an account. -/
def hashed (version : HashFunc) (username password : String) (seed : ℕ) :
    Option AccountPassword :=
  (config.passwordHashers version).map fun hasher =>
    ⟨hasher.hash (config.saltPassword username password) seed, version⟩

/-- A password passes the check of its own hash. -/
def Correct : Prop :=
  ∀ version hasher, config.passwordHashers version = some hasher →
    ∀ password seed, hasher.check password (hasher.hash password seed) = true

variable {config}

theorem check_hashed (h : config.Correct) {version : HashFunc} {username password : String}
    {seed : ℕ} {row : AccountPassword}
    (hrow : config.hashed version username password seed = some row) :
    config.check row username password = some true := by
  obtain ⟨hasher, hhasher, rfl⟩ := Option.map_eq_some_iff.mp hrow
  unfold check
  rw [hhasher, Option.map_some, h version hasher hhasher]

end PasswordConfig

inductive LoginTask where
  | checkLogin (username password : String)
  | updatePasswordVersion (username password : String) (hashFunc : HashFunc)
  | setPassword (username oldpassword newpassword : String)

/-- Where a worker is in its task. -/
inductive LoginWork where
  | begin (task : LoginTask)
  /-- The login is right and its hash is old; the update is about to be queued. -/
  | upgrade (username password : String)
  /-- The old password is right; the new one is about to be written. -/
  | write (username newpassword : String)
  /-- The new password has been written; success is about to be reported. -/
  | report (username newpassword : String)

structure LoginManager where
  accounts : String → Option AccountPassword
  queue : List LoginTask
  workers : ℕ → Option LoginWork

inductive LoginEvent where
  | login (username password : String)
  | change (username oldpassword newpassword : String)
  /-- A worker takes the first task of the queue. -/
  | take (worker : ℕ)
  /-- A worker goes on to its next statement. -/
  | advance (worker seed : ℕ)

namespace LoginManager

variable (config : PasswordConfig) (m : LoginManager)

def start (accounts : String → Option AccountPassword) : LoginManager :=
  ⟨accounts, [], fun _ => none⟩

def enqueue (task : LoginTask) : LoginManager := { m with queue := m.queue ++ [task] }

def work (i : ℕ) (next : Option LoginWork) : LoginManager :=
  { m with workers := Function.update m.workers i next }

/-- `UPDATE`, which changes nothing if there is no such account. -/
def update (username : String) (row : AccountPassword) : LoginManager :=
  { m with
    accounts := Function.update m.accounts username ((m.accounts username).map fun _ => row) }

theorem update_accounts_self {username : String} {old row : AccountPassword}
    (h : m.accounts username = some old) :
    (m.update username row).accounts username = some row := by
  change Function.update m.accounts username _ username = some row
  rw [Function.update_self, h, Option.map_some]

theorem update_accounts_of_ne {username other : String} (h : other ≠ username)
    (row : AccountPassword) :
    (m.update username row).accounts other = m.accounts other :=
  Function.update_of_ne h _ _

/-- An account is still there after an update. -/
theorem exists_of_update {username other : String} {old : AccountPassword}
    (row : AccountPassword) (h : m.accounts other = some old) :
    ∃ next, (m.update username row).accounts other = some next := by
  by_cases hother : other = username
  · subst hother
    exact ⟨row, m.update_accounts_self h⟩
  · exact ⟨old, by rw [m.update_accounts_of_ne hother, h]⟩

/-- The part of `CheckLoginAsync` up to the reply. -/
def checkLogin (username password : String) : Option (Option LoginWork) :=
  match m.accounts username with
  | none => some none
  | some row =>
      (config.check row username password).map fun right =>
        if right && decide (row.passwordVersion.val < config.passwordCurrentVersion.val) then
          some (.upgrade username password)
        else none

/-- `CheckLogin` of a password change. -/
def checkOld (username oldpassword newpassword : String) : Option (Option LoginWork) :=
  match m.accounts username with
  | none => some none
  | some row =>
      (config.check row username oldpassword).map fun right =>
        if right then some (.write username newpassword) else none

/-- The task that `UpdatePasswordVersionInBackground` has queued. -/
def updatePasswordVersion (i seed : ℕ) (username password : String) (hashFunc : HashFunc) :
    Option LoginManager :=
  if hashFunc = .none then some (m.work i none)
  else (config.hashed hashFunc username password seed).map fun row =>
    (m.update username row).work i none

/-- The next statement of a worker; `none` is a call through a null pointer. -/
def proceed (i seed : ℕ) : LoginWork → Option LoginManager
  | .begin (.checkLogin username password) =>
      (m.checkLogin config username password).map (m.work i)
  | .begin (.updatePasswordVersion username password hashFunc) =>
      m.updatePasswordVersion config i seed username password hashFunc
  | .begin (.setPassword username oldpassword newpassword) =>
      (m.checkOld config username oldpassword newpassword).map (m.work i)
  | .upgrade username password =>
      some ((m.enqueue (.updatePasswordVersion username password
        config.passwordCurrentVersion)).work i none)
  | .write username newpassword =>
      (config.hashed config.passwordCurrentVersion username newpassword seed).map fun row =>
        (m.update username row).work i (some (.report username newpassword))
  | .report _ _ => some (m.work i none)

/-- One of the workers takes the first task. -/
def take (threads i : ℕ) : Option LoginManager :=
  match m.workers i, m.queue with
  | none, task :: rest =>
      if i < threads then some ({ m with queue := rest }.work i (some (.begin task))) else none
  | _, _ => none

def step (threads : ℕ) : LoginEvent → Option LoginManager
  | .login username password => some (m.enqueue (.checkLogin username password))
  | .change username oldpassword newpassword =>
      some (m.enqueue (.setPassword username oldpassword newpassword))
  | .take i => m.take threads i
  | .advance i seed => (m.workers i).bind (m.proceed config i seed)

end LoginManager

/-! ## What has been reported -/

/-- A manager, the password that the last change of each account has written, and the one that
has been reported and not been changed since. -/
structure LoginWatch where
  manager : LoginManager
  written : String → Option String
  reported : String → Option String

namespace LoginWatch

variable (config : PasswordConfig) (w : LoginWatch)

def start (accounts : String → Option AccountPassword) : LoginWatch :=
  ⟨.start accounts, fun _ => none, fun _ => none⟩

def noteWork (m : LoginManager) : Option LoginWork → LoginWatch
  | some (.write username newpassword) =>
      ⟨m, Function.update w.written username (some newpassword),
        Function.update w.reported username none⟩
  | some (.report username newpassword) =>
      { w with
        manager := m
        reported := Function.update w.reported username (some newpassword) }
  | _ => { w with manager := m }

def note (m : LoginManager) : LoginEvent → LoginWatch
  | .advance i _ => w.noteWork m (w.manager.workers i)
  | _ => { w with manager := m }

def step (threads : ℕ) (w : LoginWatch) (e : LoginEvent) : Option LoginWatch :=
  (w.manager.step config threads e).map fun m => w.note m e

/-- What has been reported passes the check of the account. -/
def Final : Prop :=
  ∀ username password, w.reported username = some password →
    ∃ row, w.manager.accounts username = some row ∧
      config.check row username password = some true

/-- A version is updated with the password that the last change has written, and no change
writes another password before the last one has been reported. -/
def UndisturbedWork : Option LoginWork → Prop
  | some (.begin (.updatePasswordVersion username password hashFunc)) =>
      hashFunc = .none ∨ ∀ written ∈ w.written username, password = written
  | some (.write username newpassword) =>
      ∀ j password, w.manager.workers j = some (.report username password) →
        password = newpassword
  | _ => True

def Undisturbed (w : LoginWatch) : LoginEvent → Prop
  | .advance i _ => w.UndisturbedWork (w.manager.workers i)
  | _ => True

variable {config : PasswordConfig} {w : LoginWatch}

/-- The invariant of an undisturbed run. -/
structure Sound (config : PasswordConfig) (w : LoginWatch) : Prop where
  /-- What is about to be reported is what has been written last. -/
  reporting : ∀ i username password,
    w.manager.workers i = some (.report username password) → w.written username = some password
  reported : ∀ username password,
    w.reported username = some password → w.written username = some password
  stored : ∀ username password, w.written username = some password →
    ∃ row, w.manager.accounts username = some row ∧
      config.check row username password = some true
  /-- The account whose password is about to be written has been found. -/
  found : ∀ i username password, w.manager.workers i = some (.write username password) →
    ∃ row, w.manager.accounts username = some row

theorem Sound.final (h : w.Sound config) : w.Final config := by
  intro username password hreported
  exact h.stored username password (h.reported username password hreported)

theorem sound_start (accounts : String → Option AccountPassword) :
    (start accounts).Sound config := by
  constructor
  · intro i username password h
    cases h
  · intro username password h
    cases h
  · intro username password h
    cases h
  · intro i username password h
    cases h

/-- A worker that neither writes nor reports goes on, and the accounts are left alone. -/
theorem Sound.move (h : w.Sound config) {m : LoginManager} (i : ℕ)
    {next : Option LoginWork} (haccounts : m.accounts = w.manager.accounts)
    (hworkers : m.workers = Function.update w.manager.workers i next)
    (hreport : ∀ username password, next ≠ some (.report username password))
    (hwrite : ∀ username password, next = some (.write username password) →
      ∃ row, w.manager.accounts username = some row) :
    Sound config { w with manager := m } := by
  constructor
  · intro j username password hj
    change m.workers j = _ at hj
    rw [hworkers] at hj
    by_cases hji : j = i
    · rw [hji, Function.update_self] at hj
      exact absurd hj (hreport username password)
    · rw [Function.update_of_ne hji] at hj
      exact h.reporting j username password hj
  · exact h.reported
  · intro username password hwritten
    change ∃ row, m.accounts username = some row ∧ _
    rw [haccounts]
    exact h.stored username password hwritten
  · intro j username password hj
    change m.workers j = _ at hj
    change ∃ row, m.accounts username = some row
    rw [hworkers] at hj
    rw [haccounts]
    by_cases hji : j = i
    · rw [hji, Function.update_self] at hj
      exact hwrite username password hj
    · rw [Function.update_of_ne hji] at hj
      exact h.found j username password hj

/-- A version is updated with the password that has been written last, if one has been. -/
theorem Sound.rehash (h : w.Sound config) (hcorrect : config.Correct) (i : ℕ)
    {version : HashFunc} {username password : String} {seed : ℕ} {row : AccountPassword}
    (hrow : config.hashed version username password seed = some row)
    (hsame : ∀ written ∈ w.written username, password = written) :
    Sound config { w with manager := (w.manager.update username row).work i none } := by
  constructor
  · intro j other newpassword hj
    by_cases hji : j = i
    · rw [hji] at hj
      simp [LoginManager.work] at hj
    · simp only [LoginManager.work, Function.update_of_ne hji] at hj
      exact h.reporting j other newpassword hj
  · exact h.reported
  · intro other written hwritten
    obtain ⟨old, hold, hcheck⟩ := h.stored other written hwritten
    change ∃ next, (w.manager.update username row).accounts other = some next ∧ _
    by_cases hother : other = username
    · subst hother
      rw [w.manager.update_accounts_self hold, ← hsame written hwritten]
      exact ⟨row, rfl, PasswordConfig.check_hashed hcorrect hrow⟩
    · rw [w.manager.update_accounts_of_ne hother]
      exact ⟨old, hold, hcheck⟩
  · intro j other newpassword hj
    by_cases hji : j = i
    · rw [hji] at hj
      simp [LoginManager.work] at hj
    · simp only [LoginManager.work, Function.update_of_ne hji] at hj
      obtain ⟨old, hold⟩ := h.found j other newpassword hj
      exact w.manager.exists_of_update row hold

/-- A change writes its password while no other password is about to be reported. -/
theorem Sound.change (h : w.Sound config) (hcorrect : config.Correct) {i : ℕ}
    {version : HashFunc} {username newpassword : String} {seed : ℕ} {row : AccountPassword}
    (hi : w.manager.workers i = some (.write username newpassword))
    (hrow : config.hashed version username newpassword seed = some row)
    (halone : ∀ j password, w.manager.workers j = some (.report username password) →
      password = newpassword) :
    Sound config ⟨(w.manager.update username row).work i (some (.report username newpassword)),
      Function.update w.written username (some newpassword),
      Function.update w.reported username none⟩ := by
  obtain ⟨old, hold⟩ := h.found i username newpassword hi
  constructor
  · intro j other password hj
    by_cases hji : j = i
    · rw [hji] at hj
      simp only [LoginManager.work, Function.update_self] at hj
      cases hj
      exact Function.update_self ..
    · simp only [LoginManager.work, Function.update_of_ne hji] at hj
      change w.manager.workers j = _ at hj
      by_cases hother : other = username
      · subst hother
        rw [halone j password hj]
        exact Function.update_self ..
      · change Function.update w.written username _ other = _
        rw [Function.update_of_ne hother]
        exact h.reporting j other password hj
  · intro other password hreported
    change Function.update w.reported username none other = _ at hreported
    by_cases hother : other = username
    · rw [hother, Function.update_self] at hreported
      cases hreported
    · rw [Function.update_of_ne hother] at hreported
      change Function.update w.written username _ other = _
      rw [Function.update_of_ne hother]
      exact h.reported other password hreported
  · intro other written hwritten
    change Function.update w.written username _ other = _ at hwritten
    change ∃ next, (w.manager.update username row).accounts other = some next ∧ _
    by_cases hother : other = username
    · subst hother
      rw [Function.update_self] at hwritten
      cases hwritten
      exact ⟨row, w.manager.update_accounts_self hold,
        PasswordConfig.check_hashed hcorrect hrow⟩
    · rw [Function.update_of_ne hother] at hwritten
      rw [w.manager.update_accounts_of_ne hother]
      exact h.stored other written hwritten
  · intro j other password hj
    by_cases hji : j = i
    · rw [hji] at hj
      simp [LoginManager.work] at hj
    · simp only [LoginManager.work, Function.update_of_ne hji] at hj
      obtain ⟨row', hrow'⟩ := h.found j other password hj
      exact w.manager.exists_of_update row hrow'

/-- A password that has been written last is reported. -/
theorem Sound.succeed (h : w.Sound config) {i : ℕ} {username newpassword : String}
    (hi : w.manager.workers i = some (.report username newpassword)) :
    Sound config ⟨w.manager.work i none, w.written,
      Function.update w.reported username (some newpassword)⟩ := by
  have hmove := h.move i (m := w.manager.work i none) rfl rfl (fun _ _ h => by cases h)
    (fun _ _ h => by cases h)
  constructor
  · exact hmove.reporting
  · intro other password hreported
    change Function.update w.reported username _ other = _ at hreported
    by_cases hother : other = username
    · rw [hother, Function.update_self] at hreported
      cases hreported
      rw [hother]
      exact h.reporting i username newpassword hi
    · rw [Function.update_of_ne hother] at hreported
      exact h.reported other password hreported
  · exact hmove.stored
  · exact hmove.found

/-- A login leads to nothing, or to an update of the version. -/
theorem checkLogin_cases {m : LoginManager} {username password : String}
    {next : Option LoginWork} (h : m.checkLogin config username password = some next) :
    next = none ∨ next = some (.upgrade username password) := by
  unfold LoginManager.checkLogin at h
  split at h
  · cases h
    exact Or.inl rfl
  · obtain ⟨right, -, rfl⟩ := Option.map_eq_some_iff.mp h
    split_ifs
    · exact Or.inr rfl
    · exact Or.inl rfl

/-- A change writes to an account that it has found, or does nothing. -/
theorem checkOld_cases {m : LoginManager} {username oldpassword newpassword : String}
    {next : Option LoginWork}
    (h : m.checkOld config username oldpassword newpassword = some next) :
    next = none ∨ next = some (.write username newpassword) ∧
      ∃ row, m.accounts username = some row := by
  unfold LoginManager.checkOld at h
  split at h
  · cases h
    exact Or.inl rfl
  · rename_i row hrow
    obtain ⟨right, -, rfl⟩ := Option.map_eq_some_iff.mp h
    split_ifs
    · exact Or.inr ⟨rfl, row, hrow⟩
    · exact Or.inl rfl

theorem Sound.work_none (h : w.Sound config) (i : ℕ) {m : LoginManager}
    (haccounts : m.accounts = w.manager.accounts) (hworkers : m.workers = w.manager.workers) :
    Sound config { w with manager := m.work i none } := by
  apply h.move i (m := m.work i none) haccounts
  · change Function.update m.workers i none = _
    rw [hworkers]
  · intro username password hnext
    cases hnext
  · intro username password hnext
    cases hnext

/-- A worker takes its next statement. -/
theorem Sound.advance (h : w.Sound config) (hcorrect : config.Correct) {i seed : ℕ}
    {now : LoginWork} {m : LoginManager} (hi : w.manager.workers i = some now)
    (hquiet : w.UndisturbedWork (some now))
    (hm : w.manager.proceed config i seed now = some m) :
    Sound config (w.noteWork m (some now)) := by
  cases now with
  | begin task =>
      cases task with
      | checkLogin username password =>
          obtain ⟨next, hnext, rfl⟩ := Option.map_eq_some_iff.mp hm
          apply h.move i (m := w.manager.work i next) rfl rfl
          · intro other written heq
            rcases checkLogin_cases hnext with rfl | rfl
            · cases heq
            · cases heq
          · intro other written heq
            rcases checkLogin_cases hnext with rfl | rfl
            · cases heq
            · cases heq
      | updatePasswordVersion username password hashFunc =>
          change w.manager.updatePasswordVersion config i seed username password hashFunc =
            some m at hm
          unfold LoginManager.updatePasswordVersion at hm
          split_ifs at hm with hnone
          · cases hm
            exact h.work_none i rfl rfl
          · obtain ⟨row, hrow, rfl⟩ := Option.map_eq_some_iff.mp hm
            exact h.rehash hcorrect i hrow (hquiet.resolve_left hnone)
      | setPassword username oldpassword newpassword =>
          obtain ⟨next, hnext, rfl⟩ := Option.map_eq_some_iff.mp hm
          apply h.move i (m := w.manager.work i next) rfl rfl
          · intro other written heq
            rcases checkOld_cases hnext with rfl | ⟨rfl, -⟩
            · cases heq
            · cases heq
          · intro other written heq
            rcases checkOld_cases hnext with rfl | ⟨rfl, hfound⟩
            · cases heq
            · cases heq
              exact hfound
  | upgrade username password =>
      cases hm
      exact h.work_none i (m := w.manager.enqueue _) rfl rfl
  | write username newpassword =>
      obtain ⟨row, hrow, rfl⟩ := Option.map_eq_some_iff.mp hm
      exact h.change hcorrect hi hrow hquiet
  | report username newpassword =>
      cases hm
      exact h.succeed hi

theorem Sound.step (h : w.Sound config) (hcorrect : config.Correct) {threads : ℕ}
    {e : LoginEvent} {w' : LoginWatch} (hquiet : w.Undisturbed e)
    (hstep : w.step config threads e = some w') : w'.Sound config := by
  obtain ⟨m, hm, rfl⟩ := Option.map_eq_some_iff.mp hstep
  cases e with
  | login username password =>
      cases hm
      exact ⟨h.reporting, h.reported, h.stored, h.found⟩
  | change username oldpassword newpassword =>
      cases hm
      exact ⟨h.reporting, h.reported, h.stored, h.found⟩
  | take i =>
      change w.manager.take threads i = some m at hm
      unfold LoginManager.take at hm
      split at hm
      · rename_i task rest hi hqueue
        split_ifs at hm
        cases hm
        apply h.move i (m := LoginManager.work { w.manager with queue := rest } i
          (some (.begin task))) rfl rfl
        · intro username password hnext
          cases hnext
        · intro username password hnext
          cases hnext
      · cases hm
  | advance i seed =>
      obtain ⟨now, hnow, hproceed⟩ := Option.bind_eq_some_iff.mp hm
      change Sound config (w.noteWork m (w.manager.workers i))
      change w.UndisturbedWork (w.manager.workers i) at hquiet
      rw [hnow] at hquiet ⊢
      exact h.advance hcorrect hnow hquiet hproceed

/-! ## One thread

No other worker reports while a change writes, so only the updates of a version matter. -/

def UpToDate : Option LoginWork → Prop
  | some (.begin (.updatePasswordVersion username password hashFunc)) =>
      hashFunc = .none ∨ ∀ written ∈ w.written username, password = written
  | _ => True

instance UpToDate.decidable : ∀ now, Decidable (w.UpToDate now)
  | some (.begin (.updatePasswordVersion username password hashFunc)) =>
      inferInstanceAs (Decidable (hashFunc = .none ∨ ∀ written ∈ w.written username,
        password = written))
  | some (.begin (.checkLogin ..)) => isTrue trivial
  | some (.begin (.setPassword ..)) => isTrue trivial
  | some (.upgrade ..) => isTrue trivial
  | some (.write ..) => isTrue trivial
  | some (.report ..) => isTrue trivial
  | none => isTrue trivial

def Current (w : LoginWatch) : LoginEvent → Prop
  | .advance i _ => w.UpToDate (w.manager.workers i)
  | _ => True

instance Current.decidable (w : LoginWatch) : ∀ e, Decidable (w.Current e)
  | .advance i _ => inferInstanceAs (Decidable (w.UpToDate (w.manager.workers i)))
  | .login .. => isTrue trivial
  | .change .. => isTrue trivial
  | .take _ => isTrue trivial

def Single (w : LoginWatch) : Prop := ∀ j ≠ 0, w.manager.workers j = none

theorem Single.undisturbed (h : w.Single) {e : LoginEvent} (hcurrent : w.Current e) :
    w.Undisturbed e := by
  cases e with
  | login username password => trivial
  | change username oldpassword newpassword => trivial
  | take i => trivial
  | advance i seed =>
      change w.UndisturbedWork (w.manager.workers i)
      change w.UpToDate (w.manager.workers i) at hcurrent
      generalize hi : w.manager.workers i = now at hcurrent ⊢
      rcases now with - | ⟨⟨⟩ | ⟨⟩ | ⟨⟩⟩ | ⟨⟩ | ⟨username, newpassword⟩ | ⟨⟩
      · trivial
      · trivial
      · exact hcurrent
      · trivial
      · trivial
      · intro j password hj
        have hzero : ∀ k now, w.manager.workers k = some now → k = 0 := by
          intro k now hk
          by_contra hne
          rw [h k hne] at hk
          cases hk
        rw [hzero j _ hj, ← hzero i _ hi, hi] at hj
        cases hj
      · trivial

/-- A statement moves its own worker only. -/
theorem proceed_workers {m m' : LoginManager} {i seed : ℕ} {now : LoginWork}
    (h : m.proceed config i seed now = some m') :
    ∃ next, m'.workers = Function.update m.workers i next := by
  cases now with
  | begin task =>
      cases task with
      | checkLogin username password =>
          obtain ⟨next, -, rfl⟩ := Option.map_eq_some_iff.mp h
          exact ⟨next, rfl⟩
      | updatePasswordVersion username password hashFunc =>
          change m.updatePasswordVersion config i seed username password hashFunc = some m' at h
          unfold LoginManager.updatePasswordVersion at h
          split_ifs at h
          · cases h
            exact ⟨none, rfl⟩
          · obtain ⟨row, -, rfl⟩ := Option.map_eq_some_iff.mp h
            exact ⟨none, rfl⟩
      | setPassword username oldpassword newpassword =>
          obtain ⟨next, -, rfl⟩ := Option.map_eq_some_iff.mp h
          exact ⟨next, rfl⟩
  | upgrade username password =>
      cases h
      exact ⟨none, rfl⟩
  | write username newpassword =>
      obtain ⟨row, -, rfl⟩ := Option.map_eq_some_iff.mp h
      exact ⟨some (.report username newpassword), rfl⟩
  | report username newpassword =>
      cases h
      exact ⟨none, rfl⟩

theorem note_manager (m : LoginManager) (e : LoginEvent) : (w.note m e).manager = m := by
  cases e with
  | login username password => rfl
  | change username oldpassword newpassword => rfl
  | take i => rfl
  | advance i seed =>
      change (w.noteWork m (w.manager.workers i)).manager = m
      unfold noteWork
      split <;> rfl

theorem Single.step (h : w.Single) {e : LoginEvent} {w' : LoginWatch}
    (hstep : w.step config 1 e = some w') : w'.Single := by
  obtain ⟨m, hm, rfl⟩ := Option.map_eq_some_iff.mp hstep
  intro j hj
  rw [note_manager]
  cases e with
  | login username password =>
      cases hm
      exact h j hj
  | change username oldpassword newpassword =>
      cases hm
      exact h j hj
  | take i =>
      change w.manager.take 1 i = some m at hm
      unfold LoginManager.take at hm
      split at hm
      · split_ifs at hm with hi
        cases hm
        change Function.update w.manager.workers i _ j = none
        rw [Function.update_of_ne (by omega)]
        exact h j hj
      · cases hm
  | advance i seed =>
      obtain ⟨now, hnow, hproceed⟩ := Option.bind_eq_some_iff.mp hm
      obtain ⟨next, hnext⟩ := proceed_workers hproceed
      have hne : j ≠ i := by
        rintro rfl
        rw [h j hj] at hnow
        cases hnow
      rw [hnext, Function.update_of_ne hne]
      exact h j hj

theorem undisturbed_of_current {accounts : String → Option AccountPassword}
    {steps : List LoginEvent}
    (h : RunSteps.Every (step config 1) Current (start accounts) steps) :
    RunSteps.Every (step config 1) Undisturbed (start accounts) steps :=
  RunSteps.every_of_every Single (fun _ _ hsingle hcurrent => hsingle.undisturbed hcurrent)
    (fun _ _ _ hsingle _ hstep => hsingle.step hstep) (fun _ _ => rfl) h

/-! ## Reported passwords -/

/-- A reported password stays the right one for as long as the steps are undisturbed. -/
theorem final_of_undisturbed (hcorrect : config.Correct) (threads : ℕ)
    (accounts : String → Option AccountPassword) (steps : List LoginEvent)
    (h : RunSteps.Every (step config threads) Undisturbed (start accounts) steps) :
    ∀ w, RunSteps.Reaches (step config threads) (start accounts) steps w → w.Final config := by
  intro w hreach
  apply Sound.final
  exact RunSteps.invariant_of_every (fun w => w.Sound config)
    (fun w e w' hsound hquiet hstep => hsound.step hcorrect hquiet hstep)
    (sound_start accounts) h hreach

/-- A hasher that writes the version before the password. -/
def taggedHasher (tag : String) : Hasher :=
  ⟨fun password _ => tag ++ password, fun password hashed => tag ++ password == hashed⟩

def taggedConfig : PasswordConfig where
  passwordSalt := "salt"
  passwordCurrentVersion := .bcrypt
  passwordHashers
    | .none => none
    | .sha256 => some (taggedHasher "s:")
    | .bcrypt => some (taggedHasher "b:")

theorem taggedConfig_correct : taggedConfig.Correct := by
  intro version hasher h password seed
  cases version with
  | none => cases h
  | sha256 =>
      cases h
      exact beq_self_eq_true _
  | bcrypt =>
      cases h
      exact beq_self_eq_true _

/-- One account, whose hash has an old version. -/
def oldAccount (username : String) : Option AccountPassword :=
  if username = "alice" then some ⟨"s:saltaliceoldpass", .sha256⟩ else none

/-- A version is updated before the password changes, and nothing comes after the change. -/
theorem final_of_undisturbed_upgraded :
    ∃ w, RunSteps.run (step taggedConfig 1) (start oldAccount)
      [.login "alice" "oldpass", .take 0, .advance 0 0, .advance 0 0, .take 0, .advance 0 0,
        .change "alice" "oldpass" "newpass",
        .take 0, .advance 0 0, .advance 0 0, .advance 0 0] = some w ∧
      w.reported "alice" = some "newpass" ∧ w.Final taggedConfig := by
  have hrun : (RunSteps.run (step taggedConfig 1) (start oldAccount)
      [.login "alice" "oldpass", .take 0, .advance 0 0, .advance 0 0, .take 0, .advance 0 0,
        .change "alice" "oldpass" "newpass",
        .take 0, .advance 0 0, .advance 0 0, .advance 0 0]).map (·.reported "alice") =
      some (some "newpass") := by
    decide
  obtain ⟨w, hw, hreported⟩ := Option.map_eq_some_iff.mp hrun
  exact ⟨w, hw, hreported, final_of_undisturbed taggedConfig_correct 1 oldAccount _
    (undisturbed_of_current (by decide)) w (RunSteps.reaches_of_run hw)⟩

/-- Alice logs in, another client changes her password, and the queued update of the version
writes the old one again. -/
theorem not_final :
    ¬ ∀ config : PasswordConfig, config.Correct → ∀ threads accounts steps w,
      RunSteps.Reaches (step config threads) (start accounts) steps w → w.Final config := by
  intro hfinal
  have hrun : (RunSteps.run (step taggedConfig 1) (start oldAccount)
      [.login "alice" "oldpass", .change "alice" "oldpass" "newpass",
        .take 0, .advance 0 0, .advance 0 0,
        .take 0, .advance 0 0, .advance 0 0, .advance 0 0,
        .take 0, .advance 0 0]).map
      (fun w => (w.reported "alice", (w.manager.accounts "alice").map fun row =>
        taggedConfig.check row "alice" "newpass")) =
      some (some "newpass", some (some false)) := by
    decide
  obtain ⟨w, hw, hview⟩ := Option.map_eq_some_iff.mp hrun
  obtain ⟨hreported, hcheck⟩ := Prod.mk.inj hview
  obtain ⟨row, hrow, hright⟩ := hfinal taggedConfig taggedConfig_correct 1 oldAccount _ w
    (RunSteps.reaches_of_run hw) "alice" "newpass" hreported
  rw [hrow, Option.map_some, hright] at hcheck
  cases hcheck

end LoginWatch

end ArenaServ
