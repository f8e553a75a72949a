import ArenaServ.Reconnect
import Mathlib.Tactic.SplitIfs

/-!
# What is executed after a connection has been lost

On every new connection exactly the statements that the transaction has executed so far are
replayed, in their order, and then the query is issued. But what is connected with are other
parameters than those of the first connection, unless all of them that are shifted are empty.
-/

namespace ArenaServ
open RunSteps

/-- A trace in which the statements of a list are executed one after the other, and all of
`script` from its beginning after each time that the connection is lost. In one that is
`finished` the last statement has got its answer. -/
inductive Plays (script : List String) : Bool → List String → List DbEvent → Prop where
  | stop (todo : List String) : Plays script false todo []
  | last (finished : Bool) (query : String) (r : Response) :
      Plays script finished [query] [.statement query r]
  | broken (statement : String) (todo : List String) (r : Response) :
      Plays script false (statement :: todo) [.statement statement r]
  | next {finished : Bool} {todo : List String} {trace : List DbEvent} (statement : String)
      (h : Plays script finished todo trace) :
      Plays script finished (statement :: todo) (.statement statement .ok :: trace)
  | refused {finished : Bool} {trace : List DbEvent} (used : ConnectParams)
      (h : Plays script finished script trace) :
      Plays script finished script (.connect used :: trace)
  | lost {finished : Bool} {trace : List DbEvent} (statement : String) (todo : List String)
      (used : ConnectParams) (h : Plays script finished script trace) :
      Plays script finished (statement :: todo)
        (.statement statement .lost :: .connect used :: trace)

namespace ConnectParams

/-- What is connected with after a loss. -/
def shift (p : ConnectParams) : ConnectParams := ⟨p.host, p.port, p.user, p.db, "", ""⟩

/-- The texts that are shifted are all empty. -/
def Blank (p : ConnectParams) : Prop := p.authtype = "" ∧ p.user = "" ∧ p.pass = "" ∧ p.db = ""

instance (p : ConnectParams) : Decidable p.Blank := inferInstanceAs (Decidable (_ ∧ _))

theorem shift_eq_iff (p : ConnectParams) : p.shift = p ↔ p.Blank := by
  obtain ⟨host, port, authtype, user, pass, db⟩ := p
  simp only [shift, Blank, mk.injEq, true_and]
  constructor
  · rintro ⟨rfl, rfl, rfl, rfl⟩
    exact ⟨rfl, rfl, rfl, rfl⟩
  · rintro ⟨rfl, rfl, rfl, rfl⟩
    exact ⟨rfl, rfl, rfl, rfl⟩

end ConnectParams

namespace Connection

variable {db : Connection}

theorem reconnect_used : db.reconnect.2 = db.params.shift := rfl

theorem replay_reconnect : db.reconnect.1.replay = db.replay := rfl

end Connection

/-! ## One call -/

def Call.finished (call : Call) : Bool := call.ending = .returned || call.ending = .threw

/-- The query of a call that is finished has been executed. -/
def Call.executed (call : Call) : Bool :=
  match call.trace.getLast? with
  | some (.statement _ .ok) => true
  | some (.statement _ .unread) => true
  | _ => false

/-- What is executed from a phase on. -/
def QueryPhase.todo (query : String) (script : List String) : QueryPhase → List String
  | .exec => [query]
  | .reconnecting _ => script
  | .replaying _ statements => statements ++ [query]

/-- Statements are executed on a connection. -/
def QueryPhase.Ready (db : Connection) : QueryPhase → Prop
  | .exec => db.connected = true
  | .reconnecting _ => True
  | .replaying _ _ => db.connected = true

/-- What a call does that goes on from a phase with the connection `db`. -/
structure CallSpec (query : String) (control : Bool) (phase : QueryPhase) (db : Connection)
    (call : Call) : Prop where
  plays : Plays (db.replay ++ [query]) call.finished (phase.todo query (db.replay ++ [query]))
    call.trace
  connected : phase.Ready db → call.finished = true → call.db.connected = true
  inTransaction : call.finished = true → call.db.inTransaction = db.inTransaction
  log : call.finished = true →
    call.db.log = if call.executed then (db.logQuery query control).log else db.log
  blank : db.params.Blank → call.db.params = db.params ∧
    ∀ used, .connect used ∈ call.trace → used = db.params

/-- A connection with the same transaction, and the same parameters if they are blank. -/
structure SameTransaction (db db' : Connection) : Prop where
  inTransaction : db'.inTransaction = db.inTransaction
  log : db'.log = db.log
  blank : db.params.Blank → db'.params = db.params

section Call
variable {query : String} {control : Bool} {phase phase' : QueryPhase} {db db' : Connection}
  {call : Call} {event : DbEvent} {responses : List Response} {attempt : ℕ}

theorem SameTransaction.replay (h : SameTransaction db db') : db'.replay = db.replay := by
  unfold Connection.replay
  rw [h.inTransaction, h.log]

theorem SameTransaction.logQuery (h : SameTransaction db db') :
    (db'.logQuery query control).log = (db.logQuery query control).log := by
  unfold Connection.logQuery
  rw [h.inTransaction]
  split_ifs
  · dsimp only
    rw [h.log]
  · exact h.log

theorem Plays.ne_nil {script todo : List String} {trace : List DbEvent}
    (h : Plays script true todo trace) : trace ≠ [] := by
  cases h <;> exact List.cons_ne_nil _ _

theorem executed_after (h : call.trace ≠ []) : (call.after event).executed = call.executed := by
  unfold Call.executed Call.after
  dsimp only
  rw [List.getLast?_cons_of_ne_nil h]

/-- One more event before what a call does. -/
theorem CallSpec.after (h : CallSpec query control phase' db' call)
    (hsame : SameTransaction db db') (hready : phase.Ready db → phase'.Ready db')
    (hplays : Plays (db.replay ++ [query]) call.finished
      (phase.todo query (db.replay ++ [query])) (event :: call.trace))
    (hevent : ∀ used, event = .connect used → used = db.reconnect.2) :
    CallSpec query control phase db (call.after event) where
  plays := hplays
  connected hphase := h.connected (hready hphase)
  inTransaction hfinished := (h.inTransaction hfinished).trans hsame.inTransaction
  log hfinished := by
    have hne : call.trace ≠ [] := by
      have hold := h.plays
      rw [show call.finished = true from hfinished] at hold
      exact hold.ne_nil
    rw [executed_after hne, ← hsame.logQuery, ← hsame.log]
    exact h.log hfinished
  blank hblank := by
    have hparams := hsame.blank hblank
    obtain ⟨hdb, hused⟩ := h.blank (hparams ▸ hblank)
    refine ⟨hdb.trans hparams, ?_⟩
    intro used hmem
    rcases List.mem_cons.mp hmem with heq | hmem
    · rw [hevent used heq.symm, Connection.reconnect_used, db.params.shift_eq_iff.mpr hblank]
    · exact (hused used hmem).trans hparams

/-- A step with no event. -/
theorem CallSpec.of_same (h : CallSpec query control phase' db' call)
    (hsame : SameTransaction db db') (hready : phase.Ready db → phase'.Ready db')
    (htodo : phase'.todo query (db.replay ++ [query]) = phase.todo query (db.replay ++ [query])) :
    CallSpec query control phase db call where
  plays := by
    have hplays := h.plays
    rw [hsame.replay, htodo] at hplays
    exact hplays
  connected hphase := h.connected (hready hphase)
  inTransaction hfinished := (h.inTransaction hfinished).trans hsame.inTransaction
  log hfinished := by
    rw [← hsame.logQuery, ← hsame.log]
    exact h.log hfinished
  blank hblank := by
    have hparams := hsame.blank hblank
    obtain ⟨hdb, hused⟩ := h.blank (hparams ▸ hblank)
    exact ⟨hdb.trans hparams, fun used hmem => (hused used hmem).trans hparams⟩

end Call

/-! ## The calls of a command -/

/-- A command loses the connection with one of its queries. -/
def DbStep.Loses (db : Connection) (step : DbStep) : Prop :=
  match step.command with
  | .begin =>
      db.inTransaction = false ∧
        (step.responses.take 10).find? (fun r => r = .ok || r = .lost) = some .lost
  | .query _ => step.responses.head? = some .lost
  | .commit => db.inTransaction = true ∧ step.responses.head? = some .lost
  | .rollback => db.inTransaction = true ∧ step.responses.head? = some .lost

namespace Connection

variable {db : Connection} {responses : List Response}

end Connection

/-! ## Runs -/

/-- A connection, and the statements that modify data and have been executed since
`BeginTransaction`, where there is a transaction. -/
structure DbSession where
  db : Connection
  transaction : Option (List String)

namespace DbSession

def start (params : ConnectParams) : DbSession := ⟨⟨params, true, false, []⟩, none⟩

/-- What there is of a transaction after a command with these calls. -/
def transactionAfter (transaction : Option (List String)) (calls : List (String × Call)) :
    DbCommand → Option (List String)
  | .begin => some (transaction.getD [])
  | .query query =>
      transaction.map fun executed =>
        if calls.any (·.2.executed) && modifies query then executed ++ [query] else executed
  | .commit => if calls.any (·.2.ending = .returned) then none else transaction
  | .rollback => if calls.any (·.2.ending = .returned) then none else transaction

def next (s : DbSession) (step : DbStep) : Option DbSession :=
  (s.db.step step).2.map fun db =>
    ⟨db, transactionAfter s.transaction (s.db.step step).1 step.command⟩

/-- What has to be executed on a new connection before a query. -/
def script (s : DbSession) : List String :=
  match s.transaction with
  | none => []
  | some executed => startTransaction :: executed

/-- Each call of a command connects with the first parameters only, and after a loss executes
exactly what the transaction has executed and then its query. -/
def Faithful (params : ConnectParams) (s : DbSession) (step : DbStep) : Prop :=
  ∀ p ∈ (s.db.step step).1, (∀ used, .connect used ∈ p.2.trace → used = params) ∧
    Plays (s.script ++ [p.1]) p.2.finished [p.1] p.2.trace

/-- No query of a command loses the connection. -/
def Holds (s : DbSession) (step : DbStep) : Prop := ¬ step.Loses s.db

variable {params : ConnectParams} {s s' : DbSession} {step : DbStep}

end DbSession

/-! ## A connection that is lost -/

namespace LostConnection

def params : ConnectParams := ⟨"localhost", 3306, "", "eoserv", "secret", "eoserv"⟩

/-- A query loses the connection, and no attempt to connect succeeds. -/
def steps : List DbStep :=
  [⟨.query "UPDATE guilds SET bank = 5", .lost :: List.replicate 10 .failed⟩]

end LostConnection

end ArenaServ
