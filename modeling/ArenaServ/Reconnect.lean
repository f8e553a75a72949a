import ArenaServ.RunSteps
import Mathlib.Data.Nat.Notation

/-!
# Queries over a connection that may be lost

`RawQuery` for MySQL. When the connection is lost it connects again, starts a new transaction
where one was open, replays the statements of the log and issues its query again. What the
server answers to each call is an input.
-/

namespace ArenaServ

/-! ## Connecting -/

structure ConnectParams where
  host : String
  port : UInt16
  authtype : String
  user : String
  pass : String
  db : String
  deriving DecidableEq

/-- A text argument of `Connect`, which is passed by reference: a member of the database
object, or some other text. -/
inductive TextRef where
  | host
  | authtype
  | user
  | pass
  | db
  | other (text : String)

def ConnectParams.text (p : ConnectParams) : TextRef → String
  | .host => p.host
  | .authtype => p.authtype
  | .user => p.user
  | .pass => p.pass
  | .db => p.db
  | .other text => text

/-- The members after the assignments of `Connect`, each of which reads its argument when it is
made. -/
def ConnectParams.assign (p : ConnectParams) (hostRef : TextRef) (port : UInt16)
    (authtypeRef userRef passRef dbRef : TextRef) : ConnectParams :=
  let p := { p with host := p.text hostRef }
  let p := { p with authtype := p.text authtypeRef }
  let p := { p with user := p.text userRef }
  let p := { p with pass := p.text passRef }
  let p := { p with port := port }
  { p with db := p.text dbRef }

/-- What is connected with, which is read through the arguments once more. -/
def ConnectParams.used (p : ConnectParams) (hostRef userRef passRef dbRef : TextRef) :
    ConnectParams where
  host := p.text hostRef
  port := p.port
  authtype := p.authtype
  user := p.text userRef
  pass := p.text passRef
  db := p.text dbRef

/-! ## Calls of the server -/

/-- What a call comes to: it works, the connection is lost (or a lock has timed out, which is
treated alike), it fails otherwise, or it has worked but its result cannot be had. -/
inductive Response where
  | ok
  | lost
  | failed
  | unread
  deriving DecidableEq

inductive DbEvent where
  | connect (used : ConnectParams)
  | statement (query : String) (response : Response)
  deriving DecidableEq

structure Connection where
  params : ConnectParams
  connected : Bool
  inTransaction : Bool
  log : List String
  deriving DecidableEq

/-- How a call of `RawQuery` ends. It is waiting when there are no more answers. -/
inductive CallEnd where
  | returned
  | threw
  | halted
  | waiting
  deriving DecidableEq

structure Call where
  trace : List DbEvent
  ending : CallEnd
  db : Connection
  rest : List Response

def startTransaction : String := "START TRANSACTION"

/-- A statement that goes into the log of a transaction. -/
def modifies (query : String) : Bool := !"SELECT".toList.isPrefixOf query.toList

namespace Connection

def logQuery (db : Connection) (query : String) (control : Bool) : Connection :=
  if db.inTransaction && !control && modifies query then { db with log := db.log ++ [query] }
  else db

/-- The call of `Connect` in `RawQuery`: the connection, and what is connected with. The
argument for the authentication type is missing in it. -/
def reconnect (db : Connection) : Connection × ConnectParams :=
  let params := db.params.assign .host db.params.port .user .pass .db (.other "")
  ({ db with params := params, connected := false }, params.used .host .pass .db (.other ""))

/-- What is executed before the query is. -/
def replay (db : Connection) : List String :=
  if db.inTransaction then startTransaction :: db.log else []

end Connection

/-! ## The query -/

/-- Where `RawQuery` is. `attempt` is its counter `recovery_attempt`. -/
inductive QueryPhase where
  | exec
  | reconnecting (attempt : ℕ)
  | replaying (attempt : ℕ) (statements : List String)
  deriving DecidableEq

/-- The phase in which the statements are executed and then the query. -/
def QueryPhase.play (attempt : ℕ) (statements : List String) : QueryPhase :=
  if statements = [] then .exec else .replaying attempt statements

def Call.after (event : DbEvent) (call : Call) : Call :=
  { call with trace := event :: call.trace }

/-- The label `server_gone`, up to the attempt to connect, with what comes after it. -/
def serverGone (attempt : ℕ) (db : Connection) (rest : List Response)
    (connecting : ℕ → Connection → Call) : Call :=
  if 10 < attempt + 1 then ⟨[], .halted, db, rest⟩
  else (connecting (attempt + 1) db.reconnect.1).after (.connect db.reconnect.2)

/-- `RawQuery` from one of its phases, as it gets one answer after the other. -/
def runQuery (query : String) (control : Bool) :
    QueryPhase → Connection → List Response → Call
  | _, db, [] => ⟨[], .waiting, db, []⟩
  | .exec, db, r :: rest =>
      let event := .statement query r
      match r with
      | .ok => ⟨[event], .returned, db.logQuery query control, rest⟩
      | .unread => ⟨[event], .threw, db.logQuery query control, rest⟩
      | .failed => ⟨[event], .threw, db, rest⟩
      | .lost =>
          (serverGone 0 db rest fun attempt db =>
            runQuery query control (.reconnecting attempt) db rest).after event
  | .reconnecting attempt, db, r :: rest =>
      if r = .ok then
        let db := { db with connected := true }
        runQuery query control (.play attempt db.replay) db rest
      else
        serverGone attempt db rest fun attempt db =>
          runQuery query control (.reconnecting attempt) db rest
  | .replaying attempt statements, db, r :: rest =>
      match statements with
      | [] => ⟨[], .waiting, db, rest⟩
      | statement :: statements =>
          let event := .statement statement r
          match r with
          | .ok => (runQuery query control (.play attempt statements) db rest).after event
          | .lost =>
              (serverGone attempt db rest fun attempt db =>
                runQuery query control (.reconnecting attempt) db rest).after event
          | .failed => ⟨[event], .halted, db, rest⟩
          | .unread => ⟨[event], .halted, db, rest⟩

def Connection.rawQuery (db : Connection) (query : String) (control : Bool)
    (responses : List Response) : Call :=
  if db.connected then runQuery query control .exec db responses else ⟨[], .threw, db, responses⟩

/-! ## Transactions -/

/-- The connection after a call, with which `f` is done when it has returned; there is none
when the server has halted or waits. -/
def Call.result (call : Call) (f : Connection → Connection) : Option Connection :=
  match call.ending with
  | .returned => some (f call.db)
  | .threw => some call.db
  | .halted => none
  | .waiting => none

/-- The loop of `BeginTransaction`: its calls, and the connection unless the server halts. -/
def Connection.tryBegin : ℕ → Connection → List Response → List (String × Call) × Option Connection
  | 0, _, _ => ([], none)
  | attempts + 1, db, responses =>
      let call := db.rawQuery startTransaction true responses
      match call.ending with
      | .returned => ([(startTransaction, call)], some { call.db with inTransaction := true })
      | .threw =>
          let (calls, db) := tryBegin attempts call.db call.rest
          ((startTransaction, call) :: calls, db)
      | .halted => ([(startTransaction, call)], none)
      | .waiting => ([(startTransaction, call)], none)

/-- `Commit` or `Rollback`, which throws where there is no transaction. -/
def Connection.endTransaction (db : Connection) (query : String) (responses : List Response) :
    List (String × Call) × Option Connection :=
  if db.inTransaction then
    let call := db.rawQuery query true responses
    ([(query, call)], call.result fun db => { db with inTransaction := false, log := [] })
  else ([], some db)

inductive DbCommand where
  | begin
  | query (query : String)
  | commit
  | rollback
  deriving DecidableEq

/-- A command, and the answers of the server from then on. -/
structure DbStep where
  command : DbCommand
  responses : List Response

def Connection.step (db : Connection) (step : DbStep) :
    List (String × Call) × Option Connection :=
  match step.command with
  | .begin => if db.inTransaction then ([], some db) else db.tryBegin 10 step.responses
  | .query query =>
      let call := db.rawQuery query false step.responses
      ([(query, call)], call.result id)
  | .commit => db.endTransaction "COMMIT" step.responses
  | .rollback => db.endTransaction "ROLLBACK" step.responses

end ArenaServ
