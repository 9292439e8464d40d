import EventIndex.Sql.Error
import EventIndex.Sql.Request
import EventIndex.Store.Basic

/-!
# A database as a store

A store whose data is in a database. A connection is opened when there is none, and is used for one
statement after the other. A transaction whose connection breaks is lost: nothing more is sent in
it, and all that is asked of it fails.
-/

namespace EventIndex.Sql

inductive Reply where
  | rows (rs : List Row)
  | refused (code : Option String) (reason : String)
  /-- The connection was closed instead. -/
  | hungUp
deriving DecidableEq

class Server (δ : Type) where
  connect : δ → Reply × δ
  execute : Statement → δ → Reply × δ

inductive Link where
  | absent
  | present
  /-- The store has been closed, and no connection will be opened any more. -/
  | shut
deriving DecidableEq, Repr

structure Database (δ : Type) where
  server : δ
  link : Link

abbrev Exchange (δ : Type) := ExceptT Error (StateM (Database δ))

namespace Database

variable {δ : Type} [Server δ]

/-- The codes of a database that has no room for a connection yet. -/
def busyCodes : List String :=
  ["53300", "57P03"]

/-- How often a busy database is tried before the time is out. -/
def connectAttempts : Nat := 14

/-- Tries to open a connection, again while the database is busy. -/
def openWithin : Nat → Exchange δ Unit
  | 0 => throw .poolTimedOut
  | attempts + 1 => do
    let db ← get
    let (reply, server) := Server.connect db.server
    match reply with
    | .rows _ => set (Database.mk server .present)
    | .hungUp =>
      set { db with server := server }
      throw .hungUp
    | .refused code reason =>
      set { db with server := server }
      if code.any busyCodes.contains then openWithin attempts else throw (.refused code reason)

def acquire : Exchange δ Unit := do
  match (← get).link with
  | .present => pure ()
  | .absent => openWithin connectAttempts
  | .shut => throw .poolClosed

def send (st : Statement) : Exchange δ (List Row) := do
  let db ← get
  let (reply, server) := Server.execute st db.server
  match reply with
  | .rows rs =>
    set { db with server := server }
    pure rs
  | .refused code reason =>
    set { db with server := server }
    throw (.refused code reason)
  | .hungUp =>
    set (Database.mk server .absent)
    throw .hungUp

/-- Ends a transaction without its writes. A connection that fails to do so is given up. -/
def rollback : StateM (Database δ) Unit := do
  match (← (send (.plain "ROLLBACK")).run) with
  | .ok _ => pure ()
  | .error _ => modify fun db => { db with link := .absent }

/-- A last step of a transaction: if it fails, the transaction is ended without its writes. -/
def orRollback {α : Type} (step : Exchange δ α) : Exchange δ α :=
  tryCatch step fun e => do
    unless e.breaksConnection do ExceptT.lift rollback
    throw e

def commit : Exchange δ Unit :=
  orRollback (discard (send (.plain "COMMIT")))

/-- Whether an address begins with a scheme: a letter, letters, digits and some signs, and a colon.
Blanks before it are passed over, and line breaks and tabs within it. -/
def hasScheme (address : String) : Bool :=
  let cs := (address.toList.dropWhile (· ≤ ' ')).filter fun c => c ≠ '\t' ∧ c ≠ '\n' ∧ c ≠ '\r'
  match cs with
  | [] => false
  | c :: rest =>
    c.isAlpha && (rest.dropWhile fun c => c.isAlphanum || "+-.".contains c).head? = some ':'

def checkAddress (address : String) : Except Error Unit :=
  if hasScheme address then .ok () else .error (.configuration "relative URL without a base")

def connect (server : δ) : Except Error Unit × Database δ :=
  acquire.run ⟨server, .absent⟩

def close (db : Database δ) : Database δ :=
  { db with link := .shut }

def isClosed (db : Database δ) : Bool :=
  db.link = .shut

end Database

/-- A transaction, which ends early if the connection breaks. -/
structure Transaction where
  contract : ContractId
  broken : Bool
deriving DecidableEq

namespace Database

variable {δ : Type} [Server δ]

def start (contract : ContractId) : Exchange δ Transaction := do
  acquire
  let _ ← send (.plain "BEGIN")
  pure ⟨contract, false⟩

def request (r : Request) (tx : Transaction) (db : Database δ) :
    Except StorageError r.Answer × Transaction × Database δ :=
  if tx.broken then (.error Error.hungUp.toStorage, tx, db)
  else
    match (((r.statements tx.contract).mapM send).run).run db with
    | (.ok results, db) =>
      ((r.readAnswer tx.contract results).mapError RowError.toStorage, tx, db)
    | (.error e, db) => (.error e.toStorage, { tx with broken := e.breaksConnection }, db)

/-- Does a query, each statement for itself. -/
def query (contract : ContractId) (q : Query) (db : Database δ) :
    Except StorageError q.Answer × Database δ :=
  let exchange : Exchange δ (List Brought) := (q.statements contract).mapM fun st => do
    acquire
    send st
  match exchange.run.run db with
  | (.ok results, db) => ((q.readAnswer contract results).mapError RowError.toStorage, db)
  | (.error e, db) => (.error e.toStorage, db)

instance : Store (Database δ) where
  Tx := Transaction
  start contract db :=
    let (result, db) := (start contract).run.run db
    (result.mapError Error.toStorage, db)
  request := request
  commit tx db :=
    if tx.broken then (.error Error.hungUp.toStorage, db)
    else
      let (result, db) := (commit (δ := δ)).run.run db
      (result.mapError Error.toStorage, db)
  abandon tx db := if tx.broken then db else (rollback.run db).2
  query := query

end Database

end EventIndex.Sql
