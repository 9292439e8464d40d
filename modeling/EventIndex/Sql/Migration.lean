import EventIndex.Hex
import EventIndex.Sql.Database

/-!
# Migrations

The steps that create the relations. The database remembers which steps it has taken, with a
checksum of each; a step is taken once, in a transaction of its own.
-/

namespace EventIndex.Sql

/-- A step, as one text of several statements. -/
structure Migration where
  version : Int
  description : String
  /-- The checksum of the step, in hexadecimal digits. -/
  checksum : String
  parts : List String
deriving DecidableEq

inductive MigrationError where
  | modified (version : Int)
  | missing (version : Int)
  | partially (version : Int)
  /-- The statements of a step have failed. -/
  | failed (version : Int) (e : Error)
  | execution (e : Error)
  /-- The list of the steps that were taken cannot be read. -/
  | unreadable (column : Nat) (flaw : ColumnFlaw)
deriving DecidableEq

namespace MigrationError

def reason : MigrationError → String
  | modified n => s!"migration {n} was previously applied but has been modified"
  | missing n => s!"migration {n} was previously applied but is missing in the resolved migrations"
  | partially n =>
    s!"migration {n} is partially applied; fix and remove row from `_sqlx_migrations` table"
  | failed n e => s!"while executing migration {n}: {e.message}"
  | execution e => s!"while executing migrations: {e.message}"
  | unreadable column flaw =>
    s!"while executing migrations: error occurred while decoding column {column}: {flaw.message}"

def toStorage (e : MigrationError) : StorageError :=
  .permanent s!"migration failed: {e.reason}"

end MigrationError

namespace Migration

def createTable (name : String) (parts : List String) : String :=
  s!"CREATE TABLE IF NOT EXISTS {name} ( {Relation.commaList parts} );"

def createIndex (name table columns : String) : String :=
  s!"CREATE INDEX IF NOT EXISTS {name} ON {table} ({columns});"

def initialSchema : Migration where
  version := 1
  description := "initial schema"
  checksum := "434abdcfebe90a1807168b71e202f3439bb45bf2899f442c7c9214eb9fe656b3" ++
    "32dff3841a91362082f1214d3ad5b143"
  parts := [
    createTable "indexed_events" ["contract_id TEXT NOT NULL", "position BYTEA NOT NULL",
      "topic TEXT NOT NULL", "ledger BIGINT NOT NULL", "ledger_closed_at TIMESTAMPTZ NOT NULL",
      "raw_payload JSONB NOT NULL", "decoded_payload JSONB", "decode_error TEXT",
      "created_at TIMESTAMPTZ NOT NULL DEFAULT NOW()", "PRIMARY KEY (contract_id, position)",
      "CHECK (octet_length(position) = 40)"],
    createIndex "idx_indexed_events_topic" "indexed_events" "contract_id, topic",
    createTable "checkpoints" ["contract_id TEXT PRIMARY KEY", "position BYTEA NOT NULL",
      "events_applied NUMERIC(20, 0) NOT NULL", "updated_at TIMESTAMPTZ NOT NULL"],
    createTable "trades" ["contract_id TEXT NOT NULL", "trade_id NUMERIC(20, 0) NOT NULL",
      "maker TEXT NOT NULL", "taker TEXT NOT NULL", "base_asset TEXT NOT NULL",
      "quote_asset TEXT NOT NULL", "base_amount NUMERIC(39, 0) NOT NULL",
      "quote_amount NUMERIC(39, 0) NOT NULL", "executed_at NUMERIC(20, 0) NOT NULL",
      "position BYTEA NOT NULL", "PRIMARY KEY (contract_id, trade_id)"],
    createTable "proposals" ["contract_id TEXT NOT NULL", "proposal_id NUMERIC(20, 0) NOT NULL",
      "proposer TEXT NOT NULL", "title TEXT NOT NULL", "approval_threshold BIGINT NOT NULL",
      "current_approvals BIGINT NOT NULL", "status TEXT NOT NULL",
      "created_at NUMERIC(20, 0) NOT NULL", "closed_at NUMERIC(20, 0)",
      "created_position BYTEA NOT NULL", "last_position BYTEA NOT NULL",
      "PRIMARY KEY (contract_id, proposal_id)",
      "CHECK (status IN ('pending', 'executed', 'rejected', 'cancelled'))"],
    createIndex "idx_proposals_status" "proposals" "contract_id, status",
    createTable "rewards" ["contract_id TEXT NOT NULL", "reward_id NUMERIC(20, 0) NOT NULL",
      "recipient TEXT NOT NULL", "amount NUMERIC(39, 0) NOT NULL", "reason TEXT NOT NULL",
      "added_at NUMERIC(20, 0) NOT NULL", "claimed BOOLEAN NOT NULL DEFAULT FALSE",
      "claimed_amount NUMERIC(39, 0)", "claimed_at NUMERIC(20, 0)",
      "created_position BYTEA NOT NULL", "claim_position BYTEA",
      "PRIMARY KEY (contract_id, reward_id)"],
    createIndex "idx_rewards_recipient" "rewards" "contract_id, recipient",
    createTable "grants" ["contract_id TEXT NOT NULL", "grant_id NUMERIC(20, 0) NOT NULL",
      "beneficiary TEXT NOT NULL", "amount NUMERIC(39, 0) NOT NULL",
      "start_time NUMERIC(20, 0) NOT NULL", "cliff_seconds NUMERIC(20, 0) NOT NULL",
      "duration_seconds NUMERIC(20, 0) NOT NULL", "granted_at NUMERIC(20, 0) NOT NULL",
      "total_claimed NUMERIC(39, 0) NOT NULL", "claim_count BIGINT NOT NULL",
      "status TEXT NOT NULL", "revoked_at NUMERIC(20, 0)", "unvested_amount NUMERIC(39, 0)",
      "created_position BYTEA NOT NULL", "last_position BYTEA NOT NULL",
      "PRIMARY KEY (contract_id, grant_id)", "CHECK (status IN ('active', 'revoked'))"],
    createIndex "idx_grants_beneficiary" "grants" "contract_id, beneficiary"]

def quarantinedEntities : Migration where
  version := 2
  description := "quarantined entities"
  checksum := "4996c7f5b24a8829ec0457e6d3cf6f5cd9a593e7db0354a1a90bda1fa7a102f0" ++
    "b0d3c544ebdbb2ea933e40c40b00f6be"
  parts := [
    createTable "quarantined_entities" ["contract_id TEXT NOT NULL", "entity_kind TEXT NOT NULL",
      "entity_id NUMERIC(20, 0) NOT NULL", "position BYTEA NOT NULL", "reason TEXT NOT NULL",
      "PRIMARY KEY (contract_id, entity_kind, entity_id)",
      "CHECK (entity_kind IN ('trade', 'proposal', 'reward', 'grant'))",
      "CHECK (octet_length(position) = 40)"]]

def all : List Migration :=
  [initialSchema, quarantinedEntities]

def statement (m : Migration) : Statement :=
  .plain (" ".intercalate m.parts)

def checksumValue (m : Migration) : Value :=
  .bytes ((Hex.decode 48 m.checksum).toOption.getD [])

/-- The number of the lock that one migrating process holds at a time. -/
def lockNumber : Int := 1

/-- The statements by which the database remembers its steps, each with its parameters. -/
inductive Bookkeeping where
  | currentDatabase
  | lock
  | createLedger
  | partialStep
  | stepsTaken
  | recordStep (m : Migration)
  | recordTime (m : Migration) (nanos : Int)
  | unlock

def Bookkeeping.statement : Bookkeeping → Statement
  | currentDatabase => .plain "SELECT current_database()"
  | lock => ⟨"SELECT pg_advisory_lock($1)", [.bigint lockNumber], []⟩
  | createLedger =>
    .plain (createTable "_sqlx_migrations" ["version BIGINT PRIMARY KEY",
      "description TEXT NOT NULL", "installed_on TIMESTAMPTZ NOT NULL DEFAULT now()",
      "success BOOLEAN NOT NULL", "checksum BYTEA NOT NULL", "execution_time BIGINT NOT NULL"])
  | partialStep =>
    ⟨"SELECT version FROM _sqlx_migrations WHERE success = false ORDER BY version LIMIT 1", [],
      [⟨"version", .bigint⟩]⟩
  | stepsTaken =>
    ⟨"SELECT version, checksum FROM _sqlx_migrations ORDER BY version", [],
      [⟨"version", .bigint⟩, ⟨"checksum", .bytes⟩]⟩
  | recordStep m =>
    ⟨"INSERT INTO _sqlx_migrations ( version, description, success, checksum, execution_time ) " ++
      "VALUES ( $1, $2, TRUE, $3, -1 )",
      [.bigint m.version, .text m.description, m.checksumValue], []⟩
  | recordTime m nanos =>
    ⟨"UPDATE _sqlx_migrations SET execution_time = $1 WHERE version = $2",
      [.bigint nanos, .bigint m.version], []⟩
  | unlock => ⟨"SELECT pg_advisory_unlock($1)", [.bigint lockNumber], []⟩

/-- The texts of the statements that belong to no step. -/
def bookkeepingTexts : List String :=
  [.currentDatabase, .lock, .createLedger, .partialStep, .stepsTaken, .recordStep initialSchema,
    .recordTime initialSchema 0, .unlock].map fun b => (Bookkeeping.statement b).text

def versionOfRow (r : Row) : Except MigrationError Int :=
  (r.get "version").asBigint.mapError (.unreadable 0)

/-- A step that has been taken: its version and its checksum. -/
def takenOfRow (r : Row) : Except MigrationError (Int × Value) := do
  let version ← versionOfRow r
  let checksum ← (r.get "checksum").asBytes.mapError (.unreadable 1)
  pure (version, .bytes checksum)

/-- Whether a step is still to be taken, or the error if another step was taken under its number. -/
def isDue (taken : List (Int × Value)) (m : Migration) : Except MigrationError Bool :=
  match taken.reverse.lookup m.version with
  | none => .ok true
  | some checksum => if checksum = m.checksumValue then .ok false else .error (.modified m.version)

/-- The version of the first step that was taken but is not known. -/
def unknown? (taken : List (Int × Value)) : Option Int :=
  (taken.map Prod.fst).find? fun version => !(all.map Migration.version).contains version

end Migration

namespace Database

variable {δ : Type} [Server δ]

abbrev Migrating (δ : Type) := ExceptT MigrationError (StateM (Database δ))

def keepBooks (b : Migration.Bookkeeping) : Migrating δ (List Row) :=
  (send b.statement).adapt .execution

/-- Takes one step and records it in the same transaction. -/
def takeStep (m : Migration) : Migrating δ Unit := do
  let _ ← (send (.plain "BEGIN")).adapt .execution
  let _ ← (orRollback (send m.statement)).adapt (.failed m.version)
  let _ ← (orRollback (send (Migration.Bookkeeping.recordStep m).statement)).adapt .execution
  commit.adapt .execution
  discard (keepBooks (.recordTime m 0))

def takeSteps (taken : List (Int × Value)) : List Migration → Migrating δ Unit
  | [] => pure ()
  | m :: ms => do
    if ← Migration.isDue taken m then takeStep m
    takeSteps taken ms

def migration : Migrating δ Unit := do
  acquire.adapt .execution
  let _ ← keepBooks .currentDatabase
  let _ ← keepBooks .lock
  let _ ← keepBooks .createLedger
  if let some row := (← keepBooks .partialStep).head? then
    throw (.partially (← Migration.versionOfRow row))
  let taken ← (← keepBooks .stepsTaken).mapM fun row => (Migration.takenOfRow row : Migrating δ _)
  if let some version := Migration.unknown? taken then throw (.missing version)
  takeSteps taken Migration.all
  let _ ← keepBooks .currentDatabase
  discard (keepBooks .unlock)

def migrate (db : Database δ) : Except StorageError Unit × Database δ :=
  let (result, db) := migration.run.run db
  (result.mapError MigrationError.toStorage, db)

end Database

end EventIndex.Sql
