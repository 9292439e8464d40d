import EventIndex.Indexer.Run
import EventIndex.Sql.Migration

/-!
# The command

What the command does from start to end: it reads its settings and the events, opens the store, runs
the indexer, and tells how each contract fared. It is silent until its settings are known to be
right.
-/

namespace EventIndex

/-- Why the command has failed, and what was behind it. -/
structure CommandError where
  context : String
  cause : Option String
deriving DecidableEq, Repr

namespace CommandError

/-- The lines of a text, each set in from the margin. -/
def indent (s : String) : String :=
  "\n".intercalate (((s.toList.splitOn '\n').map String.ofList).map fun line => s!"    {line}")

def text (e : CommandError) : String :=
  match e.cause with
  | none => s!"Error: {e.context}\n"
  | some cause => s!"Error: {e.context}\n\nCaused by:\n{indent cause}\n"

end CommandError

/-- What the command needs of the system that it runs on, where `δ` is the type of databases. -/
structure Host (m : Type → Type) (δ : Type) where
  /-- The value of a variable of the environment. -/
  setting : String → Option String
  /-- The content of a file, or why it cannot be read. -/
  contentOf : String → m (Except String String)
  note : Line → m Unit
  now : m Timestamp
  pause : UInt64 → m Unit
  /-- The database at an address. -/
  database : String → m (Except Sql.Error δ)
  /-- Takes leave of a database. -/
  release : δ → m Unit

namespace Host

variable {m : Type → Type} [Monad m] {δ σ ρ : Type} [Store σ] [EventSource ρ]

/-- Answers all effects from the state. The journal, the clock and pauses are those of the host. -/
def handler (host : Host m δ) : Handler Effect.signature (StateT (Desk σ ρ) m) where
  answer e := fun d => pure (d.answer e)
  note line := fun d => do
    host.note line
    pure ((), d)
  now := fun d => do return (← host.now, d)
  pause ms := fun d => do
    host.pause ms
    pure ((), d)

end Host

/-- A part of the command, which may fail. -/
abbrev Command (m : Type → Type) := ExceptT CommandError m

namespace CommandLine

variable {m : Type → Type} [Monad m] {δ σ ε α : Type}

/-- Fails with a context if there is an error. -/
def expect (context : String) (message : ε → String) (result : Except ε α) : Command m α :=
  ExceptT.mk (pure (result.mapError fun e => ⟨context, some (message e)⟩))

def say (host : Host m δ) (level : Level) (message : String) : m Unit :=
  host.note (.command level message)

/-- The events of the configured file, or none. -/
def loadEvents (host : Host m δ) (config : Config) : Command m MemorySource := do
  match config.eventsFile with
  | none => pure .empty
  | some path =>
    let content : Except String String ← ExceptT.lift (host.contentOf path)
    let source ← expect s!"failed to load events from {path}" SourceError.message do
      let text ← content.mapError fun reason => SourceError.unreadable s!"{path}: {reason}"
      MemorySource.ofLines text
    ExceptT.lift (host.note (.info "loaded events file"
      [("path", path), ("events", toString source.size)]))
    pure source

/-- The configured contracts, or else those that have events. -/
def withContracts (config : Config) (source : MemorySource) : Config :=
  if config.contracts.isEmpty then
    { config with contracts := source.contracts.map ContractId.address }
  else config

/-- How many rounds a worker may work: as many as there can be before it has caught up, or else
without end as far as anyone will see. -/
def roundLimit (config : Config) (source : MemorySource) : Nat :=
  if config.stopWhenCaughtUp then source.rounds else UInt64.size

def tellReport (host : Host m δ) (r : WorkerReport) : m Unit :=
  match r.exit with
  | .paused e =>
    say host .error s!"{r.contract.address} paused after {r.batches} batches: {e.message}"
  | exit =>
    say host .info
      s!"{r.contract.address} {exit.name} after {r.batches} batches, {r.events} events"

def tellMetrics (host : Host m δ) (metrics : Metrics) : m Unit :=
  let counts := s!"{metrics.eventsProjected} projected, {metrics.decodeFailures} decode failures, "
    ++ s!"{metrics.refusals} rejected, {metrics.transientRetries} retries"
  say host .info s!"Indexed {metrics.eventsIndexed} events ({counts})"

/-- Runs the indexer over a store, tells how each contract fared, and gives back the store. -/
def serve [Store σ] (host : Host m δ) (config : Config) (source : MemorySource) (store : σ) :
    m (Except CommandError Unit × σ) := do
  let rounds := roundLimit config source
  let (result, world) ← (Indexer.run host.handler config rounds).run (World.start store source)
  match result with
  | .error e => pure (.error ⟨"indexer failed to start", some e.message⟩, world.store)
  | .ok reports =>
    reports.forM (tellReport host)
    tellMetrics host world.metrics
    if reports.any WorkerReport.isPaused then
      pure (.error ⟨"one or more contract workers paused", none⟩, world.store)
    else pure (.ok (), world.store)

variable [Sql.Server δ]

def connectContext : String := "failed to connect to database"

/-- Connects to a database, takes the migrations that are due, and serves from it. -/
def serveFrom (host : Host m δ) (config : Config) (source : MemorySource) (server : δ) :
    m (Except CommandError Unit × Sql.Database δ) := do
  match Sql.Database.connect server with
  | (.error e, db) => pure (.error ⟨connectContext, some e.toStorage.message⟩, db)
  | (.ok (), db) =>
    host.note (.info "database connection established" [])
    host.note (.info "running database migrations" [])
    match db.migrate with
    | (.error e, db) =>
      pure (.error ⟨"failed to run database migrations", some e.message⟩, db)
    | (.ok (), db) =>
      host.note (.info "migrations completed" [])
      serve host config source db

def serveAt (host : Host m δ) (config : Config) (source : MemorySource) (address : String) :
    Command m Unit := do
  ExceptT.lift (host.note (.info "connecting to database"
    [("max_connections", toString config.maxConnections.toNat)]))
  let fail (e : Sql.Error) : CommandError := ⟨connectContext, some e.toStorage.message⟩
  ExceptT.mk (pure ((Sql.Database.checkAddress address).mapError fail))
  let server : δ ← ExceptT.mk (return (← host.database address).mapError fail)
  let (result, db) ← ExceptT.lift (serveFrom host config source server)
  ExceptT.lift (host.release db.server)
  ExceptT.mk (pure result)
  ExceptT.lift (host.note (.info "closing database connection" []))

/-- Serves from memory; nothing is kept. -/
def serveFromMemory (host : Host m δ) (config : Config) (source : MemorySource) :
    Command m Unit := do
  ExceptT.lift (say host .warn "DATABASE_URL not set, indexing into memory")
  let (result, _) ← ExceptT.lift (serve host config source MemoryStore.empty)
  ExceptT.mk (pure result)

def run (host : Host m δ) : Command m Unit := do
  let settingsContext := "invalid indexer configuration"
  let config ← expect settingsContext ConfigError.message (Config.ofVariables host.setting)
  let source ← loadEvents host config
  let config := withContracts config source
  expect settingsContext ConfigError.message config.validate
  ExceptT.lift do
    say host .info "Starting Academy Indexer"
    say host .info ("Contracts: " ++ ", ".intercalate config.contracts)
    say host .info s!"Batch size: {config.batchSize}"
  match config.databaseUrl with
  | some address => serveAt host config source address
  | none => serveFromMemory host config source
  ExceptT.lift (say host .info "Shutting down indexer")

end CommandLine

end EventIndex
