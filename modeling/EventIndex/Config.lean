import EventIndex.Position
import EventIndex.Retry
import EventIndex.Text.Blank
import EventIndex.Text.Quoted

/-!
# Configuration

What the indexer is told: the contracts, the sizes of its batches, its pauses and its retries. Every
setting may be given by a variable of the environment and has a default.
-/

namespace EventIndex

structure Config where
  databaseUrl : Option String
  contracts : List String
  batchSize : UInt64
  pollInterval : UInt64
  maxRetries : UInt32
  initialBackoff : UInt64
  multiplier : Float
  maxBackoff : UInt64
  maxConnections : UInt32
  /-- Whether a worker ends when there is nothing left to fetch. -/
  stopWhenCaughtUp : Bool
  eventsFile : Option String

inductive ConfigError where
  | noContracts
  | duplicateContract (contract : String)
  | invalidBatchSize
  | invalidPollInterval
  | invalidMultiplier
  | invalidBackoffRange
  | invalidMaxConnections
  | invalidVariable (name value : String)
deriving DecidableEq, Repr

def ConfigError.message : ConfigError → String
  | noContracts => "no contracts configured and no events file given"
  | duplicateContract contract => s!"contract listed twice: {contract}"
  | invalidBatchSize => "batch_size must be > 0"
  | invalidPollInterval => "poll_interval_ms must be > 0"
  | invalidMultiplier => "backoff_multiplier must be >= 1.0"
  | invalidBackoffRange => "initial_backoff_ms must be <= max_backoff_ms"
  | invalidMaxConnections => "max_connections must be > 0"
  | invalidVariable name value => s!"invalid value for {name}: {Text.quote value}"

def commaList (s : String) : List String :=
  (s.toList.splitOn ',').map String.ofList

/-- The first element that has come before. -/
def firstRepeat? {α : Type} [DecidableEq α] (seen : List α) : List α → Option α
  | [] => none
  | a :: as => if a ∈ seen then some a else firstRepeat? (a :: seen) as

namespace Config

def default : Config where
  databaseUrl := none
  contracts := []
  batchSize := 100
  pollInterval := 1000
  maxRetries := 5
  initialBackoff := 100
  multiplier := 2
  maxBackoff := 10000
  maxConnections := 10
  stopWhenCaughtUp := false
  eventsFile := none

def variableNames : List String :=
  ["DATABASE_URL", "INDEXER_CONTRACTS", "INDEXER_BATCH_SIZE", "INDEXER_POLL_INTERVAL_MS",
    "INDEXER_MAX_RETRIES", "INDEXER_INITIAL_BACKOFF_MS", "INDEXER_MAX_BACKOFF_MS",
    "INDEXER_MAX_CONNECTIONS", "INDEXER_STOP_WHEN_CAUGHT_UP", "INDEXER_EVENTS_FILE"]

/-- The value of a variable, unless it is blank. -/
def valueOf? (lookup : String → Option String) (name : String) : Option String :=
  (lookup name).filter fun s => !Text.isBlankText s

/-- The value of a variable as `parse` reads it between blanks, or the default. -/
def setting {α : Type} (lookup : String → Option String) (name : String)
    (parse : String → Option α) (default : α) : Except ConfigError α :=
  match valueOf? lookup name with
  | none => .ok default
  | some s => (parse (Text.trim s)).elim (.error (.invalidVariable name s)) .ok

/-- A number below `bound`, which may have a plus sign. -/
def natBelow? (bound : Nat) (s : String) : Option Nat :=
  match s.toList with
  | '+' :: cs => (Text.natOfDigits? cs).filter (· < bound)
  | cs => (Text.natOfDigits? cs).filter (· < bound)

def word32? (s : String) : Option UInt32 :=
  (natBelow? UInt32.size s).map UInt32.ofNat

def word64? (s : String) : Option UInt64 :=
  (natBelow? UInt64.size s).map UInt64.ofNat

def bool? : String → Option Bool
  | "true" => some true
  | "false" => some false
  | _ => none

/-- Reads the settings from the variables of the environment. The factor of the pauses has none. -/
def ofVariables (lookup : String → Option String) : Except ConfigError Config := do
  return {
    databaseUrl := valueOf? lookup "DATABASE_URL"
    contracts := (((valueOf? lookup "INDEXER_CONTRACTS").elim [] commaList).map Text.trim).filter
      (· ≠ "")
    batchSize := ← setting lookup "INDEXER_BATCH_SIZE" word64? default.batchSize
    pollInterval := ← setting lookup "INDEXER_POLL_INTERVAL_MS" word64? default.pollInterval
    maxRetries := ← setting lookup "INDEXER_MAX_RETRIES" word32? default.maxRetries
    initialBackoff := ← setting lookup "INDEXER_INITIAL_BACKOFF_MS" word64? default.initialBackoff
    multiplier := default.multiplier
    maxBackoff := ← setting lookup "INDEXER_MAX_BACKOFF_MS" word64? default.maxBackoff
    maxConnections := ← setting lookup "INDEXER_MAX_CONNECTIONS" word32? default.maxConnections
    stopWhenCaughtUp :=
      ← setting lookup "INDEXER_STOP_WHEN_CAUGHT_UP" bool? default.stopWhenCaughtUp
    eventsFile := valueOf? lookup "INDEXER_EVENTS_FILE" }

def fault? (c : Config) : Option ConfigError :=
  if c.contracts.isEmpty && c.eventsFile.isNone then some .noContracts
  else if let some contract := firstRepeat? [] c.contracts then some (.duplicateContract contract)
  else if c.batchSize = 0 then some .invalidBatchSize
  else if c.pollInterval = 0 then some .invalidPollInterval
  else if c.multiplier < 1 then some .invalidMultiplier
  else if c.maxBackoff < c.initialBackoff then some .invalidBackoffRange
  else if c.maxConnections = 0 then some .invalidMaxConnections
  else none

def validate (c : Config) : Except ConfigError Unit :=
  c.fault?.elim (.ok ()) .error

def contractIds (c : Config) : List ContractId :=
  c.contracts.map ContractId.mk

def retryPolicy (c : Config) : RetryPolicy where
  maxRetries := c.maxRetries
  initialBackoff := c.initialBackoff
  multiplier := c.multiplier
  maxBackoff := c.maxBackoff

open Json

def form : RecordForm where
  name := "IndexerConfig"
  strict := false
  fields := [Codec.string.optionalField "database_url", Codec.string.list.field "contracts",
    Codec.size.field "batch_size", Codec.word64.field "poll_interval_ms",
    Codec.word32.field "max_retries", Codec.word64.field "initial_backoff_ms",
    Codec.float.field "backoff_multiplier", Codec.word64.field "max_backoff_ms",
    Codec.word32.field "max_connections", Codec.bool.field "stop_when_caught_up",
    Codec.path.optionalField "events_file"]

def codec : Codec Config :=
  form.codec
    (fun (databaseUrl, contracts, batchSize, pollInterval, maxRetries, initialBackoff, multiplier,
        maxBackoff, maxConnections, stopWhenCaughtUp, eventsFile, ()) =>
      ⟨databaseUrl, contracts, batchSize, pollInterval, maxRetries, initialBackoff, multiplier,
        maxBackoff, maxConnections, stopWhenCaughtUp, eventsFile⟩)
    fun c => (c.databaseUrl, c.contracts, c.batchSize, c.pollInterval, c.maxRetries,
      c.initialBackoff, c.multiplier, c.maxBackoff, c.maxConnections, c.stopWhenCaughtUp,
      c.eventsFile, ())

end Config

end EventIndex
