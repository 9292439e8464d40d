import EventIndex.Amount
import EventIndex.Position
import EventIndex.Sql.Value
import EventIndex.Store.Error

/-!
# Rows of the database

The values of a row by the names of their columns, and how they are read. Reading stops at the first
column that does not hold what is asked for.
-/

namespace EventIndex.Sql

/-- Why the value of a column cannot be taken out of a row. -/
inductive ColumnFlaw where
  | null
  | notRepresentable
  | notANumber
  | otherType
deriving DecidableEq, Repr

def ColumnFlaw.message : ColumnFlaw → String
  | null => "unexpected null; try decoding as an `Option`"
  | notRepresentable => "value not representable as rust_decimal::Decimal"
  | notANumber => "Decimal does not support NaN values"
  | otherType => "mismatched types"

/-- Why a row is no record. -/
inductive RowError where
  | undecodable (column : String) (flaw : ColumnFlaw)
  | invalid (column value : String)
  | badKey (column : String) (e : KeyError)
deriving DecidableEq, Repr

namespace RowError

def message : RowError → String
  | undecodable column flaw =>
    s!"error occurred while decoding column \"{column}\": {flaw.message}"
  | invalid column value => s!"column {column} holds invalid value {value}"
  | badKey column e => s!"column {column}: {e.message}"

def toStorage (e : RowError) : StorageError :=
  .permanent e.message

end RowError

namespace Value

def asText : Value → Except ColumnFlaw String
  | text s => .ok s
  | null => .error .null
  | _ => .error .otherType

/-- The number as a decimal holds it. -/
def asNumeric : Value → Except ColumnFlaw Numeric
  | numeric n => n.fit?.elim (.error .notRepresentable) .ok
  | notANumber => .error .notANumber
  | null => .error .null
  | _ => .error .otherType

def asBigint : Value → Except ColumnFlaw Int
  | bigint n => .ok n
  | null => .error .null
  | _ => .error .otherType

def asBytes : Value → Except ColumnFlaw (List UInt8)
  | bytes bs => .ok bs
  | null => .error .null
  | _ => .error .otherType

def asBoolean : Value → Except ColumnFlaw Bool
  | boolean b => .ok b
  | null => .error .null
  | _ => .error .otherType

def asJson : Value → Except ColumnFlaw Json
  | json j => .ok j
  | null => .error .null
  | _ => .error .otherType

def asInstant : Value → Except ColumnFlaw Timestamp
  | instant t => .ok t
  | null => .error .null
  | _ => .error .otherType

end Value

structure Row where
  cells : List (String × Value)
deriving DecidableEq

namespace Row

variable {α : Type}

/-- The value of a column; a column that the row lacks is null. -/
def get (r : Row) (column : String) : Value :=
  (r.cells.lookup column).getD .null

def read (as : Value → Except ColumnFlaw α) (r : Row) (column : String) : Except RowError α :=
  (as (r.get column)).mapError (.undecodable column)

def text : Row → String → Except RowError String :=
  read Value.asText

def json : Row → String → Except RowError Json :=
  read Value.asJson

def instant : Row → String → Except RowError Timestamp :=
  read Value.asInstant

def boolean : Row → String → Except RowError Bool :=
  read Value.asBoolean

/-- A word of 64 bits, which is kept as a number. -/
def word64 (r : Row) (column : String) : Except RowError UInt64 := do
  let n ← r.read Value.asNumeric column
  match n.whole? with
  | some (.ofNat k) =>
    if k < UInt64.size then pure (UInt64.ofNat k) else throw (.invalid column n.text)
  | _ => throw (.invalid column n.text)

def word32 (r : Row) (column : String) : Except RowError UInt32 := do
  let n ← r.read Value.asBigint column
  match n with
  | .ofNat k =>
    if k < UInt32.size then pure (UInt32.ofNat k) else throw (.invalid column (toString n))
  | _ => throw (.invalid column (toString n))

/-- An amount, which comes as text. -/
def amount (r : Row) (column : String) : Except RowError Amount := do
  let s ← r.read Value.asText column
  match (Text.intOfSigned? s.toList).bind Amount.ofInt? with
  | some a => pure a
  | none => throw (.invalid column s)

/-- A position, which is kept as its key. -/
def position (r : Row) (column : String) : Except RowError Position := do
  (Position.ofKey (← r.read Value.asBytes column)).mapError (.badKey column)

/-- What `read` reads, unless the column is null. -/
def optional (read : Row → String → Except RowError α) (r : Row) (column : String) :
    Except RowError (Option α) :=
  if r.get column = .null then pure none else some <$> read r column

end Row

end EventIndex.Sql
