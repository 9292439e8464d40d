import EventIndex.Json.Parser
import EventIndex.Json.Printer
import EventIndex.Sql.Numeric
import EventIndex.Time.Text

/-!
# Database values

The values of parameters and of the columns of rows.
-/

namespace EventIndex.Sql

inductive Value where
  | null
  | text (s : String)
  | numeric (n : Numeric)
  | notANumber
  | bigint (n : Int)
  | bytes (bs : List UInt8)
  | boolean (b : Bool)
  | json (j : Json)
  | instant (t : Timestamp)
deriving DecidableEq

def Value.optional {α : Type} (f : α → Value) (a : Option α) : Value :=
  a.elim .null f

inductive ColumnType where
  | text
  /-- Decimal numbers, for words of 64 bits. -/
  | numeric
  /-- Decimal numbers that come and go as text, for amounts. -/
  | amount
  | bigint
  | bytes
  | boolean
  | json
  | instant
deriving DecidableEq, Repr

structure Column where
  name : String
  type : ColumnType
deriving DecidableEq, Repr

end EventIndex.Sql
