import EventIndex.Hex
import EventIndex.Sql.Database
import EventIndex.Store.Planned

/-!
# Databases that follow a script

A stand-in for a database, which keeps nothing. Its replies are planned by how the texts of the
statements begin. A statement for which there is no plan succeeds without rows.
-/

namespace EventIndex.Sql

/-- The value that a column of this type has when the script gives this JSON for it. -/
def ColumnType.ofJson (type : ColumnType) (j : Json) : Value :=
  match type, j with
  | _, .null => .null
  | .numeric, .string "NaN" => .notANumber
  | .numeric, .string s => (Numeric.ofText? s).elim (.text s) .numeric
  | .bigint, .number s => (Text.intOfDigits? s.toList).elim (.text s) .bigint
  | .bytes, .string s => (Hex.decode (s.length / 2) s).toOption.elim (.text s) .bytes
  | .boolean, .bool b => .boolean b
  | .json, .string s => (Json.ofText s).toOption.elim (.text s) .json
  | .instant, .string s =>
    (Timestamp.ofText s).toOption.elim (.text s) fun t => .instant t.toMicros
  | _, .string s => .text s
  | _, other => .json other

inductive ScriptedReply where
  | rows (cells : List (List (String × Json)))
  | refused (code : Option String) (reason : String)
  | hungUp

/-- The reply to a statement: its columns say what the values are. -/
def ScriptedReply.toReply (columns : List Column) : ScriptedReply → Reply
  | rows cells => .rows (cells.map fun row =>
      ⟨columns.map fun c => (c.name, c.type.ofJson ((row.lookup c.name).getD .null))⟩)
  | refused code reason => .refused code reason
  | hungUp => .hungUp

structure ScriptedServer where
  script : List (Planned ScriptedReply)
  /-- The statements that were received, the last one first. -/
  received : List Statement

namespace ScriptedServer

def ofScript (script : List (Planned ScriptedReply)) : ScriptedServer :=
  ⟨script, []⟩

/-- The text by which the script names the opening of a connection. -/
def startup : String := "startup"

def reply (text : String) (columns : List Column) (s : ScriptedServer) : Reply × ScriptedServer :=
  let (reply, script) := Planned.take text s.script
  (reply.elim (.rows []) (ScriptedReply.toReply columns), { s with script := script })

instance : Server ScriptedServer where
  connect := reply startup []
  execute st s :=
    let (answer, s) := s.reply st.text st.returns
    (answer, { s with received := st :: s.received })

end ScriptedServer

end EventIndex.Sql
