import EventIndex.Sql.Row

/-!
# Statements

The statements that are sent to the database. Those about a relation are written from its columns,
so that the values of a row stand under the same names when they are inserted and when they are
selected.
-/

namespace EventIndex.Sql

structure Statement where
  text : String
  /-- The values of `$1`, `$2` and so on. -/
  params : List Value
  /-- The columns of the rows that come back. -/
  returns : List Column
deriving DecidableEq

def Statement.plain (text : String) : Statement :=
  ⟨text, [], []⟩

/-- What an insertion does to a row whose key is taken. -/
inductive OnConflict where
  | refuse
  | keep
  | replace
deriving DecidableEq, Repr

/-- A relation of the database, one row of a contract to each key. -/
structure Relation where
  name : String
  columns : List Column
  /-- How many of the columns, from the first on, form the key. -/
  keySize : Nat
  onConflict : OnConflict
  /-- Whether the names of the columns stand apart from their parentheses. -/
  looseColumns : Bool
  /-- Whether the values stand apart from their parentheses. -/
  looseValues : Bool
deriving DecidableEq, Repr

namespace Relation

def commaList (items : List String) : String :=
  ", ".intercalate items

def parenthesized (loose : Bool) (items : List String) : String :=
  if loose then s!"( {commaList items} )" else s!"({commaList items})"

def columnNames (r : Relation) : List String :=
  r.columns.map Column.name

/-- The place of a parameter in an insertion. Amounts go as text. -/
def placeholder (index : Nat) (c : Column) : String :=
  match c.type with
  | .amount => s!"${index}::text::numeric"
  | _ => s!"${index}"

def conflictClause (r : Relation) : String :=
  let key := parenthesized false (r.columnNames.take r.keySize)
  match r.onConflict with
  | .refuse => ""
  | .keep => s!" ON CONFLICT {key} DO NOTHING"
  | .replace =>
    let settings := (r.columnNames.drop r.keySize).map fun name => s!"{name} = EXCLUDED.{name}"
    s!" ON CONFLICT {key} DO UPDATE SET {commaList settings}"

def insert (r : Relation) (values : List Value) : Statement where
  text :=
    let columns := parenthesized r.looseColumns r.columnNames
    let places := (r.columns.zipIdx 1).map fun (c, index) => placeholder index c
    s!"INSERT INTO {r.name} {columns} VALUES {parenthesized r.looseValues places}{r.conflictClause}"
  params := values
  returns := []

/-- The columns as they are selected. They are listed only if there are amounts, which come as
text. -/
def selection (r : Relation) : String :=
  if r.columns.any (·.type = .amount) then
    commaList (r.columns.map fun c =>
      if c.type = .amount then s!"{c.name}::text AS {c.name}" else c.name)
  else "*"

/-- Selects the rows with these values in these columns, in the order of other columns if some are
given. -/
def select (r : Relation) (given : List (String × Value)) (order : List String) : Statement where
  text :=
    let conditions := (given.zipIdx 1).map fun ((name, _), index) => s!"{name} = ${index}"
    let ordered := if order.isEmpty then "" else s!" ORDER BY {commaList order}"
    s!"SELECT {r.selection} FROM {r.name} WHERE " ++ " AND ".intercalate conditions ++ ordered
  params := given.map Prod.snd
  returns := r.columns

def delete (r : Relation) (contract : ContractId) : Statement :=
  ⟨s!"DELETE FROM {r.name} WHERE contract_id = $1", [.text contract.address], []⟩

def row (r : Relation) (values : List Value) : Row :=
  ⟨r.columnNames.zip values⟩

end Relation

end EventIndex.Sql
