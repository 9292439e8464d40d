import EventIndex.Json.Codec

/-!
# Records in JSON

A record is read from an object by the names of its fields, or from a list by their order. The
fields are given as data, so every record is read by the same rules: the first error in the text
counts, and then the first missing field in the order of the fields.
-/

namespace EventIndex.Json

/-- A field of a record: its name, its type, how it is read and written, and its value when it is
missing. -/
structure Field where
  name : String
  type : Type
  codec : Codec type
  missing : Option type

/-- A field that must be there. -/
def Codec.field {α : Type} (c : Codec α) (name : String) : Field :=
  ⟨name, α, c, none⟩

/-- A field that may be null and may be missing. -/
def Codec.optionalField {α : Type} (c : Codec α) (name : String) : Field :=
  ⟨name, Option α, c.optional, some none⟩

def Values : List Field → Type
  | [] => Unit
  | f :: fs => f.type × Values fs

/-- The values that have been read so far. -/
def Slots : List Field → Type
  | [] => Unit
  | f :: fs => Option f.type × Slots fs

def Values.toFields : (fs : List Field) → Values fs → List (String × Json)
  | [], _ => []
  | f :: fs, (v, vs) => (f.name, f.codec.write v) :: toFields fs vs

namespace Slots

def empty : (fs : List Field) → Slots fs
  | [] => ()
  | _ :: fs => (none, empty fs)

/-- Reads the value of the field with this name; `none` if no field has it. -/
def fill (depth : Nat) (name : String) : (fs : List Field) → Slots fs → Scan (Option (Slots fs))
  | [], _ => pure none
  | f :: fs, (slot, slots) =>
    if name = f.name then
      if slot.isSome then throw (.duplicateField name)
      else do
        colon
        let v ← f.codec.read depth
        pure (some (some v, slots))
    else do
      return (← fill depth name fs slots).map fun slots => (slot, slots)

/-- All values, unless a field that must be there is missing. -/
def values : (fs : List Field) → Slots fs → Except Error (Values fs)
  | [], _ => .ok ()
  | f :: fs, (slot, slots) =>
    match slot <|> f.missing with
    | none => .error (.missingField f.name)
    | some v => (values fs slots).map fun vs => (v, vs)

end Slots

/-- What a record is called, whether it may have other fields, and its fields. -/
structure RecordForm where
  name : String
  strict : Bool
  fields : List Field

namespace RecordForm

def count (n : Nat) : String :=
  if n = 1 then "1 element" else s!"{n} elements"

/-- What is expected where a list of the fields' values is too short. -/
def listForm (form : RecordForm) : String :=
  s!"struct {form.name} with {count form.fields.length}"

def readField (form : RecordForm) (depth : Nat) (slots : Slots form.fields) (name : String) :
    Scan (Slots form.fields) := do
  match (← Slots.fill depth name form.fields slots) with
  | some slots => pure slots
  | none =>
    if form.strict then throw (.unknownField name (form.fields.map Field.name))
    colon
    ignoreValue
    pure slots

/-- The values of the fields in their order, the first of which has the number `index`. -/
def readItems (form : RecordForm) (depth index : Nat) : (fs : List Field) → Scan (Values fs)
  | [] => pure ()
  | f :: fs => do
    if ← hasItem (index = 0) then
      let v ← f.codec.read depth
      return (v, ← readItems form depth (index + 1) fs)
    else throw (.invalidLength index form.listForm)

def read (form : RecordForm) : Reader (Values form.fields) := fun depth => do
  match (← peek) with
  | none => throw .endOfValue
  | some c =>
    if c = '[' then
      match depth with
      | 0 => throw .recursionLimit
      | depth + 1 =>
        skip
        let vs ← form.readItems depth 0 form.fields
        endList
        pure vs
    else if c = '\x7b' then
      match depth with
      | 0 => throw .recursionLimit
      | depth + 1 =>
        skip
        let slots ← foldFields (form.readField depth) true (Slots.empty form.fields)
        match Slots.values form.fields slots with
        | .error e => throw e
        | .ok vs =>
          endObject
          pure vs
    else mismatch s!"struct {form.name}"

end RecordForm

/-- Values of a type that is a record of these fields. -/
def RecordForm.codec {α : Type} (form : RecordForm) (ofValues : Values form.fields → α)
    (toValues : α → Values form.fields) : Codec α where
  read := form.read.map ofValues
  write a := object (Values.toFields form.fields (toValues a))

end EventIndex.Json
