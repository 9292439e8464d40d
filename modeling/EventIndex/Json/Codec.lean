import EventIndex.Json.Printer
import EventIndex.Json.Reader

/-!
# Types in JSON

How the values of a type are read and written. What is written is read back.
-/

namespace EventIndex.Json

structure Codec (α : Type) where
  read : Reader α
  write : α → Json

namespace Codec

variable {α β : Type}

/-- The same JSON for another type of the same values. -/
def map (c : Codec α) (f : α → β) (g : β → α) : Codec β :=
  ⟨c.read.map f, fun b => c.write (g b)⟩

def json : Codec Json := ⟨.json, id⟩

def string : Codec String := ⟨.string, .string⟩

def path : Codec String := ⟨fun _ => stringFor "path string", .string⟩

def bool : Codec Bool := ⟨.bool, .bool⟩

def word32 : Codec UInt32 := ⟨.word32, fun n => ofNat n.toNat⟩

def word64 : Codec UInt64 := ⟨.word64, fun n => ofNat n.toNat⟩

def size : Codec UInt64 := ⟨.size, fun n => ofNat n.toNat⟩

def float : Codec Float := ⟨.float, fun x => .number (Number.floatText x)⟩

/-- Amounts are written as strings of digits. -/
def amount : Codec Amount := ⟨.amount, fun a => .string a.text⟩

def optional (c : Codec α) : Codec (Option α) :=
  ⟨c.read.optional, fun a => a.elim .null c.write⟩

def list (c : Codec α) : Codec (List α) :=
  ⟨c.read.list, fun as => .array (as.map c.write)⟩

/-- Values written as a string that `parse` understands. -/
def parsed (expected : String) (parse : String → Except Error α) (text : α → String) : Codec α :=
  ⟨.parsed expected parse, fun a => .string (text a)⟩

def choice (names : List (String × α)) (name : α → String) : Codec α :=
  ⟨.choice names, fun a => .string (name a)⟩

def timestamp : Codec Timestamp :=
  parsed "an RFC 3339 formatted date and time string"
    (fun s => (Timestamp.ofText s).mapError .time) Timestamp.text

def text (c : Codec α) (a : α) : String :=
  (c.write a).text

/-- Reads a text that holds one value. -/
def ofText (c : Codec α) (s : String) : Except Error α :=
  c.read.read s

/-- The value as other values are kept, with sorted fields. -/
def toJson (c : Codec α) (a : α) : Json :=
  (c.write a).sorted

end Codec

end EventIndex.Json
