import EventIndex.Error
import EventIndex.Text.Blank
import Std.Data.ExtTreeMap

/-!
# Event sources

Where the events come from. A source in memory keeps the events of each contract in the order in
which they were added, and delivers them in the order of their positions.
-/

namespace EventIndex

/-- A source of events. It may also ask that the work be stopped. -/
class EventSource (ρ : Type) where
  /-- At most `limit` events of a contract that are positioned after `after`. -/
  fetch : (contract : ContractId) → (after : Option Position) → (limit : Nat) → ρ →
    Except SourceError (List RawEvent) × ρ
  asksToStop : ρ → Bool

structure MemorySource where
  events : Std.ExtTreeMap ContractId (List RawEvent)

namespace MemorySource

def empty : MemorySource :=
  ⟨∅⟩

/-- The events of a contract as they were added. -/
def eventsOf (s : MemorySource) (contract : ContractId) : List RawEvent :=
  s.events.getD contract []

def push (s : MemorySource) (e : RawEvent) : MemorySource :=
  ⟨s.events.insert e.contract (s.eventsOf e.contract ++ [e])⟩

def pushAll (s : MemorySource) (es : List RawEvent) : MemorySource :=
  es.foldl push s

def ofEvents (es : List RawEvent) : MemorySource :=
  empty.pushAll es

/-- The contracts with events, in order. -/
def contracts (s : MemorySource) : List ContractId :=
  s.events.keys

def size (s : MemorySource) : Nat :=
  s.events.foldl (fun size _ es => size + es.length) 0

/-- More rounds than a worker needs until there is nothing left for it. -/
def rounds (s : MemorySource) : Nat :=
  s.size + 2

/-- Events in the order of their positions; events at one position stay in order. -/
def sortEvents (es : List RawEvent) : List RawEvent :=
  es.mergeSort fun a b => a.position ≤ b.position

def select (s : MemorySource) (contract : ContractId) (after : Option Position) : List RawEvent :=
  sortEvents ((s.eventsOf contract).filter fun e => after.all (· < e.position))

instance : EventSource MemorySource where
  fetch contract after limit s := (.ok ((s.select contract after).take limit), s)
  asksToStop _ := false

/-- The lines of a text. A line ends with a line feed, which a carriage return may precede. -/
def linesOf (s : String) : List String :=
  let lines := s.toList.splitOn '\n'
  let ended := lines.dropLast.map fun cs => if cs.getLast? = some '\r' then cs.dropLast else cs
  let last := String.ofList (lines.getLast?.getD [])
  ended.map String.ofList ++ if last = "" then [] else [last]

def eventOfLine (line : String) (number : Nat) : Except SourceError RawEvent :=
  (RawEvent.codec.ofText line).mapError fun e => .invalidLine number e.message

/-- Reads one event from each line that is not blank. -/
def ofLines (s : String) : Except SourceError MemorySource := do
  let numbered := (linesOf s).zipIdx 1
  let lines := numbered.filter fun (line, _) => !Text.isBlankText line
  return ofEvents (← lines.mapM fun (line, number) => eventOfLine line number)

end MemorySource

/-- A source that gives planned answers first, whatever it is asked. When these are used up it
delivers from memory. It can be made to ask for a stop as soon as a fetch gives no events. -/
structure PlannedSource where
  memory : MemorySource
  plan : List (Except SourceError (List RawEvent))
  stopsWhenDrained : Bool
  drained : Bool

namespace PlannedSource

def rounds (s : PlannedSource) : Nat :=
  s.plan.length + s.memory.rounds

def empty (stopsWhenDrained : Bool) : PlannedSource :=
  ⟨.empty, [], stopsWhenDrained, false⟩

def fetch (contract : ContractId) (after : Option Position) (limit : Nat) (s : PlannedSource) :
    Except SourceError (List RawEvent) × PlannedSource :=
  let (answer, plan) :=
    match s.plan with
    | answer :: plan => (answer, plan)
    | [] => (.ok ((s.memory.select contract after).take limit), [])
  let nothing := answer.toOption.any List.isEmpty
  (answer, { s with plan := plan, drained := s.drained || s.stopsWhenDrained && nothing })

instance : EventSource PlannedSource where
  fetch := fetch
  asksToStop s := s.drained

end PlannedSource

end EventIndex
