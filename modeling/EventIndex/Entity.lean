import EventIndex.Json.Codec
import EventIndex.Json.Record

/-!
# Entities

What the events of a contract are about: trades, proposals, rewards and grants, each with a number.
Entities are ordered by their kind and then by their number.
-/

namespace EventIndex

open Json

inductive EntityKind where
  | trade
  | proposal
  | reward
  | grant
deriving DecidableEq, Repr

namespace EntityKind

def all : List EntityKind :=
  [trade, proposal, reward, grant]

def name : EntityKind → String
  | trade => "trade"
  | proposal => "proposal"
  | reward => "reward"
  | grant => "grant"

def ofName? (s : String) : Option EntityKind :=
  all.find? (·.name == s)

def rank : EntityKind → Nat
  | trade => 0
  | proposal => 1
  | reward => 2
  | grant => 3

theorem rank_injective {a b : EntityKind} (h : a.rank = b.rank) : a = b := by
  cases a <;> cases b <;> first | rfl | cases h

@[simp] theorem ofName?_name (k : EntityKind) : ofName? k.name = some k := by
  cases k <;> rfl

instance : Ord EntityKind := ⟨compareOn rank⟩

instance : Std.TransOrd EntityKind :=
  inferInstanceAs (Std.TransCmp (compareOn rank))

instance : Std.LawfulEqOrd EntityKind where
  eq_of_compare h := rank_injective (Std.LawfulEqOrd.eq_of_compare h)

def codec : Codec EntityKind :=
  Codec.choice (all.map fun k => (k.name, k)) name

end EntityKind

/-- One entity of a contract. -/
structure Entity where
  kind : EntityKind
  id : UInt64
deriving DecidableEq, Repr

namespace Entity

def trade (id : UInt64) : Entity := ⟨.trade, id⟩

def proposal (id : UInt64) : Entity := ⟨.proposal, id⟩

def reward (id : UInt64) : Entity := ⟨.reward, id⟩

def grant (id : UInt64) : Entity := ⟨.grant, id⟩

instance : Ord Entity := ⟨compareLex (compareOn kind) (compareOn id)⟩

instance : Std.TransOrd Entity :=
  inferInstanceAs (Std.TransCmp (compareLex (compareOn kind) (compareOn id)))

instance : Std.LawfulEqOrd Entity where
  eq_of_compare {a b} h := by
    change (compare a.kind b.kind).then (compare a.id b.id) = .eq at h
    simp only [Ordering.then_eq_eq, Std.LawfulEqCmp.compare_eq_iff_eq] at h
    cases a; cases b
    simp_all

def text (e : Entity) : String :=
  s!"{e.kind.name}#{e.id.toNat}"

def form : RecordForm where
  name := "EntityRef"
  strict := false
  fields := [EntityKind.codec.field "kind", Codec.word64.field "id"]

def codec : Codec Entity :=
  form.codec (fun (kind, id, ()) => ⟨kind, id⟩) fun e => (e.kind, e.id, ())

end Entity

end EventIndex
