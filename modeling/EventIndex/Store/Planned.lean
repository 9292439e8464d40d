/-!
# Planned outcomes

Outcomes that are planned for calls by their names: the first one for a call lets some calls pass,
is given to the next one, and is then gone.
-/

namespace EventIndex

structure Planned (β : Type) where
  fits : String → Bool
  /-- How many calls pass before it. -/
  skip : Nat
  outcome : β

namespace Planned

variable {β : Type}

def forCall (name : String) (skip : Nat) (outcome : β) : Planned β :=
  ⟨(· == name), skip, outcome⟩

/-- An outcome for all that begins in one way. -/
def forStart (start : String) (skip : Nat) (outcome : β) : Planned β :=
  ⟨fun call => start.toList.isPrefixOf call.toList, skip, outcome⟩

/-- The outcome of a call, if one is planned, and what remains of the plan. -/
def take (call : String) : List (Planned β) → Option β × List (Planned β)
  | [] => (none, [])
  | p :: ps =>
    if p.fits call then
      match p.skip with
      | 0 => (some p.outcome, ps)
      | n + 1 => (none, { p with skip := n } :: ps)
    else
      let (outcome, ps) := take call ps
      (outcome, p :: ps)

end Planned

end EventIndex
