import EventIndex.Row.Basic
import EventIndex.Topic

/-!
# Refusals

Why an event cannot be applied to its entity.
-/

namespace EventIndex

inductive Conflict where
  | recordedAt (position : Position)
  | createdAt (position : Position)
  | addedAt (position : Position)
  | grantedAt (position : Position)
  | otherContent
  | otherEvent (topic : Topic) (position : Position)
  | precedes (position last : Position)
  | tooManyApprovals
  | tooManyClaims
  | claimedOtherwise (position : Option Position)
  | claimNotAfter (position created : Position)
  | notOwed (claimant recipient : String)
  | notGranted (claimant beneficiary : String)
  | otherAmount (claimed owed : Amount)
  | overClaim (claimed remaining : Amount)
deriving DecidableEq

def Conflict.message : Conflict → String
  | recordedAt p => s!"already recorded at {p.text}"
  | createdAt p => s!"already created at {p.text}"
  | addedAt p => s!"already added at {p.text}"
  | grantedAt p => s!"already granted at {p.text}"
  | otherContent => "conflicting content at the same position"
  | otherEvent topic p => s!"{topic.name} conflicts with the event applied at {p.text}"
  | precedes p last => s!"event at {p.text} precedes last applied {last.text}"
  | tooManyApprovals => "approval count overflow"
  | tooManyClaims => "claim count overflow"
  | claimedOtherwise p =>
    let place := p.elim "unknown position" Position.text
    s!"already claimed at {place} with different data"
  | claimNotAfter p created =>
    s!"claim at {p.text} does not follow creation at {created.text}"
  | notOwed claimant recipient => s!"claimed by {claimant} but owed to {recipient}"
  | notGranted claimant beneficiary => s!"claimed by {claimant} but granted to {beneficiary}"
  | otherAmount claimed owed =>
    s!"claimed amount {claimed.text} differs from reward amount {owed.text}"
  | overClaim claimed remaining => s!"claim of {claimed.text} exceeds remaining {remaining.text}"

/-- The state of an entity that forbids an event. -/
inductive Standing where
  | absent
  | closed (status : ProposalStatus)
  | ended (status : GrantStatus)
deriving DecidableEq, Repr

def Standing.name : Standing → String
  | absent => "absent"
  | closed status => status.name
  | ended status => status.name

inductive RefusalCause where
  | integrity (conflict : Conflict)
  | invalidTransition (standing : Standing) (topic : Topic)
  /-- An event before was refused, at this position. -/
  | quarantined (since : Position)
deriving DecidableEq

structure Refusal where
  entity : Entity
  cause : RefusalCause
deriving DecidableEq

namespace Refusal

def integrity (entity : Entity) (conflict : Conflict) : Refusal :=
  ⟨entity, .integrity conflict⟩

def invalidTransition (entity : Entity) (standing : Standing) (topic : Topic) : Refusal :=
  ⟨entity, .invalidTransition standing topic⟩

def quarantined (entity : Entity) (since : Position) : Refusal :=
  ⟨entity, .quarantined since⟩

def isIntegrity (r : Refusal) : Bool :=
  r.cause matches .integrity _

def isInvalidTransition (r : Refusal) : Bool :=
  r.cause matches .invalidTransition ..

def isQuarantined (r : Refusal) : Bool :=
  r.cause matches .quarantined _

def message (r : Refusal) : String :=
  match r.cause with
  | .integrity conflict => s!"integrity violation on {r.entity.text}: {conflict.message}"
  | .invalidTransition standing topic =>
    s!"invalid transition on {r.entity.text}: {topic.name} not allowed while {standing.name}"
  | .quarantined since => s!"{r.entity.text} is quarantined since {since.text}"

end Refusal

end EventIndex
