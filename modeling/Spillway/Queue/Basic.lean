import Spillway.Queue.Contract
import Spillway.Queue.Kind

/-!
# Queues of any kind

A queue is of one of the three kinds. It is asked through the contract, whatever its kind.
-/

namespace Spillway

/-- A queue of any kind. -/
inductive Queue
  | ram (q : Ram)
  | durable (q : Durable)
  | cached (q : Cached)

namespace Queue

/-- A new queue of a kind; its bounds must be consistent. -/
def create (kind : Kind) (storageId : StorageId) (bounds : Bounds) : Except Fault Queue :=
  match kind with
  | .ram => .ram <$> Ram.create storageId bounds
  | .durable => .durable <$> Durable.create storageId bounds
  | .cached => .cached <$> Cached.create storageId bounds

/-- The kind of a queue. -/
def kind : Queue → Kind
  | .ram _ => .ram
  | .durable _ => .durable
  | .cached _ => .cached

/-- Where a queue keeps its entries, in a word. -/
def tierName (q : Queue) : String :=
  match q.kind with
  | .ram => "memory"
  | .durable => "relational"
  | .cached => "cache"

instance : Managed Queue where
  storageId
    | .ram q => q.storageId
    | .durable q => q.storageId
    | .cached q => q.storageId
  bounds
    | .ram q => q.bounds
    | .durable q => q.bounds
    | .cached q => q.bounds
  phase
    | .ram q => q.phase
    | .durable q => q.phase
    | .cached q => q.phase
  tally
    | .ram q => q.roll.tally
    | .durable q => q.tally
    | .cached q => q.index.tally
  hooks
    | .ram q => q.hooks
    | .durable q => q.hooks
    | .cached q => q.hooks

/-- Name of a durable queue's part of the table. -/
def partName? : Queue → Option String
  | .durable q => some q.name
  | .ram _ | .cached _ => none

/-- The same queue with other hooks. -/
def withHooks (hooks : Hooks) : Queue → Queue
  | .ram q => .ram (Contract.withHooks hooks q)
  | .durable q => .durable (Contract.withHooks hooks q)
  | .cached q => .cached (Contract.withHooks hooks q)

/-- Let a queue of one kind work at the desk of a queue of any kind. -/
def atDesk {Q α : Type} (wrap : Q → Queue) (q : Q) (act : Action (Desk Q) α) (d : Desk Queue) :
    Except Fault α × Desk Queue :=
  let (outcome, e) := act.on { queue := q, store := d.store, calls := d.calls }
  (outcome, { queue := wrap e.queue, store := e.store, calls := e.calls })

/-- Answer a request, whatever the kind. -/
def ask (request : Request) : Action (Desk Queue) Reply := .of fun d =>
  match d.queue with
  | .ram q => atDesk .ram q (serve request) d
  | .durable q => atDesk .durable q (serve request) d
  | .cached q => atDesk .cached q (serve request) d

/-- Catch up after an outage; only cached queues have anything to catch up with. -/
def catchUp : Action (Desk Queue) Unit := .of fun d =>
  match d.queue with
  | .cached q => atDesk .cached q Cached.catchUp d
  | .ram _ | .durable _ => (.ok (), d)

/-- Change an entry in place, in a durable queue; the result is `none` for queues of other
kinds. -/
def modifyEntry (e : Entry) : Action (Desk Queue) (Option Bool) := .of fun d =>
  match d.queue with
  | .durable q => atDesk .durable q (some <$> Durable.modifyEntry e) d
  | .ram _ | .cached _ => (.ok none, d)

end Queue

end Spillway
