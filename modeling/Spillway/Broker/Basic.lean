import Spillway.Queue.Basic

/-!
# Brokers

A broker keeps queues by name over one store. Here it is also decided what a process that uses the
store lives through: queues are made and dropped, the process is started anew, the database goes
away and comes back. A queue that is dropped is no longer told of the latter.
-/

namespace Spillway

/-- A queue of a broker. -/
structure Member where
  /-- Name by which the broker knows it. -/
  name : String
  /-- Number of the queue, counted as queues are made. -/
  ticket : Nat
  /-- The queue. -/
  queue : Queue

/-- Queues over a store. -/
structure Broker where
  /-- What the queues share. -/
  store : Store := {}
  /-- The queues. -/
  members : List Member := []
  /-- Bounds of queues that are made without any. -/
  defaults : Bounds := .standard
  /-- Number of the next queue. -/
  nextTicket : Nat := 0

/-- What can be seen of a queue from outside. -/
structure View where
  /-- Its totals. -/
  tally : Tally
  /-- Where it is in its life. -/
  phase : Phase
  /-- Its ids in the order of service, unless they cannot be had. -/
  references : Option (List UInt64)
  /-- For a cached queue, the totals in memory and in the table and the number of rows held
  back. -/
  tiers : Option (Tally × Tally × Nat)

namespace Broker

/-- The queue of a name. -/
def find? (b : Broker) (name : String) : Option Member := b.members.find? (·.name = name)

/-- Whether a queue of a number is there. -/
def isAlive (b : Broker) (ticket : Nat) : Bool := b.members.any (·.ticket = ticket)

/-- Put a changed queue in its place. -/
def update (b : Broker) (ticket : Nat) (queue : Queue) : Broker :=
  { b with members := b.members.map fun m => if m.ticket = ticket then { m with queue } else m }

/-- Drop the queue of a name. -/
def drop (b : Broker) (name : String) : Broker :=
  { b with members := b.members.filter (·.name ≠ name) }

/-- Work on the store. -/
def onStore {α : Type} (act : Action Store α) : Action Broker α :=
  act.focus Broker.store fun store b => { b with store }

/-- Let a queue work; the second component is the hook calls it made. -/
def work {α : Type} (m : Member) (act : Action (Desk Queue) α) (b : Broker) :
    Except Fault α × List Call × Broker :=
  let (outcome, d) := act.on { queue := m.queue, store := b.store }
  (outcome, d.calls, { b with store := d.store }.update m.ticket d.queue)

/-- Make a queue and, if asked, start it. A queue that cannot be made or started is not kept; one
of the same name is replaced. A cached queue asks to be told when the database comes back. -/
def make (name kindText idText : String) (bounds : Option Bounds) (starting : Bool) :
    Action Broker Unit := do
  let kind ← Action.require (Kind.parse kindText)
  let storageId ← Action.require (StorageId.parse idText)
  let b ← get
  let queue ← Action.require (Queue.create kind storageId (bounds.getD b.defaults))
  let ticket := b.nextTicket
  modify fun b => { b with nextTicket := ticket + 1 }
  if kind = .cached then
    onStore (modify fun s => { s with link := (s.link.prune b.isAlive).register ticket })
  let queue ←
    if starting then do
      let (outcome, d) := (Queue.ask .start).on { queue, store := (← get).store }
      onStore (set d.store)
      let _ ← Action.require outcome
      pure d.queue
    else pure queue
  modify fun b =>
    let b := b.drop name
    { b with members := b.members ++ [{ name, ticket, queue }] }

/-- Start the process anew: queues, kept connections and the link are gone, the database stays. A
new link is made and probed. -/
def restart : Action Broker Unit := do
  modify fun b =>
    let link : Link :=
      { settings := b.store.link.settings, place := b.store.link.place
        reachable := b.store.link.reachable }
    { b with members := [], store := { b.store with link } }
  let _ ← (onStore Store.ping).attempt

/-- The database goes away. Unless nobody is to notice yet, it is probed at once. -/
def loseDatabase (unnoticed : Bool) : Action Broker Unit := do
  onStore (modify fun s => { s with link := { s.link with reachable := false } })
  unless unnoticed do onStore Store.ping

/-- Let the queue of a number catch up after an outage, if it is still there. -/
def catchUp (b : Broker) (ticket : Nat) : Broker :=
  match b.members.find? (·.ticket = ticket) with
  | none => b
  | some m => (b.work m Queue.catchUp).2.2

/-- The database is found again: everyone who asked to be told and is still there catches up, in
the order in which they asked. -/
def reconnect (b : Broker) : Broker :=
  let store := b.store.markFound
  let store := { store with link := store.link.prune b.isAlive }
  store.link.watchers.foldl catchUp { b with store }

/-- An attempt to reach the database, if such attempts are being made; the first component tells
whether it was reached. Attempts are made until one of them succeeds. -/
def retry (b : Broker) : Bool × Broker :=
  if b.store.link.retrying && b.store.link.reachable then (true, b.reconnect) else (false, b)

/-- The database comes back. The result tells whether that put an end to a noticed outage. -/
def findDatabase : Action Broker Bool := .of fun b =>
  let b := { b with store := { b.store with link := { b.store.link with reachable := true } } }
  let (ended, b) := b.retry
  (.ok ended, b)

/-- What can be seen of the queue of a name. Asking for the ids may be what first notices that the
database is gone. -/
def view (name : String) (b : Broker) : Option View × Broker :=
  match b.find? name with
  | none => (none, b)
  | some m =>
    let (outcome, _, b) := b.work m (Queue.ask .references)
    let queue := m.queue
    (some {
      tally := Managed.tally queue
      phase := Managed.phase queue
      references := match outcome with
        | .ok (.ids ids) => some ids
        | _ => none
      tiers := match queue with
        | .cached q => some (q.hot.roll.tally, q.cold.tally, q.pending.length)
        | .ram _ | .durable _ => none }, b)

end Broker

end Spillway
