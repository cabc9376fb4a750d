import Spillway.Queue.Desk

/-!
# Durable queues

A queue whose entries are rows of the table. It keeps its totals itself, so that its size is known
without asking the table; they follow what each statement reports. A statement that fails changes
neither the rows nor the totals.
-/

namespace Spillway

/-- A queue in the table. -/
structure Durable where
  /-- Name of the queue. -/
  storageId : StorageId
  /-- How much it may hold. -/
  bounds : Bounds
  /-- Where it is in its life. -/
  phase : Phase := .uninitialized
  /-- The totals of its rows. -/
  tally : Tally := {}
  /-- What it calls. -/
  hooks : Hooks := {}

namespace Durable

instance : Managed Durable where
  storageId := Durable.storageId
  bounds := Durable.bounds
  phase := Durable.phase
  tally := Durable.tally
  hooks := Durable.hooks

/-- A new queue; its bounds must be consistent. -/
def create (storageId : StorageId) (bounds : Bounds) : Except Fault Durable := do
  bounds.validate
  return { storageId, bounds }

/-- Name of its part of the table. -/
def name (q : Durable) : String := q.storageId.text

open Desk

/-- Run a statement on the queue's part of the table. -/
def ask {α : Type} (task : Task) (statement : String → Statement α) : Action (Desk Durable) α := do
  call task (statement (← theQueue).name)

/-- Change the totals. -/
def retally (change : Tally → Tally) : Action (Desk Durable) Unit :=
  changeQueue fun q => { q with tally := change q.tally }

/-- Delete something and take it off the totals. -/
def deleting {α : Type} [Slotted α] (task : Task) (statement : String → Statement (List α)) :
    Action (Desk Durable) (List α) := changing do
  let deleted ← ask task statement
  retally (·.subtractAll deleted)
  return deleted

/-- Write entries and add the new ones to the totals; the result is the number of those. -/
def write (entries : List Entry) : Action (Desk Durable) Nat := do
  let added ← ask .addEntries fun name => Statement.addEntries name entries
  let fresh := ((entries.zip added).filter (·.2)).map (·.1)
  retally (·.addAll fresh)
  return fresh.length

/-- Make the queue active and read its totals from the table, which is made if need be. -/
def start : Action (Desk Durable) Unit := do
  requireAlive
  onStore Store.createTable
  let tally ← ask .count Statement.count
  changeQueue fun q => { q with tally, phase := .active }

/-- Close the queue; its rows stay. -/
def shutdown : Action (Desk Durable) Unit := do
  if (← theQueue).phase = .destroyed then return
  changeQueue fun q => { q with phase := .shutdown }
  announce true

/-- Destroy the queue and its rows. -/
def destroy : Action (Desk Durable) Unit := do
  if (← theQueue).phase = .destroyed then return
  let _ ← ask .deleteAll Statement.deleteAll
  changeQueue fun q => { q with phase := .destroyed, tally := .zero }
  announce true

/-- Store the entries of a batch whose ids are new. -/
def put (batch : List Entry) (bypass : Bool) : Action (Desk Durable) Unit :=
  framingPut batch bypass do
    if batch.isEmpty then return false
    changing do
      requireRoom
      let _ ← write batch
    return true

/-- The entries of a head window. -/
def peek (w : Window) (band : Band) : Action (Desk Durable) (List Entry) :=
  reading (ask .getEntries fun name => Statement.getEntries name w band)

/-- The entries served before a stored one; none if it is not stored. -/
def peekBefore (limit : Option Entry) : Action (Desk Durable) (List Entry) := reading do
  match limit with
  | some e => ask .getEntriesWithLimit fun name => Statement.getBefore name e.id
  | none => return []

/-- The entries of a tail window, last first. -/
def peekLowest (w : Window) (limit : Option Entry) (leaveOne : Bool) :
    Action (Desk Durable) (List Entry) :=
  reading (ask .getLowest fun name => Statement.getLowest name w (limit.map Entry.key) leaveOne)

/-- Take a tail window, last first. -/
def takeLowest (w : Window) (limit : Option Entry) (leaveOne : Bool) :
    Action (Desk Durable) (List Entry) :=
  deleting .takeLowest fun name => Statement.takeLowest name w (limit.map Entry.key) leaveOne

/-- Take a head window. -/
def take (w : Window) (low high : Priority) : Action (Desk Durable) (List Entry) :=
  deleting .takeEntries fun name => Statement.takeEntries name w (.between low high)

/-- Remove the first entries; the result is their number. -/
def removeFirst (count : Nat) : Action (Desk Durable) Nat := do
  return (← deleting .deleteFirst fun name => Statement.deleteFirst name count).length

/-- Remove a head window; the result is the number of its entries. -/
def removeWindow (w : Window) (low high : Priority) : Action (Desk Durable) Nat := do
  return (← take w low high).length

/-- Remove what is served before the key of an entry, and what stands under it if `inclusive`. -/
def removeUpTo (limit : Entry) (inclusive : Bool) : Action (Desk Durable) Nat := do
  return (← deleting .deleteUpTo fun name => Statement.deleteUpTo name limit.key inclusive).length

/-- Remove the entries that need not survive a restart. -/
def removeTransient : Action (Desk Durable) Nat := do
  return (← deleting .deleteTransient Statement.deleteTransient).length

/-- Remove all entries. -/
def clear : Action (Desk Durable) Nat := changing do
  let removed ← ask .deleteAll Statement.deleteAll
  retally fun _ => .zero
  return removed

/-- The slots in the order of service. -/
def slots : Action (Desk Durable) (List Slot) := reading (ask .getSlots Statement.getSlots)

/-- The ids in the order of service. -/
def references : Action (Desk Durable) (List UInt64) := do
  return (← slots).map idOf

/-- The entries that a condition admits. -/
def select (admits : Entry → Bool) : Action (Desk Durable) (List Entry) := reading do
  return (← ask .getAll Statement.getAll).filter admits

/-- Change everything but the place of a stored entry; `false` if it is not stored. -/
def modifyEntry (e : Entry) : Action (Desk Durable) Bool := changing do
  match ← ask .modifyEntry fun name => Statement.modifyEntry name e with
  | none => return false
  | some former =>
    retally fun t => (t.subtract former).add e.slot
    return true

/-- The entries with the given ids; nothing is asked for no ids. -/
def peekIds (ids : List UInt64) : Action (Desk Durable) (List Entry) :=
  if ids.isEmpty then return []
  else reading (ask .getByIds fun name => Statement.entriesByIds name ids)

/-- Take the entries with the given ids; nothing is asked for no ids. -/
def takeIds (ids : List UInt64) : Action (Desk Durable) (List Entry) :=
  if ids.isEmpty then return []
  else deleting .takeEntries fun name => Statement.takeByIds name ids

/-- Delete the entries with the given ids; nothing is asked for no ids. -/
def deleteIds (ids : List UInt64) : Action (Desk Durable) (List Slot) :=
  if ids.isEmpty then return []
  else deleting .deleteEntries fun name => Statement.deleteByIds name ids

/-- Store entries whatever the bounds say; nothing is asked for no entries. -/
def hold (entries : List Entry) : Action (Desk Durable) Unit :=
  if entries.isEmpty then return
  else do
    let _ ← changing (write entries)

/-- Remove entries by their ids; the result is the number of those that were there. -/
def removeListed (entries : List Entry) : Action (Desk Durable) Nat :=
  if entries.isEmpty then reading (return 0)
  else do
    return (← deleteIds (entries.map Entry.id)).length

end Durable

end Spillway
