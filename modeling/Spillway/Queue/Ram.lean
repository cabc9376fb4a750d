import Spillway.Queue.Desk
import Spillway.Queue.Roll

/-!
# RAM queues

A queue whose entries live in memory only. It never uses the store.
-/

namespace Spillway

/-- A queue in memory. -/
structure Ram where
  /-- Name of the queue. -/
  storageId : StorageId
  /-- How much it may hold. -/
  bounds : Bounds
  /-- Where it is in its life. -/
  phase : Phase := .uninitialized
  /-- What it holds. -/
  roll : Roll Entry := {}
  /-- What it calls. -/
  hooks : Hooks := {}

namespace Ram

instance : Managed Ram where
  storageId := Ram.storageId
  bounds := Ram.bounds
  phase := Ram.phase
  tally q := q.roll.tally
  hooks := Ram.hooks

/-- A new queue; its bounds must be consistent. -/
def create (storageId : StorageId) (bounds : Bounds) : Except Fault Ram := do
  bounds.validate
  return { storageId, bounds }

/-- The entries that a tail window covers, last first. -/
def lowest (q : Ram) (w : Window) (limit : Option Entry) (leaveOne : Bool) : List Entry :=
  w.tail (limit.map Entry.key) leaveOne q.roll.items.length q.roll.items.reverse

/-- Open the queue, if it is not destroyed. -/
def opened (q : Ram) : Ram := { q with phase := .active }

/-- Close the queue, unless it is destroyed. -/
def closed (q : Ram) : Ram := if q.phase = .destroyed then q else { q with phase := .shutdown }

/-- Destroy the queue with all it holds. -/
def destroyed (q : Ram) : Ram := { q with phase := .destroyed, roll := {} }

/-- Hold further entries, whatever the bounds say. -/
def holding (q : Ram) (entries : List Entry) : Ram := { q with roll := q.roll.insertAll entries }

/-- Let entries go; the first component is those that were there, in the order of service. -/
def releasing (q : Ram) (ids : List UInt64) : List Entry × Ram :=
  let (taken, roll) := q.roll.takeIds ids
  (sortByKey taken, { q with roll })

open Desk

/-- Make the queue active. -/
def start : Action (Desk Ram) Unit := do
  requireAlive
  changeQueue opened

/-- Close the queue; it keeps what it holds. -/
def shutdown : Action (Desk Ram) Unit := do
  if (← theQueue).phase = .destroyed then return
  changeQueue closed
  announce true

/-- Destroy the queue. -/
def destroy : Action (Desk Ram) Unit := do
  changeQueue destroyed
  announce true

/-- Store the entries of a batch whose ids are new. -/
def put (batch : List Entry) (bypass : Bool) : Action (Desk Ram) Unit :=
  framingPut batch bypass do
    changing do
      requireRoom
      changeQueue (·.holding batch)
    return true

/-- The entries of a head window. -/
def peek (w : Window) (band : Band) : Action (Desk Ram) (List Entry) := reading do
  return w.head band (← theQueue).roll.items

/-- The entries served before a stored one; none if it is not stored. -/
def peekBefore (limit : Option Entry) : Action (Desk Ram) (List Entry) := reading do
  let roll := (← theQueue).roll
  match limit.bind fun e => roll.place? e.id with
  | some key => return roll.before key
  | none => return []

/-- The entries of a tail window, last first. -/
def peekLowest (w : Window) (limit : Option Entry) (leaveOne : Bool) :
    Action (Desk Ram) (List Entry) := reading do
  return (← theQueue).lowest w limit leaveOne

/-- Strike out entries by their keys; the result is those that were there. -/
def strike (pick : Ram → List Key) : Action (Desk Ram) (List Entry) := changing do
  let q ← theQueue
  let (taken, roll) := q.roll.take (pick q)
  changeQueue fun q => { q with roll }
  return taken

/-- Take a tail window, last first. -/
def takeLowest (w : Window) (limit : Option Entry) (leaveOne : Bool) :
    Action (Desk Ram) (List Entry) :=
  strike fun q => (q.lowest w limit leaveOne).map Entry.key

/-- Take a head window. -/
def take (w : Window) (low high : Priority) : Action (Desk Ram) (List Entry) :=
  strike fun q => (w.head (.between low high) q.roll.items).map Entry.key

/-- Remove the first entries; the result is their number. -/
def removeFirst (count : Nat) : Action (Desk Ram) Nat := do
  return (← strike fun q => (q.roll.items.take count).map Entry.key).length

/-- Remove entries by their ids; the result is the number of those that were there. -/
def removeListed (entries : List Entry) : Action (Desk Ram) Nat := do
  if entries.isEmpty then reading (return 0)
  else changing do
    let (taken, roll) := (← theQueue).roll.takeIds (entries.map Entry.id)
    changeQueue fun q => { q with roll }
    return taken.length

/-- Remove a head window; the result is the number of its entries. -/
def removeWindow (w : Window) (low high : Priority) : Action (Desk Ram) Nat := do
  return (← take w low high).length

/-- Remove what is served before an entry, and what stands in its place if `inclusive`. An entry
that is not stored counts by its own key. -/
def removeUpTo (limit : Entry) (inclusive : Bool) : Action (Desk Ram) Nat := do
  let taken ← strike fun q =>
    let key := (q.roll.place? limit.id).getD limit.key
    (if inclusive then q.roll.upTo key else q.roll.before key).map Entry.key
  return taken.length

/-- Remove the entries that need not survive a restart. -/
def removeTransient : Action (Desk Ram) Nat := do
  return (← strike fun q => (q.roll.items.filter (!·.persistent)).map Entry.key).length

/-- Remove all entries. -/
def clear : Action (Desk Ram) Nat := changing do
  let removed := (← theQueue).roll.items.length
  changeQueue fun q => { q with roll := {} }
  return removed

/-- The ids in the order of service. -/
def references : Action (Desk Ram) (List UInt64) := reading do
  return (← theQueue).roll.ids

/-- The entries that a condition admits. -/
def select (admits : Entry → Bool) : Action (Desk Ram) (List Entry) := reading do
  return (← theQueue).roll.items.filter admits

end Ram

end Spillway
