import Spillway.Queue.Durable
import Spillway.Queue.Ram
import Spillway.Queue.Resident

/-!
# Cached queues

A queue whose first entries are kept in memory, as many as the cache bounds allow, and whose other
entries are kept in the table. An index knows every entry and where it is.

* A put keeps the entries that belong to the fitting prefix in memory and moves what no longer fits
  into the table. Persistent entries that stay in memory get a row at once; where the database
  cannot be used and nothing else needs a row, the row is held back.
* A removal deletes rows first, so that it changes nothing if the database cannot be used, and then
  refills memory from the table as far as possible.
* When the database is there again, held-back rows are written and memory is refilled.
-/

namespace Spillway

/-- A queue in memory and in the table. -/
structure Cached where
  /-- Name of the queue. -/
  storageId : StorageId
  /-- How much it may hold. -/
  bounds : Bounds
  /-- Where it is in its life. -/
  phase : Phase := .uninitialized
  /-- Where its entries are. -/
  index : Roll Resident := {}
  /-- Its entries in memory. -/
  hot : Ram
  /-- Its entries in the table. -/
  cold : Durable
  /-- What it calls. -/
  hooks : Hooks := {}

/-- How a put divides its batch and what is in memory. -/
structure Division where
  /-- New entries that stay in memory. -/
  keep : List Entry
  /-- New entries for the table. -/
  place : List Entry
  /-- Entries in memory that move into the table. -/
  spill : List Resident

namespace Cached

instance : Managed Cached where
  storageId := Cached.storageId
  bounds := Cached.bounds
  phase := Cached.phase
  tally q := q.index.tally
  hooks := Cached.hooks

/-- A new queue; its bounds must be consistent. -/
def create (storageId : StorageId) (bounds : Bounds) : Except Fault Cached := do
  bounds.validate
  let hot ← Ram.create storageId bounds.hot
  let cold ← Durable.create storageId bounds
  return { storageId, bounds, hot, cold }

/-- The entries that are known to be in memory. -/
def hotResidents (q : Cached) : List Resident := q.index.items.filter Resident.isHot

/-- The entries that are known to be in the table only. -/
def coldResidents (q : Cached) : List Resident := q.index.items.filter Resident.isCold

/-- The first key that is not in memory. -/
def firstCold? (q : Cached) : Option Key := q.coldResidents.head?.map keyOf

/-- The ids of persistent entries whose rows are held back. -/
def pending (q : Cached) : List UInt64 := (q.index.items.filter Resident.isPending).map idOf

/-- The entries of a batch that are new, each id once, in the order of service. -/
def fresh (q : Cached) (batch : List Entry) : List Entry :=
  let firsts := batch.foldl
    (fun found e =>
      if q.index.holds e.id || found.any (·.id = e.id) then found else e :: found) []
  sortByKey firsts.reverse

/-- Divide new entries. Those after the first cold entry go into the table. The others are merged
with what is in memory, and from the first one that does not fit on, all go into the table. -/
def divide (q : Cached) (new : List Entry) : Division :=
  let (candidates, behind) := new.partition fun e => q.firstCold?.all (e.key < ·)
  let merged := sortByKey (q.hotResidents.map Resident.slot ++ candidates.map Entry.slot)
  let limit := (q.bounds.fill 0 0 merged).2.head?
  let fits := fun key : Key => limit.all (key < ·.key)
  { keep := candidates.filter (fits ·.key)
    place := behind ++ candidates.filter (!fits ·.key)
    spill := q.hotResidents.filter (!fits ·.slot.key) }

/-- The window on a queue's index that a band and a window cover. -/
def headKeys (q : Cached) (w : Window) (band : Band) : List Key :=
  (w.head band q.index.items).map keyOf

/-- The keys that a tail window covers, last first. -/
def lowestKeys (q : Cached) (w : Window) (limit : Option Entry) (leaveOne : Bool) : List Key :=
  (w.tail (limit.map Entry.key) leaveOne q.index.items.length q.index.items.reverse).map keyOf

open Desk

/-- Work on the part in memory. -/
def onHot {α : Type} (act : Action (Desk Ram) α) : Action (Desk Cached) α :=
  act.focus (fun d => { queue := d.queue.hot, store := d.store, calls := d.calls })
    fun h d => { queue := { d.queue with hot := h.queue }, store := h.store, calls := h.calls }

/-- Work on the part in the table. -/
def onCold {α : Type} (act : Action (Desk Durable) α) : Action (Desk Cached) α :=
  act.focus (fun d => { queue := d.queue.cold, store := d.store, calls := d.calls })
    fun c d => { queue := { d.queue with cold := c.queue }, store := c.store, calls := c.calls }

/-- Change the index. -/
def reindex (change : Roll Resident → Roll Resident) : Action (Desk Cached) Unit :=
  changeQueue fun q => { q with index := change q.index }

/-- Keep entries in memory. -/
def heat (entries : List Entry) : Action (Desk Cached) Unit :=
  changeQueue fun q => { q with hot := q.hot.holding entries }

/-- Let entries in memory go; the result is those that were there. -/
def cool (ids : List UInt64) : Action (Desk Cached) (List Entry) := do
  let (taken, hot) := (← theQueue).hot.releasing ids
  changeQueue fun q => { q with hot }
  return taken

/-- Change an active queue and tell the size watchers, even if the change fails. -/
def altering {α : Type} (act : Action (Desk Cached) α) : Action (Desk Cached) α := do
  requireActive
  let outcome ← act.attempt
  announce false
  Action.require outcome

/-- Write the rows of a put. Those of `needed` must be written; those of `wanted` may be held back
if nothing is needed and the database cannot be used. The result tells whether they were written. -/
def writeRows (needed wanted : List Entry) : Action (Desk Cached) Bool := do
  if !needed.isEmpty then
    onCold (Durable.hold (needed ++ wanted))
    return true
  match ← (onCold (Durable.hold wanted)).attempt with
  | .ok _ => return true
  | .error fault =>
    if fault.isRetryable then
      count fun t => { t with deferred := t.deferred + wanted.length }
      return false
    else throw fault

/-- Store new entries, dividing them between memory and table. -/
def place (new : List Entry) : Action (Desk Cached) Unit := do
  let q ← theQueue
  let division := q.divide new
  let rowless := (division.spill.filter (!·.stored)).map idOf
  let spilled := division.spill.map idOf
  let durable ← writeRows (division.place ++ q.hot.roll.pick rowless)
    (division.keep.filter (·.persistent))
  let _ ← cool spilled
  heat division.keep
  reindex fun index =>
    let index := index.insertAll (division.keep.map fun e =>
      { slot := e.slot, tier := .hot, stored := e.persistent && durable })
    let index := index.insertAll (division.place.map fun e =>
      { slot := e.slot, tier := .cold, stored := true })
    spilled.foldl (fun index id => index.update id Resident.cooled) index
  count fun t => { t with spilled := t.spilled + spilled.length }

/-- Refill memory from the table: the first cold entries are copied for as long as they fit. Where
the table has lost an entry, the index forgets it. A failure leaves memory short. -/
def promote : Action (Desk Cached) Unit := do
  let q ← theQueue
  let ids := (q.bounds.fill q.hot.roll.tally.entries q.hot.roll.tally.bytes q.coldResidents).1.map
    idOf
  if ids.isEmpty then return
  match ← (onCold (Durable.peekIds ids)).attempt with
  | .error _ => return
  | .ok entries =>
    heat entries
    reindex fun index => ids.foldl
      (fun index id =>
        if entries.any (·.id = id) then index.update id Resident.heated
        else (index.takeIds [id]).2) index
    count fun t => { t with promoted := t.promoted + entries.length }

/-- Write the rows that were held back. -/
def flush : Action (Desk Cached) Unit := do
  let q ← theQueue
  let ids := q.pending
  if ids.isEmpty then return
  onCold (Durable.hold (q.hot.roll.pick ids))
  reindex fun index => ids.foldl (fun index id => index.update id Resident.written) index

/-- Make the hot entries a prefix again: those behind the first cold entry move into the table, and
memory is refilled. -/
def restorePrefix : Action (Desk Cached) Unit := do
  let q ← theQueue
  match q.firstCold? with
  | none => promote
  | some first =>
    let behind := q.hotResidents.filter (first ≤ keyOf ·)
    if !behind.isEmpty then
      let rowless := (behind.filter (!·.stored)).map idOf
      onCold (Durable.hold (q.hot.roll.pick rowless))
      let ids := behind.map idOf
      let _ ← cool ids
      reindex fun index => ids.foldl (fun index id => index.update id Resident.cooled) index
    promote

/-- What the index knows under the given keys. -/
def residentsAt (q : Cached) (keys : List Key) : List Resident := keys.filterMap q.index.atKey?

/-- Read entries by their keys, those in memory first. Where the database cannot be used, those in
memory stand alone, if there are any. -/
def fetch (keys : List Key) : Action (Desk Cached) (List Entry) := do
  let q ← theQueue
  let found := q.residentsAt keys
  let warm := q.hot.roll.pick ((found.filter Resident.isHot).map idOf)
  match ← (onCold (Durable.peekIds ((found.filter Resident.isCold).map idOf))).attempt with
  | .ok rest => return warm ++ rest
  | .error fault => if fault.isRetryable && !warm.isEmpty then return warm else throw fault

/-- Take entries by their keys, rows first. -/
def takeKeys (keys : List Key) : Action (Desk Cached) (List Entry) := do
  let found := (← theQueue).residentsAt keys
  let rows ← onCold (Durable.takeIds ((found.filter (·.stored)).map idOf))
  let taken ← cool ((found.filter Resident.isHot).map idOf)
  reindex fun index => (index.take keys).2
  promote
  let cold := (found.filter Resident.isCold).map idOf
  return taken ++ rows.filter fun e => cold.contains e.id

/-- Remove entries by their keys, rows first; the result is the number of those removed. -/
def dropKeys (keys : List Key) : Action (Desk Cached) Nat := do
  let found := (← theQueue).residentsAt keys
  let rows ← onCold (Durable.deleteIds ((found.filter (·.stored)).map idOf))
  let taken ← cool ((found.filter Resident.isHot).map idOf)
  reindex fun index => (index.take keys).2
  promote
  let cold := (found.filter Resident.isCold).map idOf
  return taken.length + (rows.filter fun slot => cold.contains slot.key.id).length

/-- The index of what the table and memory hold. -/
def rebuild (slots : List Slot) (entries : List Entry) : Roll Resident :=
  let index : Roll Resident := {}
  let index := index.insertAll (slots.map fun slot => { slot, tier := .cold, stored := true })
  entries.foldl
    (fun index e =>
      if index.holds e.id then index.update e.id Resident.heated
      else index.insert { slot := e.slot, tier := .hot, stored := false }) index

/-- Build the index anew from both parts and become active. -/
def resume : Action (Desk Cached) Unit := do
  onHot Ram.start
  let slots ← onCold Durable.slots
  let entries ← onHot (Ram.select fun _ => true)
  reindex fun _ => rebuild slots entries
  restorePrefix
  changeQueue fun q => { q with phase := .active }
  announce false

/-- Make the queue active. The first time, rows of transient entries are removed, because they
never outlive the process that wrote them. -/
def start : Action (Desk Cached) Unit := do
  requireAlive
  let phase := (← theQueue).phase
  if phase = .active then return
  onCold Durable.start
  if phase = .uninitialized then
    let _ ← onCold Durable.removeTransient
  resume

/-- Close the queue; it keeps what it holds. Held-back rows are written if possible. -/
def shutdown : Action (Desk Cached) Unit := do
  let phase := (← theQueue).phase
  if phase.isClosed then return
  if phase = .active then
    let _ ← flush.attempt
  onHot Ram.shutdown
  let outcome ← (onCold Durable.shutdown).attempt
  changeQueue fun q => { q with phase := .shutdown }
  announce true
  Action.require outcome

/-- Destroy the queue and its rows. The queue is destroyed even if its rows could not be deleted. -/
def destroy : Action (Desk Cached) Unit := do
  if (← theQueue).phase = .destroyed then return
  onHot Ram.destroy
  let outcome ← (onCold Durable.destroy).attempt
  changeQueue fun q => { q with index := {}, phase := .destroyed }
  announce true
  Action.require outcome

/-- Catch up now that the database is there again: write held-back rows and refill memory. -/
def catchUp : Action (Desk Cached) Unit := do
  if (← theQueue).phase = .active then
    match ← flush.attempt with
    | .ok _ => promote
    | .error _ => return

/-- Store the entries of a batch whose ids are new. -/
def put (batch : List Entry) (bypass : Bool) : Action (Desk Cached) Unit :=
  framingPut batch bypass do
    altering do
      requireRoom
      let new := (← theQueue).fresh batch
      if !new.isEmpty then place new
    return true

/-- The entries of a head window. -/
def peek (w : Window) (band : Band) : Action (Desk Cached) (List Entry) := reading do
  fetch ((← theQueue).headKeys w band)

/-- The entries served before a stored one; none if it is not stored. -/
def peekBefore (limit : Option Entry) : Action (Desk Cached) (List Entry) := reading do
  let index := (← theQueue).index
  match limit.bind fun e => index.place? e.id with
  | some key => fetch ((index.before key).map keyOf)
  | none => return []

/-- The entries of a tail window, last first. -/
def peekLowest (w : Window) (limit : Option Entry) (leaveOne : Bool) :
    Action (Desk Cached) (List Entry) := reading do
  return (← fetch ((← theQueue).lowestKeys w limit leaveOne)).reverse

/-- Take a tail window, last first. -/
def takeLowest (w : Window) (limit : Option Entry) (leaveOne : Bool) :
    Action (Desk Cached) (List Entry) := altering do
  return (← takeKeys ((← theQueue).lowestKeys w limit leaveOne)).reverse

/-- Take a head window. -/
def take (w : Window) (low high : Priority) : Action (Desk Cached) (List Entry) := altering do
  takeKeys ((← theQueue).headKeys w (.between low high))

/-- Remove the first entries; the result is their number. -/
def removeFirst (count : Nat) : Action (Desk Cached) Nat := altering do
  dropKeys (((← theQueue).index.items.take count).map keyOf)

/-- Remove entries by their ids; the result is the number of those that were there. -/
def removeListed (entries : List Entry) : Action (Desk Cached) Nat := do
  if entries.isEmpty then reading (return 0)
  else altering do
    let index := (← theQueue).index
    dropKeys (entries.filterMap fun e => index.place? e.id)

/-- Remove a head window; the result is the number of its entries. -/
def removeWindow (w : Window) (low high : Priority) : Action (Desk Cached) Nat := altering do
  dropKeys ((← theQueue).headKeys w (.between low high))

/-- Remove what is served before an entry, and what stands in its place if `inclusive`. An entry
that is not stored counts by its own key. -/
def removeUpTo (limit : Entry) (inclusive : Bool) : Action (Desk Cached) Nat := altering do
  let index := (← theQueue).index
  let key := (index.place? limit.id).getD limit.key
  dropKeys ((if inclusive then index.upTo key else index.before key).map keyOf)

/-- Remove the entries that need not survive a restart. -/
def removeTransient : Action (Desk Cached) Nat := altering do
  dropKeys (((← theQueue).index.items.filter (!·.slot.persistent)).map keyOf)

/-- Remove all entries. -/
def clear : Action (Desk Cached) Nat := altering do
  let removed := (← theQueue).index.tally.entries
  let _ ← onCold Durable.clear
  let _ ← onHot Ram.clear
  reindex fun _ => {}
  return removed

/-- The ids in the order of service. -/
def references : Action (Desk Cached) (List UInt64) := reading do
  return (← theQueue).index.ids

/-- The entries that a condition admits: those in memory, then those in the table only. -/
def select (admits : Entry → Bool) : Action (Desk Cached) (List Entry) := reading do
  let warm ← onHot (Ram.select admits)
  let rows ← onCold (Durable.select admits)
  let index := (← theQueue).index
  return warm ++ rows.filter fun e => (index.get? e.id).any Resident.isCold

end Cached

end Spillway
