import Spillway.Queue.Tally
import Spillway.Queue.Window
import Spillway.Table.Row

/-!
# Statements

What can be asked of the table. A statement works on all rows and either succeeds or is refused;
a refused statement leaves the rows as they were, because its rows are dropped with it.

Windows are cut in two steps. The query keeps the rows of the queue that can matter, in order and
no more of them than the bound on entries allows; only those rows are read. The rules for windows
then choose among them.
-/

namespace Spillway

/-- A question to the table, or a change of it. -/
abbrev Statement (α : Type) := StateT (List Row) (Except Refusal) α

namespace Statement

/-- Most ids that one query lists. -/
def idsPerQuery : Nat := 500

/-- The list cut into pieces of at most `size` members. -/
def pieces {α : Type} (size : Nat) (l : List α) : List (List α) :=
  (List.range ((l.length + size - 1) / size)).map fun i => (l.drop (i * size)).take size

/-- The rows of a queue. -/
def rowsOf (queue : String) (rows : List Row) : List Row := rows.filter (·.queue == queue)

/-- Read rows as slots. -/
def readSlots (rows : List Row) : Statement (List Slot) := liftM (rows.mapM Row.readSlot)

/-- Read rows as entries. -/
def readEntries (rows : List Row) : Statement (List Entry) := liftM (rows.mapM Row.readEntry)

/-- Delete the rows that a condition picks out; the result is those rows. -/
def deleteWhere (pick : Row → Bool) : Statement (List Row) :=
  modifyGet fun rows => (rows.filter pick, rows.filter (!pick ·))

/-- Whether a row is the one of an id in a queue. -/
def isRowOf (queue : String) (id : UInt64) (r : Row) : Bool :=
  r.queue == queue && r.id == idToCell id

/-- Whether a row belongs to a queue and has one of the ids. -/
def isAmong (queue : String) (ids : List UInt64) (r : Row) : Bool :=
  r.queue == queue && (ids.map idToCell).contains r.id

/-- Write one entry; `false` if the queue has a row of its id already. -/
def addEntry (queue : String) (e : Entry) : Statement Bool :=
  modifyGet fun rows =>
    if rows.any (isRowOf queue e.id) then (false, rows) else (true, rows ++ [Row.ofEntry queue e])

/-- Write entries one after the other; the result tells for each whether it was new. -/
def addEntries (queue : String) (entries : List Entry) : Statement (List Bool) :=
  entries.mapM (addEntry queue)

/-- The slot under an id, if there is such a row. -/
def slotOf? (queue : String) (id : UInt64) : Statement (Option Slot) := do
  match (← get).find? (isRowOf queue id) with
  | none => return none
  | some row =>
    let slot ← liftM row.readSlot
    return some slot

/-- Change everything but the place of a stored entry; the result is its former slot. -/
def modifyEntry (queue : String) (e : Entry) : Statement (Option Slot) := do
  let former ← slotOf? queue e.id
  if former.isSome then
    modify fun rows => rows.map fun r =>
      if isRowOf queue e.id r then
        { r with
          persistent := e.persistent, size := sizeToCell e.size, payload := e.payload }
      else r
  return former

/-- The rows of a queue whose priority is in a band, judged by the cells alone. -/
def rowsInBand (queue : String) (band : Band) (rows : List Row) : List Row :=
  let own := rowsOf queue rows
  match band with
  | .all => own
  | .between low high =>
    own.filter fun r =>
      Int64.ofNat low.toNat ≤ r.priority && r.priority ≤ Int64.ofNat high.toNat
  | .ofFirst => own.filter fun r => own.all (·.priority ≤ r.priority)

/-- No more members than a bound allows. -/
def limited {α : Type} (bound : Option Nat) (l : List α) : List α :=
  match bound with
  | some n => l.take n
  | none => l

/-- The slots of a head window. -/
def headSlots (queue : String) (w : Window) (band : Band) : Statement (List Slot) := do
  let rows := limited w.entries (Row.inOrder (rowsInBand queue band (← get)))
  return w.head band (← readSlots rows)

/-- The slots of a tail window, last first. A bound on bytes can only widen it beyond the bound on
entries, so the latter limits the query only where it stands alone. -/
def tailSlots (queue : String) (w : Window) (limit : Option Key) (leaveOne : Bool) :
    Statement (List Slot) := do
  let own := rowsOf queue (← get)
  let eligible := match limit with
    | some key => own.filter (·.isAfter key)
    | none => own
  let rows := limited (if w.bytes.isNone then w.entries else none) (Row.inReverse eligible)
  return w.tail limit leaveOne own.length (← readSlots rows)

/-- The ids of slots. -/
def idsOf (slots : List Slot) : List UInt64 := slots.map (·.key.id)

/-- Read the entries with the given ids, in the order of service. Each query lists a piece of the
ids, so an id that stands in two pieces is read twice. -/
def entriesByIds (queue : String) (ids : List UInt64) : Statement (List Entry) := do
  let rows ← get
  let found ← (pieces idsPerQuery ids).mapM fun piece =>
    readEntries (rows.filter (isAmong queue piece))
  return sortByKey found.flatten

/-- Delete the entries with the given ids; the result is those entries in the order of service. -/
def takeByIds (queue : String) (ids : List UInt64) : Statement (List Entry) := do
  let taken ← (pieces idsPerQuery ids).mapM fun piece => do
    readEntries (← deleteWhere (isAmong queue piece))
  return sortByKey taken.flatten

/-- Delete the entries with the given ids; the result is their slots. -/
def deleteByIds (queue : String) (ids : List UInt64) : Statement (List Slot) := do
  let deleted ← (pieces idsPerQuery ids).mapM fun piece => do
    readSlots (← deleteWhere (isAmong queue piece))
  return deleted.flatten

/-- The entries of a head window. -/
def getEntries (queue : String) (w : Window) (band : Band) : Statement (List Entry) := do
  entriesByIds queue (idsOf (← headSlots queue w band))

/-- Delete a head window; the result is its entries. -/
def takeEntries (queue : String) (w : Window) (band : Band) : Statement (List Entry) := do
  takeByIds queue (idsOf (← headSlots queue w band))

/-- The entries of a tail window, last first. -/
def getLowest (queue : String) (w : Window) (limit : Option Key) (leaveOne : Bool) :
    Statement (List Entry) := do
  let entries ← entriesByIds queue (idsOf (← tailSlots queue w limit leaveOne))
  return entries.reverse

/-- Delete a tail window; the result is its entries, last first. -/
def takeLowest (queue : String) (w : Window) (limit : Option Key) (leaveOne : Bool) :
    Statement (List Entry) := do
  let entries ← takeByIds queue (idsOf (← tailSlots queue w limit leaveOne))
  return entries.reverse

/-- The entries that are served before a stored one; none if it is not stored. -/
def getBefore (queue : String) (id : UInt64) : Statement (List Entry) := do
  match ← slotOf? queue id with
  | none => return []
  | some limit =>
    readEntries (Row.inOrder ((rowsOf queue (← get)).filter (·.isBefore limit.key)))

/-- Delete the first entries; the result is their slots. -/
def deleteFirst (queue : String) (count : Nat) : Statement (List Slot) := do
  let first := (Row.inOrder (rowsOf queue (← get))).take count
  let ids := first.map (·.id)
  readSlots (← deleteWhere fun r => r.queue == queue && ids.contains r.id)

/-- Delete what is served before a key, and what stands under it if `inclusive`. -/
def deleteUpTo (queue : String) (limit : Key) (inclusive : Bool) : Statement (List Slot) := do
  readSlots (← deleteWhere fun r =>
    r.queue == queue && if inclusive then r.isUpTo limit else r.isBefore limit)

/-- Delete the entries that need not survive a restart. -/
def deleteTransient (queue : String) : Statement (List Slot) := do
  readSlots (← deleteWhere fun r => r.queue == queue && !r.persistent)

/-- Delete all entries of a queue; the result is their number. Nothing is read. -/
def deleteAll (queue : String) : Statement Nat := do
  let deleted ← deleteWhere (·.queue == queue)
  return deleted.length

/-- All entries of a queue in the order of service. -/
def getAll (queue : String) : Statement (List Entry) := do
  readEntries (Row.inOrder (rowsOf queue (← get)))

/-- All slots of a queue in the order of service. -/
def getSlots (queue : String) : Statement (List Slot) := do
  readSlots (Row.inOrder (rowsOf queue (← get)))

/-- The sum of signed words; refused as soon as it leaves their range. -/
def sumCells (cells : List Int64) : Except Refusal Int64 :=
  cells.foldlM (fun (sum : Int64) cell =>
    match Text.toSignedWord? (sum.toInt + cell.toInt) with
    | some next => .ok next
    | none => .error .totalOverflow) 0

/-- The totals of rows, summed in signed words and read as unsigned ones. -/
def tallyOf (rows : List Row) : Except Refusal Tally := do
  let bytes ← sumCells (rows.map (·.size))
  let persistent := rows.filter (·.persistent)
  let persistentBytes ← sumCells (rows.map fun r => if r.persistent then r.size else 0)
  return {
    entries := rows.length
    bytes := bytes.toUInt64.toNat
    persistentEntries := persistent.length
    persistentBytes := persistentBytes.toUInt64.toNat }

/-- The totals of a queue. -/
def count (queue : String) : Statement Tally := do
  liftM (tallyOf (Row.inOrder (rowsOf queue (← get))))

/-- The names that occur in rows, each once, in the order of their characters. -/
def namesOf (rows : List Row) : List String :=
  (rows.map (·.queue)).foldr
    (fun name names => if names.contains name then names else insertOrdered (· < ·) name names) []

/-- All queues that have rows, with their totals. -/
def queueNames : Statement (List (String × Tally)) := do
  let rows ← get
  (namesOf rows).mapM fun name => do
    let tally ← liftM (tallyOf (Row.inOrder (rowsOf name rows)))
    return (name, tally)

/-- Add a row as it is; refused if its id is taken in its queue. -/
def insertRow (row : Row) : Statement Unit := do
  if (← get).any fun r => r.queue == row.queue && r.id == row.id then throw .duplicateRow
  modify (· ++ [row])

end Statement

end Spillway
