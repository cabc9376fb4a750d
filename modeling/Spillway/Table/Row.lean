import Spillway.Entry.Sort

/-!
# Rows

A row of the table is an entry of a queue in signed words of 64 bits. Ids are kept with the top
bit turned over, so that the signed order of cells is the unsigned order of ids. Sizes keep
their bits, so that the largest ones read as negative cells. Main statement: an entry that was
written is read back.
-/

namespace Spillway

/-- A size as a cell. -/
def sizeToCell (size : UInt64) : Int64 := size.toInt64

/-- The size in a cell. -/
def sizeOfCell (cell : Int64) : UInt64 := cell.toUInt64

/-- An id as a cell. -/
def idToCell (id : UInt64) : Int64 := (id ^^^ 0x8000000000000000).toInt64

/-- The id in a cell. -/
def idOfCell (cell : Int64) : UInt64 := cell.toUInt64 ^^^ 0x8000000000000000

@[simp] theorem sizeOfCell_sizeToCell (size : UInt64) : sizeOfCell (sizeToCell size) = size := by
  simp [sizeOfCell, sizeToCell]

@[simp] theorem idOfCell_idToCell (id : UInt64) : idOfCell (idToCell id) = id := by
  simp only [idOfCell, idToCell, UInt64.toUInt64_toInt64, UInt64.xor_assoc, UInt64.xor_self,
    UInt64.xor_zero]

@[simp] theorem idToCell_idOfCell (cell : Int64) : idToCell (idOfCell cell) = cell := by
  simp only [idToCell, idOfCell, UInt64.xor_assoc, UInt64.xor_self, UInt64.xor_zero,
    Int64.toInt64_toUInt64]

/-- A row of the table. A row made by other hands may hold any priority. -/
structure Row where
  /-- Name of the queue the row belongs to. -/
  queue : String
  /-- Cell of the unique id; no two rows of one queue share it. -/
  id : Int64
  /-- Cell of the priority. -/
  priority : Int64
  /-- Cell of the charged size. -/
  size : Int64
  /-- Whether the entry must survive a restart. -/
  persistent : Bool
  /-- What the entry carries. -/
  payload : Payload
  deriving DecidableEq

namespace Row

/-- The row of an entry of a queue. -/
def ofEntry (queue : String) (e : Entry) : Row where
  queue
  id := idToCell e.id
  priority := Int64.ofNat e.priority.toNat
  size := sizeToCell e.size
  persistent := e.persistent
  payload := e.payload

/-- The priority in a row; a row whose priority is out of range cannot be read. -/
def readPriority (r : Row) : Except Refusal Priority :=
  match Priority.ofInt r.priority.toInt with
  | .ok p => .ok p
  | .error _ => .error .unreadableRow

/-- The slot of the entry in a row. -/
def readSlot (r : Row) : Except Refusal Slot := do
  let priority ← r.readPriority
  return ⟨⟨priority, idOfCell r.id⟩, sizeOfCell r.size, r.persistent⟩

/-- The entry in a row. -/
def readEntry (r : Row) : Except Refusal Entry := do
  let priority ← r.readPriority
  return ⟨idOfCell r.id, priority, sizeOfCell r.size, r.persistent, r.payload⟩

/-- Whether the first row comes before the second in an ordered reading: priority descending,
id ascending. -/
def before (a b : Row) : Bool :=
  b.priority < a.priority || a.priority == b.priority && a.id < b.id

/-- The rows in the order of service. -/
def inOrder (rows : List Row) : List Row := sortOrdered before rows

/-- The rows in the opposite of the order of service. -/
def inReverse (rows : List Row) : List Row := sortOrdered (fun a b => before b a) rows

/-- Whether a row stands before a key. -/
def isBefore (r : Row) (key : Key) : Bool :=
  let priority := Int64.ofNat key.priority.toNat
  priority < r.priority || r.priority == priority && r.id < idToCell key.id

/-- Whether a row does not stand after a key. -/
def isUpTo (r : Row) (key : Key) : Bool :=
  let priority := Int64.ofNat key.priority.toNat
  priority < r.priority || r.priority == priority && r.id ≤ idToCell key.id

/-- Whether a row stands after a key. -/
def isAfter (r : Row) (key : Key) : Bool :=
  let priority := Int64.ofNat key.priority.toNat
  r.priority < priority || r.priority == priority && idToCell key.id < r.id

theorem readPriority_ofEntry (queue : String) (e : Entry) :
    (ofEntry queue e).readPriority = .ok e.priority := by
  have h : (Int64.ofNat e.priority.toNat).toInt = (e.priority.toNat : Int) := by
    have hlt : e.priority.toNat < 10 := e.priority.level.isLt
    rw [Int64.toInt_ofNat_of_lt (by omega)]
  simp [readPriority, ofEntry, h, Priority.ofInt_toNat]

/-- An entry that was written is read back. -/
theorem readEntry_ofEntry (queue : String) (e : Entry) : (ofEntry queue e).readEntry = .ok e := by
  simp only [readEntry, readPriority_ofEntry]
  simp [ofEntry, bind, Except.bind, pure, Except.pure]

/-- The slot of a written entry is read back. -/
theorem readSlot_ofEntry (queue : String) (e : Entry) :
    (ofEntry queue e).readSlot = .ok e.slot := by
  simp only [readSlot, readPriority_ofEntry]
  simp [ofEntry, bind, Except.bind, pure, Except.pure, Entry.slot, Entry.key]

end Row

end Spillway
