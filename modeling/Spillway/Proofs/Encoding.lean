import Spillway.Proofs.Shortcuts

/-!
# Rows say all of their entries

A row keeps an entry in columns, unsigned words of two kinds among them in signed cells. Nothing is
lost on the way: ids and sizes are turned into cells and back in both directions, what is written by
the names of columns is read back by position, and the order that the table can see on cells is the
order of service. So what stands before, up to or after a key by its cells does so in the queue.
-/

namespace Spillway

/-! ## Words in cells -/

/-- A cell is the cell of the size in it. -/
theorem sizeToCell_sizeOfCell (cell : Int64) : sizeToCell (sizeOfCell cell) = cell := by
  simp only [sizeToCell, sizeOfCell, Int64.toInt64_toUInt64]

/-- The cells by which the table orders the row of a key: that of the priority and that of the
id. -/
def Key.cells (key : Key) : Int64 × Int64 := (Int64.ofNat key.priority.toNat, idToCell key.id)

/-- How the table orders such cells: the first descending, the second ascending, both signed. -/
def CellsBefore (a b : Int64 × Int64) : Prop := b.1 < a.1 ∨ a.1 = b.1 ∧ a.2 < b.2

/-- The order on cells is the order of service. -/
theorem Key.cells_before_iff {a b : Key} : CellsBefore a.cells b.cells ↔ a < b := by
  simp only [CellsBefore, cells, Row.priority_lt_iff, Row.priority_inj, idToCell_lt_iff,
    UInt64.lt_iff_toNat_lt, lt_iff]

/-- Different keys have different cells. -/
theorem Key.cells_inj {a b : Key} : a.cells = b.cells ↔ a = b := by
  constructor
  · intro h
    rcases lt_trichotomy a b with hlt | heq | hlt
    · rw [← cells_before_iff, h, cells_before_iff] at hlt
      exact absurd hlt (lt_irrefl b)
    · exact heq
    · rw [← cells_before_iff, h, cells_before_iff] at hlt
      exact absurd hlt (lt_irrefl b)
  · exact congrArg cells

/-- Comparing keys tells how their cells stand. -/
theorem Key.order_iff (a b : Key) : (a.order b = .lt ↔ CellsBefore a.cells b.cells) ∧
    (a.order b = .eq ↔ a.cells = b.cells) ∧ (a.order b = .gt ↔ CellsBefore b.cells a.cells) := by
  rw [cells_before_iff, cells_before_iff, cells_inj, order]
  rcases lt_trichotomy a b with h | rfl | h
  · have hne : a ≠ b := fun heq => lt_irrefl b (heq ▸ h)
    simp [h, hne, lt_asymm h]
  · simp [lt_irrefl]
  · have hne : a ≠ b := fun heq => lt_irrefl b (heq ▸ h)
    simp [h, hne, lt_asymm h]

/-! ## Columns -/

/-- The columns of the table. -/
inductive Column
  | queue | id | priority | tag | persistent | size | content
  deriving DecidableEq

/-- What stands in a column of a row. -/
inductive Cell
  | word (value : Int64)
  | text (value : String)
  | bytes (value : ByteArray)

namespace Row

/-- What a row has in a column. A flag is one or zero. -/
def cellAt (r : Row) : Column → Cell
  | .queue => .text r.queue
  | .id => .word r.id
  | .priority => .word r.priority
  | .tag => .text r.payload.tag
  | .persistent => .word (if r.persistent then 1 else 0)
  | .size => .word r.size
  | .content => .bytes r.payload.bytes

/-- The columns of an entry, in the order in which it is written. -/
def writtenColumns : List Column := [.queue, .id, .priority, .tag, .persistent, .size, .content]

/-- What is written of an entry. -/
def writtenCells (queue : String) (e : Entry) : List Cell :=
  [.text queue, .word (idToCell e.id), .word (Int64.ofNat e.priority.toNat), .text e.payload.tag,
    .word (if e.persistent then 1 else 0), .word (sizeToCell e.size), .bytes e.payload.bytes]

/-- The columns of a slot, in the order in which it is read. -/
def slotColumns : List Column := [.id, .priority, .size, .persistent]

/-- The columns of an entry, in the order in which it is read. -/
def entryColumns : List Column := slotColumns ++ [.tag, .content]

/-- The slot in cells that are read by position. -/
def slotOfCells : List Cell → Except Refusal Slot
  | .word id :: .word priority :: .word size :: .word flag :: _ =>
    match Priority.ofInt priority.toInt with
    | .ok p => .ok ⟨⟨p, idOfCell id⟩, sizeOfCell size, flag != 0⟩
    | .error _ => .error .unreadableRow
  | _ => .error .unreadableRow

/-- The entry in cells that are read by position. -/
def entryOfCells : List Cell → Except Refusal Entry
  | [.word id, .word priority, .word size, .word flag, .text tag, .bytes content] =>
    match Priority.ofInt priority.toInt with
    | .ok p => .ok ⟨idOfCell id, p, sizeOfCell size, flag != 0, ⟨tag, content⟩⟩
    | .error _ => .error .unreadableRow
  | _ => .error .unreadableRow

theorem flag_ne_zero (flag : Bool) : ((if flag then 1 else 0 : Int64) != 0) = flag := by
  cases flag with
  | true => rfl
  | false => rfl

/-- The row of an entry has in its columns what is written. -/
theorem cells_written (queue : String) (e : Entry) :
    writtenColumns.map (ofEntry queue e).cellAt = writtenCells queue e := rfl

/-- And only that row has. -/
theorem eq_ofEntry_of_written {r : Row} {queue : String} {e : Entry}
    (h : writtenColumns.map r.cellAt = writtenCells queue e) : r = ofEntry queue e := by
  obtain ⟨rqueue, rid, rpriority, rsize, rpersistent, tag, bytes⟩ := r
  simp only [writtenColumns, writtenCells, cellAt, List.map_cons, List.map_nil, List.cons.injEq,
    Cell.text.injEq, Cell.word.injEq, Cell.bytes.injEq, and_true] at h
  obtain ⟨rfl, rfl, rfl, rfl, hflag, rfl, rfl⟩ := h
  have hpersistent : rpersistent = e.persistent := by
    rw [← flag_ne_zero rpersistent, hflag, flag_ne_zero]
  rw [hpersistent]
  rfl

/-- By position the slot of a row is read. -/
theorem slotOfCells_cellAt (r : Row) : slotOfCells (slotColumns.map r.cellAt) = r.readSlot := by
  simp only [slotColumns, List.map_cons, List.map_nil, cellAt, slotOfCells, readSlot, readPriority,
    flag_ne_zero]
  cases Priority.ofInt r.priority.toInt with
  | ok p => rfl
  | error fault => rfl

/-- By position the entry of a row is read. -/
theorem entryOfCells_cellAt (r : Row) : entryOfCells (entryColumns.map r.cellAt) = r.readEntry := by
  simp only [entryColumns, slotColumns, List.cons_append, List.nil_append, List.map_cons,
    List.map_nil, cellAt, entryOfCells, readEntry, readPriority, flag_ne_zero]
  cases Priority.ofInt r.priority.toInt with
  | ok p => rfl
  | error fault => rfl

end Row

namespace Statement

variable {queue : String} {rows : List Row}

/-! ## Batches -/

/-- The entries of a batch that were new, as writing it tells. -/
def fresh (batch : List Entry) (added : List Bool) : List Entry :=
  ((batch.zip added).filter (·.2)).map (·.1)

/-- What writing a batch tells and leaves. -/
structure Written (queue : String) (rows : List Row) (batch : List Entry) (added : List Bool)
    (left : List Row) : Prop where
  /-- It tells of each entry whether it was new. -/
  told : added.length = batch.length
  /-- Each new one has got its row, and the rows before it are as they were. -/
  grown : left = rows ++ (fresh batch added).map (Row.ofEntry queue)
  /-- Each id of the batch has a row. -/
  stored : ∀ e ∈ batch, left.any (isRowOf queue e.id) = true
  /-- It has no other row. -/
  keyed : Keyed left

/-- A row of a new id can be added to a table. -/
theorem keyed_append {e : Entry} (hk : Keyed rows) (h : rows.any (isRowOf queue e.id) = false) :
    Keyed (rows ++ [Row.ofEntry queue e]) := by
  rw [Keyed, List.pairwise_append]
  refine ⟨hk, List.pairwise_singleton _ _, ?_⟩
  rintro r hr r' hr' ⟨hq, hid⟩
  obtain rfl := List.mem_singleton.1 hr'
  have hnot := List.any_eq_false.1 h r hr
  apply hnot
  rw [isRowOf, Bool.and_eq_true, beq_iff_eq, beq_iff_eq]
  exact ⟨hq, hid⟩

/-- Writing a batch always succeeds. -/
theorem addEntries_written (hk : Keyed rows) (batch : List Entry) :
    ∃ added left, addEntries queue batch rows = .ok (added, left) ∧
      Written queue rows batch added left := by
  -- One entry after the other, each on what those before it have left.
  induction batch generalizing rows with
  | nil => exact ⟨[], rows, rfl, rfl, by simp [fresh], by simp, hk⟩
  | cons e batch ih =>
    have hone : addEntry queue e rows = .ok (if rows.any (isRowOf queue e.id) = true then
        (false, rows) else (true, rows ++ [Row.ofEntry queue e])) := rfl
    cases hany : rows.any (isRowOf queue e.id) with
    | true =>
      rw [if_pos hany] at hone
      obtain ⟨added, left, hrest, hw⟩ := ih hk
      refine ⟨false :: added, left, addEntries_cons hone hrest, ?_, ?_, ?_, hw.keyed⟩
      · rw [List.length_cons, List.length_cons, hw.told]
      · rw [hw.grown]
        rfl
      · intro f hf
        rcases List.mem_cons.1 hf with rfl | hf
        · rw [hw.grown, List.any_append, hany, Bool.true_or]
        · exact hw.stored f hf
    | false =>
      rw [if_neg (Bool.eq_false_iff.1 hany)] at hone
      obtain ⟨added, left, hrest, hw⟩ := ih (keyed_append hk hany)
      refine ⟨true :: added, left, addEntries_cons hone hrest, ?_, ?_, ?_, hw.keyed⟩
      · rw [List.length_cons, List.length_cons, hw.told]
      · rw [hw.grown, List.append_assoc]
        rfl
      · intro f hf
        rcases List.mem_cons.1 hf with rfl | hf
        · have hself : isRowOf queue f.id (Row.ofEntry queue f) = true := by
            rw [Partition.isRowOf_ofEntry, decide_eq_true_eq]
          rw [hw.grown, List.any_append, List.any_append, List.any_cons, hself, Bool.true_or,
            Bool.or_true, Bool.true_or]
        · exact hw.stored f hf

/-- What is read of a queue after a batch was written is what was there and what was new. -/
theorem Written.mem_entriesOf {batch : List Entry} {added : List Bool} {left : List Row}
    (h : Written queue rows batch added left) {e : Entry} :
    e ∈ entriesOf queue left ↔ e ∈ entriesOf queue rows ∨ e ∈ fresh batch added := by
  rw [Statement.mem_entriesOf, Statement.mem_entriesOf, h.grown, List.mem_append,
    List.mem_map_of_injective (Row.ofEntry_injective queue)]

/-! ## After a key -/

/-- A tail window without bounds or limit is all there is. -/
theorem tailFrom_unbounded (count bytes : Nat) (l : List Entry) :
    ({} : Window).tailFrom none count bytes l = l := by
  induction l generalizing count bytes with
  | nil => rfl
  | cons a l ih => rw [Window.tailFrom_cons rfl, ih, Window.isOpen]; rfl

/-- The tail after a key is what is served after it, last first. -/
theorem meets_tailAfter (hk : Keyed (rowsOf queue rows)) (key : Key) :
    Meets queue rows (tailSlots queue {} (some key) false) fun slots left =>
      slots = (((entriesOf queue rows).filter fun e => decide (key < e.key)).map
        Entry.slot).reverse ∧ left = rows := by
  apply (meets_tailSlots hk {} (some key) false).mono
  rintro slots left ⟨rfl, rfl⟩
  have hback : (entriesOf queue left).reverse.Pairwise fun a b => keyOf b < keyOf a :=
    List.pairwise_reverse.2 (ordered_entriesOf hk).ascending
  refine ⟨?_, rfl⟩
  rw [Window.tail_some _ _ _ _ hback, Window.tail, tailFrom_unbounded, List.filter_reverse]
  exact List.map_reverse

end Statement

open Statement

/-! ## All of it -/

/-- The row of an entry of a queue, and what is read back of it. -/
structure Lossless (queue : String) (e : Entry) : Prop where
  /-- What is written, column by column, makes this row and no other. -/
  written : ∀ r : Row,
    Row.writtenColumns.map r.cellAt = Row.writtenCells queue e ↔ r = Row.ofEntry queue e
  /-- By position the entry is read back. -/
  entry : Row.entryOfCells (Row.entryColumns.map (Row.ofEntry queue e).cellAt) = .ok e
  /-- By position its key, size and flag are read back. -/
  slot : Row.slotOfCells (Row.slotColumns.map (Row.ofEntry queue e).cellAt) =
    .ok ⟨⟨e.priority, e.id⟩, e.size, e.persistent⟩
  /-- That is how rows are read. -/
  read : (Row.ofEntry queue e).readEntry = .ok e ∧
    (Row.ofEntry queue e).readSlot = .ok ⟨⟨e.priority, e.id⟩, e.size, e.persistent⟩

theorem lossless_ofEntry (queue : String) (e : Entry) : Lossless queue e where
  written r := by
    constructor
    · exact Row.eq_ofEntry_of_written
    · rintro rfl
      exact Row.cells_written queue e
  entry := by rw [Row.entryOfCells_cellAt, Row.readEntry_ofEntry]
  slot := by
    rw [Row.slotOfCells_cellAt, Row.readSlot_ofEntry]
    rfl
  read := ⟨Row.readEntry_ofEntry queue e, Row.readSlot_ofEntry queue e⟩

/-- How the row of an entry of a queue stands to a key, and to the row of another entry. -/
structure Placed (queue : String) (e : Entry) (key : Key) : Prop where
  /-- Its cells are those of its key. -/
  cells : ((Row.ofEntry queue e).priority, (Row.ofEntry queue e).id) = e.key.cells
  /-- It stands before a key if its entry is served before it. -/
  isBefore : (Row.ofEntry queue e).isBefore key = decide (e.key < key)
  /-- It stands up to a key if its entry is not served after it. -/
  isUpTo : (Row.ofEntry queue e).isUpTo key = decide (e.key ≤ key)
  /-- It stands after a key if its entry is served after it. -/
  isAfter : (Row.ofEntry queue e).isAfter key = decide (key < e.key)
  /-- It stands before the row of another entry if it is served before it. -/
  before : ∀ f : Entry, f.key = key →
    Row.before (Row.ofEntry queue e) (Row.ofEntry queue f) = decide (e.key < key)

theorem placed_ofEntry (queue : String) (e : Entry) (key : Key) : Placed queue e key where
  cells := rfl
  isBefore := Row.isBefore_ofEntry queue e key
  isUpTo := Row.isUpTo_ofEntry queue e key
  isAfter := Row.isAfter_ofEntry queue e key
  before f hf := by
    rw [Row.before_ofEntry, servedBefore, keyOf_entry, keyOf_entry, hf]

/-- What the statements with a limit select among the entries of a queue. -/
structure Selects (queue : String) (rows : List Row) : Prop where
  /-- Reading before a stored entry. -/
  before : ∀ id, Meets queue rows (getBefore queue id) fun entries left =>
    entries = servedUpTo queue id rows ∧ left = rows
  /-- Deleting before a key, or up to it. -/
  upTo : ∀ limit inclusive, Meets queue rows (deleteUpTo queue limit inclusive) fun slots left =>
    let gone := (entriesOf queue rows).filter fun e =>
      if inclusive then decide (e.key ≤ limit) else decide (e.key < limit)
    slots.Perm (gone.map Entry.slot) ∧ left = without queue gone rows
  /-- Reading after a key, from the back. -/
  after : ∀ key, Meets queue rows (tailSlots queue {} (some key) false) fun slots left =>
    slots = (((entriesOf queue rows).filter fun e => decide (key < e.key)).map
      Entry.slot).reverse ∧ left = rows

/-- A row says all of its entry, and stands where its entry is served. Words and cells are turned
into each other without loss in both directions; every batch is written, and what is written of an
entry is read back as that entry; comparing keys is comparing their cells; and the statements with a
limit select what is served before it, up to it or after it. -/
theorem rows_faithful {rows : List Row} (hk : Keyed rows) (queue : String) :
    ((∀ id, idOfCell (idToCell id) = id) ∧ (∀ cell, idToCell (idOfCell cell) = cell) ∧
      (∀ size, sizeOfCell (sizeToCell size) = size) ∧
      ∀ cell, sizeToCell (sizeOfCell cell) = cell) ∧
    (∀ e, Lossless queue e) ∧
    (∀ batch, ∃ added left, addEntries queue batch rows = .ok (added, left) ∧
      Written queue rows batch added left ∧
      ∀ e, e ∈ entriesOf queue left ↔ e ∈ entriesOf queue rows ∨ e ∈ fresh batch added) ∧
    (∀ a b : Key, (a.order b = .lt ↔ CellsBefore a.cells b.cells) ∧
      (a.order b = .eq ↔ a.cells = b.cells) ∧ (a.order b = .gt ↔ CellsBefore b.cells a.cells)) ∧
    (∀ e key, Placed queue e key) ∧ Selects queue rows := by
  refine ⟨⟨idOfCell_idToCell, idToCell_idOfCell, sizeOfCell_sizeToCell, sizeToCell_sizeOfCell⟩,
    lossless_ofEntry queue, ?_, Key.order_iff, placed_ofEntry queue, ?_⟩
  · intro batch
    obtain ⟨added, left, hrun, hw⟩ := addEntries_written hk batch
    exact ⟨added, left, hrun, hw, fun _ => hw.mem_entriesOf⟩
  · have hown := hk.own queue
    exact ⟨meets_getBefore hown, meets_deleteUpTo hown, meets_tailAfter hown⟩

/-- An entry whose id and size are the largest words. -/
def heaviest : Entry :=
  ⟨UInt64.ofNat (2 ^ 64 - 1), .lowest, UInt64.ofNat (2 ^ 64 - 1), true, ⟨"mail", .empty⟩⟩

/-- In cells, its id is the largest number and its size is less than zero; both are read back. The
largest id of the lower half comes before the smallest of the upper half. Among rows in no order,
what is served before an entry is read, and what is served up to a key is deleted. -/
theorem rows_faithful_shuffled :
    let all := entriesOf "mail:" shuffled
    Keyed shuffled ∧
      ((Row.ofEntry "mail:" heaviest).id = Int64.ofNat (2 ^ 63 - 1) ∧
        (Row.ofEntry "mail:" heaviest).size = -1 ∧
        (Row.ofEntry "mail:" heaviest).readEntry = .ok heaviest) ∧
      (∃ left, addEntries "mail:x" [heaviest, heaviest] shuffled = .ok ([true, false], left) ∧
        heaviest ∈ entriesOf "mail:x" left) ∧
      (⟨.normal, UInt64.ofNat (2 ^ 63 - 1)⟩ : Key).order ⟨.normal, UInt64.ofNat (2 ^ 63)⟩ = .lt ∧
      getBefore "mail:" 1 shuffled = .ok (all.take 2, shuffled) ∧
      ∃ slots left, deleteUpTo "mail:" ⟨.highest, UInt64.ofNat (2 ^ 63)⟩ true shuffled =
          .ok (slots, left) ∧ slots.Perm ((all.take 1).map Entry.slot) ∧
        left = without "mail:" (all.take 1) shuffled := by
  intro all
  have hr := readable_shuffled
  obtain ⟨-, hlossless, -, -, -, hselects⟩ := rows_faithful keyed_shuffled "mail:"
  obtain ⟨-, -, hwritten, horder, -, -⟩ := rows_faithful keyed_shuffled "mail:x"
  refine ⟨keyed_shuffled, ⟨by decide +kernel, by decide +kernel, (hlossless heaviest).read.1⟩,
    ?_, ?_, ?_, ?_⟩
  · obtain ⟨added, left, hrun, -, hmem⟩ := hwritten [heaviest, heaviest]
    have hflags : addEntries "mail:x" [heaviest, heaviest] shuffled =
        .ok ([true, false], shuffled ++ [.ofEntry "mail:x" heaviest]) := by decide +kernel
    rw [hflags] at hrun
    cases hrun
    exact ⟨_, hflags, (hmem heaviest).2 (.inr (List.mem_singleton_self heaviest))⟩
  · rw [(horder _ _).1]
    exact .inr (by decide +kernel)
  · have hbefore : servedUpTo "mail:" 1 shuffled = all.take 2 := by decide +kernel
    rw [← hbefore]
    exact (hselects.before 1).eq_ok hr
  · have hgone : (all.filter fun e => if true then
        decide (e.key ≤ ⟨.highest, UInt64.ofNat (2 ^ 63)⟩) else
          decide (e.key < ⟨.highest, UInt64.ofNat (2 ^ 63)⟩)) = all.take 1 := by decide +kernel
    obtain ⟨slots, left, hrun, hslots, hleft⟩ := (hselects.upTo _ true).answers hr
    rw [hgone] at hslots hleft
    exact ⟨slots, left, hrun, hslots, hleft⟩

end Spillway
