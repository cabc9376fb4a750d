import Spillway.Proofs.Reckoning

/-!
# What is read of rows

Cells stand as the words and priorities in them do, so that the rows of entries stand as the entries
are served. A row can be read if its priority is one of those that there are, and then it is the row
of the entry that is read; rows are read if all of them can be. In a table a queue and an id have
one row.
-/

namespace Spillway

/-! ## Cells -/

/-- Turning the top bit over moves the lower half of the words up and the upper half down. -/
theorem toNat_xor_top (x : UInt64) : (x ^^^ 0x8000000000000000).toNat =
    if x.toNat < 2 ^ 63 then x.toNat + 2 ^ 63 else x.toNat - 2 ^ 63 := by
  have hx := x.toNat_lt
  have hlow : (x.toNat ^^^ 2 ^ 63) % 2 ^ 63 = x.toNat % 2 ^ 63 := by
    rw [Nat.xor_mod_two_pow]
    simp
  have hhigh : (x.toNat ^^^ 2 ^ 63) / 2 ^ 63 = x.toNat / 2 ^ 63 ^^^ 1 := by
    rw [Nat.xor_div_two_pow, Nat.div_self (by omega)]
  have hsplit := Nat.div_add_mod (x.toNat ^^^ 2 ^ 63) (2 ^ 63)
  rw [UInt64.toNat_xor, show (0x8000000000000000 : UInt64).toNat = 2 ^ 63 from rfl]
  split
  · have : x.toNat / 2 ^ 63 = 0 := by omega
    rw [this, show 0 ^^^ 1 = 1 from rfl] at hhigh
    omega
  · have : x.toNat / 2 ^ 63 = 1 := by omega
    rw [this, show 1 ^^^ 1 = 0 from rfl] at hhigh
    omega

/-- An id in its cell, as a number. -/
theorem toInt_idToCell (id : UInt64) : (idToCell id).toInt = (id.toNat : Int) - 2 ^ 63 := by
  have hid := id.toNat_lt
  have hx : (id ^^^ 0x8000000000000000).toBitVec.toNat = (id ^^^ 0x8000000000000000).toNat := rfl
  change (id ^^^ 0x8000000000000000).toBitVec.toInt = _
  rw [BitVec.toInt_eq_toNat_cond, hx, toNat_xor_top]
  split <;> split <;> omega

/-- The order of cells is the order of ids. -/
theorem idToCell_lt_iff {a b : UInt64} : idToCell a < idToCell b ↔ a < b := by
  rw [Int64.lt_iff_toInt_lt, toInt_idToCell, toInt_idToCell, UInt64.lt_iff_toNat_lt]
  omega

/-- Different ids have different cells. -/
theorem idToCell_inj {a b : UInt64} : idToCell a = idToCell b ↔ a = b := by
  refine ⟨fun h => ?_, congrArg _⟩
  rw [← idOfCell_idToCell a, h, idOfCell_idToCell]

namespace Row

/-! ## The order of rows -/

/-- A priority in its cell, as a number. -/
theorem toInt_priority (p : Priority) : (Int64.ofNat p.toNat).toInt = (p.toNat : Int) := by
  have hp : p.toNat < 10 := p.level.isLt
  rw [Int64.toInt_ofNat_of_lt (by omega)]

/-- The order of cells is the order of priorities. -/
theorem priority_lt_iff {p q : Priority} :
    Int64.ofNat p.toNat < Int64.ofNat q.toNat ↔ p.toNat < q.toNat := by
  rw [Int64.lt_iff_toInt_lt, toInt_priority, toInt_priority]
  omega

/-- So it is where priorities may be the same. -/
theorem priority_le_iff {p q : Priority} :
    Int64.ofNat p.toNat ≤ Int64.ofNat q.toNat ↔ p ≤ q := by
  rw [Int64.le_iff_toInt_le, toInt_priority, toInt_priority]
  exact Int.ofNat_le

/-- Different priorities have different cells. -/
theorem priority_inj {p q : Priority} :
    Int64.ofNat p.toNat = Int64.ofNat q.toNat ↔ p.toNat = q.toNat := by
  rw [← Int64.toInt_inj, toInt_priority, toInt_priority]
  omega

/-- A row stands before a key if its entry is served before it. -/
theorem isBefore_ofEntry (queue : String) (e : Entry) (key : Key) :
    (ofEntry queue e).isBefore key = decide (e.key < key) := by
  rw [Bool.eq_iff_iff]
  simp only [isBefore, ofEntry, Bool.or_eq_true, Bool.and_eq_true, decide_eq_true_eq, beq_iff_eq,
    Key.lt_iff, priority_lt_iff, priority_inj, idToCell_lt_iff, UInt64.lt_iff_toNat_lt, Entry.key]

/-- A row stands after a key if its entry is served after it. -/
theorem isAfter_ofEntry (queue : String) (e : Entry) (key : Key) :
    (ofEntry queue e).isAfter key = decide (key < e.key) := by
  rw [Bool.eq_iff_iff]
  simp only [isAfter, ofEntry, Bool.or_eq_true, Bool.and_eq_true, decide_eq_true_eq, beq_iff_eq,
    Key.lt_iff, priority_lt_iff, priority_inj, idToCell_lt_iff, UInt64.lt_iff_toNat_lt, Entry.key]
  omega

/-- A row stands up to a key if its entry is served no later. -/
theorem isUpTo_ofEntry (queue : String) (e : Entry) (key : Key) :
    (ofEntry queue e).isUpTo key = decide (e.key ≤ key) := by
  have hle : idToCell e.id ≤ idToCell key.id ↔ e.id.toNat ≤ key.id.toNat := by
    rw [Int64.le_iff_toInt_le, toInt_idToCell, toInt_idToCell]
    omega
  change _ = decide (¬ key < e.key)
  rw [Bool.eq_iff_iff]
  simp only [isUpTo, ofEntry, Bool.or_eq_true, Bool.and_eq_true, decide_eq_true_eq, beq_iff_eq,
    Key.lt_iff, priority_lt_iff, priority_inj, hle, Entry.key]
  omega

/-- The table orders the rows of entries as the entries are served. -/
theorem before_ofEntry (queue : String) (a b : Entry) :
    before (ofEntry queue a) (ofEntry queue b) = servedBefore a b :=
  isBefore_ofEntry queue a b.key

/-- Ordering the rows of entries orders the entries. -/
theorem inOrder_ofEntry (queue : String) (l : List Entry) :
    inOrder (l.map (ofEntry queue)) = (sortByKey l).map (ofEntry queue) :=
  sortOrdered_map (before_ofEntry queue) l

/-- The order of rows, in numbers. -/
theorem before_iff {r r' : Row} : before r r' = true ↔
    r'.priority.toInt < r.priority.toInt ∨
      r.priority.toInt = r'.priority.toInt ∧ r.id.toInt < r'.id.toInt := by
  simp only [before, Bool.or_eq_true, Bool.and_eq_true, decide_eq_true_eq, beq_iff_eq,
    Int64.lt_iff_toInt_lt, ← Int64.toInt_inj]

/-- A row is not before another one, in numbers. -/
theorem before_eq_false_iff {r r' : Row} : before r r' = false ↔
    ¬ (r'.priority.toInt < r.priority.toInt ∨
      r.priority.toInt = r'.priority.toInt ∧ r.id.toInt < r'.id.toInt) := by
  rw [← before_iff, Bool.not_eq_true]

/-- Of two rows not both are before the other. -/
theorem before_asymm {r r' : Row} (h : before r r' = true) : before r' r = false := by
  rw [before_iff] at h
  rw [before_eq_false_iff]
  omega

/-- A row that is not before another one is not before those that this is not before. -/
theorem before_trans {r r' r'' : Row} (h : before r r' = false) (h' : before r' r'' = false) :
    before r r'' = false := by
  rw [before_eq_false_iff] at h h' ⊢
  omega

/-- In their order no row is before one that precedes it. -/
theorem pairwise_inOrder (rows : List Row) :
    (inOrder rows).Pairwise fun r r' => before r' r = false := by
  apply @pairwise_sortOrdered _ before
  · intro r r' h
    exact before_asymm h
  · intro r r' r'' h h'
    exact before_trans h' h

/-- In the reverse order no row is before one that follows it. -/
theorem pairwise_inReverse (rows : List Row) :
    (inReverse rows).Pairwise fun r r' => before r r' = false := by
  apply @pairwise_sortOrdered _ fun r r' => before r' r
  · intro r r' h
    exact before_asymm h
  · intro r r' r'' h h'
    exact before_trans h h'

/-- Putting rows in order keeps them. -/
theorem mem_inOrder {rows : List Row} {r : Row} : r ∈ inOrder rows ↔ r ∈ rows :=
  (perm_sortOrdered _ rows).mem_iff

/-- So does putting them in the reverse order. -/
theorem mem_inReverse {rows : List Row} {r : Row} : r ∈ inReverse rows ↔ r ∈ rows :=
  (perm_sortOrdered _ rows).mem_iff

end Row

/-! ## Rows that can be read -/

/-- Whether a row can be read. -/
def Row.readable (r : Row) : Bool := r.readEntry.isOk

/-- The entries in rows, as far as they can be read. -/
def Row.decode (rows : List Row) : List Entry := rows.filterMap fun r => r.readEntry.toOption

namespace Row

/-- A row that can be read is the row of the entry that is read. -/
theorem eq_ofEntry {r : Row} {e : Entry} (h : r.readEntry = .ok e) :
    r = ofEntry r.queue e := by
  obtain ⟨queue, id, priority, size, persistent, payload⟩ := r
  simp only [readEntry, readPriority] at h
  cases hp : Priority.ofInt priority.toInt with
  | error fault =>
    rw [hp] at h
    cases h
  | ok p =>
    rw [hp] at h
    cases h
    have hlevel : Int64.ofNat p.toNat = priority := by
      rw [← Int64.toInt_inj, toInt_priority, Priority.ofInt_eq_ok_iff.1 hp]
    simp [ofEntry, hlevel, sizeToCell, sizeOfCell]

/-- So what is decoded of it has its row there. -/
theorem eq_ofEntry_of_some {r : Row} {e : Entry} (h : r.readEntry.toOption = some e) :
    r = ofEntry r.queue e := by
  cases hr : r.readEntry with
  | error refusal =>
    rw [hr] at h
    cases h
  | ok f =>
    rw [hr] at h
    cases h
    exact eq_ofEntry hr

/-- A row is readable if an entry can be read from it. -/
theorem readable_iff {r : Row} : r.readable = true ↔ ∃ e, r.readEntry = .ok e := by
  unfold readable
  cases r.readEntry with
  | error refusal => simp [Except.isOk, Except.toBool]
  | ok e => simp [Except.isOk, Except.toBool]

/-- A row that cannot be read is one of another priority than there is. -/
theorem readEntry_of_unreadable {r : Row} (h : r.readable = false) :
    r.readEntry = .error .unreadableRow := by
  unfold readable at h
  unfold readEntry readPriority at h ⊢
  cases hp : Priority.ofInt r.priority.toInt with
  | error fault => rfl
  | ok p =>
    rw [hp] at h
    cases h

/-- Whether a row can be read is up to its priority. -/
theorem readable_of_priority {r r' : Row} (h : r.priority = r'.priority)
    (hr : r.readable = true) : r'.readable = true := by
  simp only [readable, readEntry, readPriority, ← h] at hr ⊢
  cases hp : Priority.ofInt r.priority.toInt with
  | ok p => rfl
  | error fault =>
    rw [hp] at hr
    cases hr

/-- A readable row gives its entry first. -/
theorem decode_cons {r : Row} {e : Entry} (h : r.readEntry = .ok e) (rows : List Row) :
    decode (r :: rows) = e :: decode rows := by
  rw [decode, List.filterMap_cons, h]
  rfl

/-- Rows are read if all of them can be. -/
theorem mapM_readEntry (rows : List Row) : rows.mapM readEntry =
    if ∀ r ∈ rows, r.readable = true then .ok (decode rows) else .error .unreadableRow := by
  induction rows with
  | nil => simp [decode, pure, Except.pure]
  | cons r rows ih =>
    have hcons : (∀ r' ∈ r :: rows, r'.readable = true) ↔
        r.readable = true ∧ ∀ r' ∈ rows, r'.readable = true := List.forall_mem_cons
    rw [List.mapM_cons, ih]
    by_cases hr : r.readable = true
    · obtain ⟨e, he⟩ := readable_iff.1 hr
      by_cases hrest : ∀ r' ∈ rows, r'.readable = true
      · rw [he, if_pos hrest, if_pos (hcons.2 ⟨hr, hrest⟩), decode_cons he]
        rfl
      · rw [he, if_neg hrest, if_neg fun hall => hrest (hcons.1 hall).2]
        rfl
    · rw [readEntry_of_unreadable (Bool.not_eq_true _ ▸ hr), if_neg fun hall => hr (hcons.1 hall).1]
      rfl

/-- Readable rows of a queue are the rows of the entries in them. -/
theorem map_decode {queue : String} {rows : List Row} (hq : ∀ r ∈ rows, r.queue = queue)
    (hr : ∀ r ∈ rows, r.readable = true) : (decode rows).map (ofEntry queue) = rows := by
  induction rows with
  | nil => rfl
  | cons r rows ih =>
    obtain ⟨hq, hqs⟩ := List.forall_mem_cons.1 hq
    obtain ⟨hr, hrs⟩ := List.forall_mem_cons.1 hr
    obtain ⟨e, he⟩ := readable_iff.1 hr
    rw [decode_cons he, List.map_cons, ih hqs hrs, ← hq, ← eq_ofEntry he]

/-- Rows that were written of entries give these entries back. -/
theorem decode_ofEntry (queue : String) (l : List Entry) : decode (l.map (ofEntry queue)) = l := by
  have hread : ((fun r : Row => r.readEntry.toOption) ∘ ofEntry queue) = some := by
    funext e
    simp only [Function.comp, readEntry_ofEntry]
    rfl
  rw [decode, List.filterMap_map, hread, List.filterMap_some]

/-- An entry is read from rows of a queue exactly if its row is among them. -/
theorem mem_decode {queue : String} {rows : List Row} (hq : ∀ r ∈ rows, r.queue = queue)
    {e : Entry} : e ∈ decode rows ↔ ofEntry queue e ∈ rows := by
  simp only [decode, List.mem_filterMap]
  constructor
  · rintro ⟨r, hr, hread⟩
    have hrow := eq_ofEntry_of_some hread
    rw [hq r hr] at hrow
    exact hrow ▸ hr
  · intro hr
    exact ⟨_, hr, by rw [readEntry_ofEntry]; rfl⟩

/-- The slot of a row is that of its entry: neither is read if the priority is none. -/
theorem readSlot_eq (r : Row) : r.readSlot = r.readEntry.map Entry.slot := by
  unfold readSlot readEntry
  cases r.readPriority <;> rfl

/-- Rows are read as slots if all of them can be read. -/
theorem mapM_readSlot (rows : List Row) : rows.mapM readSlot =
    if ∀ r ∈ rows, r.readable = true then .ok ((decode rows).map Entry.slot)
    else .error .unreadableRow := by
  have hmap : rows.mapM readSlot = (rows.mapM readEntry).map (List.map Entry.slot) := by
    induction rows with
    | nil => rfl
    | cons r rows ih =>
      rw [List.mapM_cons, List.mapM_cons, ih, readSlot_eq]
      cases r.readEntry with
      | error refusal => rfl
      | ok e => cases rows.mapM readEntry <;> rfl
  rw [hmap, mapM_readEntry]
  split <;> rfl

/-- Readable rows give an entry each. -/
theorem length_decode {rows : List Row} (h : ∀ r ∈ rows, r.readable = true) :
    (decode rows).length = rows.length := by
  induction rows with
  | nil => rfl
  | cons r rows ih =>
    obtain ⟨hr, hrs⟩ := List.forall_mem_cons.1 h
    obtain ⟨e, he⟩ := readable_iff.1 hr
    rw [decode_cons he, List.length_cons, List.length_cons, ih hrs]


/-- The rows of entries can be read. -/
theorem readable_of_mem_map {queue : String} {l : List Entry} {r : Row}
    (h : r ∈ l.map (ofEntry queue)) : r.readable = true := by
  obtain ⟨e, -, rfl⟩ := List.mem_map.1 h
  exact readable_iff.2 ⟨e, readEntry_ofEntry queue e⟩

/-- Different entries of a queue have different rows. -/
theorem ofEntry_injective (queue : String) : Function.Injective (ofEntry queue) := by
  intro e e' h
  have hread := congrArg readEntry h
  rw [readEntry_ofEntry, readEntry_ofEntry] at hread
  exact Except.ok.inj hread

end Row

/-! ## Rows of a table -/

/-- Rows of a table: no queue has two of one id. -/
def Keyed (rows : List Row) : Prop :=
  rows.Pairwise fun r r' => ¬ (r.queue = r'.queue ∧ r.id = r'.id)

namespace Keyed

variable {rows rows' : List Row}

/-- Rows are keyed however they are arranged. -/
theorem perm (h : Keyed rows) (hp : rows.Perm rows') : Keyed rows' := by
  refine (hp.pairwise_iff ?_).1 h
  rintro r r' hne ⟨hq, hid⟩
  exact hne ⟨hq.symm, hid.symm⟩

/-- Queue and id tell the rows of a table apart. -/
theorem nodup_keys (h : Keyed rows) : (rows.map fun r => (r.queue, r.id)).Nodup := by
  rw [List.Nodup, List.pairwise_map]
  apply h.imp
  intro r r' hne heq
  exact hne (Prod.mk.inj heq)

/-- No row of a table stands twice. -/
theorem nodup (h : Keyed rows) : rows.Nodup := h.nodup_keys.of_map

/-- A row is known by its queue and its id. -/
theorem eq_of_id (h : Keyed rows) {r r' : Row} (hr : r ∈ rows) (hr' : r' ∈ rows)
    (hq : r.queue = r'.queue) (hid : r.id = r'.id) : r = r' :=
  List.inj_on_of_nodup_map h.nodup_keys hr hr' (by rw [hq, hid])

/-- So are those of a queue. -/
theorem own (h : Keyed rows) (queue : String) : Keyed (Statement.rowsOf queue rows) :=
  h.sublist List.filter_sublist

end Keyed

namespace Statement

variable {α β : Type} {queue : String} {rows rows' : List Row}

/-- The read entries of one queue have different ids. -/
theorem nodup_decode (hk : Keyed rows) (hq : ∀ r ∈ rows, r.queue = queue) :
    ((Row.decode rows).map idOf).Nodup := by
  rw [List.Nodup, List.pairwise_map, Row.decode, List.pairwise_filterMap]
  refine List.Pairwise.imp_of_mem (fun {r r'} hr hr' hne e he e' he' hid => hne ⟨?_, ?_⟩) hk
  · rw [hq r hr, hq r' hr']
  · rw [Row.eq_ofEntry_of_some he, Row.eq_ofEntry_of_some he']
    exact congrArg idToCell hid

/-! ## Rows of a queue -/

/-- The rows of a queue are all its own. -/
theorem rowsOf_rowsOf (queue : String) (rows : List Row) :
    rowsOf queue (rowsOf queue rows) = rowsOf queue rows := by
  simp [rowsOf]

/-- A condition on the rows of a queue. -/
theorem filter_of_queue (queue : String) (pick : Row → Bool) (rows : List Row) :
    (rows.filter fun r => r.queue == queue && pick r) = (rowsOf queue rows).filter pick := by
  rw [rowsOf, List.filter_filter]
  exact List.filter_congr fun r _ => Bool.and_comm ..

/-- What picks only rows of a queue finds them among the rows of that queue. -/
theorem filter_rowsOf {pick : Row → Bool} (hp : ∀ r, pick r = true → r.queue = queue)
    (rows : List Row) : rows.filter pick = (rowsOf queue rows).filter pick := by
  rw [rowsOf, List.filter_filter]
  apply List.filter_congr
  intro r _
  cases hr : pick r with
  | false => rfl
  | true => simp [hp r hr]

/-- What a condition leaves of a table is, for a queue, what it leaves of its rows. -/
theorem rowsOf_filter (queue : String) (p : Row → Bool) (rows : List Row) :
    rowsOf queue (rows.filter p) = (rowsOf queue rows).filter p := by
  rw [rowsOf, rowsOf, List.filter_comm]

/-- A row of an id in a queue is one of the queue. -/
theorem queue_of_isRowOf {id : UInt64} {r : Row} (h : isRowOf queue id r = true) :
    r.queue = queue := by
  rw [isRowOf, Bool.and_eq_true, beq_iff_eq] at h
  exact h.1

/-- So is a row of one of some ids. -/
theorem queue_of_isAmong {ids : List UInt64} {r : Row} (h : isAmong queue ids r = true) :
    r.queue = queue := by
  rw [isAmong, Bool.and_eq_true, beq_iff_eq] at h
  exact h.1

/-- And so is each of its rows. -/
theorem queue_of_mem_rowsOf {r : Row} (h : r ∈ rowsOf queue rows) : r.queue = queue := by
  simpa using (List.mem_filter.1 h).2

/-! ## Statements -/

/-- A statement that succeeds is followed by the next one. -/
theorem bind_of_ok {act : Statement α} {next : α → Statement β} {a : α}
    (h : act rows = .ok (a, rows')) : (act >>= next) rows = next a rows' := by
  change ((act rows).bind fun p => next p.1 p.2) = _
  rw [h]
  rfl

/-- A statement that is refused is not followed by another one. -/
theorem bind_of_error {act : Statement α} {next : α → Statement β} {refusal : Refusal}
    (h : act rows = .error refusal) : (act >>= next) rows = .error refusal := by
  change ((act rows).bind fun p => next p.1 p.2) = _
  rw [h]
  rfl

/-- To look at the table gives all rows and leaves them. -/
theorem get_apply (rows : List Row) : (get : Statement (List Row)) rows = .ok (rows, rows) := rfl

/-- To give a result leaves all rows. -/
theorem pure_apply (a : α) (rows : List Row) : (pure a : Statement α) rows = .ok (a, rows) := rfl

/-- Rows are read if all of them can be. -/
theorem readEntries_eq (rs rows : List Row) : readEntries rs rows =
    if ∀ r ∈ rs, r.readable = true then .ok (Row.decode rs, rows) else .error .unreadableRow := by
  change (rs.mapM Row.readEntry).map _ = _
  rw [Row.mapM_readEntry]
  split
  · rfl
  · rfl

/-- As slots they are read if all of them can be. -/
theorem readSlots_eq (rs rows : List Row) : readSlots rs rows =
    if ∀ r ∈ rs, r.readable = true then .ok ((Row.decode rs).map Entry.slot, rows)
    else .error .unreadableRow := by
  change (rs.mapM Row.readSlot).map _ = _
  rw [Row.mapM_readSlot]
  split
  · rfl
  · rfl

/-- Rows are deleted if all that are picked can be read. -/
theorem deleteSlots_eq (pick : Row → Bool) (rows : List Row) :
    (do readSlots (← deleteWhere pick)) rows =
      if ∀ r ∈ rows.filter pick, r.readable = true then
        .ok ((Row.decode (rows.filter pick)).map Entry.slot, rows.filter (!pick ·))
      else .error .unreadableRow :=
  readSlots_eq (rows.filter pick) (rows.filter (!pick ·))

end Statement

end Spillway
