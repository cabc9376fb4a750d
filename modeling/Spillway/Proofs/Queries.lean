import Spillway.Proofs.Partition
import Spillway.Proofs.Windows

/-!
# Queries with a bound

The query of a window keeps a band of priorities, or what stands after a limit, by cells alone,
finds the first priority without reading it, and ends with the bound on entries wherever that bound
alone decides. It gives the window on all entries of the queue. The queries with a limit select the
entries that are served before it or up to it, and the query for the first rows selects the first
entries.
-/

namespace Spillway.Statement

variable {queue : String} {rows : List Row}

/-- What is made of rows that are read as slots. -/
theorem read_then {α : Type} (make : List Slot → α) (read rows : List Row) :
    (do return make (← readSlots read)) rows =
      if ∀ r ∈ read, r.readable = true then
        .ok (make ((Row.decode read).map Entry.slot), rows)
      else .error .unreadableRow := by
  have hread := readSlots_eq read rows
  split
  · next h =>
    rw [if_pos h] at hread
    exact bind_of_ok hread
  · next h =>
    rw [if_neg h] at hread
    exact bind_of_error hread

/-! ## Head windows -/

/-- What the query of a head window looks at, where it can read all of that. -/
def headRows (queue : String) (w : Window) (band : Band) (rows : List Row) : List Row :=
  limited w.entries (Row.inOrder (rowsInBand queue band rows))

theorem headSlots_eq (w : Window) (band : Band) :
    headSlots queue w band rows =
      if ∀ r ∈ headRows queue w band rows, r.readable = true then
        .ok (w.head band ((Row.decode (headRows queue w band rows)).map Entry.slot), rows)
      else .error .unreadableRow := by
  rw [headSlots, bind_of_ok (get_apply rows)]
  exact read_then _ (headRows queue w band rows) rows

theorem mem_rowsOf_of_mem_rowsInBand {band : Band} {r : Row} (h : r ∈ rowsInBand queue band rows) :
    r ∈ rowsOf queue rows := by
  cases band with
  | all => exact h
  | between low high => exact List.mem_of_mem_filter h
  | ofFirst => exact List.mem_of_mem_filter h

theorem first_mem_rowsOf {first : Row} {rest : List Row}
    (hs : Row.inOrder (rowsOf queue rows) = first :: rest) : first ∈ rowsOf queue rows := by
  rw [← Row.mem_inOrder, hs]
  exact List.mem_cons_self

/-- The first row in order has the highest priority. -/
theorem priority_le_first {first : Row} {rest : List Row}
    (hs : Row.inOrder (rowsOf queue rows) = first :: rest) {r : Row}
    (hr : r ∈ rowsOf queue rows) : r.priority ≤ first.priority := by
  have hsorted := Row.pairwise_inOrder (rowsOf queue rows)
  rw [← Row.mem_inOrder, hs] at hr
  rw [hs, List.pairwise_cons] at hsorted
  rcases List.mem_cons.1 hr with rfl | hr
  · exact Int64.le_refl _
  · have hnot := hsorted.1 r hr
    rw [Row.before_eq_false_iff] at hnot
    rw [Int64.le_iff_toInt_le]
    omega

/-- So the rows of the first priority are those that reach its priority. -/
theorem rowsInBand_ofFirst {first : Row} {rest : List Row}
    (hs : Row.inOrder (rowsOf queue rows) = first :: rest) :
    rowsInBand queue .ofFirst rows =
      (rowsOf queue rows).filter fun r => decide (first.priority ≤ r.priority) := by
  apply List.filter_congr
  intro r _
  rw [Bool.eq_iff_iff, List.all_eq_true, decide_eq_true_eq]
  simp only [decide_eq_true_eq]
  constructor
  · intro hall
    exact hall first (first_mem_rowsOf hs)
  · intro hle r' hr'
    exact Int64.le_trans (priority_le_first hs hr') hle

/-- The first entry is that of the first row, if this one can be read. -/
theorem entriesOf_cons {first : Row} {rest : List Row} {a : Entry}
    (hs : Row.inOrder (rowsOf queue rows) = first :: rest) (ha : first.readEntry = .ok a) :
    entriesOf queue rows = a :: Row.decode rest := by
  rw [entriesOf, hs]
  exact Row.decode_cons ha rest

/-- Then the rows of the first priority are read as the entries of its priority. -/
theorem decode_ofFirst (hk : Keyed (rowsOf queue rows)) {first : Row} {rest : List Row} {a : Entry}
    (hs : Row.inOrder (rowsOf queue rows) = first :: rest) (ha : first.readEntry = .ok a) :
    Row.decode (Row.inOrder (rowsInBand queue .ofFirst rows)) =
      (entriesOf queue rows).filter (Window.within a.priority a.priority) := by
  have hcell : first.priority = Int64.ofNat a.priority.toNat := by
    rw [Row.eq_ofEntry ha]
    rfl
  rw [rowsInBand_ofFirst hs]
  apply decode_inOrder _ hk
  intro e he
  have hown : Row.ofEntry queue e ∈ rowsOf queue rows :=
    List.mem_filter.2 ⟨mem_entriesOf.1 he, beq_self_eq_true queue⟩
  have hle := priority_le_first hs hown
  rw [hcell] at hle ⊢
  rw [Bool.eq_iff_iff, decide_eq_true_eq, Window.within_iff]
  simp only [Row.ofEntry, Row.priority_le_iff] at hle ⊢
  exact ⟨fun h => ⟨h, hle⟩, fun h => h.1⟩

/-- A condition on cells keeps the entries within the limits of a band, except if that is the first
priority and the first row cannot be read. -/
theorem decode_rowsInBand (hk : Keyed (rowsOf queue rows)) (band : Band)
    (hfirst : band = .ofFirst → ∀ first rest,
      Row.inOrder (rowsOf queue rows) = first :: rest → first.readable = true) :
    Row.decode (Row.inOrder (rowsInBand queue band rows)) =
      (entriesOf queue rows).filter (Window.within (Window.limitsOf band (entriesOf queue rows)).1
        (Window.limitsOf band (entriesOf queue rows)).2) := by
  cases band with
  | all =>
    have hall : (entriesOf queue rows).filter (Window.within .lowest .highest) =
        entriesOf queue rows := by
      rw [List.filter_eq_self]
      intro e _
      exact Window.within_iff.2 ⟨Fin.zero_le _, Fin.le_last _⟩
    exact hall.symm
  | between low high =>
    apply decode_inOrder _ hk
    intro e _
    simp only [Row.ofEntry, Row.priority_le_iff]
    rfl
  | ofFirst =>
    cases hs : Row.inOrder (rowsOf queue rows) with
    | nil =>
      have hnone : rowsOf queue rows = [] := by
        have hp := perm_sortOrdered Row.before (rowsOf queue rows)
        rw [show sortOrdered Row.before (rowsOf queue rows) = [] from hs] at hp
        exact hp.nil_eq.symm
      simp [rowsInBand, entriesOf, hnone, Row.inOrder, sortOrdered, Row.decode]
    | cons first rest =>
      obtain ⟨a, ha⟩ := Row.readable_iff.1 (hfirst rfl first rest hs)
      have hlimits : Window.limitsOf .ofFirst (entriesOf queue rows) =
          (a.priority, a.priority) := by
        rw [entriesOf_cons hs ha]
        rfl
      rw [decode_ofFirst hk hs ha, hlimits]

/-- If the first row cannot be read, the query of the first priority finds rows that can be only
where it may find none. -/
theorem entries_of_first_unreadable {w : Window} {first : Row} {rest : List Row}
    (hs : Row.inOrder (rowsOf queue rows) = first :: rest) (hfirst : first.readable = false)
    (h : ∀ r ∈ headRows queue w .ofFirst rows, r.readable = true) : w.entries = some 0 := by
  have hfound : first ∈ Row.inOrder (rowsInBand queue .ofFirst rows) := by
    rw [Row.mem_inOrder, rowsInBand_ofFirst hs, List.mem_filter, decide_eq_true_eq]
    exact ⟨first_mem_rowsOf hs, Int64.le_refl _⟩
  have hnone : headRows queue w .ofFirst rows = [] := by
    rw [List.eq_nil_iff_forall_not_mem]
    intro r hr
    have hin := Row.mem_inOrder.1 ((limited_sublist _ _).subset hr)
    rw [rowsInBand_ofFirst hs, List.mem_filter, decide_eq_true_eq] at hin
    have heq := Int64.le_antisymm (priority_le_first hs hin.1) hin.2
    rw [Row.readable_of_priority heq (h r hr)] at hfirst
    cases hfirst
  cases hw : w.entries with
  | none =>
    rw [headRows, hw, limited] at hnone
    rw [hnone] at hfound
    cases hfound
  | some n =>
    rw [headRows, hw, limited, List.take_eq_nil_iff] at hnone
    rcases hnone with rfl | hnone
    · rfl
    · rw [hnone] at hfound
      cases hfound

/-- What the query of a head window reads makes the window on all entries. -/
theorem head_headRows (hk : Keyed (rowsOf queue rows)) {w : Window} {band : Band}
    (h : ∀ r ∈ headRows queue w band rows, r.readable = true) :
    w.head band (Row.decode (headRows queue w band rows)) =
      w.head band (entriesOf queue rows) := by
  by_cases hfirst : band = .ofFirst →
      ∀ first rest, Row.inOrder (rowsOf queue rows) = first :: rest → first.readable = true
  · have hasc : Ascending (entriesOf queue rows) := (ordered_entriesOf hk).ascending
    rw [headRows, Row.decode_limited h, decode_rowsInBand hk band hfirst,
      w.head_limited band hasc]
  · simp only [not_forall, Bool.not_eq_true] at hfirst
    obtain ⟨rfl, first, rest, hs, hunread⟩ := hfirst
    have hfull : w.isFull 0 = true := by
      simp [Window.isFull, entries_of_first_unreadable hs hunread h]
    rw [Window.head, Window.head, Window.headFrom_of_full _ hfull,
      Window.headFrom_of_full _ hfull]

/-- The query of a head window gives the window on all entries. -/
theorem meets_headSlots (hk : Keyed (rowsOf queue rows)) (w : Window) (band : Band) :
    Meets queue rows (headSlots queue w band) fun slots left =>
      slots = (w.head band (entriesOf queue rows)).map Entry.slot ∧ left = rows := by
  apply meets_of_read (headSlots_eq w band)
  · intro r hr
    exact mem_rowsOf_of_mem_rowsInBand (Row.mem_inOrder.1 ((limited_sublist _ _).subset hr))
  · intro h
    have hslot : ∀ e : Entry, Slotted.slot e.slot = Slotted.slot e := fun _ => rfl
    rw [w.head_map hslot, head_headRows hk h]
    exact ⟨rfl, rfl⟩

/-! ## Tail windows -/

/-- The rows of a queue that stand after a limit, if there is one. -/
def rowsAfter (queue : String) (limit : Option Key) (rows : List Row) : List Row :=
  match limit with
  | some key => (rowsOf queue rows).filter (·.isAfter key)
  | none => rowsOf queue rows

/-- What the query of a tail window looks at, where it can read all of that. -/
def tailRows (queue : String) (w : Window) (limit : Option Key) (rows : List Row) : List Row :=
  limited (if w.bytes.isNone then w.entries else none) (Row.inReverse (rowsAfter queue limit rows))

theorem tailSlots_eq (w : Window) (limit : Option Key) (leaveOne : Bool) :
    tailSlots queue w limit leaveOne rows =
      if ∀ r ∈ tailRows queue w limit rows, r.readable = true then
        .ok (w.tail limit leaveOne (rowsOf queue rows).length
          ((Row.decode (tailRows queue w limit rows)).map Entry.slot), rows)
      else .error .unreadableRow := by
  rw [tailSlots, bind_of_ok (get_apply rows)]
  exact read_then _ (tailRows queue w limit rows) rows

theorem mem_rowsOf_of_mem_rowsAfter {limit : Option Key} {r : Row}
    (h : r ∈ rowsAfter queue limit rows) : r ∈ rowsOf queue rows := by
  cases limit with
  | none => exact h
  | some key => exact List.mem_of_mem_filter h

/-- A condition on cells keeps what stands after a limit. -/
theorem decode_rowsAfter (hk : Keyed (rowsOf queue rows)) (limit : Option Key) :
    Row.decode (Row.inReverse (rowsAfter queue limit rows)) =
      (entriesOf queue rows).reverse.filter (Window.beyond limit) := by
  have hrows : rowsAfter queue limit rows =
      (rowsOf queue rows).filter fun r => limit.all (r.isAfter ·) := by
    cases limit with
    | none => exact (List.filter_true _).symm
    | some key => rfl
  rw [hrows, List.filter_reverse]
  apply decode_inReverse _ hk
  intro e _
  cases limit with
  | none => rfl
  | some key =>
    have hafter := Row.isAfter_ofEntry queue e key
    change _ = !decide (¬ key < e.key)
    rw [decide_not, Bool.not_not]
    exact hafter

/-- What the query of a tail window reads makes the window on all entries. -/
theorem tail_tailRows (hk : Keyed (rowsOf queue rows)) {w : Window} {limit : Option Key}
    (leaveOne : Bool) (total : Nat) (h : ∀ r ∈ tailRows queue w limit rows, r.readable = true) :
    w.tail limit leaveOne total (Row.decode (tailRows queue w limit rows)) =
      w.tail limit leaveOne total (entriesOf queue rows).reverse := by
  have hback : (entriesOf queue rows).reverse.Pairwise fun a b => keyOf b < keyOf a :=
    List.pairwise_reverse.2 (ordered_entriesOf hk).ascending
  rw [tailRows, Row.decode_limited h, decode_rowsAfter hk,
    w.tail_limited limit leaveOne total hback]

/-- The query of a tail window gives the window on all entries. -/
theorem meets_tailSlots (hk : Keyed (rowsOf queue rows)) (w : Window) (limit : Option Key)
    (leaveOne : Bool) :
    Meets queue rows (tailSlots queue w limit leaveOne) fun slots left =>
      slots = (w.tail limit leaveOne (rowsOf queue rows).length
        (entriesOf queue rows).reverse).map Entry.slot ∧ left = rows := by
  apply meets_of_read (tailSlots_eq w limit leaveOne)
  · intro r hr
    exact mem_rowsOf_of_mem_rowsAfter (Row.mem_inReverse.1 ((limited_sublist _ _).subset hr))
  · intro h
    have hslot : ∀ e : Entry, Slotted.slot e.slot = Slotted.slot e := fun _ => rfl
    rw [w.tail_map hslot, tail_tailRows hk leaveOne _ h]
    exact ⟨rfl, rfl⟩

/-! ## Limits -/

/-- Deleting up to a key deletes the entries that stand before it, and the one under it if asked
for. -/
theorem meets_deleteUpTo (hk : Keyed (rowsOf queue rows)) (limit : Key) (inclusive : Bool) :
    Meets queue rows (deleteUpTo queue limit inclusive) fun slots left =>
      let gone := (entriesOf queue rows).filter fun e =>
        if inclusive then decide (e.key ≤ limit) else decide (e.key < limit)
      slots.Perm (gone.map Entry.slot) ∧ left = without queue gone rows := by
  apply meets_delete
  intro _
  have hkept : Row.decode (Row.inOrder ((rowsOf queue rows).filter fun r =>
      if inclusive then r.isUpTo limit else r.isBefore limit)) =
      (entriesOf queue rows).filter fun e =>
        if inclusive then decide (e.key ≤ limit) else decide (e.key < limit) := by
    apply decode_inOrder _ hk
    intro e _
    rw [Row.isUpTo_ofEntry, Row.isBefore_ofEntry]
  rw [← hkept]
  exact (perm_sortOrdered Row.before _).symm.filterMap _

/-- Looking for an id finds its row, which can be that of no other entry. -/
theorem find?_entriesOf (hk : Keyed (rowsOf queue rows)) {id : UInt64} {e : Entry}
    (h : rows.find? (isRowOf queue id) = some (Row.ofEntry queue e)) :
    (entriesOf queue rows).find? (fun f => decide (f.id = id)) = some e := by
  have hid := List.find?_some h
  rw [Partition.isRowOf_ofEntry, decide_eq_true_eq] at hid
  have hmem : e ∈ entriesOf queue rows := mem_entriesOf.2 (List.mem_of_find?_eq_some h)
  rw [← hid]
  exact (ordered_entriesOf hk).find?_eq_some hmem

theorem find?_entriesOf_none {id : UInt64} (h : rows.find? (isRowOf queue id) = none) :
    (entriesOf queue rows).find? (fun f => decide (f.id = id)) = none := by
  rw [List.find?_eq_none] at h ⊢
  intro e he
  have hnot := h (Row.ofEntry queue e) (mem_entriesOf.1 he)
  rwa [Partition.isRowOf_ofEntry] at hnot

/-- What is served before the entry of an id, if it is stored. -/
def servedUpTo (queue : String) (id : UInt64) (rows : List Row) : List Entry :=
  match (entriesOf queue rows).find? fun e => decide (e.id = id) with
  | some limit => (entriesOf queue rows).filter fun e => decide (e.key < limit.key)
  | none => []

/-- The slot under an id is that of the row found. -/
theorem slotOf?_eq (queue : String) (id : UInt64) (rows : List Row) : slotOf? queue id rows =
    match rows.find? (isRowOf queue id) with
    | none => .ok (none, rows)
    | some r => r.readSlot.map fun slot => (some slot, rows) := by
  rw [slotOf?, bind_of_ok (get_apply rows)]
  cases rows.find? (isRowOf queue id) with
  | none => rfl
  | some r =>
    dsimp only
    cases r.readSlot with
    | ok slot => rfl
    | error refusal => rfl

theorem getBefore_of_some {id : UInt64} {limit : Slot}
    (h : slotOf? queue id rows = .ok (some limit, rows)) : getBefore queue id rows =
      readEntries (Row.inOrder ((rowsOf queue rows).filter (·.isBefore limit.key))) rows := by
  rw [getBefore, bind_of_ok h]
  exact bind_of_ok (get_apply rows)

/-- Reading what stands before a stored entry finds what is served before it. -/
theorem meets_getBefore (hk : Keyed (rowsOf queue rows)) (id : UInt64) :
    Meets queue rows (getBefore queue id) fun entries left =>
      entries = servedUpTo queue id rows ∧ left = rows := by
  have hslot := slotOf?_eq queue id rows
  cases hf : rows.find? (isRowOf queue id) with
  | none =>
    rw [hf] at hslot
    refine .inl ⟨[], rows, ?_, ?_, rfl⟩
    · rw [getBefore, bind_of_ok hslot]
      rfl
    · rw [servedUpTo, find?_entriesOf_none hf]
  | some r =>
    have hqueue := queue_of_isRowOf (List.find?_some hf)
    have hown : r ∈ rowsOf queue rows := by
      rw [rowsOf, List.mem_filter, beq_iff_eq]
      exact ⟨List.mem_of_find?_eq_some hf, hqueue⟩
    rw [hf] at hslot
    dsimp only at hslot
    rw [Row.readSlot_eq] at hslot
    cases hread : r.readEntry with
    | error refusal =>
      have hunread : r.readable = false := by
        rw [Row.readable, hread]
        rfl
      rw [Row.readEntry_of_unreadable hunread] at hslot
      refine .inr ⟨?_, r, hown, hunread⟩
      rw [getBefore, bind_of_error hslot]
    | ok e =>
      have hrow : r = Row.ofEntry queue e := hqueue ▸ Row.eq_ofEntry hread
      rw [hread] at hslot
      apply meets_of_read ((getBefore_of_some hslot).trans (readEntries_eq _ rows))
      · intro r' hr'
        exact List.mem_of_mem_filter (Row.mem_inOrder.1 hr')
      · intro _
        rw [servedUpTo, find?_entriesOf hk (hrow ▸ hf)]
        refine ⟨decode_inOrder ?_ hk, rfl⟩
        intro f _
        exact Row.isBefore_ofEntry queue f e.key

/-! ## The first entries -/

/-- Deleting the first rows deletes the first entries. -/
theorem meets_deleteFirst (hk : Keyed (rowsOf queue rows)) (count : Nat) :
    Meets queue rows (deleteFirst queue count) fun slots left =>
      slots.Perm (((entriesOf queue rows).take count).map Entry.slot) ∧
        left = without queue ((entriesOf queue rows).take count) rows := by
  rw [Meets, deleteFirst, bind_of_ok (get_apply rows)]
  apply meets_delete
  intro hr
  have hp := perm_first hk count
  have hfirst : ∀ r ∈ limited (some count) (Row.inOrder (rowsOf queue rows)),
      r.readable = true := fun r hin => hr r (hp.mem_iff.2 hin)
  exact (hp.filterMap _).trans (.of_eq (Row.decode_limited hfirst))

end Spillway.Statement
