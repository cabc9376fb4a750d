import Spillway.Proofs.LowestWindow
import Spillway.Proofs.Queries

/-!
# Queries that are cut short

A window could be cut from a scan of all slots of a queue. The queries look at fewer rows, and the
windows that they cut are those of the scan. The first entries are deleted by a query whose bound is
a word in a cell, where the upper half of the words reads as no bound at all; it deletes the first
entries of the scan.
-/

namespace Spillway

namespace Statement

variable {queue : String} {rows : List Row}

/-! ## The scan -/

/-- The slots of a queue that can be read, in the order of service. -/
def scanned (queue : String) (rows : List Row) : List Slot :=
  (Row.inOrder (rowsOf queue rows)).filterMap fun r => r.readSlot.toOption

/-- A scan looks at the entries of the queue. -/
theorem scanned_eq (queue : String) (rows : List Row) :
    scanned queue rows = (entriesOf queue rows).map Entry.slot := by
  rw [scanned, entriesOf, List.map_filterMap]
  apply List.filterMap_congr
  intro r _
  rw [Row.readSlot_eq]
  cases r.readEntry with
  | error refusal => rfl
  | ok e => rfl

theorem ascending_scanned (hk : Keyed (rowsOf queue rows)) : Ascending (scanned queue rows) := by
  rw [scanned_eq]
  exact List.pairwise_map.2 (ordered_entriesOf hk).ascending

/-- Where all rows of the queue can be read, the scan misses none. -/
theorem length_scanned (h : ∀ r ∈ rowsOf queue rows, r.readable = true) :
    (scanned queue rows).length = (rowsOf queue rows).length := by
  have hr : ∀ r ∈ Row.inOrder (rowsOf queue rows), r.readable = true := fun r hr =>
    h r (Row.mem_inOrder.1 hr)
  have hlength : (entriesOf queue rows).length = _ := Row.length_decode hr
  rw [scanned_eq, List.length_map, hlength]
  exact (perm_sortOrdered Row.before _).length_eq

theorem meets_getSlots (queue : String) (rows : List Row) :
    Meets queue rows (getSlots queue) fun slots left =>
      slots = scanned queue rows ∧ left = rows := by
  apply meets_of_read (readSlots_eq (Row.inOrder (rowsOf queue rows)) rows)
  · intro r hr
    exact Row.mem_inOrder.1 hr
  · intro _
    exact ⟨(scanned_eq queue rows).symm, rfl⟩

/-! ## The first entries -/

/-- Delete the first entries, as many as a word says. The query is bounded by the word in a cell,
and a negative cell bounds nothing. -/
def deleteFirstWord (queue : String) (count : UInt64) : Statement (List Slot) := do
  let first := limited (Window.bound (sizeToCell count).toInt) (Row.inOrder (rowsOf queue (← get)))
  let ids := first.map (·.id)
  readSlots (← deleteWhere fun r => r.queue == queue && ids.contains r.id)

/-- A word in a cell bounds a list that has no more members than signed words can count. -/
theorem limited_word {α : Type} (count : UInt64) {l : List α} (h : l.length ≤ 2 ^ 63) :
    limited (Window.bound (sizeToCell count).toInt) l = l.take count.toNat := by
  have hcell := toInt_sizeToCell count
  have hword := count.toNat_lt
  cases hb : Window.bound (sizeToCell count).toInt with
  | none =>
    -- A negative cell is a word of the upper half, which is more than there is.
    have hneg : (sizeToCell count).toInt < 0 := by
      unfold Window.bound at hb
      split at hb
      · next h => exact h
      · cases hb
    have hmany : l.length ≤ count.toNat := by
      split at hcell <;> omega
    exact (List.take_of_length_le hmany).symm
  | some n =>
    rw [Window.bound_eq_some_iff, hcell] at hb
    have hn : n = count.toNat := by
      split at hb <;> omega
    rw [hn, limited]

/-- So the query deletes as many as the word says. -/
theorem deleteFirstWord_eq (h : (rowsOf queue rows).length ≤ 2 ^ 63) (count : UInt64) :
    deleteFirstWord queue count rows = deleteFirst queue count.toNat rows := by
  have hlength : (Row.inOrder (rowsOf queue rows)).length ≤ 2 ^ 63 := by
    rwa [show (Row.inOrder (rowsOf queue rows)).length = _ from
      (perm_sortOrdered Row.before _).length_eq]
  rw [deleteFirstWord, deleteFirst, bind_of_ok (get_apply rows), bind_of_ok (get_apply rows),
    limited_word count hlength]

/-- What has been deleted of a queue when its first slots have. -/
structure FirstGone (queue : String) (rows : List Row) (count : Nat) (slots : List Slot)
    (left : List Row) : Prop where
  /-- The slots are the first of the scan, in whatever order. -/
  gone : slots.Perm ((scanned queue rows).take count)
  /-- There are as many as asked for, or as there are. -/
  number : slots.length = min count (scanned queue rows).length
  /-- A scan finds the others. -/
  rest : scanned queue left = (scanned queue rows).drop count
  /-- No row is changed, and all that are gone are those of the first entries. -/
  kept : left = without queue ((entriesOf queue rows).take count) rows
  /-- Other queues keep their rows. -/
  others : ∀ other, other ≠ queue → rowsOf other left = rowsOf other rows

theorem firstGone (hk : Keyed (rowsOf queue rows)) {count : Nat} {slots : List Slot}
    {left : List Row}
    (hgone : slots.Perm (((entriesOf queue rows).take count).map Entry.slot))
    (hleft : left = without queue ((entriesOf queue rows).take count) rows) :
    FirstGone queue rows count slots left := by
  have hslots : ((entriesOf queue rows).take count).map Entry.slot =
      (scanned queue rows).take count := by
    rw [scanned_eq, List.map_take]
  rw [hslots] at hgone
  refine ⟨hgone, ?_, ?_, hleft, ?_⟩
  · rw [hgone.length_eq, List.length_take]
  · have hnodup : (entriesOf queue rows).Nodup := (ordered_entriesOf hk).nodup
    rw [hleft, scanned_eq, entriesOf_without hk, Ram.filter_not_mem_take hnodup, scanned_eq,
      List.map_drop]
  · intro other hne
    rw [hleft]
    exact rowsOf_without hne _

/-! ## All queries -/

/-- What the queries on a queue come to, beside a scan of it. -/
structure AsScanned (queue : String) (rows : List Row) : Prop where
  /-- A scan gives the slots of the queue. -/
  scan : Meets queue rows (getSlots queue) fun slots left =>
    slots = scanned queue rows ∧ left = rows
  /-- They stand in the order of service. -/
  sorted : Ascending (scanned queue rows)
  /-- They are as many as the rows, if all of these can be read. -/
  counted : (∀ r ∈ rowsOf queue rows, r.readable = true) →
    (scanned queue rows).length = (rowsOf queue rows).length
  /-- The query of a head window gives the window on them. -/
  head : ∀ n b band, Meets queue rows (headSlots queue (.ofInts n.toInt b.toInt) band)
    fun slots left => slots = Window.headOf n b band (scanned queue rows) ∧ left = rows
  /-- The query of a tail window gives the window on them from the back. -/
  tail : ∀ n b limit leaveOne,
    Meets queue rows (tailSlots queue (.ofInts n.toInt b.toInt) limit leaveOne) fun slots left =>
      slots = Window.tailOf n b limit leaveOne (rowsOf queue rows).length
        (scanned queue rows).reverse ∧ left = rows
  /-- The query that deletes the first ones, bounded by a word in a cell, deletes as many as the
  word says. The rows of a table have numbers of their own, which are positive cells, so there are
  no more of them than that. -/
  first : (rowsOf queue rows).length ≤ 2 ^ 63 → ∀ count,
    deleteFirstWord queue count rows = deleteFirst queue count.toNat rows ∧
      Meets queue rows (deleteFirstWord queue count) (FirstGone queue rows count.toNat)

end Statement

open Statement

/-- Whatever the rows of a table, the queries on a queue that look at no more rows than they need
find what a scan of all its slots finds: head windows and tail windows of any words, band and limit,
and the first slots, as many as any word says. Only a row that cannot be read can keep them from
it. -/
theorem queries_as_scanned {rows : List Row} (hk : Keyed rows) (queue : String) :
    AsScanned queue rows where
  scan := meets_getSlots queue rows
  sorted := ascending_scanned (hk.own queue)
  counted := length_scanned
  head n b band := by
    have hslot : ∀ e : Entry, Slotted.slot e.slot = Slotted.slot e := fun _ => rfl
    rw [Window.headOf_eq_head, scanned_eq, Window.head_map hslot]
    exact meets_headSlots (hk.own queue) _ band
  tail n b limit leaveOne := by
    have hslot : ∀ e : Entry, Slotted.slot e.slot = Slotted.slot e := fun _ => rfl
    rw [Window.tailOf_eq_tail, scanned_eq, ← List.map_reverse, Window.tail_map hslot]
    exact meets_tailSlots (hk.own queue) _ limit leaveOne
  first h count := by
    have heq := deleteFirstWord_eq h count
    refine ⟨heq, ?_⟩
    rw [Meets, heq]
    apply (meets_deleteFirst (hk.own queue) count.toNat).mono
    rintro slots left ⟨hgone, hleft⟩
    exact firstGone (hk.own queue) hgone hleft

/-- Rows of two queues in no order, with ids and sizes of both halves of the words. -/
def shuffled : List Row :=
  [.ofEntry "mail:" ⟨UInt64.ofNat (2 ^ 64 - 1), .highest, 5, true, ⟨"", .empty⟩⟩,
    .ofEntry "mail:x" ⟨1, .highest, 7, true, ⟨"", .empty⟩⟩,
    .ofEntry "mail:" ⟨2, .lowest, UInt64.ofNat (2 ^ 64 - 1), false, ⟨"", .empty⟩⟩,
    .ofEntry "mail:" ⟨UInt64.ofNat (2 ^ 63), .highest, 5, true, ⟨"", .empty⟩⟩,
    .ofEntry "mail:" ⟨1, .normal, 5, false, ⟨"", .empty⟩⟩]

theorem keyed_shuffled : Keyed shuffled := by
  unfold Keyed
  decide +kernel

theorem readable_shuffled : ∀ r ∈ rowsOf "mail:" shuffled, r.readable = true := by
  decide +kernel

/-- Queries on them: the first priority up to a bound on bytes, a band with a bound on entries, the
tail after a limit that no row has, the whole tail but for one, and the largest word, which as a
bound on the first entries is no bound. -/
theorem queries_as_scanned_shuffled :
    let all := scanned "mail:" shuffled
    (Keyed shuffled ∧ (rowsOf "mail:" shuffled).length ≤ 2 ^ 63 ∧
        ∀ r ∈ rowsOf "mail:" shuffled, r.readable = true) ∧
      all.map idOf = [UInt64.ofNat (2 ^ 63), UInt64.ofNat (2 ^ 64 - 1), 1, 2] ∧
      headSlots "mail:" (.ofInts (-1) 10) .ofFirst shuffled = .ok (all.take 1, shuffled) ∧
      headSlots "mail:" (.ofInts 1 (-1)) (.between .lowest .normal) shuffled =
        .ok ((all.drop 2).take 1, shuffled) ∧
      tailSlots "mail:" (.ofInts 9 (-1)) (some ⟨.highest, UInt64.ofNat (2 ^ 63 + 1)⟩) false
        shuffled = .ok ((all.drop 1).reverse, shuffled) ∧
      tailSlots "mail:" (.ofInts (-1) (-1)) none true shuffled =
        .ok ((all.drop 1).reverse, shuffled) ∧
      ∃ slots left, deleteFirstWord "mail:" (UInt64.ofNat (2 ^ 64 - 1)) shuffled =
          .ok (slots, left) ∧
        slots.length = 4 ∧ scanned "mail:" left = [] ∧
          rowsOf "mail:x" left = rowsOf "mail:x" shuffled := by
  intro all
  have hlength : (rowsOf "mail:" shuffled).length ≤ 2 ^ 63 := by decide +kernel
  have hr := readable_shuffled
  have h := queries_as_scanned keyed_shuffled "mail:"
  have hfirst : Window.headOf (-1) 10 .ofFirst all = all.take 1 := by decide +kernel
  have hband : Window.headOf 1 (-1) (.between .lowest .normal) all = (all.drop 2).take 1 := by
    decide +kernel
  have hlimit : Window.tailOf 9 (-1) (some ⟨.highest, UInt64.ofNat (2 ^ 63 + 1)⟩) false
      (rowsOf "mail:" shuffled).length all.reverse = (all.drop 1).reverse := by decide +kernel
  have hspared : Window.tailOf (-1) (-1) none true (rowsOf "mail:" shuffled).length all.reverse =
      (all.drop 1).reverse := by decide +kernel
  have hcount : all.length = 4 := by decide +kernel
  refine ⟨⟨keyed_shuffled, hlength, hr⟩, by decide +kernel, ?_, ?_, ?_, ?_, ?_⟩
  · rw [← hfirst]
    exact (h.head (-1) 10 .ofFirst).eq_ok hr
  · rw [← hband]
    exact (h.head 1 (-1) (.between .lowest .normal)).eq_ok hr
  · rw [← hlimit]
    exact (h.tail 9 (-1) _ false).eq_ok hr
  · rw [← hspared]
    exact (h.tail (-1) (-1) none true).eq_ok hr
  · obtain ⟨slots, left, hdelete, hgone⟩ :=
      (h.first hlength (UInt64.ofNat (2 ^ 64 - 1))).2.answers hr
    refine ⟨slots, left, hdelete, ?_, ?_, hgone.others _ (by decide)⟩
    · rw [hgone.number, hcount]
      decide
    · rw [hgone.rest, List.drop_eq_nil_iff, hcount]
      decide

end Spillway
