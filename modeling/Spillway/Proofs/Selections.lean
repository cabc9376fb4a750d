import Spillway.Proofs.Queries
import Spillway.Proofs.Rolls

/-!
# What statements select

A statement that asks for a window, for what is served before a key or for the first entries selects
from the rows of a queue what the same question selects from the list of its entries, although it
looks at cells, keeps only some of the rows and reads the entries by their ids afterwards.
-/

namespace Spillway

/-- The members of an ordered list that have the ids of some of them. -/
theorem Ordered.filter_ids {l m : List Entry} (h : Ordered l) (hm : m.Sublist l) :
    (l.filter fun e => decide (e.id ∈ m.map Entry.id)) = m := by
  refine (h.filter _).ascending.ext (h.sublist hm).ascending fun e => ?_
  rw [List.mem_filter, decide_eq_true_eq]
  constructor
  · rintro ⟨he, hid⟩
    obtain ⟨f, hf, hid⟩ := List.mem_map.1 hid
    rwa [← h.eq_of_id (hm.subset hf) he hid]
  · exact fun he => ⟨hm.subset he, List.mem_map_of_mem he⟩

/-- Those that have the ids of some that are given backwards. -/
theorem Ordered.filter_ids_reverse {l m : List Entry} (h : Ordered l) (hm : m.Sublist l.reverse) :
    (l.filter fun e => decide (e.id ∈ m.map Entry.id)) = m.reverse := by
  rw [← h.filter_ids (List.sublist_reverse_iff.1 hm)]
  exact List.filter_congr fun e _ => by simp only [List.mem_map, List.mem_reverse]

/-- Some members, forwards or backwards, are those that have their ids. -/
theorem Ordered.perm_filter_ids {l m : List Entry} (h : Ordered l)
    (hm : m.Sublist l ∨ m.Sublist l.reverse) :
    m.Perm (l.filter fun e => decide (e.id ∈ m.map Entry.id)) := by
  rcases hm with hm | hm
  · rw [h.filter_ids hm]
  · rw [h.filter_ids_reverse hm]
    exact (List.reverse_perm m).symm

namespace Partition

open Statement

variable {queue : String} {rows : List Row} {l : List Entry}

/-! ## Batches -/

/-- Writing a batch enters its entries one after the other, and tells which of them were new. -/
theorem enterAll (h : Partition queue rows l) (batch : List Entry) :
    ∃ added rows', Statement.addEntries queue batch rows = .ok (added, rows') ∧
      Partition queue rows' (batch.foldl enter l) ∧
      (l ++ ((batch.zip added).filter (·.2)).map (·.1)).Perm (batch.foldl enter l) := by
  induction batch generalizing rows l with
  | nil => exact ⟨[], rows, rfl, h, by simp⟩
  | cons e batch ih =>
    cases hk : l.any fun f => decide (idOf f = idOf e) with
    | true =>
      obtain ⟨f, hf, hid⟩ := List.any_eq_true.1 hk
      obtain ⟨added, rows', hrest, hp, hperm⟩ := ih h
      have henter : enter l e = l := if_pos hk
      have hsecond := h.addEntry_known hf (of_decide_eq_true hid)
      refine ⟨false :: added, rows', addEntries_cons hsecond hrest, ?_⟩
      rw [List.foldl_cons, henter]
      exact ⟨hp, hperm⟩
    | false =>
      have hnew : ∀ f ∈ l, f.id ≠ e.id := fun f hf hid =>
        List.any_eq_false.1 hk f hf (decide_eq_true hid)
      obtain ⟨hone, hadd⟩ := h.addEntry_new hnew
      obtain ⟨added, rows', hrest, hp, hperm⟩ := ih hadd
      have henter : enter l e = insertByKey e l := by rw [enter, hk, if_neg Bool.false_ne_true]
      refine ⟨true :: added, rows', addEntries_cons hone hrest, ?_⟩
      rw [List.foldl_cons, henter]
      refine ⟨hp, List.Perm.trans ?_ hperm⟩
      simp only [List.zip_cons_cons, List.filter_cons, if_true, List.map_cons]
      exact List.perm_middle.trans
        (((perm_insertOrdered servedBefore e l).append_right _).symm)

/-! ## Windows -/

/-- The query of a head window selects its slots. -/
theorem headSlots (h : Partition queue rows l) (w : Window) (band : Band) :
    Statement.headSlots queue w band rows = .ok ((w.head band l).map Entry.slot, rows) := by
  have hrun := (meets_headSlots h.keyed w band).eq_ok h.readable
  rwa [h.entriesOf_eq] at hrun

/-- The query of a tail window selects its slots. -/
theorem tailSlots (h : Partition queue rows l) (w : Window) (limit : Option Key)
    (leaveOne : Bool) : Statement.tailSlots queue w limit leaveOne rows =
      .ok ((w.tail limit leaveOne l.length l.reverse).map Entry.slot, rows) := by
  have hrun := (meets_tailSlots h.keyed w limit leaveOne).eq_ok h.readable
  rwa [h.entriesOf_eq, h.length_rows] at hrun

theorem idsOf_slots (m : List Entry) : idsOf (m.map Entry.slot) = m.map Entry.id := by
  rw [idsOf, List.map_map]
  rfl

/-- Reading a head window. -/
theorem getEntries (h : Partition queue rows l) (w : Window) (band : Band) :
    Statement.getEntries queue w band rows = .ok (w.head band l, rows) := by
  have hs := w.head_sublist band l
  have hu : ((w.head band l).map Entry.id).Nodup := (h.order.sublist hs).unique
  rw [Statement.getEntries, bind_of_ok (h.headSlots w band), idsOf_slots, h.entriesByIds hu,
    h.order.filter_ids hs]

/-- Taking a head window leaves the others. -/
theorem takeEntries (h : Partition queue rows l) (w : Window) (band : Band) :
    ∃ rows', Statement.takeEntries queue w band rows = .ok (w.head band l, rows') ∧
      Partition queue rows'
        (l.filter fun e => !decide (e.id ∈ (w.head band l).map Entry.id)) := by
  obtain ⟨rows', hrun, h'⟩ := h.takeByIds ((w.head band l).map Entry.id)
  rw [h.order.filter_ids (w.head_sublist band l)] at hrun
  refine ⟨rows', ?_, h'⟩
  rw [Statement.takeEntries, bind_of_ok (h.headSlots w band), idsOf_slots, hrun]

/-- Reading a tail window. -/
theorem getLowest (h : Partition queue rows l) (w : Window) (limit : Option Key)
    (leaveOne : Bool) : Statement.getLowest queue w limit leaveOne rows =
      .ok (w.tail limit leaveOne l.length l.reverse, rows) := by
  have hs := w.tail_sublist limit leaveOne l.length l.reverse
  have hu : ((w.tail limit leaveOne l.length l.reverse).map Entry.id).Nodup := by
    refine List.Nodup.sublist (hs.map _) ?_
    rw [List.map_reverse, List.nodup_reverse]
    exact h.order.unique
  rw [Statement.getLowest, bind_of_ok (h.tailSlots w limit leaveOne), idsOf_slots,
    bind_of_ok (h.entriesByIds hu), pure_apply, h.order.filter_ids_reverse hs, List.reverse_reverse]

/-- Taking a tail window leaves the others. -/
theorem takeLowest (h : Partition queue rows l) (w : Window) (limit : Option Key)
    (leaveOne : Bool) :
    ∃ rows', Statement.takeLowest queue w limit leaveOne rows =
        .ok (w.tail limit leaveOne l.length l.reverse, rows') ∧
      Partition queue rows' (l.filter fun e =>
        !decide (e.id ∈ (w.tail limit leaveOne l.length l.reverse).map Entry.id)) := by
  obtain ⟨rows', hrun, h'⟩ :=
    h.takeByIds ((w.tail limit leaveOne l.length l.reverse).map Entry.id)
  rw [h.order.filter_ids_reverse (w.tail_sublist limit leaveOne l.length l.reverse)] at hrun
  refine ⟨rows', ?_, h'⟩
  rw [Statement.takeLowest, bind_of_ok (h.tailSlots w limit leaveOne), idsOf_slots,
    bind_of_ok hrun, pure_apply, List.reverse_reverse]

/-! ## Limits -/

/-- The row of an id is found if its entry is there. -/
theorem find_row (h : Partition queue rows l) (id : UInt64) :
    rows.find? (isRowOf queue id) =
      (l.find? fun e => decide (e.id = id)).map (Row.ofEntry queue) := by
  obtain ⟨written, hp, hw⟩ := h.rows
  have hown : rows.find? (isRowOf queue id) = (rowsOf queue rows).find? (isRowOf queue id) := by
    rw [rowsOf, List.find?_filter]
    refine congrArg (List.find? · rows) (funext fun r => ?_)
    rw [Bool.eq_iff_iff]
    simp [isRowOf]
  have hwritten : (written.find? fun e => decide (e.id = id)) =
      l.find? fun e => decide (e.id = id) := h.order.find?_perm hp id
  rw [hown, hw, List.find?_map, ← hwritten]
  refine congrArg (Option.map _) (congrArg (List.find? · written) (funext fun e => ?_))
  exact isRowOf_ofEntry e id

/-- The slot of a stored entry is found. -/
theorem slotOf? (h : Partition queue rows l) (id : UInt64) :
    Statement.slotOf? queue id rows =
      .ok ((l.find? fun e => decide (e.id = id)).map Entry.slot, rows) := by
  rw [slotOf?_eq, h.find_row]
  cases l.find? fun e => decide (e.id = id) with
  | none => rfl
  | some e =>
    dsimp only [Option.map]
    rw [Row.readSlot_ofEntry]
    rfl

/-- Reading what is served before a stored entry. -/
theorem getBefore (h : Partition queue rows l) (id : UInt64) :
    Statement.getBefore queue id rows =
      .ok (match (l.find? fun e => decide (e.id = id)).map Entry.key with
        | some key => l.filter (keyOf · < key)
        | none => [], rows) := by
  have hrun := (meets_getBefore h.keyed id).eq_ok h.readable
  rw [servedUpTo, h.entriesOf_eq] at hrun
  rw [hrun]
  cases l.find? fun e => decide (e.id = id) with
  | none => rfl
  | some limit => rfl

/-- Deleting the first entries. -/
theorem deleteFirst (h : Partition queue rows l) (count : Nat) :
    ∃ slots rows', slots.Perm ((l.take count).map Entry.slot) ∧
      Statement.deleteFirst queue count rows = .ok (slots, rows') ∧
      Partition queue rows' (l.filter fun e => !decide (e.id ∈ (l.take count).map Entry.id)) := by
  have hfirst : ((Row.inOrder (rowsOf queue rows)).take count).map (·.id) =
      ((l.take count).map Entry.id).map idToCell := by
    rw [h.inOrder_eq, ← List.map_take, List.map_map, List.map_map]
    rfl
  obtain ⟨slots, rows', hslots, hdel, h'⟩ := h.deleteSlots
    (fun r => (((l.take count).map Entry.id).map idToCell).contains r.id)
    (fun e => decide (e.id ∈ (l.take count).map Entry.id)) fun e =>
      contains_cell e _
  rw [h.order.filter_ids (List.take_sublist count l)] at hslots
  refine ⟨slots, rows', hslots, ?_, h'⟩
  rw [Statement.deleteFirst, bind_of_ok (get_apply rows), hfirst]
  exact hdel

/-- Deleting what is served before a key, and what stands under it if that is asked for. -/
theorem deleteUpTo (h : Partition queue rows l) (limit : Key) (inclusive : Bool) :
    ∃ slots rows', slots.Perm ((l.filter fun e =>
        if inclusive then decide (e.key ≤ limit) else decide (e.key < limit)).map Entry.slot) ∧
      Statement.deleteUpTo queue limit inclusive rows = .ok (slots, rows') ∧
      Partition queue rows' (l.filter fun e =>
        !if inclusive then decide (e.key ≤ limit) else decide (e.key < limit)) := by
  refine h.deleteSlots (fun r => if inclusive then r.isUpTo limit else r.isBefore limit) _
    fun e => ?_
  rw [Row.isUpTo_ofEntry, Row.isBefore_ofEntry]

/-- Deleting what need not survive a restart. -/
theorem deleteTransient (h : Partition queue rows l) :
    ∃ slots rows', slots.Perm ((l.filter (!·.persistent)).map Entry.slot) ∧
      Statement.deleteTransient queue rows = .ok (slots, rows') ∧
      Partition queue rows' (l.filter fun e => !!e.persistent) :=
  h.deleteSlots (!·.persistent) (!·.persistent) fun _ => rfl

end Partition

end Spillway
