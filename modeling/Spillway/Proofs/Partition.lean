import Spillway.Proofs.Scans

/-!
# A queue's part of the table

The rows of one queue are the entries of an ordered list, in whatever order the table keeps them.
Each statement that the queues use is here a fact about that list: what it answers, and which list
the rows are afterwards. Signed cells, pieces of ids and the order of rows do not appear in these
facts.
-/

namespace Spillway

namespace Statement

variable {α β : Type} {rows rows' : List Row} {queue : String}

/-- A batch is written one entry after the other. -/
theorem addEntries_cons {e : Entry} {batch : List Entry} {new : Bool} {added : List Bool}
    {left : List Row} (hone : addEntry queue e rows = .ok (new, rows'))
    (hrest : addEntries queue batch rows' = .ok (added, left)) :
    addEntries queue (e :: batch) rows = .ok (new :: added, left) := by
  simp only [addEntries, List.mapM_cons] at hrest ⊢
  rw [bind_of_ok hone, bind_of_ok hrest, pure_apply]

/-- The rows of entries are read as those entries. -/
theorem readEntries_ofEntry (queue : String) (l : List Entry) (rows : List Row) :
    readEntries (l.map (Row.ofEntry queue)) rows = .ok (l, rows) := by
  rw [readEntries_eq, if_pos fun _ => Row.readable_of_mem_map, Row.decode_ofEntry]

/-- The rows of entries are read as their slots. -/
theorem readSlots_ofEntry (queue : String) (l : List Entry) (rows : List Row) :
    readSlots (l.map (Row.ofEntry queue)) rows = .ok (l.map Entry.slot, rows) := by
  rw [readSlots_eq, if_pos fun _ => Row.readable_of_mem_map, Row.decode_ofEntry]

/-- The pieces of a list make up the list. -/
theorem pieces_flatten {size : Nat} (hs : 0 < size) (l : List α) : (pieces size l).flatten = l := by
  have prefixes : ∀ n, ((List.range n).map fun i => (l.drop (i * size)).take size).flatten =
      l.take (n * size) := by
    intro n
    induction n with
    | zero => simp
    | succ n ih =>
      rw [List.range_succ, List.map_append, List.flatten_append, ih, Nat.succ_mul, List.take_add]
      simp
  rw [pieces, prefixes]
  apply List.take_of_length_le
  have := Nat.div_add_mod (l.length + size - 1) size
  have := Nat.mod_lt (l.length + size - 1) hs
  rw [Nat.mul_comm]
  omega

end Statement

open Statement

/-- The rows of a queue are the entries of an ordered list. -/
structure Partition (queue : String) (rows : List Row) (l : List Entry) : Prop where
  /-- The list stands in the order of service, each id once. -/
  order : Ordered l
  /-- The rows are those of its entries, in whatever order. -/
  rows : ∃ written : List Entry, written.Perm l ∧
    rowsOf queue rows = written.map (Row.ofEntry queue)

namespace Partition

variable {queue : String} {rows rows' : List Row} {l m : List Entry}

/-- What other queues do with their rows does not matter. -/
theorem of_rowsOf_eq (h : Partition queue rows l) (he : rowsOf queue rows' = rowsOf queue rows) :
    Partition queue rows' l := ⟨h.order, he ▸ h.rows⟩

theorem of_rowsOf_nil (h : rowsOf queue rows = []) : Partition queue rows [] :=
  ⟨.nil, [], .refl _, h⟩

/-- A row belongs to an id exactly if it is the row of the entry of that id. -/
theorem isRowOf_ofEntry (e : Entry) (id : UInt64) :
    isRowOf queue id (Row.ofEntry queue e) = decide (e.id = id) := by
  rw [Bool.eq_iff_iff]
  simp [isRowOf, Row.ofEntry, idToCell_inj]

/-- Whether an id is stored can be read off the list. -/
theorem any_isRowOf (h : Partition queue rows l) (id : UInt64) :
    rows.any (isRowOf queue id) = l.any fun e => decide (e.id = id) := by
  obtain ⟨written, hp, hw⟩ := h.rows
  have hown : rows.any (isRowOf queue id) = (rowsOf queue rows).any (isRowOf queue id) := by
    rw [rowsOf, List.any_filter]
    refine congrArg (List.any rows) (funext fun r => ?_)
    simp only [isRowOf, ← Bool.and_assoc, Bool.and_self]
  have heq : isRowOf queue id ∘ Row.ofEntry queue = fun e : Entry => decide (e.id = id) :=
    funext fun e => isRowOf_ofEntry e id
  rw [hown, hw, List.any_map, heq, Bool.eq_iff_iff, List.any_eq_true, List.any_eq_true]
  simp only [hp.mem_iff]

/-! ## Writing -/

/-- Writing an entry of a new id adds it. -/
theorem addEntry_new (h : Partition queue rows l) {e : Entry} (he : ∀ f ∈ l, f.id ≠ e.id) :
    addEntry queue e rows = .ok (true, rows ++ [Row.ofEntry queue e]) ∧
      Partition queue (rows ++ [Row.ofEntry queue e]) (insertByKey e l) := by
  constructor
  · have hfree : rows.any (isRowOf queue e.id) = false := by
      rw [h.any_isRowOf, List.any_eq_false]
      exact fun f hf => by simpa using he f hf
    change Except.ok (if rows.any (isRowOf queue e.id) = true then (false, rows) else
      (true, rows ++ [Row.ofEntry queue e])) = _
    rw [hfree]
    rfl
  · obtain ⟨written, hw, hr⟩ := h.rows
    refine ⟨h.order.insertByKey he, written ++ [e], ?_, ?_⟩
    · exact (List.perm_append_singleton e written).trans
        ((hw.cons e).trans (perm_insertOrdered servedBefore e l).symm)
    · rw [rowsOf, List.filter_append, ← rowsOf, hr]
      simp [Row.ofEntry]

/-- Writing an entry whose id is there changes nothing. -/
theorem addEntry_known (h : Partition queue rows l) {e f : Entry} (hf : f ∈ l)
    (he : f.id = e.id) : addEntry queue e rows = .ok (false, rows) := by
  have htaken : rows.any (isRowOf queue e.id) = true := by
    rw [h.any_isRowOf, List.any_eq_true]
    exact ⟨f, hf, decide_eq_true he⟩
  change Except.ok (if rows.any (isRowOf queue e.id) = true then (false, rows) else
    (true, rows ++ [Row.ofEntry queue e])) = _
  rw [htaken]
  rfl

/-- Writing entries of new and different ids writes all of them. -/
theorem addEntries (h : Partition queue rows l) {new : List Entry}
    (hu : (new.map Entry.id).Nodup) (hd : ∀ e ∈ new, ∀ f ∈ l, f.id ≠ e.id)
    (hm : Ordered m) (hp : m.Perm (l ++ new)) :
    ∃ rows', Statement.addEntries queue new rows = .ok (new.map fun _ => true, rows') ∧
      Partition queue rows' m := by
  have hrows : Statement.addEntries queue new rows =
      .ok (new.map fun _ => true, rows ++ new.map (Row.ofEntry queue)) := by
    clear hm hp
    induction new generalizing rows l with
    | nil => simp [Statement.addEntries, pure_apply]
    | cons e new ih =>
      rw [List.map_cons, List.nodup_cons] at hu
      obtain ⟨hone, hadd⟩ := h.addEntry_new fun f hf => hd e (List.mem_cons_self ..) f hf
      have hrest := ih hadd hu.2 fun f hf g hg => ?_
      · rw [addEntries_cons hone hrest]
        simp
      · rcases mem_insertByKey.1 hg with rfl | hg
        · exact fun hid => hu.1 (hid ▸ List.mem_map_of_mem hf)
        · exact hd f (List.mem_cons_of_mem _ hf) g hg
  refine ⟨_, hrows, hm, ?_⟩
  obtain ⟨written, hw, hr⟩ := h.rows
  refine ⟨written ++ new, (hw.append_right new).trans hp.symm, ?_⟩
  have hnew : rowsOf queue (new.map (Row.ofEntry queue)) = new.map (Row.ofEntry queue) :=
    List.filter_eq_self.2 fun r hr => by
      obtain ⟨e, -, rfl⟩ := List.mem_map.1 hr
      simp [Row.ofEntry]
  rw [rowsOf, List.filter_append, ← rowsOf, ← rowsOf, hr, hnew, List.map_append]

/-! ## Reading -/

/-- A row has one of some ids if its entry has. -/
theorem contains_cell (e : Entry) (ids : List UInt64) :
    (ids.map idToCell).contains (Row.ofEntry queue e).id = decide (e.id ∈ ids) := by
  rw [Bool.eq_iff_iff]
  simp [Row.ofEntry, idToCell_inj]

/-- The rows with some ids are those of the entries with these ids. -/
theorem filter_isAmong {written : List Entry}
    (hw : rowsOf queue rows = written.map (Row.ofEntry queue)) (ids : List UInt64) :
    rows.filter (isAmong queue ids) =
      (written.filter fun e => decide (e.id ∈ ids)).map (Row.ofEntry queue) := by
  have hown : rows.filter (isAmong queue ids) =
      (rowsOf queue rows).filter fun r => (ids.map idToCell).contains r.id :=
    filter_of_queue queue _ rows
  rw [hown, hw, List.filter_map]
  exact congrArg _ (List.filter_congr fun e _ => contains_cell e ids)

/-- Cutting different ids into pieces finds everything once. -/
private theorem perm_pieces (written : List Entry) (ps : List (List UInt64))
    (hu : ps.flatten.Nodup) :
    (ps.map fun ids => written.filter fun e => decide (e.id ∈ ids)).flatten.Perm
      (written.filter fun e => decide (e.id ∈ ps.flatten)) := by
  induction ps with
  | nil => simp
  | cons ids ps ih =>
    rw [List.flatten_cons, List.nodup_append] at hu
    rw [List.map_cons, List.flatten_cons, List.flatten_cons]
    refine ((ih hu.2.1).append_left _).trans ?_
    have hs := perm_filter_or (fun e : Entry => decide (e.id ∈ ids))
      (fun e => decide (e.id ∈ ps.flatten)) written
    refine cast (congrArg₂ List.Perm (congrArg _ ?_) ?_) hs
    · refine List.filter_congr fun e _ => ?_
      by_cases hi : e.id ∈ ps.flatten
      · have : e.id ∉ ids := fun h => hu.2.2 _ h _ hi rfl
        simp [this]
      · simp [hi]
    · exact List.filter_congr fun e _ => by rw [Bool.eq_iff_iff]; simp

/-- Reading by different ids gives the entries of those ids. -/
theorem entriesByIds (h : Partition queue rows l) {ids : List UInt64} (hu : ids.Nodup) :
    Statement.entriesByIds queue ids rows = .ok (l.filter fun e => decide (e.id ∈ ids), rows) := by
  obtain ⟨written, hp, hw⟩ := h.rows
  have hread : ∀ ps : List (List UInt64),
      (ps.mapM fun piece => readEntries (rows.filter (isAmong queue piece))) rows =
        .ok (ps.map fun piece => written.filter fun e => decide (e.id ∈ piece), rows) := by
    intro ps
    induction ps with
    | nil => rfl
    | cons piece ps ih =>
      have hone := readEntries_ofEntry queue (written.filter fun e => decide (e.id ∈ piece)) rows
      rw [← filter_isAmong hw] at hone
      rw [List.mapM_cons, bind_of_ok hone, bind_of_ok ih]
      rfl
  have hflat := pieces_flatten (show 0 < idsPerQuery by decide) ids
  rw [Statement.entriesByIds, bind_of_ok (get_apply rows), bind_of_ok (hread _), pure_apply]
  refine congrArg (fun es => Except.ok (es, rows)) (h.order.sortByKey_eq_filter ?_)
  have hall := perm_pieces written (pieces idsPerQuery ids) (hflat.symm ▸ hu)
  rw [hflat] at hall
  exact hall.trans (hp.filter _)

/-- In order the rows are those of the list. -/
theorem inOrder_eq (h : Partition queue rows l) :
    Row.inOrder (rowsOf queue rows) = l.map (Row.ofEntry queue) := by
  obtain ⟨written, hp, hw⟩ := h.rows
  rw [hw, Row.inOrder_ofEntry, h.order.sortByKey_perm hp]

/-- The entries in the rows are the list. -/
theorem entriesOf_eq (h : Partition queue rows l) : entriesOf queue rows = l := by
  rw [entriesOf, h.inOrder_eq]
  exact Row.decode_ofEntry queue l

/-- All of its rows can be read. -/
theorem readable (h : Partition queue rows l) : ∀ r ∈ rowsOf queue rows, r.readable = true := by
  obtain ⟨written, -, hw⟩ := h.rows
  rw [hw]
  exact fun _ => Row.readable_of_mem_map

/-- No two of them have one id. -/
theorem keyed (h : Partition queue rows l) : Keyed (rowsOf queue rows) := by
  obtain ⟨written, hp, hw⟩ := h.rows
  have hids : (written.map idOf).Nodup := (hp.map idOf).nodup_iff.2 h.order.unique
  rw [List.Nodup, List.pairwise_map] at hids
  rw [hw, Keyed, List.pairwise_map]
  apply hids.imp
  rintro e f hne ⟨-, hid⟩
  exact hne (idToCell_inj.1 hid)

/-- They are as many as its entries. -/
theorem length_rows (h : Partition queue rows l) : (rowsOf queue rows).length = l.length := by
  obtain ⟨written, hp, hw⟩ := h.rows
  rw [hw, List.length_map, hp.length_eq]

/-- Reading everything gives the list. -/
theorem getAll (h : Partition queue rows l) : Statement.getAll queue rows = .ok (l, rows) := by
  rw [Statement.getAll, bind_of_ok (get_apply rows), h.inOrder_eq, readEntries_ofEntry]

/-- Reading all slots gives those of the list. -/
theorem getSlots (h : Partition queue rows l) :
    Statement.getSlots queue rows = .ok (l.map Entry.slot, rows) := by
  rw [Statement.getSlots, bind_of_ok (get_apply rows), h.inOrder_eq, readSlots_ofEntry]

/-! ## Deleting -/

/-- Deleting the rows of some entries gives these rows and leaves those of the others. -/
theorem deleteWhere (h : Partition queue rows l) (pick : Row → Bool) (p : Entry → Bool)
    (ho : ∀ r, pick r = true → r.queue = queue) (hp : ∀ e, pick (Row.ofEntry queue e) = p e) :
    ∃ (gone : List Entry) (rows' : List Row), gone.Perm (l.filter p) ∧
      Statement.deleteWhere pick rows = .ok (gone.map (Row.ofEntry queue), rows') ∧
      Partition queue rows' (l.filter (!p ·)) := by
  obtain ⟨written, hw, hr⟩ := h.rows
  refine ⟨written.filter p, rows.filter (!pick ·), hw.filter p, ?_, h.order.filter _,
    written.filter (!p ·), hw.filter _, ?_⟩
  · change Except.ok (rows.filter pick, rows.filter (!pick ·)) = _
    rw [filter_rowsOf ho, hr, List.filter_map]
    exact congrArg (fun es => Except.ok (es, _)) (congrArg _ (List.filter_congr fun e _ => hp e))
  · rw [rowsOf_filter, hr, List.filter_map]
    exact congrArg _ (List.filter_congr fun e _ => congrArg not (hp e))

/-- Deleting by ids, one piece after the other, and reading what was deleted. -/
private theorem deletePieces {β : Type} (read : List Row → Statement (List β)) (view : Entry → β)
    (hread : ∀ (es : List Entry) (rows : List Row),
      read (es.map (Row.ofEntry queue)) rows = .ok (es.map view, rows))
    (h : Partition queue rows l) (ps : List (List UInt64)) :
    ∃ gone rows', gone.flatten.Perm ((l.filter fun e => decide (e.id ∈ ps.flatten)).map view) ∧
      (ps.mapM fun piece => do read (← Statement.deleteWhere (isAmong queue piece))) rows =
        .ok (gone, rows') ∧
      Partition queue rows' (l.filter fun e => !decide (e.id ∈ ps.flatten)) := by
  induction ps generalizing rows l with
  | nil => exact ⟨[], rows, by simp, rfl, by simpa using h⟩
  | cons ids ps ih =>
    obtain ⟨first, rows₁, hfirst, hdel, h₁⟩ := h.deleteWhere (isAmong queue ids)
      (fun e => decide (e.id ∈ ids)) (fun _ => queue_of_isAmong) (fun e => by
        rw [Bool.eq_iff_iff]
        simp [isAmong, Row.ofEntry, idToCell_inj])
    obtain ⟨gone, rows₂, hgone, hrest, h₂⟩ := ih h₁
    refine ⟨first.map view :: gone, rows₂, ?_, ?_, ?_⟩
    · rw [List.flatten_cons, List.flatten_cons]
      refine ((hfirst.map view).append hgone).trans ?_
      rw [← List.map_append]
      apply List.Perm.map view
      have hs := perm_filter_or (fun e : Entry => decide (e.id ∈ ids))
        (fun e => decide (e.id ∈ ps.flatten)) l
      rw [List.filter_filter]
      refine cast (congrArg₂ List.Perm (congrArg _ ?_) ?_) hs
      · exact List.filter_congr fun e _ => Bool.and_comm ..
      · exact List.filter_congr fun e _ => by rw [Bool.eq_iff_iff]; simp
    · have hone : (do read (← Statement.deleteWhere (isAmong queue ids))) rows =
          .ok (first.map view, rows₁) := by
        rw [bind_of_ok hdel, hread]
      rw [List.mapM_cons, bind_of_ok hone, bind_of_ok hrest]
      rfl
    · rw [List.filter_filter] at h₂
      refine cast (congrArg _ (List.filter_congr fun e _ => ?_)) h₂
      rw [Bool.eq_iff_iff]
      simp [and_comm]

/-- Taking by ids gives the entries of those ids and leaves the others. -/
theorem takeByIds (h : Partition queue rows l) (ids : List UInt64) :
    ∃ rows', Statement.takeByIds queue ids rows =
        .ok (l.filter fun e => decide (e.id ∈ ids), rows') ∧
      Partition queue rows' (l.filter fun e => !decide (e.id ∈ ids)) := by
  obtain ⟨gone, rows', hgone, hdel, h'⟩ := h.deletePieces readEntries id
    (fun es rows => by rw [readEntries_ofEntry, List.map_id]) (pieces idsPerQuery ids)
  rw [pieces_flatten (by decide)] at hgone h'
  rw [List.map_id] at hgone
  refine ⟨rows', ?_, h'⟩
  rw [Statement.takeByIds, bind_of_ok hdel, pure_apply, h.order.sortByKey_eq_filter hgone]

/-- Deleting by ids gives the slots of the entries of those ids and leaves the others. -/
theorem deleteByIds (h : Partition queue rows l) (ids : List UInt64) :
    ∃ slots rows', slots.Perm ((l.filter fun e => decide (e.id ∈ ids)).map Entry.slot) ∧
      Statement.deleteByIds queue ids rows = .ok (slots, rows') ∧
      Partition queue rows' (l.filter fun e => !decide (e.id ∈ ids)) := by
  obtain ⟨gone, rows', hgone, hdel, h'⟩ := h.deletePieces readSlots Entry.slot
    (readSlots_ofEntry queue) (pieces idsPerQuery ids)
  rw [pieces_flatten (by decide)] at hgone h'
  refine ⟨gone.flatten, rows', hgone, ?_, h'⟩
  rw [Statement.deleteByIds, bind_of_ok hdel, pure_apply]

/-- Deleting some entries and reading their slots. -/
theorem deleteSlots (h : Partition queue rows l) (pick : Row → Bool) (p : Entry → Bool)
    (hp : ∀ e, pick (Row.ofEntry queue e) = p e) :
    ∃ slots rows', slots.Perm ((l.filter p).map Entry.slot) ∧
      (do readSlots (← Statement.deleteWhere fun r => r.queue == queue && pick r)) rows =
        .ok (slots, rows') ∧
      Partition queue rows' (l.filter (!p ·)) := by
  obtain ⟨gone, rows', hgone, hdel, h'⟩ := h.deleteWhere
    (fun r => r.queue == queue && pick r) p
    (fun r hr => by
      simp only [Bool.and_eq_true, beq_iff_eq] at hr
      exact hr.1) (fun e => by
      rw [hp]
      simp [Row.ofEntry])
  refine ⟨gone.map Entry.slot, rows', hgone.map _, ?_, h'⟩
  rw [bind_of_ok hdel, readSlots_ofEntry]

/-- Nothing is left. -/
theorem deleteAll (h : Partition queue rows l) :
    ∃ rows', Statement.deleteAll queue rows = .ok (l.length, rows') ∧ Partition queue rows' [] := by
  obtain ⟨gone, rows', hgone, hdel, h'⟩ := h.deleteWhere (·.queue == queue)
    (fun _ => true) (fun r hr => by simpa using hr) (fun e => by simp [Row.ofEntry])
  refine ⟨rows', ?_, by simpa using h'⟩
  rw [Statement.deleteAll, bind_of_ok hdel, pure_apply, List.length_map, hgone.length_eq,
    List.filter_true]

/-! ## Counting -/

/-- The totals of the rows are those of the list, or refused, as long as the bytes are a word. -/
theorem tallyOf_eq (h : Partition queue rows l) (hb : (Tally.total l).bytes < 2 ^ 64) :
    tallyOf (Row.inOrder (rowsOf queue rows)) =
      if Reckonable l then .ok (Tally.total l) else .error .totalOverflow := by
  rw [h.inOrder_eq, tallyOf_ofEntry queue hb]

/-- Counting finds the exact totals if the sizes add up in signed words. -/
theorem count (h : Partition queue rows l) (hr : Reckonable l) :
    Statement.count queue rows = .ok (Tally.total l, rows) := by
  have ht := h.tallyOf_eq hr.lt
  rw [if_pos hr] at ht
  rw [Statement.count, bind_of_ok (get_apply rows), ht]
  rfl

/-- Else it is refused, as long as the bytes are a word. -/
theorem count_refused (h : Partition queue rows l) (hb : (Tally.total l).bytes < 2 ^ 64)
    (hr : ¬ Reckonable l) : Statement.count queue rows = .error .totalOverflow := by
  have ht := h.tallyOf_eq hb
  rw [if_neg hr] at ht
  rw [Statement.count, bind_of_ok (get_apply rows), ht]
  rfl

/-- Counting changes nothing, whatever it answers. -/
theorem count_rows {tally : Tally} (h : Statement.count queue rows = .ok (tally, rows')) :
    rows' = rows := by
  rw [Statement.count, bind_of_ok (get_apply rows)] at h
  have he : (tallyOf (Row.inOrder (rowsOf queue rows))).map (fun t => (t, rows)) =
      .ok (tally, rows') := h
  cases ht : tallyOf (Row.inOrder (rowsOf queue rows)) with
  | error refusal => rw [ht] at he; cases he
  | ok t => rw [ht] at he; cases he; rfl

end Partition

end Spillway
