import Spillway.Proofs.Stores

/-!
# Entries changed in place

A queue in the table can be told to change a stored entry. The entry keeps its id and its priority,
and with them its place; its size, its flag and its content become those that it is given. The
totals follow.
-/

namespace Spillway

/-- A stored entry after it was told to become `e`: its place is its own. -/
def Entry.revise (e f : Entry) : Entry :=
  if f.id = e.id then { f with size := e.size, persistent := e.persistent, payload := e.payload }
  else f

@[simp] theorem Entry.key_revise (e f : Entry) : (e.revise f).key = f.key := by
  unfold revise
  split
  · rfl
  · rfl

theorem Entry.revise_of_ne {e f : Entry} (h : f.id ≠ e.id) : e.revise f = f := if_neg h

variable {e f : Entry} {l : List Entry}

/-- A list in the order of service stays in it. -/
theorem Ordered.revise (h : Ordered l) (e : Entry) : Ordered (l.map e.revise) :=
  (ordered_map_iff (f := e.revise) fun f _ => e.key_revise f).2 h

/-- Nothing becomes of a list that has no entry of the id. -/
theorem Entry.map_revise_of_ne (h : ∀ f ∈ l, f.id ≠ e.id) : l.map e.revise = l :=
  (List.map_congr_left fun f hf => e.revise_of_ne (h f hf)).trans (List.map_id l)

theorem Entry.map_revise_of_none (h : l.find? (fun f => decide (f.id = e.id)) = none) :
    l.map e.revise = l :=
  e.map_revise_of_ne fun f hf => by simpa using List.find?_eq_none.1 h f hf

/-- The totals lose the former slot and gain the new one. -/
theorem Tally.total_revise (h : Ordered l) (hf : f ∈ l) (hid : f.id = e.id) :
    total (l.map e.revise) = ((total l).subtract f.slot).add e.slot := by
  let rest := l.filter fun x => !decide (x.id = e.id)
  have hone : (l.filter fun x => decide (x.id = e.id)) = [f] := by
    have := h.filter_ids (List.singleton_sublist.2 hf)
    simpa only [List.map_cons, List.map_nil, List.mem_singleton, hid] using this
  have hperm : (f :: rest).Perm l := by
    have := List.filter_append_perm (fun x => decide (x.id = e.id)) l
    rwa [hone] at this
  have hrest : rest.map e.revise = rest := e.map_revise_of_ne fun x hx => by
    simpa using (List.mem_filter.1 hx).2
  have hlast : (total rest).add (e.revise f).slot = (total rest).add e.slot := by
    rw [Entry.revise, if_pos hid]
    rfl
  calc total (l.map e.revise) = total ((f :: rest).map e.revise) :=
        (total_perm (hperm.map e.revise)).symm
    _ = (total rest).add (e.revise f).slot := by rw [List.map_cons, hrest, total_cons]; rfl
    _ = (total rest).add e.slot := hlast
    _ = (((total rest).add f.slot).subtract f.slot).add e.slot := by rw [subtract_add]
    _ = ((total l).subtract f.slot).add e.slot := by rw [← total_perm hperm, total_cons]; rfl

/-- A row after a queue was told that the entry of an id becomes `e`. -/
def Row.revise (queue : String) (e : Entry) (r : Row) : Row :=
  if Statement.isRowOf queue e.id r then
    { r with persistent := e.persistent, size := sizeToCell e.size, payload := e.payload }
  else r

namespace Row

variable {queue : String} {r : Row}

theorem revise_of_other (h : Statement.isRowOf queue e.id r = false) : r.revise queue e = r :=
  if_neg (by simp [h])

/-- A row stays with its queue. -/
theorem queue_revise : (r.revise queue e).queue = r.queue := by
  unfold revise
  split
  · rfl
  · rfl

/-- The row of a stored entry becomes the row of the revised one. -/
theorem revise_ofEntry (f : Entry) :
    (ofEntry queue f).revise queue e = ofEntry queue (e.revise f) := by
  simp only [revise, Partition.isRowOf_ofEntry, decide_eq_true_eq, Entry.revise]
  split
  · rfl
  · rfl

end Row

namespace Partition

open Statement

variable {queue : String} {rows : List Row}

/-- Nothing becomes of rows none of which is of the id. -/
theorem map_revise_of_ne (h : Partition queue rows l) (he : ∀ f ∈ l, f.id ≠ e.id) :
    rows.map (Row.revise queue e) = rows := by
  have hfree : rows.any (isRowOf queue e.id) = false := by
    rw [h.any_isRowOf, List.any_eq_false]
    exact fun f hf => by simpa using he f hf
  refine (List.map_congr_left fun r hr => ?_).trans (List.map_id rows)
  exact Row.revise_of_other (Bool.eq_false_iff.2 (List.any_eq_false.1 hfree r hr))

/-- Changing the row of an id changes the entry of it, and tells its former slot. -/
theorem modifyEntry (h : Partition queue rows l) (e : Entry) :
    Statement.modifyEntry queue e rows =
        .ok ((l.find? fun f => decide (f.id = e.id)).map Entry.slot,
          rows.map (Row.revise queue e)) ∧
      Partition queue (rows.map (Row.revise queue e)) (l.map e.revise) := by
  constructor
  · rw [Statement.modifyEntry, bind_of_ok (h.slotOf? e.id)]
    cases hf : l.find? fun f => decide (f.id = e.id) with
    | none =>
      rw [h.map_revise_of_ne fun f hf' => by simpa using List.find?_eq_none.1 hf f hf']
      rfl
    | some f => rfl
  · obtain ⟨written, hp, hw⟩ := h.rows
    refine ⟨h.order.revise e, written.map e.revise, hp.map _, ?_⟩
    have hown : rowsOf queue (rows.map (Row.revise queue e)) =
        (rowsOf queue rows).map (Row.revise queue e) := by
      rw [rowsOf, List.filter_map, rowsOf]
      refine congrArg _ (List.filter_congr fun r _ => ?_)
      simp only [Function.comp, Row.queue_revise]
    rw [hown, hw, List.map_map, List.map_map]
    exact List.map_congr_left fun x _ => Row.revise_ofEntry x

end Partition

namespace Durable

open Desk

variable {d : Desk Durable}

/-- The totals after the entry of an id was changed in place, if there is one. -/
def retold (t : Tally) (former : Option Slot) (e : Entry) : Tally :=
  match former with
  | none => t
  | some s => (t.subtract s).add e.slot

/-- An active queue in the table changes the row of an id and tells whether there was one, or fails
and has changed nothing. -/
theorem modifyEntry_cases {rows : List Row} (ha : d.queue.phase = .active)
    (ht : d.store.table = some rows) (hp : Partition d.queue.name rows l) (e : Entry) :
    (∃ s' calls, (modifyEntry e).on d = (.ok (l.find? fun f => decide (f.id = e.id)).isSome,
        turned d (retold d.queue.tally ((l.find? fun f => decide (f.id = e.id)).map Entry.slot) e)
          s' calls) ∧
      s'.table = some (rows.map (Row.revise d.queue.name e)) ∧ d.store.Used s') ∨
    ∃ fault s', (modifyEntry e).on d = (.error fault, { d with store := s' }) ∧
      d.store.Missed fault s' := by
  rw [modifyEntry, on_changing (show Managed.phase d.queue = .active from ha)]
  rw [Action.on_bind, ask_on]
  rcases Store.call_of_ok .modifyEntry ht (hp.modifyEntry e).1 with
    ⟨s', hc, ht', hu⟩ | ⟨fault, s', hc, hm⟩
  · rw [hc]
    cases l.find? fun f => decide (f.id = e.id) with
    | none => exact .inl ⟨s', _, rfl, ht', hu⟩
    | some f => exact .inl ⟨s', _, rfl, ht', hu⟩
  · rw [hc]
    exact .inr ⟨fault, s', rfl, hm⟩

/-- The totals follow an entry that is changed in place. -/
theorem retold_total (ho : Ordered l) (e : Entry) :
    retold (Tally.total l) ((l.find? fun f => decide (f.id = e.id)).map Entry.slot) e =
      Tally.total (l.map e.revise) := by
  cases hf : l.find? fun f => decide (f.id = e.id) with
  | none => rw [e.map_revise_of_none hf]; rfl
  | some f =>
    have hid : f.id = e.id := by simpa using List.find?_some hf
    exact (Tally.total_revise ho (List.mem_of_find?_eq_some hf) hid).symm

/-- An active queue in the table changes the entry of an id, and tells whether there was one. -/
theorem modifyEntry_works (ha : d.queue.phase = .active) (hk : d.store.Keeps d.queue.name l)
    (e : Entry) : Works d l ((modifyEntry e).on d)
      (· = (l.find? fun f => decide (f.id = e.id)).isSome) (l.map e.revise) := by
  obtain ⟨rows, ht, hp⟩ := hk
  rcases modifyEntry_cases ha ht hp e with ⟨s', calls, ho, ht', hu⟩ | ⟨fault, s', ho, hm⟩
  · refine .inl ⟨_, _, s', calls, ho, rfl, fun hexact => ?_, ⟨_, ht', (hp.modifyEntry e).2⟩, hu⟩
    rw [hexact, retold_total hp.order]
  · exact .inr ⟨fault, s', ho, hm⟩

end Durable

end Spillway
