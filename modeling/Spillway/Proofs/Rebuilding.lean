import Spillway.Proofs.Service

/-!
# Rebuilding the index

A queue that is opened builds its index from the rows in the table and from what it has in memory.
For a list in the layout of the cache that gives the list back: what is in memory and has a row is
found twice, what is in memory and has none is found there only.
-/

namespace Spillway

open Held

/-- An entry that has a row and is not in memory. -/
def Held.row (e : Entry) : Held := ⟨e, .cold, true⟩

section

variable {b : Bounds} {l : List Held} {es : List Entry}

theorem entries_row (es : List Entry) : (es.map Held.row).map Held.entry = es := by
  rw [List.map_map]
  exact List.map_id es

theorem inTable_row (es : List Entry) : inTable (es.map Held.row) = es := by
  have : (es.map Held.row).filter (·.stored) = es.map Held.row :=
    List.filter_eq_self.2 fun x hx => by
      obtain ⟨e, -, rfl⟩ := List.mem_map.1 hx
      rfl
  rw [inTable, this, entries_row]

theorem filter_isHot_of_cold (h : ∀ x ∈ l, x.isHot = false) : l.filter isHot = [] :=
  List.filter_eq_nil_iff.2 fun x hx => by simp [h x hx]

theorem inMemory_of_cold (h : ∀ x ∈ l, x.isHot = false) : inMemory l = [] := by
  rw [inMemory, filter_isHot_of_cold h, List.map_nil]

theorem cold_row (es : List Entry) : ∀ x ∈ es.map Held.row, x.isHot = false := by
  intro x hx
  obtain ⟨e, -, rfl⟩ := List.mem_map.1 hx
  rfl

/-- Rows alone are a layout. -/
theorem Layout.row (b : Bounds) (h : Ordered es) : Layout b (es.map Held.row) := by
  have hcold := cold_row es
  refine ⟨ordered_entries.1 (by rwa [entries_row]), fun x hx _ => ?_, fun x hx c _ hh => ?_, ?_, ?_⟩
  · obtain ⟨e, -, rfl⟩ := List.mem_map.1 hx
    rfl
  · rw [hcold x hx] at hh
    cases hh
  · rw [filter_isHot_of_cold hcold]
    exact Nat.zero_le _
  · rw [filter_isHot_of_cold hcold]
    exact Nat.zero_le _

/-- What is held has one of the ids in memory exactly if it is hot. -/
theorem mem_inMemory_ids (h : Ordered l) {x : Held} (hx : x ∈ l) :
    x.entry.id ∈ (inMemory l).map Entry.id ↔ x.isHot = true := by
  rw [inMemory, List.map_map]
  exact h.mem_filter_ids hx

end

/-- What an index knows of an entry while only some ids are known to be in memory. -/
def Held.noted (done : List UInt64) (x : Held) : Resident :=
  ⟨x.entry.slot, if x.entry.id ∈ done then .hot else .cold, x.stored⟩

/-- What an index knows while it is built: all rows, and what is in memory under some ids. -/
def rebuilt (done : List UInt64) (l : List Held) : List Resident :=
  (l.filter fun x => x.stored || decide (x.entry.id ∈ done)).map (noted done)

section

variable {l : List Held} {done : List UInt64} {index : Roll Resident}

theorem ordered_rebuilt (h : Ordered l) (done : List UInt64) : Ordered (rebuilt done l) :=
  (ordered_map_iff (f := noted done) fun _ _ => rfl).2 (h.filter _)

theorem mem_rebuilt {r : Resident} : r ∈ rebuilt done l ↔
    ∃ x ∈ l, (x.stored = true ∨ x.entry.id ∈ done) ∧ x.noted done = r := by
  simp only [rebuilt, List.mem_map, List.mem_filter, Bool.or_eq_true, decide_eq_true_eq, and_assoc]

/-- At first the index knows the rows. -/
theorem rebuilt_nil (l : List Held) :
    rebuilt [] l = (inTable l).map fun e => ⟨e.slot, .cold, true⟩ := by
  rw [rebuilt, inTable, List.map_map]
  have hf : (l.filter fun x => x.stored || decide (x.entry.id ∈ ([] : List UInt64))) =
      l.filter (·.stored) := List.filter_congr fun x _ => by simp
  rw [hf]
  refine List.map_congr_left fun x hx => ?_
  simp [noted, (List.mem_filter.1 hx).2]

/-- In the end it knows everything. -/
theorem rebuilt_inMemory {b : Bounds} (h : Layout b l) :
    rebuilt ((inMemory l).map Entry.id) l = l.map resident := by
  have hall : (l.filter fun x => x.stored || decide (x.entry.id ∈ (inMemory l).map Entry.id)) = l :=
    List.filter_eq_self.2 fun x hx => by
      rw [Bool.or_eq_true, decide_eq_true_eq, mem_inMemory_ids h.order hx]
      cases hh : x.isHot with
      | true => exact .inr rfl
      | false => exact .inl (h.rows x hx hh)
  rw [rebuilt, hall]
  refine List.map_congr_left fun x hx => ?_
  rw [noted, resident]
  congr 1
  have hmem := mem_inMemory_ids h.order hx
  cases hh : x.tier with
  | hot => exact if_pos (hmem.2 (by simp [isHot, resident, Resident.isHot, hh]))
  | cold => exact if_neg fun hc => by simpa [isHot, resident, Resident.isHot, hh] using hmem.1 hc

/-- Coming upon an entry does not change what is noted of others. -/
theorem noted_of_ne {x y : Held} (he : y.entry.id ≠ x.entry.id) (done : List UInt64) :
    y.noted (x.entry.id :: done) = y.noted done := by
  simp [noted, he]

/-- Coming upon an entry in memory that has a row, the index notes that it is in memory. -/
theorem rebuilt_update (h : Ordered l) (hi : index.Lists (rebuilt done l)) {x : Held} (hx : x ∈ l)
    (hs : x.stored = true) :
    (index.update x.entry.id Resident.heated).Lists (rebuilt (x.entry.id :: done) l) := by
  refine cast (congrArg (Roll.Lists _) ?_)
    (hi.update (f := Resident.heated) (fun _ => rfl) x.entry.id)
  have hf : (l.filter fun y => y.stored || decide (y.entry.id ∈ x.entry.id :: done)) =
      l.filter fun y => y.stored || decide (y.entry.id ∈ done) :=
    List.filter_congr fun y hy => by
      by_cases he : y.entry.id = x.entry.id
      · rw [h.eq_of_id hy hx he, hs, Bool.true_or, Bool.true_or]
      · simp [he]
  rw [rebuilt, rebuilt, hf, List.map_map]
  refine List.map_congr_left fun y _ => ?_
  change (if y.entry.id = x.entry.id then (y.noted done).heated else y.noted done) = _
  split
  · next he => simp [noted, Resident.heated, he]
  · next he => exact (noted_of_ne he done).symm

/-- The index knows nothing of an entry without a row before it comes upon it. -/
theorem rebuilt_unknown (h : Ordered l) {x : Held} (hx : x ∈ l) (hs : x.stored = false)
    (hd : x.entry.id ∉ done) : ∀ r ∈ rebuilt done l, idOf r ≠ x.entry.id := by
  intro r hr he
  obtain ⟨y, hy, hk, rfl⟩ := mem_rebuilt.1 hr
  have he : y.entry.id = x.entry.id := he
  rw [h.eq_of_id hy hx he, hs] at hk
  exact hk.elim Bool.false_ne_true hd

/-- Coming upon an entry in memory that has no row, the index learns of it. -/
theorem rebuilt_insert (h : Ordered l) (hi : index.Lists (rebuilt done l)) {x : Held} (hx : x ∈ l)
    (hs : x.stored = false) (hd : x.entry.id ∉ done) :
    (index.insert { slot := x.entry.slot, tier := .hot, stored := false }).Lists
      (rebuilt (x.entry.id :: done) l) := by
  have hnew := rebuilt_unknown h hx hs hd
  have hnoted : (⟨x.entry.slot, .hot, false⟩ : Resident) = x.noted (x.entry.id :: done) := by
    simp [noted, hs]
  rw [hnoted]
  have hins := hi.insert_new (a := x.noted (x.entry.id :: done)) hnew
  refine cast (congrArg (Roll.Lists _) ?_) hins
  refine hins.order.ascending.ext (ordered_rebuilt h _).ascending fun r => ?_
  rw [mem_insertByKey, mem_rebuilt, mem_rebuilt]
  constructor
  · rintro (rfl | ⟨y, hy, hk, rfl⟩)
    · exact ⟨x, hx, .inr (List.mem_cons_self ..), rfl⟩
    · have he : y.entry.id ≠ x.entry.id := hnew _ (mem_rebuilt.2 ⟨y, hy, hk, rfl⟩)
      exact ⟨y, hy, hk.imp_right (List.mem_cons_of_mem _), noted_of_ne he done⟩
  · rintro ⟨y, hy, hk, rfl⟩
    by_cases he : y.entry.id = x.entry.id
    · exact .inl (by rw [h.eq_of_id hy hx he])
    · refine .inr ⟨y, hy, hk.imp_right fun hm => ?_, (noted_of_ne he done).symm⟩
      exact (List.mem_cons.1 hm).resolve_left he

/-- Coming upon an entry in memory, the index notes that it is there. -/
theorem rebuilt_step (h : Ordered l) (hi : index.Lists (rebuilt done l)) {x : Held} (hx : x ∈ l)
    (hd : x.entry.id ∉ done) :
    (if index.holds x.entry.id then index.update x.entry.id Resident.heated
      else index.insert { slot := x.entry.slot, tier := .hot, stored := false }).Lists
      (rebuilt (x.entry.id :: done) l) := by
  cases hs : x.stored with
  | true =>
    have hholds : index.holds x.entry.id = true :=
      hi.holds_iff.2 ⟨_, mem_rebuilt.2 ⟨x, hx, .inl hs, rfl⟩, rfl⟩
    rw [if_pos hholds]
    exact rebuilt_update h hi hx hs
  | false =>
    have hholds : ¬ index.holds x.entry.id = true := by
      intro hh
      obtain ⟨r, hr, he⟩ := hi.holds_iff.1 hh
      exact rebuilt_unknown h hx hs hd r hr he
    rw [if_neg hholds]
    exact rebuilt_insert h hi hx hs hd

/-- Coming upon many entries in memory, one after the other. -/
theorem rebuilt_foldl (h : Ordered l) (es : List Entry) (hu : (es.map Entry.id).Nodup)
    (hm : ∀ e ∈ es, ∃ x ∈ l, x.entry = e) (hd : ∀ e ∈ es, e.id ∉ done)
    (hi : index.Lists (rebuilt done l)) :
    (es.foldl (fun index e =>
        if index.holds e.id then index.update e.id Resident.heated
        else index.insert { slot := e.slot, tier := .hot, stored := false }) index).Lists
      (rebuilt ((es.map Entry.id).reverse ++ done) l) := by
  induction es generalizing done index with
  | nil => exact hi
  | cons e es ih =>
    rw [List.map_cons, List.nodup_cons] at hu
    obtain ⟨x, hx, rfl⟩ := hm e (List.mem_cons_self ..)
    have hstep := rebuilt_step h hi hx (hd _ (List.mem_cons_self ..))
    have hrest := ih hu.2 (fun f hf => hm f (List.mem_cons_of_mem _ hf)) (fun f hf hc => ?_) hstep
    · simpa using hrest
    · rcases List.mem_cons.1 hc with hc | hc
      · exact hu.1 (hc ▸ List.mem_map_of_mem hf)
      · exact hd f (List.mem_cons_of_mem _ hf) hc

/-- The index that is built from the rows and from memory knows the whole list. -/
theorem rebuild_lists {b : Bounds} (h : Layout b l) :
    (Cached.rebuild ((inTable l).map Entry.slot) (inMemory l)).Lists (l.map resident) := by
  have hrows : (({} : Roll Resident).insertAll (((inTable l).map Entry.slot).map fun slot =>
      { slot, tier := .cold, stored := true })).Lists (rebuilt [] l) := by
    have ho := ordered_rebuilt h.order []
    have he : ((inTable l).map Entry.slot).map (fun slot : Slot =>
        ({ slot, tier := .cold, stored := true } : Resident)) = rebuilt [] l := by
      rw [rebuilt_nil, List.map_map]
      rfl
    rw [he]
    exact Roll.Lists.empty.insertAll_new ho.unique (by simp) ho (by simp)
  have hfold := rebuilt_foldl h.order (inMemory l) (ordered_inMemory h.order).unique
    (fun e he => ?_) (by simp) hrows
  · rw [← rebuilt_inMemory h]
    refine cast (congrArg (Roll.Lists _) ?_) hfold
    simp [rebuilt, noted]
  · obtain ⟨x, hx, rfl⟩ := List.mem_map.1 he
    exact ⟨x, (List.mem_filter.1 hx).1, rfl⟩

end

end Spillway
