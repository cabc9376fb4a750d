import Spillway.Proofs.Locality
import Spillway.Proofs.Reloading

/-!
# Entries by their ids

Reading and taking by ids ask for the ids in pieces. A take deletes what it finds, so it finds each
entry once, and the pieces are not seen. A read finds an entry in every piece that lists its id: it
gives the entry as often as that, so the pieces are not seen exactly if no stored entry is listed in
two of them.
-/

namespace Spillway

namespace Statement

variable {queue : String} {rows : List Row} {ids : List UInt64}

/-! ## Rows with some ids -/

theorem isAmong_append (ids ids' : List UInt64) (r : Row) :
    isAmong queue (ids ++ ids') r = (isAmong queue ids r || isAmong queue ids' r) := by
  simp [isAmong, Bool.and_or_distrib_left]

theorem isAmong_ofEntry (ids : List UInt64) (e : Entry) :
    isAmong queue ids (Row.ofEntry queue e) = decide (e.id ∈ ids) := by
  rw [isAmong, Partition.contains_cell]
  simp [Row.ofEntry]

/-- Fewer ids list fewer rows. -/
theorem isAmong_mono {piece : List UInt64} (hp : piece ⊆ ids) {r : Row}
    (h : isAmong queue piece r = true) : isAmong queue ids r = true := by
  simp only [isAmong, Bool.and_eq_true, List.contains_iff_mem, List.mem_map] at h ⊢
  obtain ⟨hq, id, hid, hcell⟩ := h
  exact ⟨hq, id, hp hid, hcell⟩

/-- The rows of a queue that have one of some ids can be read. -/
def Legible (queue : String) (ids : List UInt64) (rows : List Row) : Prop :=
  ∀ r ∈ rows.filter (isAmong queue ids), r.readable = true

instance : Decidable (Legible queue ids rows) :=
  inferInstanceAs (Decidable (∀ r ∈ rows.filter (isAmong queue ids), r.readable = true))

theorem legible_append (ids ids' : List UInt64) :
    Legible queue (ids ++ ids') rows ↔ Legible queue ids rows ∧ Legible queue ids' rows := by
  simp only [Legible, List.mem_filter, isAmong_append, Bool.or_eq_true]
  constructor
  · intro h
    exact ⟨fun r hr => h r ⟨hr.1, .inl hr.2⟩, fun r hr => h r ⟨hr.1, .inr hr.2⟩⟩
  · rintro ⟨h, h'⟩ r ⟨hr, hin | hin⟩
    · exact h r ⟨hr, hin⟩
    · exact h' r ⟨hr, hin⟩

/-- Rows that are deleted need not be read again. -/
theorem legible_append_deleted (ids ids' : List UInt64) :
    Legible queue (ids ++ ids') rows ↔
      Legible queue ids rows ∧ Legible queue ids' (rows.filter (!isAmong queue ids ·)) := by
  rw [legible_append]
  refine and_congr_right fun h => ?_
  simp only [Legible, List.mem_filter, Bool.not_eq_true'] at h ⊢
  constructor
  · rintro h' r ⟨⟨hr, -⟩, hin⟩
    exact h' r ⟨hr, hin⟩
  · rintro h' r ⟨hr, hin⟩
    by_cases hfirst : isAmong queue ids r = true
    · exact h r ⟨hr, hfirst⟩
    · exact h' r ⟨⟨hr, Bool.not_eq_true _ ▸ hfirst⟩, hin⟩

theorem legible_flatten (ps : List (List UInt64)) :
    Legible queue ps.flatten rows ↔ ∀ piece ∈ ps, Legible queue piece rows := by
  induction ps with
  | nil => simp [Legible, isAmong]
  | cons piece ps ih => rw [List.flatten_cons, legible_append, ih, List.forall_mem_cons]

/-! ## What statements find -/

/-- A read by ids puts together what it finds for each piece. -/
theorem entriesByIds_eq (queue : String) (ids : List UInt64) (rows : List Row) :
    entriesByIds queue ids rows =
      if Legible queue ids rows then
        .ok (sortByKey ((pieces idsPerQuery ids).map fun piece =>
          Row.decode (rows.filter (isAmong queue piece))).flatten, rows)
      else .error .unreadableRow := by
  have hall : ((pieces idsPerQuery ids).mapM fun piece =>
      readEntries (rows.filter (isAmong queue piece))) rows =
      if ∀ piece ∈ pieces idsPerQuery ids, Legible queue piece rows then
        .ok ((pieces idsPerQuery ids).map fun piece =>
          Row.decode (rows.filter (isAmong queue piece)), rows)
      else .error .unreadableRow :=
    mapM_of_cases (fun piece => readEntries_eq (rows.filter (isAmong queue piece)) rows) _
  have hlegible : Legible queue ids rows ↔
      ∀ piece ∈ pieces idsPerQuery ids, Legible queue piece rows := by
    rw [← legible_flatten, pieces_flatten (by decide)]
  rw [entriesByIds, bind_of_ok (get_apply rows)]
  split
  · next h =>
    rw [if_pos (hlegible.1 h)] at hall
    rw [bind_of_ok hall, pure_apply]
  · next h =>
    rw [if_neg fun h' => h (hlegible.2 h')] at hall
    rw [bind_of_error hall]

/-- Take the entries of one piece of the ids. -/
def takePiece (queue : String) (piece : List UInt64) : Statement (List Entry) := do
  readEntries (← deleteWhere (isAmong queue piece))

theorem takePiece_eq (queue : String) (piece : List UInt64) (rows : List Row) :
    takePiece queue piece rows =
      if Legible queue piece rows then
        .ok (Row.decode (rows.filter (isAmong queue piece)),
          rows.filter (!isAmong queue piece ·))
      else .error .unreadableRow :=
  readEntries_eq (rows.filter (isAmong queue piece)) (rows.filter (!isAmong queue piece ·))

/-- Taking piece by piece finds every listed row once, and leaves the others. -/
theorem takePieces_of_legible {ps : List (List UInt64)} (h : Legible queue ps.flatten rows) :
    ∃ gone, ps.mapM (takePiece queue) rows =
        .ok (gone, rows.filter (!isAmong queue ps.flatten ·)) ∧
      gone.flatten.Perm (Row.decode (rows.filter (isAmong queue ps.flatten))) := by
  induction ps generalizing rows with
  | nil =>
    refine ⟨[], ?_, ?_⟩
    · simp [isAmong, pure_apply]
    · simp [isAmong, Row.decode]
  | cons piece ps ih =>
    rw [List.flatten_cons, legible_append_deleted] at h
    obtain ⟨gone, hrun, hperm⟩ := ih h.2
    have hone := takePiece_eq queue piece rows
    rw [if_pos h.1] at hone
    refine ⟨Row.decode (rows.filter (isAmong queue piece)) :: gone, ?_, ?_⟩
    · rw [List.mapM_cons, bind_of_ok hone, bind_of_ok hrun, pure_apply, List.filter_filter]
      refine congrArg (fun left => Except.ok (_, left)) (List.filter_congr fun r _ => ?_)
      rw [List.flatten_cons, isAmong_append, Bool.not_or, Bool.and_comm]
    · have hsplit := (perm_filter_or (isAmong queue piece) (isAmong queue ps.flatten)
        rows).filterMap fun r => r.readEntry.toOption
      rw [List.filterMap_append] at hsplit
      have hlater : rows.filter (fun r => !isAmong queue piece r && isAmong queue ps.flatten r) =
          (rows.filter (!isAmong queue piece ·)).filter (isAmong queue ps.flatten) := by
        rw [List.filter_filter]
        exact List.filter_congr fun r _ => Bool.and_comm ..
      have hboth : rows.filter (fun r => isAmong queue piece r || isAmong queue ps.flatten r) =
          rows.filter (isAmong queue (piece :: ps).flatten) := by
        refine List.filter_congr fun r _ => ?_
        rw [List.flatten_cons, isAmong_append]
      rw [hlater, hboth] at hsplit
      rw [List.flatten_cons]
      exact (hperm.append_left _).trans hsplit

/-- Where a listed row cannot be read the taking is refused. -/
theorem takePieces_of_illegible {ps : List (List UInt64)} (h : ¬ Legible queue ps.flatten rows) :
    ps.mapM (takePiece queue) rows = .error .unreadableRow := by
  induction ps generalizing rows with
  | nil => exact absurd (by simp [Legible, isAmong]) h
  | cons piece ps ih =>
    rw [List.flatten_cons, legible_append_deleted] at h
    have hone := takePiece_eq queue piece rows
    rw [List.mapM_cons]
    by_cases hfirst : Legible queue piece rows
    · rw [if_pos hfirst] at hone
      rw [bind_of_ok hone, bind_of_error (ih fun hrest => h ⟨hfirst, hrest⟩)]
    · rw [if_neg hfirst] at hone
      rw [bind_of_error hone]

/-! ## The stored entries of some ids -/

/-- The stored entries of a queue that have one of some ids, in the order of service. -/
def listed (queue : String) (ids : List UInt64) (rows : List Row) : List Entry :=
  sortByKey (Row.decode (rows.filter (isAmong queue ids)))

/-- They are those whose rows are there and whose ids are given. -/
theorem mem_listed {e : Entry} :
    e ∈ listed queue ids rows ↔ Row.ofEntry queue e ∈ rows ∧ e.id ∈ ids := by
  have hq : ∀ r ∈ rows.filter (isAmong queue ids), r.queue = queue := fun r hr =>
    queue_of_isAmong (List.mem_filter.1 hr).2
  rw [listed, mem_sortByKey, Row.mem_decode hq, List.mem_filter, isAmong_ofEntry, decide_eq_true_eq]

theorem ordered_listed (hk : Keyed rows) : Ordered (listed queue ids rows) := by
  apply ordered_sortByKey
  apply nodup_decode (hk.sublist List.filter_sublist)
  exact fun r hr => queue_of_isAmong (List.mem_filter.1 hr).2

/-- What a piece of the ids finds, of what all of them find. -/
theorem decode_piece (h : Legible queue ids rows) {piece : List UInt64} (hp : piece ⊆ ids) :
    Row.decode (rows.filter (isAmong queue piece)) =
      (Row.decode (rows.filter (isAmong queue ids))).filter fun e => decide (e.id ∈ piece) := by
  have hrows := Row.map_decode (fun r hr => queue_of_isAmong (List.mem_filter.1 hr).2) h
  have hpart : rows.filter (isAmong queue piece) =
      (rows.filter (isAmong queue ids)).filter (isAmong queue piece) := by
    rw [List.filter_filter]
    refine List.filter_congr fun r _ => ?_
    cases hr : isAmong queue piece r with
    | false => rfl
    | true => exact (isAmong_mono hp hr).symm
  rw [hpart, ← hrows, List.filter_map, Row.decode_ofEntry, hrows]
  exact List.filter_congr fun e _ => isAmong_ofEntry ..

/-- How many of the pieces in which ids are asked for have a given one. -/
def listings (ids : List UInt64) (id : UInt64) : Nat :=
  (pieces idsPerQuery ids).countP fun piece => decide (id ∈ piece)

/-- What a condition picks is picked once or not at all. -/
theorem filter_eq_flatMap {α : Type} (p : α → Bool) (l : List α) :
    l.filter p = l.flatMap fun a => List.replicate (if p a then 1 else 0) a := by
  induction l with
  | nil => rfl
  | cons a l ih =>
    rw [List.flatMap_cons, ← ih]
    cases hp : p a with
    | true => simp [hp]
    | false => simp [hp]

/-- Asking for pieces of ids finds an entry once for each piece that has its id. -/
theorem perm_found (l : List Entry) (ps : List (List UInt64)) :
    (ps.map fun piece => l.filter fun e => decide (e.id ∈ piece)).flatten.Perm
      (l.flatMap fun e => List.replicate (ps.countP fun piece => decide (e.id ∈ piece)) e) := by
  induction ps with
  | nil => simp
  | cons piece ps ih =>
    have hcount : ∀ e : Entry, List.replicate ((piece :: ps).countP fun p => decide (e.id ∈ p)) e =
        List.replicate (if decide (e.id ∈ piece) then 1 else 0) e ++
          List.replicate (ps.countP fun p => decide (e.id ∈ p)) e := by
      intro e
      rw [← List.replicate_add, List.countP_cons, Nat.add_comm]
    simp only [hcount, List.map_cons, List.flatten_cons]
    rw [filter_eq_flatMap]
    exact (ih.append_left _).trans (List.flatMap_append_perm ..)

/-- Repeating entries where they are keeps a list sorted, and nothing else sorts them. -/
theorem sortByKey_repeated {l found : List Entry} (h : Ordered l) (times : Entry → Nat)
    (hp : found.Perm (l.flatMap fun e => List.replicate (times e) e)) :
    sortByKey found = l.flatMap fun e => List.replicate (times e) e := by
  have hsorted : (l.flatMap fun e => List.replicate (times e) e).Pairwise
      fun a b => keyOf a ≤ keyOf b := by
    rw [List.pairwise_flatMap]
    refine ⟨fun e _ => ?_, h.ascending.imp fun hlt a ha b hb => ?_⟩
    · exact List.pairwise_replicate.2 (.inr (Key.lt_irrefl _))
    · rw [List.eq_of_mem_replicate ha, List.eq_of_mem_replicate hb]
      exact Key.lt_asymm hlt
  have hmem : ∀ a ∈ l.flatMap fun e => List.replicate (times e) e, a ∈ l := by
    intro a ha
    obtain ⟨e, he, hae⟩ := List.mem_flatMap.1 ha
    rw [List.eq_of_mem_replicate hae]
    exact he
  have hperm := (perm_sortOrdered servedBefore found).trans hp
  refine hperm.eq_of_pairwise (fun a b ha hb hab hba => ?_) (pairwise_sortByKey found) hsorted
  have hkey : keyOf a = keyOf b := by
    rcases Key.lt_trichotomy (keyOf a) (keyOf b) with hlt | heq | hlt
    · exact absurd hlt hba
    · exact heq
    · exact absurd hlt hab
  exact h.eq_of_key (hmem a (hperm.mem_iff.1 ha)) (hmem b hb) hkey

/-- A read by ids gives every stored entry as often as pieces of the ids list it. -/
theorem entriesByIds_listed (hk : Keyed rows) (h : Legible queue ids rows) :
    entriesByIds queue ids rows =
      .ok ((listed queue ids rows).flatMap fun e => List.replicate (listings ids e.id) e,
        rows) := by
  have hfound : ((pieces idsPerQuery ids).map fun piece =>
      Row.decode (rows.filter (isAmong queue piece))) = (pieces idsPerQuery ids).map fun piece =>
        (Row.decode (rows.filter (isAmong queue ids))).filter fun e => decide (e.id ∈ piece) := by
    refine List.map_congr_left fun piece hp => decode_piece h fun id hid => ?_
    rw [← pieces_flatten (show 0 < idsPerQuery by decide) ids]
    exact List.mem_flatten_of_mem hp hid
  rw [entriesByIds_eq, if_pos h, hfound, sortByKey_repeated (ordered_listed hk)]
  refine (perm_found _ _).trans ?_
  exact List.Perm.flatMap_right _ (perm_sortOrdered servedBefore _).symm

/-- Taking by ids gives every stored entry once, and leaves the other rows. -/
theorem takeByIds_listed (hk : Keyed rows) (h : Legible queue ids rows) :
    takeByIds queue ids rows =
      .ok (listed queue ids rows, rows.filter (!isAmong queue ids ·)) := by
  have hflat := pieces_flatten (show 0 < idsPerQuery by decide) ids
  have hlegible : Legible queue (pieces idsPerQuery ids).flatten rows := by rwa [hflat]
  obtain ⟨gone, hrun, hperm⟩ := takePieces_of_legible hlegible
  rw [hflat] at hrun hperm
  have hsorted : sortByKey gone.flatten = listed queue ids rows :=
    (ordered_listed hk).sortByKey_perm (hperm.trans (perm_sortOrdered servedBefore _).symm)
  change ((pieces idsPerQuery ids).mapM (takePiece queue) >>= fun taken =>
    pure (sortByKey taken.flatten) : Statement _) rows = _
  rw [bind_of_ok hrun, pure_apply, hsorted]

theorem takeByIds_illegible (h : ¬ Legible queue ids rows) :
    takeByIds queue ids rows = .error .unreadableRow := by
  have hlegible : ¬ Legible queue (pieces idsPerQuery ids).flatten rows := by
    rwa [pieces_flatten (by decide)]
  change ((pieces idsPerQuery ids).mapM (takePiece queue) >>= fun taken =>
    pure (sortByKey taken.flatten) : Statement _) rows = _
  rw [bind_of_error (takePieces_of_illegible hlegible)]

/-! ## How often ids are listed -/

theorem countP_mem_pos {ps : List (List UInt64)} {id : UInt64} (h : id ∈ ps.flatten) :
    0 < ps.countP fun piece => decide (id ∈ piece) := by
  obtain ⟨piece, hp, hid⟩ := List.mem_flatten.1 h
  exact List.countP_pos_iff.2 ⟨piece, hp, decide_eq_true hid⟩

theorem countP_mem_le_count (ps : List (List UInt64)) (id : UInt64) :
    (ps.countP fun piece => decide (id ∈ piece)) ≤ ps.flatten.count id := by
  induction ps with
  | nil => simp
  | cons piece ps ih =>
    rw [List.countP_cons, List.flatten_cons, List.count_append]
    by_cases hid : id ∈ piece
    · have := List.count_pos_iff.2 hid
      simp only [hid, decide_true, if_true]
      omega
    · simp only [hid, decide_false, Bool.false_eq_true, if_false]
      omega

/-- An id that is given is listed. -/
theorem listings_pos {id : UInt64} (h : id ∈ ids) : 0 < listings ids id := by
  apply countP_mem_pos
  rwa [pieces_flatten (by decide)]

/-- Different ids, or ids that one query can list, are listed once. -/
theorem listings_le_one (h : ids.Nodup ∨ ids.length ≤ idsPerQuery) (id : UInt64) :
    listings ids id ≤ 1 := by
  rcases h with h | h
  · refine (countP_mem_le_count _ id).trans ?_
    rw [pieces_flatten (by decide)]
    exact List.nodup_iff_count_le_one.1 h id
  · refine List.countP_le_length.trans ?_
    rw [pieces, List.length_map, List.length_range]
    simp only [idsPerQuery] at h ⊢
    omega

/-- A member of a list without repetitions is repeated as often as it is told to be. -/
theorem count_flatMap_replicate {l : List Entry} (h : l.Nodup) (times : Entry → Nat) {e : Entry}
    (he : e ∈ l) : (l.flatMap fun e => List.replicate (times e) e).count e = times e := by
  induction l with
  | nil => cases he
  | cons a l ih =>
    obtain ⟨ha, hl⟩ := List.nodup_cons.1 h
    rw [List.flatMap_cons, List.count_append]
    rcases List.mem_cons.1 he with rfl | he
    · have hrest : (l.flatMap fun e => List.replicate (times e) e).count e = 0 := by
        refine List.count_eq_zero.2 fun hmem => ?_
        obtain ⟨b, hb, heb⟩ := List.mem_flatMap.1 hmem
        rw [List.eq_of_mem_replicate heb] at ha
        exact ha hb
      rw [hrest, List.count_replicate_self, Nat.add_zero]
    · have hne : e ∉ List.replicate (times a) a := fun hmem => by
        rw [List.eq_of_mem_replicate hmem] at he
        exact ha he
      rw [List.count_eq_zero.2 hne, ih hl he, Nat.zero_add]

/-- Entries that are not repeated are what they were. -/
theorem flatMap_replicate_eq_iff {l : List Entry} (h : l.Nodup) (times : Entry → Nat) :
    (l.flatMap fun e => List.replicate (times e) e) = l ↔ ∀ e ∈ l, times e = 1 := by
  constructor
  · intro he e hmem
    have hcount := count_flatMap_replicate h times hmem
    rw [he, List.count_eq_one_of_mem h hmem] at hcount
    exact hcount.symm
  · intro hone
    have hsingle : ∀ e ∈ l, List.replicate (times e) e = [e] := fun e he => by
      rw [hone e he]
      rfl
    rw [List.flatMap_congr hsingle]
    simp

end Statement

open Statement

/-! ## What is read and taken -/

variable {s : Store} {rows : List Row}

/-- What comes of reading and of taking by ids, over a table with given rows. -/
structure ByIds (s : Store) (rows : List Row) (queue : String) (ids : List UInt64) : Prop where
  /-- What is asked for are the stored entries of the ids, in the order of service. -/
  sorted : Ordered (listed queue ids rows) ∧
    ∀ e, e ∈ listed queue ids rows ↔ Row.ofEntry queue e ∈ rows ∧ e.id ∈ ids
  /-- A read gives each of them as often as pieces of the ids list it. -/
  read : s.link.Serving → Legible queue ids rows →
    ((Store.call .getByIds (entriesByIds queue ids)).on s).1 =
      .ok ((listed queue ids rows).flatMap fun e => List.replicate (listings ids e.id) e)
  /-- It changes nothing in the table, whatever comes of it. -/
  unchanged : ((Store.call .getByIds (entriesByIds queue ids)).on s).2.table = s.table
  /-- A take gives each of them once. -/
  taken : s.link.Serving → Legible queue ids rows →
    ((Store.call .takeEntries (takeByIds queue ids)).on s).1 = .ok (listed queue ids rows)
  /-- It removes their rows and no others, or fails and removes none. -/
  left : ((Store.call .takeEntries (takeByIds queue ids)).on s).2.table =
    if ((Store.call .takeEntries (takeByIds queue ids)).on s).1.isOk then
      some (rows.filter (!isAmong queue ids ·))
    else s.table
  /-- Both are refused if a listed row cannot be read. -/
  refused : s.link.Serving → ¬ Legible queue ids rows →
    ((Store.call .getByIds (entriesByIds queue ids)).on s).1 =
        .error (.failed .getByIds .unreadableRow) ∧
      ((Store.call .takeEntries (takeByIds queue ids)).on s).1 =
        .error (.failed .takeEntries .unreadableRow)

theorem byIds (ht : s.table = some rows) (hk : Keyed rows) (queue : String) (ids : List UInt64) :
    ByIds s rows queue ids := by
  refine ⟨⟨ordered_listed hk, fun e => mem_listed⟩, fun hs hl => ?_, ?_, fun hs hl => ?_, ?_,
    fun hs hl => ⟨?_, ?_⟩⟩
  · rcases Store.call_of_ok .getByIds ht (entriesByIds_listed hk hl) with
      ⟨s', hc, -⟩ | ⟨fault, s', -, hm⟩
    · rw [hc]
    · exact absurd hs hm.unserved
  · rcases Store.call_cases .getByIds (entriesByIds queue ids) ht with
      ⟨es, rows', s', hrun, hc, ht', -⟩ | ⟨fault, s', hc, ht', -⟩
    · rw [entriesByIds_eq] at hrun
      split at hrun
      · cases hrun
        rw [hc, ht, ht']
      · cases hrun
    · rw [hc, ht']
  · rcases Store.call_of_ok .takeEntries ht (takeByIds_listed hk hl) with
      ⟨s', hc, -⟩ | ⟨fault, s', -, hm⟩
    · rw [hc]
    · exact absurd hs hm.unserved
  · rcases Store.call_cases .takeEntries (takeByIds queue ids) ht with
      ⟨es, rows', s', hrun, hc, ht', -⟩ | ⟨fault, s', hc, ht', -⟩
    · by_cases hl : Legible queue ids rows
      · rw [takeByIds_listed hk hl] at hrun
        cases hrun
        rw [hc, ht']
        rfl
      · rw [takeByIds_illegible hl] at hrun
        cases hrun
    · rw [hc, ht']
      rfl
  · apply Store.call_of_error .getByIds ht _ hs
    rw [entriesByIds_eq, if_neg hl]
  · exact Store.call_of_error .takeEntries ht (takeByIds_illegible hl) hs

/-- Whatever the table, the queue and the ids, reading and taking find the stored entries of the ids
in the order of service. A take gives each of them once and removes their rows; a read changes
nothing, and gives an entry as often as pieces of the ids list it. So both give the same, and the
pieces are not seen, exactly if no entry is listed in two of them. That holds of different ids, and
of as many as one query can list. -/
theorem by_ids_as_listed (ht : s.table = some rows) (hk : Keyed rows) (queue : String)
    (ids : List UInt64) : ByIds s rows queue ids ∧
      (s.link.Serving → Legible queue ids rows →
        (((Store.call .getByIds (entriesByIds queue ids)).on s).1 = .ok (listed queue ids rows) ↔
          ∀ e ∈ listed queue ids rows, listings ids e.id = 1)) ∧
      (ids.Nodup ∨ ids.length ≤ idsPerQuery →
        ∀ e ∈ listed queue ids rows, listings ids e.id = 1) := by
  have hby := byIds ht hk queue ids
  refine ⟨hby, fun hs hl => ?_, fun hids e he => ?_⟩
  · rw [hby.read hs hl, Except.ok.injEq, flatMap_replicate_eq_iff hby.sorted.1.nodup]
  · have hone := listings_le_one hids e.id
    have hpos := listings_pos (mem_listed.1 he).2
    omega

/-- A table with the rows of two entries, one of them of another queue. -/
def shelf : Store where
  table := some [Row.ofEntry "mail:" (.sized 1 4), Row.ofEntry "mail:x" (.sized 1 7)]

/-- More ids than one query can list: the first is given again after the last. -/
def roundIds : List UInt64 := (List.range 501).map fun n => UInt64.ofNat (n % 500 + 1)

/-- By those ids the entry is read twice, and taken once. -/
theorem by_ids_as_listed_shelf :
    (shelf.table = some shelf.rows ∧ Keyed shelf.rows ∧ shelf.link.Serving ∧
      Legible "mail:" roundIds shelf.rows) ∧
    ByIds shelf shelf.rows "mail:" roundIds ∧
    ((Store.call .getByIds (entriesByIds "mail:" roundIds)).on shelf).1 =
      .ok [.sized 1 4, .sized 1 4] ∧
    ((Store.call .takeEntries (takeByIds "mail:" roundIds)).on shelf).1 = .ok [.sized 1 4] ∧
    ((Store.call .getByIds (entriesByIds "mail:" (roundIds.take 500))).on shelf).1 =
      .ok [.sized 1 4] := by
  have ht : shelf.table = some shelf.rows := rfl
  have hk : Keyed shelf.rows := by unfold Keyed; decide +kernel
  have hs : shelf.link.Serving := by decide +kernel
  have hl : Legible "mail:" roundIds shelf.rows := by decide +kernel
  have hl' : Legible "mail:" (roundIds.take 500) shelf.rows := by decide +kernel
  have hlisted : listed "mail:" roundIds shelf.rows = [.sized 1 4] := by decide +kernel
  have hlisted' : listed "mail:" (roundIds.take 500) shelf.rows = [.sized 1 4] := by decide +kernel
  obtain ⟨hby, -, -⟩ := by_ids_as_listed ht hk "mail:" roundIds
  obtain ⟨-, hiff, hshort⟩ := by_ids_as_listed ht hk "mail:" (roundIds.take 500)
  have htwice : listings roundIds 1 = 2 := by decide +kernel
  refine ⟨⟨ht, hk, hs, hl⟩, hby, ?_, ?_, ?_⟩
  · rw [hby.read hs hl, hlisted]
    simp [Entry.sized, htwice]
  · rw [hby.taken hs hl, hlisted]
  · rw [(hiff hs hl').2 (hshort (.inr (List.length_take_le ..))), hlisted']

/-- It is not so that a read by ids gives every stored entry once. -/
theorem not_read_once : ¬ ∀ {s : Store} {rows : List Row}, s.table = some rows → Keyed rows →
    s.link.Serving → ∀ (queue : String) (ids : List UInt64), Legible queue ids rows →
      ((Store.call .getByIds (entriesByIds queue ids)).on s).1 = .ok (listed queue ids rows) := by
  intro hall
  have hk : Keyed shelf.rows := by unfold Keyed; decide +kernel
  have hs : shelf.link.Serving := by decide +kernel
  have hl : Legible "mail:" roundIds shelf.rows := by decide +kernel
  have hread := hall rfl hk hs "mail:" roundIds hl
  rw [(byIds rfl hk "mail:" roundIds).read hs hl, Except.ok.injEq,
    flatMap_replicate_eq_iff (ordered_listed hk).nodup] at hread
  have hmem : Entry.sized 1 4 ∈ listed "mail:" roundIds shelf.rows := by decide +kernel
  have htwice : listings roundIds 1 = 2 := by decide +kernel
  have hone := hread _ hmem
  rw [show (Entry.sized 1 4).id = 1 from rfl, htwice] at hone
  cases hone

end Spillway
