import Spillway.Action
import Spillway.Proofs.Partition

/-!
# Statements keep to the rows of one queue

All queues share one table, and every statement names the queue that it is for. What it answers, and
what it leaves of the rows of that queue, depends on these rows alone, whatever else the table
holds; and the rows of all other queues it leaves as they are. This is shown of the parts that
statements are made of, and then of each statement that the queues use.
-/

namespace Spillway.Statement

variable {α β : Type} {queue other : String} {rows rows' : List Row}

/-! ## Local statements -/

/-- Two outcomes that are the same as far as one queue can tell. -/
inductive Agree (queue : String) :
    Except Refusal (α × List Row) → Except Refusal (α × List Row) → Prop
  /-- The same answer, and the same rows of the queue. -/
  | ok (a : α) {rows rows' : List Row} (h : rowsOf queue rows = rowsOf queue rows') :
      Agree queue (.ok (a, rows)) (.ok (a, rows'))
  /-- The same refusal. -/
  | error (refusal : Refusal) : Agree queue (.error refusal) (.error refusal)

/-- A statement that knows and changes the rows of one queue only. -/
structure Local (queue : String) (statement : Statement α) : Prop where
  /-- What it gives and leaves depends on the rows of the queue alone. -/
  agree : ∀ {rows rows' : List Row}, rowsOf queue rows = rowsOf queue rows' →
    Agree queue (statement rows) (statement rows')
  /-- It leaves the rows of all other queues. -/
  spares : ∀ {rows rows' : List Row} {a : α}, statement rows = .ok (a, rows') →
    ∀ other ≠ queue, rowsOf other rows' = rowsOf other rows

/-- To give a result is local. -/
theorem local_pure (a : α) : Local queue (pure a : Statement α) where
  agree h := .ok a h
  spares h _ _ := by cases h; rfl

/-- What does not ask the table is local. -/
theorem local_lift (x : Except Refusal α) : Local queue (liftM x : Statement α) := by
  cases x with
  | ok a => exact local_pure a
  | error refusal => exact ⟨fun _ => .error refusal, nofun⟩

/-- One local statement after another is local: the second one finds the same rows of the queue. -/
theorem Local.bind {act : Statement α} {next : α → Statement β} (h : Local queue act)
    (hn : ∀ a, Local queue (next a)) : Local queue (act >>= next) where
  agree {rows rows'} he := by
    have hact := h.agree he
    generalize ho : act rows = o at hact
    generalize ho' : act rows' = o' at hact
    cases hact with
    | ok a hrows =>
      rw [bind_of_ok ho, bind_of_ok ho']
      exact (hn a).agree hrows
    | error refusal =>
      rw [bind_of_error ho, bind_of_error ho']
      exact .error refusal
  spares {rows rows' b} hb other hne := by
    cases ho : act rows with
    | ok p =>
      rw [bind_of_ok ho] at hb
      exact ((hn p.1).spares hb other hne).trans (h.spares ho other hne)
    | error refusal =>
      rw [bind_of_error ho] at hb
      cases hb

/-- A statement that begins with a look at the rows is local if it looks at those of the queue. -/
theorem Local.of_get {next : List Row → Statement α}
    (hn : ∀ rows, next rows = next (rowsOf queue rows)) (h : ∀ rows, Local queue (next rows)) :
    Local queue (get >>= next) where
  agree {rows rows'} he := by
    rw [bind_of_ok (get_apply rows), bind_of_ok (get_apply rows'), hn rows, hn rows', he]
    exact (h _).agree he
  spares {rows rows' a} hb := by
    rw [bind_of_ok (get_apply rows)] at hb
    exact (h rows).spares hb

/-- Doing something local for each member of a list is local. -/
theorem local_mapM {act : β → Statement α} (h : ∀ b, Local queue (act b)) (l : List β) :
    Local queue (l.mapM act) :=
  mapM_closed (Local queue) local_pure Local.bind h l

/-- Deleting is local if only rows of the queue are picked. -/
theorem local_deleteWhere {pick : Row → Bool} (hp : ∀ r, pick r = true → r.queue = queue) :
    Local queue (deleteWhere pick) where
  agree {rows rows'} he := by
    have hgone : rows.filter pick = rows'.filter pick := by
      rw [filter_rowsOf hp, he, ← filter_rowsOf hp]
    have hleft : rowsOf queue (rows.filter (!pick ·)) = rowsOf queue (rows'.filter (!pick ·)) := by
      rw [rowsOf_filter, he, ← rowsOf_filter]
    change Agree queue (.ok (rows.filter pick, rows.filter (!pick ·))) _
    rw [hgone]
    exact .ok _ hleft
  spares {rows rows' gone} h other hne := by
    cases h
    rw [rowsOf_filter, List.filter_eq_self]
    intro r hr
    have hother : r.queue = other := by simpa [rowsOf] using (List.mem_filter.1 hr).2
    have hpick : pick r ≠ true := fun hpr => hne (hother.symm.trans (hp r hpr))
    simpa using hpick

/-- Changing rows in place is local if only rows of the queue change, and stay there. -/
theorem local_map {change : Row → Row} (hq : ∀ r, (change r).queue = r.queue)
    (hc : ∀ r, r.queue ≠ queue → change r = r) :
    Local queue (modify fun rows => rows.map change : Statement Unit) := by
  have hmap : ∀ (name : String) (rows : List Row),
      rowsOf name (rows.map change) = (rowsOf name rows).map change := by
    intro name rows
    rw [rowsOf, rowsOf, List.filter_map]
    congr 1
    apply List.filter_congr
    intro r _
    simp [hq]
  constructor
  · intro rows rows' he
    refine .ok () ?_
    rw [hmap, hmap, he]
  · intro rows rows' a h other hne
    cases h
    have hsame : (rowsOf other rows).map change = (rowsOf other rows).map id := by
      apply List.map_congr_left
      intro r hr
      have hother : r.queue = other := by simpa [rowsOf] using (List.mem_filter.1 hr).2
      exact hc r fun hmine => hne (hother.symm.trans hmine)
    rw [hmap, hsame, List.map_id]

/-- Reading slots asks nothing more of the table once the rows are at hand. -/
theorem local_readSlots (rows : List Row) : Local queue (readSlots rows) := local_lift _

/-- Nor does reading entries. -/
theorem local_readEntries (rows : List Row) : Local queue (readEntries rows) := local_lift _

/-! ## The statements of queues -/

/-- Adding an entry looks for its id among the rows of the queue and writes a row of the queue. -/
theorem local_addEntry (e : Entry) : Local queue (addEntry queue e) := by
  have hany : ∀ rows : List Row,
      rows.any (isRowOf queue e.id) = (rowsOf queue rows).any (isRowOf queue e.id) := by
    intro rows
    rw [rowsOf, List.any_filter]
    congr 1
    funext r
    cases hr : isRowOf queue e.id r with
    | false => simp
    | true => simp [queue_of_isRowOf hr]
  constructor
  · intro rows rows' he
    have hsame : rows.any (isRowOf queue e.id) = rows'.any (isRowOf queue e.id) := by
      rw [hany, he, ← hany]
    change Agree queue (.ok (if rows.any (isRowOf queue e.id) then (false, rows) else _))
      (.ok (if rows'.any (isRowOf queue e.id) then (false, rows') else _))
    rw [hsame]
    split
    · exact .ok false he
    · refine .ok true ?_
      rw [rowsOf, rowsOf, List.filter_append, List.filter_append]
      exact congrArg (· ++ _) he
  · intro rows rows' new h other hne
    change Except.ok (if rows.any (isRowOf queue e.id) then (false, rows) else _) = _ at h
    split at h
    · cases h
      rfl
    · cases h
      have hforeign : rowsOf other [Row.ofEntry queue e] = [] := by
        simp [rowsOf, Row.ofEntry, hne.symm]
      rw [rowsOf, List.filter_append, ← rowsOf, ← rowsOf, hforeign, List.append_nil]

/-- So does adding many, one after the other. -/
theorem local_addEntries (entries : List Entry) : Local queue (addEntries queue entries) :=
  local_mapM local_addEntry entries

/-- Looking for an id finds rows of the queue only. -/
theorem local_slotOf? (id : UInt64) : Local queue (slotOf? queue id) := by
  refine .of_get (fun rows => ?_) fun rows => ?_
  · have hfind : rows.find? (isRowOf queue id) = (rowsOf queue rows).find? (isRowOf queue id) := by
      rw [rowsOf, List.find?_filter]
      congr 1
      funext r
      cases hr : isRowOf queue id r with
      | false => simp
      | true => simp [queue_of_isRowOf hr]
    rw [hfind]
  · split
    · exact local_pure none
    · exact (local_lift _).bind fun slot => local_pure (some slot)

/-- A change in place changes one of its rows. -/
theorem local_modifyEntry (e : Entry) : Local queue (modifyEntry queue e) := by
  refine (local_slotOf? e.id).bind fun former => ?_
  have hchange : Local queue (modify fun rows => rows.map fun r =>
      if isRowOf queue e.id r then
        { r with
          persistent := e.persistent, size := sizeToCell e.size, payload := e.payload }
      else r) := by
    refine local_map (fun r => ?_) fun r hr => ?_
    · split <;> rfl
    · exact if_neg fun hrow => hr (queue_of_isRowOf hrow)
  dsimp only
  split
  · exact hchange.bind fun _ => local_pure former
  · exact local_pure former

/-- A head window covers rows of the queue. -/
theorem local_headSlots (w : Window) (band : Band) : Local queue (headSlots queue w band) := by
  refine .of_get (fun rows => ?_) fun rows => (local_readSlots _).bind fun _ => local_pure _
  have hband : rowsInBand queue band rows = rowsInBand queue band (rowsOf queue rows) := by
    unfold rowsInBand
    rw [rowsOf_rowsOf]
  rw [hband]

/-- So does a tail window, even with a limit that is not among them. -/
theorem local_tailSlots (w : Window) (limit : Option Key) (leaveOne : Bool) :
    Local queue (tailSlots queue w limit leaveOne) := by
  refine .of_get (fun rows => ?_) fun rows => (local_readSlots _).bind fun _ => local_pure _
  rw [rowsOf_rowsOf]

/-- Reading by ids reads rows of the queue, piece by piece. -/
theorem local_entriesByIds (ids : List UInt64) : Local queue (entriesByIds queue ids) := by
  refine .of_get (fun rows => ?_) fun rows => ?_
  · have hpick : ∀ piece, rows.filter (isAmong queue piece) =
        (rowsOf queue rows).filter (isAmong queue piece) :=
      fun piece => filter_rowsOf (fun _ => queue_of_isAmong) rows
    simp only [hpick]
  · exact (local_mapM (fun _ => local_readEntries _) _).bind fun _ => local_pure _

/-- Taking by ids reads and deletes them. -/
theorem local_takeByIds (ids : List UInt64) : Local queue (takeByIds queue ids) := by
  have hpiece : ∀ piece, Local queue (deleteWhere (isAmong queue piece) >>= readEntries) :=
    fun piece => (local_deleteWhere fun _ => queue_of_isAmong).bind local_readEntries
  exact (local_mapM hpiece _).bind fun _ => local_pure _

/-- Deleting by ids reads their slots and deletes them. -/
theorem local_deleteByIds (ids : List UInt64) : Local queue (deleteByIds queue ids) := by
  have hpiece : ∀ piece, Local queue (deleteWhere (isAmong queue piece) >>= readSlots) :=
    fun piece => (local_deleteWhere fun _ => queue_of_isAmong).bind local_readSlots
  exact (local_mapM hpiece _).bind fun _ => local_pure _

/-- Reading a head window is local. -/
theorem local_getEntries (w : Window) (band : Band) : Local queue (getEntries queue w band) :=
  (local_headSlots w band).bind fun _ => local_entriesByIds _

/-- So is taking one. -/
theorem local_takeEntries (w : Window) (band : Band) : Local queue (takeEntries queue w band) :=
  (local_headSlots w band).bind fun _ => local_takeByIds _

/-- So is reading a tail window. -/
theorem local_getLowest (w : Window) (limit : Option Key) (leaveOne : Bool) :
    Local queue (getLowest queue w limit leaveOne) :=
  (local_tailSlots w limit leaveOne).bind fun _ =>
    (local_entriesByIds _).bind fun _ => local_pure _

/-- So is taking one. -/
theorem local_takeLowest (w : Window) (limit : Option Key) (leaveOne : Bool) :
    Local queue (takeLowest queue w limit leaveOne) :=
  (local_tailSlots w limit leaveOne).bind fun _ => (local_takeByIds _).bind fun _ => local_pure _

/-- What is read before an id is so by the place that the id has in the queue. -/
theorem local_getBefore (id : UInt64) : Local queue (getBefore queue id) := by
  refine (local_slotOf? id).bind fun found => ?_
  cases found with
  | none => exact local_pure []
  | some limit =>
    refine .of_get (fun rows => ?_) fun rows => local_readEntries _
    rw [rowsOf_rowsOf]

/-- The first entries are those of the queue. -/
theorem local_deleteFirst (count : Nat) : Local queue (deleteFirst queue count) := by
  refine .of_get (fun rows => ?_) fun rows => ?_
  · rw [rowsOf_rowsOf]
  · refine (local_deleteWhere fun r hr => ?_).bind local_readSlots
    rw [Bool.and_eq_true, beq_iff_eq] at hr
    exact hr.1

/-- So is what stands before a key. -/
theorem local_deleteUpTo (limit : Key) (inclusive : Bool) :
    Local queue (deleteUpTo queue limit inclusive) := by
  refine (local_deleteWhere fun r hr => ?_).bind local_readSlots
  rw [Bool.and_eq_true, beq_iff_eq] at hr
  exact hr.1

/-- So is what need not survive. -/
theorem local_deleteTransient : Local queue (deleteTransient queue) := by
  refine (local_deleteWhere fun r hr => ?_).bind local_readSlots
  rw [Bool.and_eq_true, beq_iff_eq] at hr
  exact hr.1

/-- Deleting all deletes all of the queue. -/
theorem local_deleteAll : Local queue (deleteAll queue) :=
  (local_deleteWhere fun _ => eq_of_beq).bind fun gone => local_pure gone.length

/-- Reading all reads all of the queue. -/
theorem local_getAll : Local queue (getAll queue) := by
  refine .of_get (fun rows => ?_) fun rows => local_readEntries _
  rw [rowsOf_rowsOf]

/-- So does reading all slots. -/
theorem local_getSlots : Local queue (getSlots queue) := by
  refine .of_get (fun rows => ?_) fun rows => local_readSlots _
  rw [rowsOf_rowsOf]

/-- The rows that are counted are those of the queue. -/
theorem local_count : Local queue (count queue) := by
  refine .of_get (fun rows => ?_) fun rows => local_lift _
  rw [rowsOf_rowsOf]

end Spillway.Statement
