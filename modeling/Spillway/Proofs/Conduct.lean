import Spillway.Proofs.AnyKind
import Spillway.Proofs.Manners

/-!
# The conduct of queues

Whatever a queue is asked, its work is done in the manner of its kind. A queue that is asked for
contents changes only what it holds; one that is opened, closed or destroyed keeps its name, its
bounds and its hooks. A cached queue asks nothing of the table but through its part in the table, so
that its errands are for the rows of that part.
-/

namespace Spillway

open Desk

variable {α : Type} {asks strict : Prop} {request : Request}

/-- To look at the queue changes nothing. -/
theorem Desk.proper_view {Q : Type} {m : Manner Q} (view : Q → α) :
    Proper m (do return view (← theQueue)) :=
  .bind proper_theQueue fun _ => proper_pure _

/-! ## Queues in memory -/

namespace Ram

/-- The manner of a queue in memory that is asked for contents. It may count events, but has no
rows. -/
abbrev serving (asks strict : Prop) : Manner Ram :=
  Desk.serving (fun q => q.storageId.text) asks strict

/-- The manner of a queue in memory that is opened, closed or destroyed. -/
abbrev living (asks : Prop) : Manner Ram := Desk.living (fun q => q.storageId.text) asks

/-- What changes the entries only. -/
theorem proper_hold (change : Ram → Roll Entry) :
    Proper (serving asks strict) (changeQueue fun q => { q with roll := change q }) :=
  proper_changeQueue fun _ => ⟨rfl, rfl, rfl, rfl⟩

/-- A removal by keys takes entries out of what is held and tells the size watchers. -/
theorem proper_strike (pick : Ram → List Key) :
    Proper (serving asks strict) (strike pick) := by
  refine .changing ?_ id
  refine .bind proper_theQueue fun q => ?_
  exact .bind (proper_hold fun _ => (q.roll.take (pick q)).2) fun _ => proper_pure _

/-- Choosing entries changes nothing. -/
theorem proper_select (admits : Entry → Bool) :
    Proper (serving asks strict) (select admits) :=
  .reading (proper_view _) id

/-- Clearing leaves an empty queue of the same frame. -/
theorem proper_clear : Proper (serving asks strict) clear := by
  refine .changing ?_ id
  refine .bind proper_theQueue fun q => ?_
  exact .bind (proper_hold fun _ => {}) fun _ => proper_pure _

/-- Reading what is served before an entry changes nothing, whether or not the entry is there. -/
theorem proper_peekBefore (limit : Option Entry) :
    Proper (serving asks strict) (peekBefore limit) := by
  refine .reading (.bind proper_theQueue fun q => ?_) id
  dsimp only
  split
  · exact proper_pure _
  · exact proper_pure _

/-- A removal of listed entries takes them out by their ids; an empty list only asks whether the
queue is active. -/
theorem proper_removeListed (entries : List Entry) :
    Proper (serving asks strict) (removeListed entries) := by
  unfold removeListed
  split
  · exact .reading (proper_pure 0) id
  · refine .changing (.bind proper_theQueue fun q => ?_) id
    exact .bind (proper_hold fun _ => (q.roll.takeIds (entries.map Entry.id)).2) fun _ =>
      proper_pure _

/-- A put adds to what is held, or counts a refusal where the queue is full. -/
theorem proper_put (batch : List Entry) (bypass : Bool) :
    Proper (serving True strict) (put batch bypass) := by
  have hm := attentive_serving (fun q : Ram => q.storageId.text) strict
  refine Proper.framingPut (.bind (.changing ?_ id) fun _ => proper_pure true) hm batch bypass
  exact .bind (proper_requireRoom hm) fun _ => proper_hold fun q => q.roll.insertAll batch

/-- A start makes the queue active; it fails only for a destroyed one. -/
theorem proper_start : Proper (living asks) start := by
  refine .bind (proper_check _ fun _ => False.elim) fun _ => ?_
  exact proper_changeQueue fun _ => ⟨rfl, rfl, rfl⟩

/-- Closing changes the phase and tells the watchers, unless the queue is destroyed. -/
theorem proper_shutdown : Proper (living asks) shutdown := by
  refine .bind proper_theQueue fun q => ?_
  split
  · exact proper_pure ()
  · refine .bind (proper_changeQueue fun q => ?_) fun _ => proper_announce true
    unfold closed
    split
    · exact SameOutline.refl q
    · exact ⟨rfl, rfl, rfl⟩

/-- Destroying forgets everything and tells the watchers. -/
theorem proper_destroy : Proper (living asks) destroy :=
  .bind (proper_changeQueue fun _ => ⟨rfl, rfl, rfl⟩) fun _ => proper_announce true

/-- A queue in memory that is asked for contents changes only what it holds. -/
theorem proper_serve (hr : request.needsActive = true) :
    Proper (serving True strict) (serve request : Action (Desk Ram) Reply) := by
  cases request with
  | start | shutdown | destroy => cases hr
  | put batch bypass => exact .bind (proper_put batch bypass) fun _ => proper_pure _
  | peek | peekFirst | peekLowest | references =>
    exact .bind (.reading (proper_view _) id) fun _ => proper_pure _
  | peekBefore limit => exact .bind (proper_peekBefore limit) fun _ => proper_pure _
  | takeLowest | take => exact .bind (proper_strike _) fun _ => proper_pure _
  | removeFirst | removeWindow | removeUpTo | removeTransient =>
    exact .bind (.bind (proper_strike _) fun _ => proper_pure _) fun _ => proper_pure _
  | removeListed entries => exact .bind (proper_removeListed entries) fun _ => proper_pure _
  | clear => exact .bind proper_clear fun _ => proper_pure _
  | select admits => exact .bind (proper_select admits) fun _ => proper_pure _

/-- Whatever it is asked, it keeps its name, its bounds and its hooks. -/
theorem proper_request (request : Request) :
    Proper (living True) (serve request : Action (Desk Ram) Reply) := by
  cases request with
  | start => exact .bind proper_start fun _ => proper_pure _
  | shutdown => exact .bind proper_shutdown fun _ => proper_pure _
  | destroy => exact .bind proper_destroy fun _ => proper_pure _
  | _ => exact (proper_serve rfl).living

end Ram

/-! ## Queues in the table -/

namespace Durable

/-- The manner of a queue in the table that is asked for contents. -/
abbrev serving (strict : Prop) : Manner Durable := Desk.serving Durable.name True strict

/-- The manner of a queue in the table that is opened, closed or destroyed. -/
abbrev living (asks : Prop) : Manner Durable := Desk.living Durable.name asks

/-- A local statement about the queue's own part is an errand, in every manner that has errands for
that part. -/
theorem proper_ask {m : Manner Durable} (ha : m.asks) (hp : m.part = Durable.name) (task : Task)
    {statement : String → Statement α} (hs : ∀ part, Statement.Local part (statement part)) :
    Proper m (ask task statement) := by
  refine .errand ha (fun part => Store.call task (statement part))
    (fun part => .call task (hs part)) fun d => ?_
  rw [hp]
  exact ask_on task statement d

/-- The totals are part of what a queue in the table holds. -/
theorem proper_retally (change : Tally → Tally) : Proper (serving strict) (retally change) :=
  proper_changeQueue fun _ => ⟨rfl, rfl, rfl, rfl⟩

/-- Reading rows is an errand of an active queue. -/
theorem proper_reading (task : Task) {statement : String → Statement α}
    (hs : ∀ part, Statement.Local part (statement part)) :
    Proper (serving strict) (reading (ask task statement)) :=
  .reading (proper_ask trivial rfl task hs) id

/-- A deletion is an errand that the totals follow. -/
theorem proper_deleting [Slotted α] (task : Task) {statement : String → Statement (List α)}
    (hs : ∀ part, Statement.Local part (statement part)) :
    Proper (serving strict) (deleting task statement) := by
  refine .changing (.bind (proper_ask trivial rfl task hs) fun deleted => ?_) id
  exact .bind (proper_retally _) fun _ => proper_pure deleted

/-- Writing rows is an errand that the totals follow. -/
theorem proper_write (entries : List Entry) : Proper (serving strict) (write entries) := by
  refine .bind (proper_ask trivial rfl _ fun _ => Statement.local_addEntries entries)
    fun added => ?_
  exact .bind (proper_retally _) fun _ => proper_pure _

/-- Holding entries for a cached queue writes their rows, or does nothing if there are none. -/
theorem proper_hold (entries : List Entry) : Proper (serving strict) (hold entries) := by
  unfold hold
  split
  · exact proper_pure ()
  · exact .bind (.changing (proper_write entries) id) fun _ => proper_pure ()

/-- Reading by ids asks nothing of the table if there are no ids. -/
theorem proper_peekIds (ids : List UInt64) : Proper (serving strict) (peekIds ids) := by
  unfold peekIds
  split
  · exact proper_pure []
  · exact proper_reading _ fun _ => Statement.local_entriesByIds ids

/-- Neither does taking by ids. -/
theorem proper_takeIds (ids : List UInt64) : Proper (serving strict) (takeIds ids) := by
  unfold takeIds
  split
  · exact proper_pure []
  · exact proper_deleting _ fun _ => Statement.local_takeByIds ids

/-- Nor deleting by ids. -/
theorem proper_deleteIds (ids : List UInt64) : Proper (serving strict) (deleteIds ids) := by
  unfold deleteIds
  split
  · exact proper_pure []
  · exact proper_deleting _ fun _ => Statement.local_deleteByIds ids

/-- Reading the slots is an errand. -/
theorem proper_slots : Proper (serving strict) slots :=
  proper_reading _ fun _ => Statement.local_getSlots

/-- Deleting the rows that need not survive is an errand that the totals follow. -/
theorem proper_removeTransient : Proper (serving strict) removeTransient :=
  .bind (proper_deleting _ fun _ => Statement.local_deleteTransient) fun _ => proper_pure _

/-- Clearing deletes all rows of the queue, and the totals are zero then. -/
theorem proper_clear : Proper (serving strict) clear := by
  refine .changing (.bind (proper_ask trivial rfl _ fun _ => Statement.local_deleteAll)
    fun removed => ?_) id
  exact .bind (proper_retally _) fun _ => proper_pure removed

/-- Choosing entries reads all rows of the queue. -/
theorem proper_select (admits : Entry → Bool) : Proper (serving strict) (select admits) := by
  refine .reading (.bind (proper_ask trivial rfl _ fun _ => Statement.local_getAll) fun es => ?_) id
  exact proper_pure (es.filter admits)

/-- Reading what is served before an entry asks the table only if there is an entry. -/
theorem proper_peekBefore (limit : Option Entry) : Proper (serving strict) (peekBefore limit) := by
  refine .reading ?_ id
  cases limit with
  | none => exact proper_pure []
  | some e => exact proper_ask trivial rfl _ fun _ => Statement.local_getBefore e.id

/-- A removal of listed entries deletes by ids; an empty list only asks whether the queue is active.
-/
theorem proper_removeListed (entries : List Entry) :
    Proper (serving strict) (removeListed entries) := by
  unfold removeListed
  split
  · exact .reading (proper_pure 0) id
  · exact .bind (proper_deleteIds _) fun _ => proper_pure _

/-- A put writes the rows of its batch, or counts a refusal where the queue is full; for an empty
batch it does neither. -/
theorem proper_put (batch : List Entry) (bypass : Bool) :
    Proper (serving strict) (put batch bypass) := by
  have hm := attentive_serving Durable.name strict
  refine Proper.framingPut ?_ hm batch bypass
  split
  · exact proper_pure false
  · refine .bind (.changing ?_ id) fun _ => proper_pure true
    refine .bind (proper_requireRoom hm) fun _ => ?_
    exact .bind (proper_write batch) fun _ => proper_pure ()

/-- A change in place is an errand, and the totals follow the entry that was there. -/
theorem proper_modifyEntry (e : Entry) : Proper (serving strict) (modifyEntry e) := by
  refine .changing ?_ id
  refine .bind (proper_ask trivial rfl _ fun _ => Statement.local_modifyEntry e) fun former => ?_
  cases former with
  | none => exact proper_pure false
  | some former => exact .bind (proper_retally _) fun _ => proper_pure true

/-- The part of an opening that comes after the table was made. -/
def reckoning : Action (Desk Durable) Unit := do
  let tally ← ask .count Statement.count
  changeQueue fun q => { q with tally, phase := .active }

/-- Counting the rows makes the queue active with the totals that were found. -/
theorem proper_reckoning : Proper (living True) reckoning := by
  refine .bind (proper_ask trivial rfl _ fun _ => Statement.local_count) fun tally => ?_
  exact proper_changeQueue fun _ => ⟨rfl, rfl, rfl⟩

/-- Making the table is an errand of every manner that has any. -/
theorem proper_createTable {Q : Type} {m : Manner Q} (ha : m.asks) :
    Proper m (onStore Store.createTable) :=
  .errand ha (fun _ => Store.createTable) (fun _ => .create) fun _ => rfl

/-- A start makes the table if there is none and counts the rows. -/
theorem proper_start : Proper (living True) start := by
  refine .bind (proper_check _ fun _ => False.elim) fun _ => ?_
  exact .bind (proper_createTable trivial) fun _ => proper_reckoning

/-- Closing changes the phase and tells the watchers, once; rows stay where they are. -/
theorem proper_shutdown : Proper (living asks) shutdown := by
  refine .bind proper_theQueue fun q => ?_
  split
  · exact proper_pure ()
  · exact .bind (proper_changeQueue fun _ => ⟨rfl, rfl, rfl⟩) fun _ => proper_announce true

/-- Destroying deletes the rows first, and changes the queue only if that succeeds. -/
theorem proper_destroy : Proper (living True) destroy := by
  refine .bind proper_theQueue fun q => ?_
  split
  · exact proper_pure ()
  · refine .bind (proper_ask trivial rfl _ fun _ => Statement.local_deleteAll) fun _ => ?_
    exact .bind (proper_changeQueue fun _ => ⟨rfl, rfl, rfl⟩) fun _ => proper_announce true

/-- A queue in the table that is asked for contents changes only its totals. -/
theorem proper_serve (hr : request.needsActive = true) :
    Proper (serving strict) (serve request : Action (Desk Durable) Reply) := by
  cases request with
  | start | shutdown | destroy => cases hr
  | put batch bypass => exact .bind (proper_put batch bypass) fun _ => proper_pure _
  | peek w band =>
    exact .bind (proper_reading _ fun _ => Statement.local_getEntries w band) fun _ => proper_pure _
  | peekFirst =>
    exact .bind (proper_reading _ fun _ => Statement.local_getEntries _ _) fun _ => proper_pure _
  | peekBefore limit => exact .bind (proper_peekBefore limit) fun _ => proper_pure _
  | peekLowest w limit leaveOne =>
    exact .bind (proper_reading _ fun _ => Statement.local_getLowest w _ leaveOne)
      fun _ => proper_pure _
  | takeLowest w limit leaveOne =>
    exact .bind (proper_deleting _ fun _ => Statement.local_takeLowest w _ leaveOne)
      fun _ => proper_pure _
  | take w low high =>
    exact .bind (proper_deleting _ fun _ => Statement.local_takeEntries w _) fun _ => proper_pure _
  | removeFirst count =>
    exact .bind (.bind (proper_deleting _ fun _ => Statement.local_deleteFirst count)
      fun _ => proper_pure _) fun _ => proper_pure _
  | removeListed entries => exact .bind (proper_removeListed entries) fun _ => proper_pure _
  | removeWindow w low high =>
    exact .bind (.bind (proper_deleting _ fun _ => Statement.local_takeEntries w _)
      fun _ => proper_pure _) fun _ => proper_pure _
  | removeUpTo limit inclusive =>
    exact .bind (.bind (proper_deleting _ fun _ => Statement.local_deleteUpTo _ inclusive)
      fun _ => proper_pure _) fun _ => proper_pure _
  | removeTransient => exact .bind proper_removeTransient fun _ => proper_pure _
  | clear => exact .bind proper_clear fun _ => proper_pure _
  | references => exact .bind (.bind proper_slots fun _ => proper_pure _) fun _ => proper_pure _
  | select admits => exact .bind (proper_select admits) fun _ => proper_pure _

/-- Whatever it is asked, it keeps its name, its bounds and its hooks. -/
theorem proper_request (request : Request) :
    Proper (living True) (serve request : Action (Desk Durable) Reply) := by
  cases request with
  | start => exact .bind proper_start fun _ => proper_pure _
  | shutdown => exact .bind proper_shutdown fun _ => proper_pure _
  | destroy => exact .bind proper_destroy fun _ => proper_pure _
  | _ => exact (proper_serve rfl).living

end Durable

/-! ## Cached queues -/

namespace Cached

/-- The manner of a cached queue that is asked for contents: it and its parts change only what they
hold. -/
def serving (strict : Prop) : Manner Cached where
  part q := q.cold.name
  asks := True
  turns q q' := SameFrame q q' ∧ SameFrame q.hot q'.hot ∧ SameFrame q.cold q'.cold
  stays q := ⟨.refl q, .refl q.hot, .refl q.cold⟩
  awake q := q.phase = .active ∧ q.hot.phase = .active ∧ q.cold.phase = .active
  fits fault := strict → fault.kind ≠ .shutdown

/-- The manner of a cached queue that is opened, closed or destroyed. -/
def living (asks : Prop) : Manner Cached where
  part q := q.cold.name
  asks
  turns q q' := SameOutline q q' ∧ SameOutline q.hot q'.hot ∧ SameOutline q.cold q'.cold
  stays q := ⟨.refl q, .refl q.hot, .refl q.cold⟩
  awake _ := False
  fits _ := True

/-- A cached queue that is asked for contents may use the store and is active with both parts. -/
theorem attentive_serving (strict : Prop) : Attentive (serving strict) :=
  ⟨trivial, fun h => h.1, fun h _ => h⟩

/-- What it may do in being asked for contents it may also do when it is opened or closed. -/
theorem Proper.living {act : Action (Desk Cached) α} (h : Proper (serving False) act) :
    Proper (Cached.living True) act :=
  h.mono (fun _ => rfl) id (fun ⟨h, hhot, hcold⟩ => ⟨h.outline, hhot.outline, hcold.outline⟩)
    False.elim ⟨fun _ => trivial, fun _ => False.elim⟩

/-! ### The two parts at work -/

/-- The part in the table. -/
def coldHalf : Half Cached Durable where
  view := Cached.cold
  back cold q := { q with cold }
  view_back _ _ := rfl
  back_back _ _ _ := rfl
  back_view _ := rfl

/-- The part in memory. -/
def hotHalf : Half Cached Ram where
  view := Cached.hot
  back hot q := { q with hot }
  view_back _ _ := rfl
  back_back _ _ _ := rfl
  back_view _ := rfl

/-- What the part in the table does when it is asked for contents, the queue does so. -/
theorem cold_serving {act : Action (Desk Durable) α} (h : Proper (Durable.serving strict) act) :
    Proper (serving strict) (onCold act) :=
  h.work coldHalf (fun _ => ⟨trivial, fun _ => rfl⟩)
    (fun hturns => ⟨⟨rfl, rfl, rfl, rfl⟩, .refl _, hturns⟩) (fun h => h.2.2) .rfl

/-- What the part in memory does when it is asked for contents, the queue does so. -/
theorem hot_serving {act : Action (Desk Ram) α}
    (h : Proper (Ram.serving False strict) act) : Proper (serving strict) (onHot act) :=
  h.work hotHalf False.elim (fun hturns => ⟨⟨rfl, rfl, rfl, rfl⟩, hturns, .refl _⟩)
    (fun h => h.2.1) .rfl

/-- What opens or closes the part in the table is part of opening or closing the queue. -/
theorem cold_living {act : Action (Desk Durable) α} (h : Proper (Durable.living asks) act) :
    Proper (living asks) (onCold act) :=
  h.work coldHalf (fun ha => ⟨ha, fun _ => rfl⟩)
    (fun hturns => ⟨⟨rfl, rfl, rfl⟩, .refl _, hturns⟩) id .rfl

/-- What opens or closes the part in memory needs no store, whatever the queue may ask. -/
theorem hot_living {act : Action (Desk Ram) α}
    (h : Proper (Ram.living False) act) : Proper (living asks) (onHot act) :=
  h.work hotHalf False.elim (fun hturns => ⟨⟨rfl, rfl, rfl⟩, hturns, .refl _⟩) id .rfl

/-! ### What moves between the parts -/

/-- The index is part of what the queue holds. -/
theorem proper_reindex (change : Roll Resident → Roll Resident) :
    Proper (serving strict) (reindex change) :=
  proper_changeQueue fun _ => ⟨⟨rfl, rfl, rfl, rfl⟩, .refl _, .refl _⟩

/-- To keep entries in memory changes what the part in memory holds. -/
theorem proper_heat (entries : List Entry) : Proper (serving strict) (heat entries) :=
  proper_changeQueue fun _ => ⟨⟨rfl, rfl, rfl, rfl⟩, ⟨rfl, rfl, rfl, rfl⟩, .refl _⟩

/-- Letting entries in memory go is done by the queue alone. -/
theorem proper_cool (ids : List UInt64) : Proper (serving strict) (cool ids) := by
  refine .own (fun q => .ok (q.hot.releasing ids).1)
    (fun q => { q with hot := (q.hot.releasing ids).2 }) (fun _ => [])
    (fun _ => congrArg _ (called_nothing _)) (fun q => ?_) fun _ _ _ h => ?_
  · exact ⟨⟨rfl, rfl, rfl, rfl⟩, ⟨rfl, rfl, rfl, rfl⟩, .refl _⟩
  · cases h

/-- The part in the table holds entries as a queue of its own would. -/
theorem proper_hold (entries : List Entry) :
    Proper (serving strict) (onCold (Durable.hold entries)) :=
  cold_serving (Durable.proper_hold entries)

/-- Rows are written by the part in the table; rows that are held back are only counted. -/
theorem proper_writeRows (needed wanted : List Entry) :
    Proper (serving strict) (writeRows needed wanted) := by
  have hrest : ∀ fault, (serving strict).fits fault → Proper (serving strict) (do
      if fault.isRetryable then
        count fun t => { t with deferred := t.deferred + wanted.length }
        return false
      else throw fault : Action (Desk Cached) Bool) := by
    intro fault hfault
    split
    · exact .bind (proper_count trivial fun _ => ⟨rfl, rfl⟩) fun _ => proper_pure false
    · exact proper_throw hfault
  unfold writeRows
  split
  · exact .bind (proper_hold _) fun _ => proper_pure true
  · exact .handle (proper_hold wanted) (fun _ => proper_pure true) hrest

/-- A put writes rows, moves what no longer fits out of memory, and enters what is new in the index.
-/
theorem proper_place (new : List Entry) : Proper (serving strict) (place new) := by
  refine .bind proper_theQueue fun q => ?_
  refine .bind (proper_writeRows _ _) fun _ => ?_
  refine .bind (proper_cool _) fun _ => ?_
  refine .bind (proper_heat _) fun _ => ?_
  exact .bind (proper_reindex _) fun _ => proper_count trivial fun _ => ⟨rfl, rfl⟩

/-- Refilling memory reads rows, and a failure to read them is none of its own. -/
theorem proper_promote : Proper (serving strict) promote := by
  refine .bind proper_theQueue fun q => ?_
  dsimp only
  split
  · exact proper_pure ()
  · refine .handle (cold_serving (Durable.proper_peekIds _)) (fun entries => ?_)
      fun _ _ => proper_pure ()
    refine .bind (proper_heat entries) fun _ => ?_
    exact .bind (proper_reindex _) fun _ => proper_count trivial fun _ => ⟨rfl, rfl⟩

/-- Catching up with rows that were held back writes them and notes it in the index. -/
theorem proper_flush : Proper (serving strict) flush := by
  refine .bind proper_theQueue fun q => ?_
  dsimp only
  split
  · exact proper_pure ()
  · exact .bind (proper_hold _) fun _ => proper_reindex _

/-- Restoring the prefix writes the rows of what must leave memory before it leaves. -/
theorem proper_restorePrefix : Proper (serving strict) restorePrefix := by
  refine .bind proper_theQueue fun q => ?_
  dsimp only
  split
  · exact proper_promote
  · split
    · refine .bind (proper_hold _) fun _ => ?_
      refine .bind (proper_cool _) fun _ => ?_
      exact .bind (proper_reindex _) fun _ => proper_promote
    · exact proper_promote

/-- Reading by keys reads rows, and makes do with what is in memory if they cannot be read. -/
theorem proper_fetch (keys : List Key) : Proper (serving strict) (fetch keys) := by
  refine .bind proper_theQueue fun q => ?_
  refine .handle (cold_serving (Durable.proper_peekIds _)) (fun _ => proper_pure _)
    fun fault hfault => ?_
  dsimp only
  split
  · exact proper_pure _
  · exact proper_throw hfault

/-- Once the rows of some entries are gone, memory and the index follow. -/
theorem proper_forgetting (ids : List UInt64) (change : Roll Resident → Roll Resident)
    (answer : List Entry → α) : Proper (serving strict) (do
      let taken ← cool ids
      reindex change
      promote
      return answer taken) := by
  refine .bind (proper_cool _) fun _ => ?_
  refine .bind (proper_reindex _) fun _ => ?_
  exact .bind proper_promote fun _ => proper_pure _

/-- Taking by keys deletes rows first, so that the rest is done only if that succeeds. -/
theorem proper_takeKeys (keys : List Key) : Proper (serving strict) (takeKeys keys) := by
  refine .bind proper_theQueue fun q => ?_
  exact .bind (cold_serving (Durable.proper_takeIds _)) fun _ => proper_forgetting _ _ _

/-- So does removing by keys. -/
theorem proper_dropKeys (keys : List Key) : Proper (serving strict) (dropKeys keys) := by
  refine .bind proper_theQueue fun q => ?_
  exact .bind (cold_serving (Durable.proper_deleteIds _)) fun _ => proper_forgetting _ _ _

/-! ### What a cached queue is asked -/

/-- Reading is done by an active queue, whose parts are active too. -/
theorem Proper.reading {act : Action (Desk Cached) α} (h : Proper (serving strict) act) :
    Proper (serving strict) (Desk.reading act) :=
  Desk.Proper.reading h fun h => h.1

/-- Something is done, the size watchers are told, and what came of it is the result. -/
theorem proper_settling {m : Manner Cached} {act : Action (Desk Cached) α} (h : Proper m act)
    {between : Action (Desk Cached) Unit} (hb : Proper m between) : Proper m (do
      let outcome ← act.attempt
      between
      Action.require outcome) :=
  .handle h (fun a => .bind hb fun _ => proper_pure a)
    fun _ hfault => .bind hb fun _ => proper_throw hfault

/-- A change is one whether or not it succeeds: the watchers are told in either case. -/
theorem Proper.altering {act : Action (Desk Cached) α} (h : Proper (serving strict) act) :
    Proper (serving strict) (Cached.altering act) :=
  .bind (proper_requireActive fun h => h.1) fun _ => proper_settling h (proper_announce false)

/-- A put places what is new among memory and table, or counts a refusal where the queue is full. -/
theorem proper_put (batch : List Entry) (bypass : Bool) :
    Proper (serving strict) (put batch bypass) := by
  have hm := attentive_serving strict
  refine Proper.framingPut (.bind (Proper.altering ?_) fun _ => proper_pure true) hm batch bypass
  refine .bind (proper_requireRoom hm) fun _ => ?_
  refine .bind proper_theQueue fun q => ?_
  dsimp only
  split
  · exact proper_place _
  · exact proper_pure ()

/-- A removal by keys that the queue picks itself. -/
theorem proper_drop (pick : Cached → List Key) : Proper (serving strict) (altering do
    dropKeys (pick (← theQueue))) :=
  Proper.altering (.bind proper_theQueue fun _ => proper_dropKeys _)

/-- Reading a head window fetches its keys. -/
theorem proper_peek (w : Window) (band : Band) : Proper (serving strict) (peek w band) :=
  Proper.reading (.bind proper_theQueue fun _ => proper_fetch _)

/-- Reading what is served before an entry fetches the keys before it, if it is there. -/
theorem proper_peekBefore (limit : Option Entry) : Proper (serving strict) (peekBefore limit) := by
  refine Proper.reading (.bind proper_theQueue fun q => ?_)
  dsimp only
  split
  · exact proper_fetch _
  · exact proper_pure []

/-- A removal of listed entries removes by their keys; an empty list only asks whether the queue is
active. -/
theorem proper_removeListed (entries : List Entry) :
    Proper (serving strict) (removeListed entries) := by
  unfold removeListed
  split
  · exact Proper.reading (proper_pure 0)
  · exact proper_drop _

/-- Clearing deletes the rows first, then what is in memory, then the index. -/
theorem proper_clear : Proper (serving strict) clear := by
  refine Proper.altering (.bind proper_theQueue fun q => ?_)
  refine .bind (cold_serving Durable.proper_clear) fun _ => ?_
  refine .bind (hot_serving Ram.proper_clear) fun _ => ?_
  exact .bind (proper_reindex _) fun _ => proper_pure _

/-- Choosing entries chooses among memory and rows. -/
theorem proper_select (admits : Entry → Bool) : Proper (serving strict) (select admits) := by
  refine Proper.reading (.bind (hot_serving (Ram.proper_select admits))
    fun warm => ?_)
  refine .bind (cold_serving (Durable.proper_select admits)) fun rows => ?_
  exact proper_view _

/-- A cached queue that is asked for contents changes, with its parts, only what it holds. -/
theorem proper_serve (hr : request.needsActive = true) :
    Proper (serving strict) (serve request : Action (Desk Cached) Reply) := by
  cases request with
  | start | shutdown | destroy => cases hr
  | put batch bypass => exact .bind (proper_put batch bypass) fun _ => proper_pure _
  | peek | peekFirst => exact .bind (proper_peek _ _) fun _ => proper_pure _
  | peekBefore limit => exact .bind (proper_peekBefore limit) fun _ => proper_pure _
  | peekLowest w limit leaveOne =>
    refine .bind (Proper.reading (.bind proper_theQueue fun _ => ?_)) fun _ => proper_pure _
    exact .bind (proper_fetch _) fun _ => proper_pure _
  | takeLowest w limit leaveOne =>
    refine .bind (Proper.altering (.bind proper_theQueue fun _ => ?_)) fun _ => proper_pure _
    exact .bind (proper_takeKeys _) fun _ => proper_pure _
  | take w low high =>
    refine .bind (Proper.altering (.bind proper_theQueue fun _ => ?_)) fun _ => proper_pure _
    exact proper_takeKeys _
  | removeFirst | removeWindow | removeUpTo | removeTransient =>
    exact .bind (proper_drop _) fun _ => proper_pure _
  | removeListed entries => exact .bind (proper_removeListed entries) fun _ => proper_pure _
  | clear => exact .bind proper_clear fun _ => proper_pure _
  | references => exact .bind (Proper.reading (proper_view _)) fun _ => proper_pure _
  | select admits => exact .bind (proper_select admits) fun _ => proper_pure _

/-- A notification writes rows and refills memory; what cannot be done is left for the next one. -/
theorem proper_catchUp : Proper (serving strict) catchUp := by
  refine .bind proper_theQueue fun q => ?_
  split
  · exact .handle proper_flush (fun _ => proper_promote) fun _ _ => proper_pure ()
  · exact proper_pure ()

/-! ### Opening and closing -/

/-- The queue may change its phase apart from those of its parts. -/
theorem proper_phase (phase : Phase) :
    Proper (living asks) (changeQueue fun q => { q with phase }) :=
  proper_changeQueue fun _ => ⟨⟨rfl, rfl, rfl⟩, .refl _, .refl _⟩

/-- Opening makes memory active, builds the index from both parts, and restores the prefix. -/
theorem proper_resume : Proper (living True) resume := by
  refine .bind (hot_living Ram.proper_start) fun _ => ?_
  refine .bind (Proper.living (cold_serving Durable.proper_slots)) fun slots => ?_
  refine .bind (Proper.living (hot_serving (Ram.proper_select _)))
    fun entries => ?_
  refine .bind (Proper.living (proper_reindex _)) fun _ => ?_
  refine .bind (Proper.living proper_restorePrefix) fun _ => ?_
  exact .bind (proper_phase .active) fun _ => proper_announce false

/-- The part of an opening that comes after the part in the table was opened. -/
def reopening (phase : Phase) : Action (Desk Cached) Unit := do
  if phase = .uninitialized then
    let _ ← onCold Durable.removeTransient
  resume

/-- An opening that is not idle opens the part in the table first. -/
theorem start_eq {d : Desk Cached} (ha : d.queue.phase ≠ .active)
    (hd : d.queue.phase ≠ .destroyed) :
    start.on d = (onCold Durable.start >>= fun _ => reopening d.queue.phase).on d := by
  rw [start, Action.on_bind_of_ok (on_requireAlive_alive hd), Action.on_bind_of_ok (on_theQueue d),
    if_neg ha]
  rfl

/-- A queue that was never opened first deletes the rows that need not survive. -/
theorem proper_reopening (phase : Phase) : Proper (living True) (reopening phase) := by
  unfold reopening
  split
  · refine .bind (Proper.living (cold_serving Durable.proper_removeTransient)) fun _ => ?_
    exact proper_resume
  · exact proper_resume

/-- A start opens the part in the table first, and does nothing if the queue is active. -/
theorem proper_start : Proper (living True) start := by
  refine .bind (proper_check _ fun _ => False.elim) fun _ => ?_
  refine .bind proper_theQueue fun q => ?_
  dsimp only
  split
  · exact proper_pure ()
  · exact .bind (cold_living Durable.proper_start) fun _ => proper_reopening q.phase

/-- Memory can always be closed. -/
theorem hotShutdown_ok (d : Desk Cached) : ∃ d', (onHot Ram.shutdown).on d = (.ok (), d') := by
  have hclose : ∃ r, Ram.shutdown.on ⟨d.queue.hot, d.store, d.calls⟩ = (.ok (), r) := by
    rw [Ram.shutdown, Action.on_bind_of_ok (on_theQueue _)]
    split
    · exact ⟨_, rfl⟩
    · exact ⟨_, rfl⟩
  obtain ⟨r, ho⟩ := hclose
  exact ⟨_, on_onHot ho⟩

/-- Closing both parts does not use the store. -/
theorem proper_closing : Proper (living asks) closing := by
  refine .bind (hot_living Ram.proper_shutdown) fun _ => ?_
  refine .handle (cold_living Durable.proper_shutdown) (fun _ => ?_) fun fault _ => ?_
  · exact .bind (proper_phase .shutdown) fun _ =>
      .bind (proper_announce true) fun _ => proper_pure ()
  · refine .bind (proper_phase .shutdown) fun _ => .bind (proper_announce true) fun _ => ?_
    exact proper_throw trivial

/-- Closing first writes rows that are held back, and goes on if that fails. -/
theorem proper_shutdown : Proper (living True) shutdown := by
  refine .bind proper_theQueue fun q => ?_
  dsimp only
  split
  · exact proper_pure ()
  · split
    · exact .handle (Proper.living proper_flush) (fun _ => proper_closing) fun _ _ => proper_closing
    · exact proper_closing

/-- Destroying goes to its end even if the part in the table fails. -/
theorem proper_destroy : Proper (living True) destroy := by
  refine .bind proper_theQueue fun q => ?_
  split
  · exact proper_pure ()
  · refine .bind (hot_living Ram.proper_destroy) fun _ => ?_
    have hend : Proper (living True) (changeQueue fun q : Cached =>
        { q with index := {}, phase := .destroyed }) :=
      proper_changeQueue fun _ => ⟨⟨rfl, rfl, rfl⟩, .refl _, .refl _⟩
    refine .handle (cold_living Durable.proper_destroy) (fun _ => ?_) fun fault _ => ?_
    · exact .bind hend fun _ => .bind (proper_announce true) fun _ => proper_pure ()
    · exact .bind hend fun _ => .bind (proper_announce true) fun _ => proper_throw trivial

/-- Whatever it is asked, a cached queue and its parts keep their names, bounds and hooks. -/
theorem proper_request (request : Request) :
    Proper (living True) (serve request : Action (Desk Cached) Reply) := by
  cases request with
  | start => exact .bind proper_start fun _ => proper_pure _
  | shutdown => exact .bind proper_shutdown fun _ => proper_pure _
  | destroy => exact .bind proper_destroy fun _ => proper_pure _
  | _ => exact Proper.living (proper_serve rfl)

end Cached

end Spillway
