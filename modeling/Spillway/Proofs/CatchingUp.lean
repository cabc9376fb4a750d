import Spillway.Proofs.Destruction
import Spillway.Proofs.HeldBack

/-!
# Catching up after an outage

An outage may leave a cached queue with rows held back, and with less in memory than the cache
bounds allow. A notification that the database is there again first writes the rows and then copies
entries into memory. If the database answers both times, all is repaired at once, whatever the
outage has left: the entries and their order stay as they were, and a second notification finds
nothing to do.
-/

namespace Spillway.Cached

open Desk Held

/-- What catching up asks of the database is answered. -/
structure Answered (d : Desk Cached) : Prop where
  /-- The rows that were held back are written. -/
  written : (flush.on d).1 = .ok ()
  /-- After that, the table gives what may be promoted. -/
  fed : Fed (flush.on d).2

/-- A queue after it has caught up, against itself before. -/
structure CaughtUp (d d' : Desk Cached) : Prop where
  /-- Name, bounds and hooks are the same, and so is the store, the rows aside. -/
  kept : Kept d d'
  /-- It is still active. -/
  active : d'.queue.phase = .active
  /-- Nothing is held back. -/
  settled : d'.queue.pending = []
  /-- Every entry that must survive has a row equal to it. -/
  durable : ∀ e ∈ contents d', e.persistent = true → e ∈ rowEntries d'
  /-- There are the rows from before and those that were held back, and no others. -/
  rows : ∀ e, e ∈ rowEntries d' ↔ e ∈ rowEntries d ∨ e ∈ contents d ∧ e.id ∈ d.queue.pending
  /-- It has the same entries, with the same content. -/
  unchanged : contents d' = contents d
  /-- They stand in the order of service, each id once. -/
  order : Ordered (contents d)
  /-- It answers with the same ids, in the same order. -/
  references : ((serve .references).on d').1 = .ok (.ids ((contents d).map Entry.id)) ∧
    ((serve .references).on d).1 = .ok (.ids ((contents d).map Entry.id))
  /-- It has the same totals. -/
  tally : Managed.tally d'.queue = Managed.tally d.queue
  /-- Memory has as many of its first entries as the cache bounds allow. -/
  longest : d'.queue.bounds.Longest (contents d') d'.queue.hot.roll.items
  /-- The index knows what is in memory. -/
  known : d'.queue.hotResidents.map idOf = d'.queue.hot.roll.items.map idOf

variable {d d' : Desk Cached} {l m : List Held}

/-! ## Nothing to do -/

/-- Where nothing is held back, no row is written. -/
theorem flush_settled (hp : d.queue.pending = []) : flush.on d = (.ok (), d) := by
  rw [flush, Action.on_bind_of_ok (on_theQueue d), hp]
  rfl

/-- Into full memory nothing is copied. -/
theorem promote_filled (hf : Filled d) : promote.on d = (.ok (), d) := by
  rw [promote, Action.on_bind_of_ok (on_theQueue d),
    show (d.queue.bounds.fill _ _ _).1 = [] from hf]
  rfl

/-- A queue that holds nothing back and has its memory full has nothing to catch up on. -/
theorem catchUp_settled (hp : d.queue.pending = []) (hf : Filled d) :
    catchUp.on d = (.ok (), d) := by
  by_cases ha : d.queue.phase = .active
  · rw [catchUp, Action.on_bind_of_ok (on_theQueue d), if_pos ha]
    exact (Action.on_bind_of_ok (Action.on_attempt_of (flush_settled hp))).trans (promote_filled hf)
  · exact catchUp_inactive ha

/-! ## Catching up -/

/-- A link that serves answers everything. -/
theorem Stocks.answered (h : Stocks d l) (hs : d.store.link.Serving) : Answered d := by
  refine ⟨flush_of_serving h hs, ?_⟩
  rcases flush_on h with ⟨e, hf, hst, hflushed⟩ | ⟨fault, store, -, hm⟩
  · rw [hf]
    exact hflushed.fed (hst.used.link.serving hs)
  · exact absurd hs hm.unserved

/-- The rows that were held back come to those that there are. -/
theorem mem_inTable_flushed (h : Layout d.queue.bounds l) (e : Entry) :
    e ∈ inTable (flushed l) ↔ e ∈ inTable l ∨ e ∈ l.map Held.entry ∧ e.id ∈ pendingIds l := by
  have hperm := (inTable_written (pendingIds l) l).mem_iff (a := e)
  rw [flushed, hperm, List.mem_append]
  apply or_congr_right
  constructor
  · intro he
    obtain ⟨x, hx, rfl⟩ := List.mem_map.1 he
    obtain ⟨hx, hp⟩ := List.mem_filter.1 hx
    rw [Bool.and_eq_true, decide_eq_true_eq] at hp
    exact ⟨List.mem_map_of_mem hx, hp.2⟩
  · rintro ⟨he, hid⟩
    obtain ⟨x, hx, rfl⟩ := List.mem_map.1 he
    have hpending := (mem_pendingIds h.order hx).1 hid
    simp only [isPending, resident, Resident.isPending, Bool.and_eq_true] at hpending
    refine List.mem_map_of_mem (List.mem_filter.2 ⟨hx, ?_⟩)
    rw [hpending.2, decide_eq_true hid]
    rfl

/-- What the list held before and after says about a queue that has caught up. -/
theorem caughtUp_of_stocks (h : Stocks d l) (ha : d.queue.phase = .active) (hst : Steady d d')
    (h' : Stocks d' m) (hentries : m.map Held.entry = l.map Held.entry)
    (hsame : SameRows (flushed l) m) (hf : Filled d') : CaughtUp d d' := by
  have ha' : d'.queue.phase = .active := hst.phase.trans ha
  have hcontents : contents d' = contents d := by
    rw [contents_eq h', contents_eq h, hentries]
  have hpending : d'.queue.pending = [] := by
    rw [show d'.queue.pending = pendingIds m from pending_eq h', pendingIds, hsame.pending]
    exact pendingIds_flushed h.layout.order
  refine ⟨hst.kept, ha', hpending, (pending_eq_nil_iff h').1 hpending, fun e => ?_, hcontents, ?_,
    ⟨?_, ?_⟩, ?_, ?_, ?_⟩
  · rw [rowEntries_eq h'.rows.partition, rowEntries_eq h.rows.partition, hsame.inTable,
      contents_eq h, show d.queue.pending = pendingIds l from pending_eq h]
    exact mem_inTable_flushed h.layout e
  · rw [contents_eq h]
    exact ordered_entries.2 h.layout.order
  · rw [references_on h' ha', hentries, contents_eq h]
  · rw [references_on h ha, contents_eq h]
  · change d'.queue.index.tally = d.queue.index.tally
    rw [tally_of_lists h'.index, tally_of_lists h.index, hentries]
  · rw [contents_eq h', h'.hot.items]
    exact h'.layout.longest ((filled_iff h').1 hf)
  · rw [hotResidents_eq h', h'.hot.items, inMemory, List.map_map, List.map_map]
    rfl

/-- Whatever an outage has left of an active queue, a notification that the database answers repairs
it and changes nothing that is held, and another one after it changes nothing at all. A queue that
is not active does not change. -/
theorem catchUp_repairs (h : Reachable d) :
    (d.queue.phase = .active → Answered d →
      ∃ d', catchUp.on d = (.ok (), d') ∧ CaughtUp d d' ∧ catchUp.on d' = (.ok (), d')) ∧
    (d.queue.phase ≠ .active → catchUp.on d = (.ok (), d)) := by
  refine ⟨fun ha hans => ?_, catchUp_inactive⟩
  obtain ⟨l, hl⟩ := reachable_stocks h ha
  obtain ⟨d', m, ho, hst, hm, hentries, hwritten⟩ := catchUp_on hl ha
  obtain ⟨hsame, hfull⟩ := hwritten hans.written
  have hfilled : Filled d' := hfull hans.fed
  have hcaught : CaughtUp d d' := caughtUp_of_stocks hl ha hst hm hentries hsame hfilled
  exact ⟨d', ho, hcaught, catchUp_settled hcaught.settled hfilled⟩

/-- A new queue with room for two entries in memory. -/
def roomy : Desk Cached where
  queue :=
    { storageId := .mail, bounds := ⟨10, 100, 2, 10⟩
      hot := { storageId := .mail, bounds := Bounds.hot ⟨10, 100, 2, 10⟩ }
      cold := { storageId := .mail, bounds := ⟨10, 100, 2, 10⟩ } }
  store := {}

/-- It, after an outage in which both entries in memory were removed and an entry was put: the new
one is held back, and the one in the table was not copied. -/
def weathered : Desk Cached :=
  let begun := (serveAll [.start, .put [.blank 2 false, .blank 3 false, .blank 4 false] false]
    roomy).2
  let lost := begun.relinked { reachable := false }
  (serveAll [.removeFirst 2, .put [.blank 1 true] false] lost).2.relinked {}

theorem reachable_weathered : Reachable weathered := by
  have hmade : Reachable roomy :=
    ⟨roomy, [], ⟨⟨roomy.queue, {}, rfl, rfl⟩, [], .of_rowsOf_nil rfl⟩, .nil _⟩
  have hlost := (hmade.runs (runs_serveAll
    [.start, .put [.blank 2 false, .blank 3 false, .blank 4 false] false] _)).relinked
      { reachable := false }
  exact (hlost.runs (runs_serveAll _ _)).relinked {}

/-- Its database is there again and it is told; a queue that was not opened is told, too. -/
theorem catchUp_repairs_weathered :
    (Reachable weathered ∧ weathered.queue.phase = .active ∧ Answered weathered ∧
        weathered.queue.pending = [1] ∧ weathered.queue.hot.roll.items = [.blank 1 true]) ∧
      (∃ d', catchUp.on weathered = (.ok (), d') ∧ CaughtUp weathered d' ∧
        catchUp.on d' = (.ok (), d') ∧
        d'.queue.hot.roll.items = [.blank 1 true, .blank 4 false]) ∧
      newborn.queue.phase ≠ .active ∧ catchUp.on newborn = (.ok (), newborn) := by
  have ha : weathered.queue.phase = .active := by decide +kernel
  have hans : Answered weathered := by
    obtain ⟨l, hl⟩ := reachable_stocks reachable_weathered ha
    exact hl.answered (by decide +kernel)
  have hnew : newborn.queue.phase ≠ .active := by decide
  obtain ⟨d', ho, hcaught, hagain⟩ := (catchUp_repairs reachable_weathered).1 ha hans
  have hmemory : d'.queue.hot.roll.items = [.blank 1 true, .blank 4 false] := by
    rw [show d' = (catchUp.on weathered).2 by rw [ho]]
    decide +kernel
  exact ⟨⟨reachable_weathered, ha, hans, by decide +kernel, by decide +kernel⟩,
    ⟨d', ho, hcaught, hagain, hmemory⟩, hnew, (catchUp_repairs reachable_newborn).2 hnew⟩

end Spillway.Cached
