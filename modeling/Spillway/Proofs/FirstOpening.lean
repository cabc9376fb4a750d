import Spillway.Proofs.Revival

/-!
# The first opening

A cached queue is made over the rows that an earlier process left, and the entries among them that
need not survive a restart are to be gone once it is open. Before that its opening may fail, before
or after they were given up, and it may be closed although it was never open. As long as it was not
closed, the first opening that succeeds leaves nothing but what must survive. A queue that was
closed is not taken for a new one any more: it opens over all rows that are there. Either way
nothing that must survive is lost.
-/

namespace Spillway.Cached

open Desk Held

variable {d d' : Desk Cached} {es : List Entry} {closed : Bool}

/-- A queue that was made over rows with the entries `es` and has not been open since; `closed`
tells whether it was closed meanwhile. -/
inductive Unopened (es : List Entry) : Bool → Desk Cached → Prop
  /-- It is made. -/
  | made {id : StorageId} {bounds : Bounds} {q : Cached} {s : Store}
      (hq : create id bounds = .ok q) (hp : Partition id.text s.rows es) (hooks : Hooks)
      (calls : List Call) : Unopened es false { queue := { q with hooks }, store := s, calls }
  /-- It fails to open. -/
  | missed {closed : Bool} {d : Desk Cached} (h : Unopened es closed d)
      (hf : ((serve .start).on d).1.isOk = false) : Unopened es closed ((serve .start).on d).2
  /-- It is closed. -/
  | shut {closed : Bool} {d : Desk Cached} (h : Unopened es closed d) :
      Unopened es true ((serve .shutdown).on d).2
  /-- It is asked something that only an open queue does. -/
  | refused {closed : Bool} {d : Desk Cached} (h : Unopened es closed d) {request : Request}
      (hr : request.needsActive = true) : Unopened es closed ((serve request).on d).2
  /-- It is told that the database is there again. -/
  | notified {closed : Bool} {d : Desk Cached} (h : Unopened es closed d) :
      Unopened es closed (catchUp.on d).2
  /-- It gets other hooks. -/
  | hooked {closed : Bool} {d : Desk Cached} (h : Unopened es closed d) (hooks : Hooks) :
      Unopened es closed { d with queue := { d.queue with hooks } }
  /-- The link changes, others use the store. -/
  | meanwhile {closed : Bool} {d : Desk Cached} (h : Unopened es closed d) {s : Store}
      (hs : d.store.Spares d.queue.storageId.text s) : Unopened es closed { d with store := s }

/-- What a queue that was not open yet has: rows, among them all that must survive. -/
structure Awaits (es : List Entry) (closed : Bool) (d : Desk Cached) (m : List Entry) : Prop where
  /-- It has nothing but rows. -/
  holds : Holds d (m.map Held.row)
  /-- What must survive is among them. -/
  lasting : m.filter (·.persistent) = es.filter (·.persistent)
  /-- It is new, or closed. -/
  phase : d.queue.phase = if closed then .shutdown else .uninitialized

namespace Awaits

variable {m : List Entry}

theorem rows (h : Awaits es closed d m) : rowEntries d = m := by
  have hp := h.holds.shelved.rows
  rw [inTable_row] at hp
  exact rowEntries_eq hp

theorem phase_ne (h : Awaits es closed d m) :
    d.queue.phase ≠ .active ∧ d.queue.phase ≠ .destroyed := by
  rw [h.phase]
  cases closed <;> decide

/-- What an opening makes of the rows. -/
theorem reopened_eq (h : Awaits es closed d m) : reopened d (m.map Held.row) =
    (if closed then m else es.filter (·.persistent)).map Held.row := by
  rw [reopened, h.phase]
  cases closed with
  | true => exact if_neg (by decide)
  | false =>
    rw [← h.lasting, List.filter_map]
    rfl

/-- An opening that fails leaves what there was, or what of that must survive. -/
theorem missed (h : Awaits es closed d m) (hf : ((serve .start).on d).1.isOk = false) :
    ∃ m, Awaits es closed ((serve .start).on d).2 m := by
  obtain ⟨hactive, halive⟩ := h.phase_ne
  rcases start_on h.holds.shelved hactive halive with
    ⟨d', k, ho, -⟩ | ⟨fault, d', k, ho, -, hphase, -, hs, hk, -⟩
  · rw [show (serve .start).on d = _ from on_done ho] at hf
    cases hf
  · rw [show (serve .start).on d = _ from on_done ho]
    have hn : d'.queue.phase ≠ .active := hphase ▸ hactive
    rcases hk with rfl | rfl
    · exact ⟨m, .resting hn hs, h.lasting, hphase.trans h.phase⟩
    · rw [h.reopened_eq] at hs
      refine ⟨_, .resting hn hs, ?_, hphase.trans h.phase⟩
      cases closed with
      | true => exact h.lasting
      | false =>
        rw [if_neg Bool.false_ne_true]
        exact filter_persistent_filter es

/-- A closing keeps the rows. -/
theorem shut (h : Awaits es closed d m) : Awaits es true ((serve .shutdown).on d).2 m := by
  obtain ⟨d', k, ho, -, hk, hor, hphase, -⟩ := shutdown_on h.holds
  have hnone := pendingIds_of_cold h.holds.shelved.layout (cold_row m)
  have hsame : k = m.map Held.row := hor.elim id fun hf => hf.trans (flushed_of_nil hnone)
  rw [show (serve .shutdown).on d = _ from on_done ho]
  refine ⟨hsame ▸ hk, h.lasting, hphase.trans ?_⟩
  rw [h.phase]
  cases closed <;> rfl

/-- An opening that succeeds leaves the rows, or what of them must survive. -/
theorem opened (h : Awaits es closed d m) (ho : (serve .start).on d = (.ok .done, d')) :
    d'.queue.phase = .active ∧ ∃ k, Stocks d' k ∧
      k.map Held.entry = (if closed then m else es.filter (·.persistent)) ∧
      inTable k = if closed then m else es.filter (·.persistent) := by
  obtain ⟨hactive, halive⟩ := h.phase_ne
  rcases start_on h.holds.shelved hactive halive with
    ⟨e, k, hon, -, ha, hs, hsame, -⟩ | ⟨fault, e, k, hon, -⟩
  · rw [show (serve .start).on d = _ from on_done hon] at ho
    cases ho
    rw [h.reopened_eq] at hsame
    exact ⟨ha, k, hs, hsame.entries.trans (entries_row _), hsame.inTable.trans (inTable_row _)⟩
  · rw [show (serve .start).on d = _ from on_done hon] at ho
    cases ho

end Awaits

/-- Until it is open, a queue has what must survive of the rows that it was made over. -/
theorem Unopened.awaits (h : Unopened es closed d) : ∃ m, Awaits es closed d m := by
  induction h with
  | made hq hp hooks calls =>
    refine ⟨es, made_holds hq hp hooks calls, rfl, ?_⟩
    rw [create_eq hq]
    rfl
  | missed _ hf ih =>
    obtain ⟨m, hm⟩ := ih
    exact hm.missed hf
  | shut _ ih =>
    obtain ⟨m, hm⟩ := ih
    exact ⟨m, hm.shut⟩
  | refused _ hr ih =>
    obtain ⟨m, hm⟩ := ih
    exact ⟨m, by rwa [serve_inactive hm.phase_ne.1 hr]⟩
  | notified _ ih =>
    obtain ⟨m, hm⟩ := ih
    exact ⟨m, by rwa [catchUp_inactive hm.phase_ne.1]⟩
  | hooked _ hooks ih =>
    obtain ⟨m, hm⟩ := ih
    exact ⟨m, hm.holds.hooked hooks, hm.lasting, hm.phase⟩
  | meanwhile _ hs ih =>
    obtain ⟨m, hm⟩ := ih
    exact ⟨m, hm.holds.spared hs, hm.lasting, hm.phase⟩

/-- Nothing that a queue has, and none of its rows, may be lost in a restart. -/
structure AllLasting (d : Desk Cached) : Prop where
  /-- What it has. -/
  contents : ∀ e ∈ contents d, e.persistent = true
  /-- Its rows. -/
  rows : ∀ r ∈ Statement.rowsOf d.queue.storageId.text d.store.rows, r.persistent = true

/-- An active queue that has a row of everything. -/
theorem Stocks.allLasting_iff {l : List Held} (h : Stocks d l)
    (hall : l.map Held.entry = inTable l) :
    AllLasting d ↔ ∀ e ∈ inTable l, e.persistent = true := by
  obtain ⟨written, hperm, hw⟩ := h.rows.partition.rows
  constructor
  · intro hd e he
    refine hd.contents e ?_
    rwa [contents_eq h, hall]
  · intro hl
    refine ⟨?_, fun r hr => ?_⟩
    · rwa [contents_eq h, hall]
    · rw [hw] at hr
      obtain ⟨e, he, rfl⟩ := List.mem_map.1 hr
      exact hl e (hperm.mem_iff.1 he)

/-- The first opening of a queue that succeeds, over whatever rows and after whatever attempts: it
loses nothing that must survive, it has rows of all it has, and what need not survive is gone unless
the queue was closed before and such rows were still there then. -/
theorem first_opening (h : Unopened es closed d) (ho : (serve .start).on d = (.ok .done, d')) :
    d'.queue.phase = .active ∧
      contents d' = (if closed then rowEntries d else es.filter (·.persistent)) ∧
      rowEntries d' = contents d' ∧
      (contents d').filter (·.persistent) = es.filter (·.persistent) ∧
      (AllLasting d' ↔ closed = false ∨ ∀ e ∈ rowEntries d, e.persistent = true) := by
  obtain ⟨m, hm⟩ := h.awaits
  obtain ⟨ha, k, hs, hentries, hrows⟩ := hm.opened ho
  rw [hs.allLasting_iff (hentries.trans hrows.symm), contents_eq hs,
    rowEntries_eq hs.rows.partition, hm.rows, hentries, hrows]
  refine ⟨ha, rfl, rfl, ?_, ?_⟩
  · cases closed with
    | true => exact hm.lasting
    | false =>
      rw [if_neg Bool.false_ne_true]
      exact filter_persistent_filter es
  · cases closed with
    | true => simp
    | false => simp

theorem Unopened.relinked (h : Unopened es closed d) (link : Link) :
    Unopened es closed (d.relinked link) := h.meanwhile ⟨rfl, id, rfl⟩

/-- A queue that was dropped with rows of a persistent entry and of a transient one. -/
def abandoned : Desk Cached :=
  (serveAll [.start, .put [.blank 1 false, .blank 2 true, .blank 3 false] false] newborn).2

/-- A queue that was just made over these rows. -/
def successor : Desk Cached := { queue := newborn.queue, store := abandoned.store }

theorem unopened_successor : Unopened (rowEntries abandoned) false successor := by
  have hr : Reachable abandoned := reachable_newborn.runs (runs_serveAll _ newborn)
  obtain ⟨l, hl⟩ := reachable_stocks hr (by decide +kernel)
  have hname : abandoned.queue.storageId = .mail := by decide +kernel
  have hp := hl.rows.partition
  rw [← rowEntries_eq hp, hname] at hp
  exact @Unopened.made _ .mail .tight newborn.queue _ rfl hp {} []

/-- A queue that fails to open while the database is away, and opens once it is back. -/
theorem first_opening_retried :
    let lost := successor.relinked { reachable := false }
    let d := ((serve .start).on lost).2.relinked {}
    let d' := ((serve .start).on d).2
    (Unopened (rowEntries abandoned) false d ∧ (serve .start).on d = (.ok .done, d')) ∧
      contents d' = [.blank 2 true] ∧ AllLasting d' := by
  intro lost d d'
  have hlost : Unopened (rowEntries abandoned) false lost := unopened_successor.relinked _
  have hd : Unopened (rowEntries abandoned) false d :=
    (hlost.missed (by decide +kernel)).relinked {}
  have ho : (serve .start).on d = (.ok .done, d') := on_of_answer (by decide +kernel)
  obtain ⟨-, hcontents, -, -, hlasting⟩ := first_opening hd ho
  exact ⟨⟨hd, ho⟩, hcontents.trans (by decide +kernel), hlasting.2 (.inl rfl)⟩

/-- A queue that was closed before it was ever open keeps a transient entry of an earlier process.
-/
theorem not_purged : ¬ ∀ {es : List Entry} {closed : Bool} {d d' : Desk Cached},
    Unopened es closed d → (serve .start).on d = (.ok .done, d') → AllLasting d' := by
  intro hall
  let d := ((serve .shutdown).on successor).2
  let d' := ((serve .start).on d).2
  have ho : (serve .start).on d = (.ok .done, d') := on_of_answer (by decide +kernel)
  have hkept : Entry.blank 3 false ∈ contents d' := by decide +kernel
  exact absurd ((hall unopened_successor.shut ho).contents _ hkept) (by decide)

end Spillway.Cached
