import Spillway.Proofs.Calls
import Spillway.Proofs.Selections
import Spillway.Queue.Durable

/-!
# Work in the table

What a queue in the table does to the list of its rows. Every piece of work of an active queue
either does what it should, or fails for want of the database and changes no row; in both cases
nothing of the queue but its totals can change. Opening makes the table, closing keeps the rows, and
destroying deletes them.
-/

namespace Spillway

/-- Where a queue is once it is closed; one that was closed before stays as it is. -/
def Phase.closed (p : Phase) : Phase := if p.isClosed then p else .shutdown

/-- A closed queue is not active. -/
theorem Phase.closed_ne_active (p : Phase) : p.closed ≠ .active := by
  cases p <;> decide

/-- It is destroyed only if it was before. -/
theorem Phase.closed_eq_destroyed_iff {p : Phase} : p.closed = .destroyed ↔ p = .destroyed := by
  cases p <;> decide

/-- The table exists, and the rows of a queue are the entries of a list. -/
def Store.Keeps (s : Store) (queue : String) (l : List Entry) : Prop :=
  ∃ rows, s.table = some rows ∧ Partition queue rows l

/-- A call that the database failed leaves all rows. -/
theorem Store.Keeps.missed {s s' : Store} {queue : String} {l : List Entry} {fault : Fault}
    (h : s.Keeps queue l) (hm : s.Missed fault s') : s'.Keeps queue l := by
  obtain ⟨rows, ht, hp⟩ := h
  exact ⟨rows, hm.table.trans ht, hp⟩

/-- The rows of the queue are those entries, as far as the table goes. -/
theorem Store.Keeps.partition {s : Store} {queue : String} {l : List Entry}
    (h : s.Keeps queue l) : Partition queue s.rows l := by
  obtain ⟨rows, ht, hp⟩ := h
  rwa [Store.rows, ht]

namespace Desk

variable {Q α β : Type} {d d' : Desk Q} {task : Task} {act : Action (Desk Q) α}

/-- Work fails for want of the database. -/
def Lacks (d : Desk Q) (task : Task) (act : Action (Desk Q) α) : Prop :=
  ∃ outage, (act.on d).1 = .error (.unavailable task outage)

/-- So does work that begins with it. -/
theorem Lacks.bind (h : d.Lacks task act) (next : α → Action (Desk Q) β) :
    d.Lacks task (act >>= next) := by
  obtain ⟨outage, ho⟩ := h
  refine ⟨outage, ?_⟩
  rw [Action.on_bind_of_error (Prod.ext ho rfl)]

/-- So does work that comes to it. -/
theorem lacks_bind_of_ok {b : β} {first : Action (Desk Q) β} {next : β → Action (Desk Q) α}
    (ho : first.on d = (.ok b, d')) (h : d'.Lacks task (next b)) :
    d.Lacks task (first >>= next) := by
  rwa [Lacks, Action.on_bind_of_ok ho]

/-- So does reading it at an active queue. -/
theorem Lacks.reading [Managed Q] (h : d.Lacks task act)
    (ha : Managed.phase d.queue = .active) : d.Lacks task (reading act) := by
  rwa [Lacks, on_reading ha]

/-- So does a change: the watchers are not told then. -/
theorem Lacks.changing [Managed Q] (h : d.Lacks task act)
    (ha : Managed.phase d.queue = .active) : d.Lacks task (changing act) := by
  obtain ⟨outage, ho⟩ := h
  refine ⟨outage, ?_⟩
  rw [on_changing ha, show act.on d = (.error (.unavailable task outage), (act.on d).2) from
    Prod.ext ho rfl]

end Desk

namespace Durable

open Desk

variable {α : Type} {d : Desk Durable} {l m : List Entry}

/-- The desk of a queue in the table after work that changed its rows. -/
def turned (d : Desk Durable) (tally : Tally) (store : Store) (calls : List Call) : Desk Durable :=
  { queue := { d.queue with tally }, store, calls }

/-- What comes of work over the rows `l`: either `result` and the rows `after`, whose totals are
exact if they were, or a fault for want of the database. -/
def Works (d : Desk Durable) (l : List Entry) (outcome : Except Fault α × Desk Durable)
    (result : α → Prop) (after : List Entry) : Prop :=
  (∃ a tally store calls, outcome = (.ok a, turned d tally store calls) ∧ result a ∧
    (d.queue.tally = Tally.total l → tally = Tally.total after) ∧
    store.Keeps d.queue.name after ∧ d.store.Used store) ∨
  ∃ fault store, outcome = (.error fault, { d with store }) ∧ d.store.Missed fault store

/-- Where nothing is asked nothing changes. -/
theorem works_idle (hk : d.store.Keeps d.queue.name l) {result : α → Prop} {a : α}
    (h : result a) : Works d l (.ok a, d) result l :=
  .inl ⟨a, d.queue.tally, d.store, d.calls, rfl, h, id, hk, .refl _⟩

/-- Work whose answer is seen differently. -/
theorem Works.map {β : Type} {act : Action (Desk Durable) α} {result : α → Prop}
    {result' : β → Prop} (h : Works d l (act.on d) result m) (view : α → β)
    (hv : ∀ a, result a → result' (view a)) :
    Works d l ((act >>= fun a => pure (view a)).on d) result' m := by
  rcases h with ⟨a, tally, store, calls, ho, hr, htally, hk, hu⟩ | ⟨fault, store, ho, hm⟩
  · exact .inl ⟨view a, tally, store, calls, Action.on_bind_of_ok ho, hv a hr, htally, hk, hu⟩
  · exact .inr ⟨fault, store, Action.on_bind_of_error ho, hm⟩

/-- An answer that is known is known however it is seen. -/
theorem Works.seen {β : Type} {act : Action (Desk Durable) α} {a : α}
    (h : Works d l (act.on d) (· = a) m) (view : α → β) :
    Works d l ((act >>= fun a => pure (view a)).on d) (· = view a) m :=
  h.map view fun _ he => congrArg view he

/-- What a condition picks and what it leaves make up the whole. -/
theorem perm_split [Slotted α] {gone : List α} {p : Entry → Bool}
    (h : (gone.map Slotted.slot).Perm ((l.filter p).map Entry.slot)) :
    (gone.map Slotted.slot ++ (l.filter (!p ·)).map Slotted.slot).Perm (l.map Slotted.slot) := by
  have hall := (List.filter_append_perm p l).map Entry.slot
  rw [List.map_append] at hall
  exact (h.append_right _).trans hall

/-- Asking the table leaves the queue alone. -/
theorem ask_on (task : Task) (statement : String → Statement α) (d : Desk Durable) :
    (ask task statement).on d =
      (((Store.call task (statement d.queue.name)).on d.store).1,
        { d with store := ((Store.call task (statement d.queue.name)).on d.store).2 }) := by
  simp [ask, theQueue, call, onStore, Action.on_bind]

/-- A change fares as what it consists of. -/
theorem Works.changing {act : Action (Desk Durable) α} {result : α → Prop}
    (h : Works d l (act.on d) result m) (ha : d.queue.phase = .active) :
    Works d l ((changing act).on d) result m := by
  rw [on_changing (show Managed.phase d.queue = .active from ha)]
  rcases h with ⟨a, tally, store, calls, ho, hr, htally, hk, hu⟩ | ⟨fault, store, ho, hm⟩
  · rw [ho]
    exact .inl ⟨a, tally, store, _, rfl, hr, htally, hk, hu⟩
  · rw [ho]
    exact .inr ⟨fault, store, rfl, hm⟩

/-- A statement is run, and the totals follow what it reports. -/
theorem reporting_works {β : Type} (hk : d.store.Keeps d.queue.name l) (task : Task)
    {statement : String → Statement β} {change : β → Tally → Tally} {view : β → α}
    {result : α → Prop}
    (hs : ∀ rows, Partition d.queue.name rows l → ∃ report rows',
      statement d.queue.name rows = .ok (report, rows') ∧ result (view report) ∧
        change report (Tally.total l) = Tally.total m ∧ Partition d.queue.name rows' m) :
    Works d l ((do
      let report ← ask task statement
      retally (change report)
      return view report : Action (Desk Durable) α).on d) result m := by
  obtain ⟨rows, ht, hp⟩ := hk
  obtain ⟨report, rows', hrun, hr, hchange, hp'⟩ := hs rows hp
  simp only [Action.on_bind, ask_on, retally, on_changeQueue, Action.on_pure]
  rcases Store.call_of_ok task ht hrun with ⟨s', hc, ht', hu⟩ | ⟨fault, s', hc, hm⟩
  · rw [hc]
    refine .inl ⟨view report, _, s', _, rfl, hr, fun hexact => ?_, ⟨rows', ht', hp'⟩, hu⟩
    rw [hexact, hchange]
  · rw [hc]
    exact .inr ⟨fault, s', rfl, hm⟩

/-- A read gives what its statement gives. -/
theorem reading_works (ha : d.queue.phase = .active) (hk : d.store.Keeps d.queue.name l)
    (task : Task) {statement : String → Statement α} {a : α}
    (hs : ∀ rows, Partition d.queue.name rows l → statement d.queue.name rows = .ok (a, rows)) :
    Works d l ((reading (ask task statement)).on d) (· = a) l := by
  obtain ⟨rows, ht, hp⟩ := hk
  rw [on_reading (show Managed.phase d.queue = .active from ha), ask_on]
  rcases Store.call_of_ok task ht (hs rows hp) with ⟨s', hc, ht', hu⟩ | ⟨fault, s', hc, hm⟩
  · exact .inl ⟨a, d.queue.tally, s', d.calls, by rw [hc]; rfl, rfl, id, ⟨rows, ht', hp⟩, hu⟩
  · exact .inr ⟨fault, s', by rw [hc], hm⟩

/-- A deletion gives what its statement gives and leaves the rows that it leaves; what it gives and
what it leaves make up what there was. -/
theorem deleting_works [Slotted α] (ha : d.queue.phase = .active)
    (hk : d.store.Keeps d.queue.name l) (task : Task) {statement : String → Statement (List α)}
    {result : List α → Prop}
    (hs : ∀ rows, Partition d.queue.name rows l → ∃ gone rows',
      statement d.queue.name rows = .ok (gone, rows') ∧ result gone ∧
        (gone.map Slotted.slot ++ m.map Slotted.slot).Perm (l.map Slotted.slot) ∧
        Partition d.queue.name rows' m) :
    Works d l ((deleting task statement).on d) result m := by
  refine (reporting_works hk task fun rows hp => ?_).changing ha
  obtain ⟨gone, rows', hrun, hr, hperm, hp'⟩ := hs rows hp
  exact ⟨gone, rows', hrun, hr, Tally.subtractAll_total hperm, hp'⟩

/-- Writing entries adds those that it reports as new. -/
theorem write_works (hk : d.store.Keeps d.queue.name l) {entries : List Entry}
    (hs : ∀ rows, Partition d.queue.name rows l → ∃ added rows',
      Statement.addEntries d.queue.name entries rows = .ok (added, rows') ∧
        Partition d.queue.name rows' m ∧
        (l ++ ((entries.zip added).filter (·.2)).map (·.1)).Perm m) :
    Works d l ((write entries).on d) (fun _ => True) m := by
  refine reporting_works hk .addEntries fun rows hp => ?_
  obtain ⟨added, rows', hrun, hp', hperm⟩ := hs rows hp
  refine ⟨added, rows', hrun, trivial, ?_, hp'⟩
  rw [← Tally.total_append, Tally.total_perm hperm]

/-- Where every entry of a batch is new, these are the new ones. -/
theorem fresh_of_all (new : List Entry) :
    ((new.zip (new.map fun _ => true)).filter (·.2)).map (·.1) = new := by
  induction new with
  | nil => rfl
  | cons e new ih => simp only [List.map_cons, List.zip_cons_cons, List.filter_cons, if_true, ih]

/-- Entries of new and different ids are stored. -/
theorem hold_works (ha : d.queue.phase = .active) (hk : d.store.Keeps d.queue.name l)
    {new : List Entry} (hu : (new.map Entry.id).Nodup) (hd : ∀ e ∈ new, ∀ f ∈ l, f.id ≠ e.id)
    (ho : Ordered m) (hm : m.Perm (l ++ new)) : Works d l ((hold new).on d) (fun _ => True) m := by
  unfold hold
  cases hn : new.isEmpty with
  | true =>
    have : l = m := by
      obtain ⟨rows, -, hp⟩ := hk
      rw [List.isEmpty_iff.1 hn, List.append_nil] at hm
      exact hp.order.ascending.ext ho.ascending fun _ => hm.mem_iff.symm
    subst this
    exact works_idle hk trivial
  | false =>
    have hwrite : Works d l ((write new).on d) (fun _ => True) m :=
      write_works hk fun rows hp => by
        obtain ⟨rows', hrun, hp'⟩ := hp.addEntries hu hd ho hm
        exact ⟨_, rows', hrun, hp', by rw [fresh_of_all]; exact hm.symm⟩
    rw [if_neg Bool.false_ne_true]
    exact (hwrite.changing ha).map (fun _ => ()) fun _ _ => trivial

/-- Reading by different ids gives the entries of those ids. -/
theorem peekIds_works (ha : d.queue.phase = .active) (hk : d.store.Keeps d.queue.name l)
    {ids : List UInt64} (hu : ids.Nodup) :
    Works d l ((peekIds ids).on d) (· = l.filter fun e => decide (e.id ∈ ids)) l := by
  unfold peekIds
  cases hi : ids.isEmpty with
  | true =>
    rw [List.isEmpty_iff.1 hi]
    exact works_idle hk (by simp)
  | false => exact reading_works ha hk .getByIds fun rows hp => hp.entriesByIds hu

/-- Taking by ids gives the entries of those ids and leaves the others. -/
theorem takeIds_works (ha : d.queue.phase = .active) (hk : d.store.Keeps d.queue.name l)
    (ids : List UInt64) :
    Works d l ((takeIds ids).on d) (· = l.filter fun e => decide (e.id ∈ ids))
      (l.filter fun e => !decide (e.id ∈ ids)) := by
  unfold takeIds
  cases hi : ids.isEmpty with
  | true =>
    rw [List.isEmpty_iff.1 hi]
    simp only [List.not_mem_nil, decide_false, Bool.not_false, List.filter_true, List.filter_false]
    exact works_idle hk rfl
  | false =>
    refine deleting_works ha hk .takeEntries fun rows hp => ?_
    obtain ⟨rows', hrun, hp'⟩ := hp.takeByIds ids
    exact ⟨_, rows', hrun, rfl, perm_split (.refl _), hp'⟩

/-- Deleting by ids gives the slots of the entries of those ids and leaves the others. -/
theorem deleteIds_works (ha : d.queue.phase = .active) (hk : d.store.Keeps d.queue.name l)
    (ids : List UInt64) :
    Works d l ((deleteIds ids).on d)
      (List.Perm · ((l.filter fun e => decide (e.id ∈ ids)).map Entry.slot))
      (l.filter fun e => !decide (e.id ∈ ids)) := by
  unfold deleteIds
  cases hi : ids.isEmpty with
  | true =>
    rw [List.isEmpty_iff.1 hi]
    simp only [List.not_mem_nil, decide_false, Bool.not_false, List.filter_true, List.filter_false]
    exact works_idle hk (.refl [])
  | false =>
    refine deleting_works ha hk .deleteEntries fun rows hp => ?_
    obtain ⟨slots, rows', hslots, hrun, hp'⟩ := hp.deleteByIds ids
    exact ⟨slots, rows', hrun, hslots, perm_split (slots.map_id.symm ▸ hslots), hp'⟩

/-- Choosing among all entries gives those that a condition admits, in the order of service. -/
theorem select_works (ha : d.queue.phase = .active) (hk : d.store.Keeps d.queue.name l)
    (admits : Entry → Bool) : Works d l ((select admits).on d) (· = l.filter admits) l := by
  have hactive : Managed.phase d.queue = .active := ha
  rcases reading_works ha hk .getAll (fun rows hp => hp.getAll) with
    ⟨_, tally, store, calls, hc, rfl, htally, hk', hu⟩ | ⟨fault, store, hc, hm⟩
  · rw [on_reading hactive] at hc
    refine .inl ⟨_, tally, store, calls, ?_, rfl, htally, hk', hu⟩
    rw [select, on_reading hactive, Action.on_bind_of_ok hc, Action.on_pure]
  · rw [on_reading hactive] at hc
    refine .inr ⟨fault, store, ?_, hm⟩
    rw [select, on_reading hactive, Action.on_bind_of_error hc]

/-- Clearing leaves no row. -/
theorem clear_works (ha : d.queue.phase = .active) (hk : d.store.Keeps d.queue.name l) :
    Works d l (clear.on d) (· = l.length) [] := by
  refine (reporting_works hk .deleteAll fun rows hp => ?_).changing ha
  obtain ⟨rows', hrun, hp'⟩ := hp.deleteAll
  exact ⟨_, rows', hrun, rfl, rfl, hp'⟩

/-! ## Over a silent store -/

/-- What is asked of a table that does not answer fails. -/
theorem lacks_ask (hs : d.store.Silent) (task : Task) (statement : String → Statement α) :
    d.Lacks task (ask task statement) := by
  obtain ⟨outage, ho⟩ := hs task (statement d.queue.name)
  exact ⟨outage, by rw [ask_on, ho]⟩

/-- A deletion fails over a silent store. -/
theorem lacks_deleting [Slotted α] (hs : d.store.Silent) (ha : d.queue.phase = .active)
    (task : Task) (statement : String → Statement (List α)) :
    d.Lacks task (deleting task statement) :=
  ((lacks_ask hs task statement).bind _).changing ha

/-- So does reading by ids, if there are any. -/
theorem lacks_peekIds (hs : d.store.Silent) (ha : d.queue.phase = .active) {ids : List UInt64}
    (hi : ids ≠ []) : d.Lacks .getByIds (peekIds ids) := by
  rw [peekIds, if_neg (by simpa using hi)]
  exact (lacks_ask hs _ _).reading ha

/-- So does taking by ids, if there are any. -/
theorem lacks_takeIds (hs : d.store.Silent) (ha : d.queue.phase = .active) {ids : List UInt64}
    (hi : ids ≠ []) : d.Lacks .takeEntries (takeIds ids) := by
  rw [takeIds, if_neg (by simpa using hi)]
  exact lacks_deleting hs ha _ _

/-- So does deleting by ids, if there are any. -/
theorem lacks_deleteIds (hs : d.store.Silent) (ha : d.queue.phase = .active) {ids : List UInt64}
    (hi : ids ≠ []) : d.Lacks .deleteEntries (deleteIds ids) := by
  rw [deleteIds, if_neg (by simpa using hi)]
  exact lacks_deleting hs ha _ _

/-- So does holding entries, if there are any. -/
theorem lacks_hold (hs : d.store.Silent) (ha : d.queue.phase = .active) {entries : List Entry}
    (he : entries ≠ []) : d.Lacks .addEntries (hold entries) := by
  rw [hold, if_neg (by simpa using he)]
  exact (((lacks_ask hs _ _).bind _).changing ha).bind _

/-- So does choosing among the rows. -/
theorem lacks_select (hs : d.store.Silent) (ha : d.queue.phase = .active)
    (admits : Entry → Bool) : d.Lacks .getAll (select admits) :=
  ((lacks_ask hs _ _).bind _).reading ha

/-- So does clearing. -/
theorem lacks_clear (hs : d.store.Silent) (ha : d.queue.phase = .active) :
    d.Lacks .deleteAll clear :=
  ((lacks_ask hs _ _).bind _).changing ha

/-! ## Opening and closing -/

/-- Opening makes the table if need be and reads the totals. It changes no row, and fails only for a
name that no table can have, for totals that do not fit, or for want of the database. -/
theorem start_cases (hd : d.queue.phase ≠ .destroyed) (hp : Partition d.queue.name d.store.rows l) :
    (∃ tally store, start.on d =
        (.ok (), { d with queue := { d.queue with tally, phase := .active }, store }) ∧
      store.Keeps d.queue.name l ∧ d.store.Used store ∧
      TableName.isReserved d.store.tableName = false ∧
      ((Tally.total l).bytes < 2 ^ 64 → Reckonable l ∧ tally = Tally.total l)) ∨
    ∃ fault store, start.on d = (.error fault, { d with store }) ∧ store.rows = d.store.rows ∧
      d.store.Used store ∧
      (d.store.table.isSome = true → store.table = d.store.table) ∧
      (TableName.isReserved d.store.tableName = false →
        Reckonable l → fault.isRetryable = true ∧ ¬ d.store.link.Serving) := by
  have halive : (requireAlive : Action (Desk Durable) Unit).on d = (.ok (), d) :=
    on_requireAlive_alive hd
  have hmake : (onStore Store.createTable : Action (Desk Durable) Unit).on d =
      ((Store.createTable.on d.store).1,
        { d with store := (Store.createTable.on d.store).2 }) := rfl
  rcases Store.createTable_cases d.store with ⟨made, hc, ht, hu, hn⟩ | ⟨fault, made, hc, ht, hu, hf⟩
  · rw [hc] at hmake
    have hask := ask_on .count Statement.count { d with store := made }
    rcases Store.call_cases .count (Statement.count d.queue.name) ht with
      ⟨tally, rows', store, hs, hcall, ht', hu'⟩ | ⟨fault, store, hcall, ht', hu'⟩
    · rw [hcall] at hask
      refine .inl ⟨tally, store, ?_, ⟨rows', ht', ?_⟩, hu.trans hu', hn, fun hb => ?_⟩
      · rw [start, Action.on_bind_of_ok halive, Action.on_bind_of_ok hmake,
          Action.on_bind_of_ok hask, on_changeQueue]
      · rwa [Partition.count_rows hs]
      · by_cases hr : Reckonable l
        · rw [hp.count hr] at hs
          cases hs
          exact ⟨hr, rfl⟩
        · rw [hp.count_refused hb hr] at hs
          cases hs
    · rw [hcall] at hask
      refine .inr ⟨fault, store, ?_, ?_, hu.trans hu', fun hmade => ?_, fun _ hr => ?_⟩
      · rw [start, Action.on_bind_of_ok halive, Action.on_bind_of_ok hmake,
          Action.on_bind_of_error hask]
      · rw [Store.rows, ht', ht]
        rfl
      · obtain ⟨rows, hrows⟩ := Option.isSome_iff_exists.1 hmade
        rw [ht', ht, Store.rows, hrows]
        rfl
      · rcases Store.call_of_ok .count ht (hp.count hr) with
          ⟨s', hok, -⟩ | ⟨fault', s', hmissed, hm⟩
        · rw [hok] at hcall
          cases hcall
        · rw [hmissed] at hcall
          cases hcall
          exact ⟨hm.retryable, fun hserving => hm.unserved (hu.link.serving hserving)⟩
  · rw [hc] at hmake
    refine .inr ⟨fault, made, ?_, ?_, hu, fun _ => ht,
      fun hn _ => ⟨(hf hn).retryable, (hf hn).unserved⟩⟩
    · rw [start, Action.on_bind_of_ok halive, Action.on_bind_of_error hmake]
    · rw [Store.rows, ht]
      rfl

/-- Over a link that serves, opening is refused for sizes that do not add up in signed words. -/
theorem start_refused (hd : d.queue.phase ≠ .destroyed) (hp : Partition d.queue.name d.store.rows l)
    (hs : d.store.link.Serving) (hn : TableName.isReserved d.store.tableName = false)
    (hb : (Tally.total l).bytes < 2 ^ 64) (hr : ¬ Reckonable l) :
    ∃ store, start.on d = (.error (.failed .count .totalOverflow), { d with store }) := by
  have halive : (requireAlive : Action (Desk Durable) Unit).on d = (.ok (), d) :=
    on_requireAlive_alive hd
  rcases Store.createTable_cases d.store with ⟨made, hc, ht, hu, -⟩ | ⟨fault, made, -, -, -, hf⟩
  · have hmake : (onStore Store.createTable : Action (Desk Durable) Unit).on d =
        (.ok (), { d with store := made }) := by
      rw [onStore, Action.on_focus, hc]
    have hcount := Store.call_of_error .count ht (hp.count_refused hb hr) (hu.link.serving hs)
    have hask := ask_on .count Statement.count { d with store := made }
    rw [hcount] at hask
    refine ⟨((Store.call .count (Statement.count d.queue.name)).on made).2, ?_⟩
    rw [start, Action.on_bind_of_ok halive, Action.on_bind_of_ok hmake]
    exact Action.on_bind_of_error hask
  · exact absurd hs (hf hn).unserved

/-- Removing what need not survive leaves the rows that must. -/
theorem removeTransient_works (ha : d.queue.phase = .active) (hk : d.store.Keeps d.queue.name l) :
    Works d l (removeTransient.on d) (· = (l.filter (!·.persistent)).length)
      (l.filter (·.persistent)) := by
  have hdel : Works d l ((deleting .deleteTransient Statement.deleteTransient).on d)
      (·.length = (l.filter (!·.persistent)).length) (l.filter (·.persistent)) := by
    refine deleting_works ha hk .deleteTransient fun rows hp => ?_
    obtain ⟨slots, rows', hslots, hrun, hp'⟩ := hp.deleteTransient
    have hsplit := perm_split (slots.map_id.symm ▸ hslots)
    simp only [Bool.not_not] at hsplit hp'
    exact ⟨slots, rows', hrun, by rw [hslots.length_eq, List.length_map], hsplit, hp'⟩
  exact hdel.map List.length fun _ => id

/-- The slots of the rows, in the order of service. -/
theorem slots_works (ha : d.queue.phase = .active) (hk : d.store.Keeps d.queue.name l) :
    Works d l (slots.on d) (· = l.map Entry.slot) l :=
  reading_works ha hk .getSlots fun _ hp => hp.getSlots

/-- Closing never fails and leaves the rows. -/
theorem shutdown_on (d : Desk Durable) : ∃ calls, shutdown.on d =
    (.ok (), { d with queue := { d.queue with phase := d.queue.phase.closed }, calls }) := by
  rw [shutdown, Action.on_bind_of_ok (on_theQueue d)]
  obtain ⟨⟨storageId, bounds, phase, tally, hooks⟩, store, calls⟩ := d
  cases phase with
  | destroyed => exact ⟨calls, rfl⟩
  | uninitialized | active | shutdown => exact ⟨_, rfl⟩

/-- Destroying a queue deletes its rows, or fails and leaves them. -/
theorem destroy_cases (hd : d.queue.phase ≠ .destroyed)
    (hp : Partition d.queue.name d.store.rows l) :
    (∃ store calls, destroy.on d =
        (.ok (), { queue := { d.queue with phase := .destroyed, tally := .zero }, store, calls }) ∧
      store.Keeps d.queue.name [] ∧ d.store.Used store) ∨
    ∃ fault store, destroy.on d = (.error fault, { d with store }) ∧ store.table = d.store.table ∧
      d.store.Used store ∧ (d.store.table.isSome = true → d.store.Missed fault store) := by
  have hask := ask_on .deleteAll Statement.deleteAll d
  rw [destroy, Action.on_bind_of_ok (on_theQueue d), if_neg hd]
  cases ht : d.store.table with
  | none =>
    obtain ⟨fault, store, hc, ht', hu⟩ : ∃ fault s',
        (Store.call .deleteAll (Statement.deleteAll d.queue.name)).on d.store = (.error fault, s') ∧
          s'.table = d.store.table ∧ d.store.Used s' := by
      refine Store.run_of_error .deleteAll (?_ : _ = Except.error Refusal.noTable)
      rw [ht]
    rw [hc] at hask
    exact .inr ⟨fault, store, Action.on_bind_of_error hask, ht'.trans ht, hu, nofun⟩
  | some rows =>
    rw [Store.rows, ht] at hp
    obtain ⟨rows', hrun, hp'⟩ := hp.deleteAll
    rcases Store.call_of_ok .deleteAll ht hrun with ⟨store, hc, ht', hu⟩ | ⟨fault, store, hc, hm⟩
    · rw [hc] at hask
      exact .inl ⟨store, _, Action.on_bind_of_ok hask, ⟨rows', ht', hp'⟩, hu⟩
    · rw [hc] at hask
      exact .inr ⟨fault, store, Action.on_bind_of_error hask, hm.table.trans ht, hm.used,
        fun _ => hm⟩

end Durable

end Spillway
