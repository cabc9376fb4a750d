import Spillway.Proofs.DurableHistories
import Spillway.Proofs.Revival

/-!
# Totals that are read back

The totals of a queue are kept by hand while it is active, and read from the table when its rows are
found again. Whatever writes and removals have left there, both agree as long as the table gives an
answer at all: it refuses to count a queue whose sizes do not add up in signed words, and then the
queue cannot be opened, nor can the queues be listed.
-/

namespace Spillway

open Desk

namespace Statement

variable {α β : Type} {rows : List Row}

/-- Where each statement is refused or gives its answer and changes nothing, all of them do. -/
theorem mapM_of_cases {statement : α → Statement β} {p : α → Prop} [DecidablePred p] {f : α → β}
    {refusal : Refusal}
    (h : ∀ a, statement a rows = if p a then .ok (f a, rows) else .error refusal) (l : List α) :
    l.mapM statement rows = if ∀ a ∈ l, p a then .ok (l.map f, rows) else .error refusal := by
  induction l with
  | nil => simp [pure_apply]
  | cons a l ih =>
    rw [List.mapM_cons]
    by_cases ha : p a
    · have hone := h a
      rw [if_pos ha] at hone
      rw [bind_of_ok hone]
      by_cases hl : ∀ b ∈ l, p b
      · rw [if_pos hl] at ih
        rw [bind_of_ok ih, if_pos (List.forall_mem_cons.2 ⟨ha, hl⟩)]
        rfl
      · rw [if_neg hl] at ih
        rw [bind_of_error ih, if_neg fun hall => hl (List.forall_mem_cons.1 hall).2]
    · have hone := h a
      rw [if_neg ha] at hone
      rw [bind_of_error hone, if_neg fun hall => ha (List.forall_mem_cons.1 hall).1]

/-- Writing for one queue leaves the rows of another. -/
theorem addEntries_spares {queue other : String} (hne : queue ≠ other) (entries : List Entry)
    (rows : List Row) : ∃ added rows', addEntries queue entries rows = .ok (added, rows') ∧
      rowsOf other rows' = rowsOf other rows := by
  have hone : ∀ (e : Entry) (rows : List Row), ∃ new rows',
      addEntry queue e rows = .ok (new, rows') ∧ rowsOf other rows' = rowsOf other rows := by
    intro e rows
    have hforeign : rowsOf other [Row.ofEntry queue e] = [] := by
      simp [rowsOf, Row.ofEntry, hne]
    cases ht : rows.any (isRowOf queue e.id) with
    | true => exact ⟨false, rows, congrArg Except.ok (if_pos ht), rfl⟩
    | false =>
      refine ⟨true, rows ++ [Row.ofEntry queue e], congrArg Except.ok ?_, ?_⟩
      · exact if_neg (Bool.eq_false_iff.1 ht)
      · rw [rowsOf, List.filter_append, ← rowsOf, ← rowsOf, hforeign, List.append_nil]
  induction entries generalizing rows with
  | nil => exact ⟨[], rows, rfl, rfl⟩
  | cons e entries ih =>
    obtain ⟨new, rows₁, hrun, hrows₁⟩ := hone e rows
    obtain ⟨added, rows₂, hrest, hrows₂⟩ := ih rows₁
    refine ⟨new :: added, rows₂, ?_, hrows₂.trans hrows₁⟩
    simp only [addEntries, List.mapM_cons] at hrest ⊢
    rw [bind_of_ok hrun, bind_of_ok hrest, pure_apply]

end Statement

open Statement

/-! ## What the table answers -/

/-- Rows that writes and deletions leave. -/
inductive Laid : List Row → Prop
  | nil : Laid []
  /-- Entries of a queue are written, as far as their ids are new. -/
  | written {rows rows' : List Row} {queue : String} {entries : List Entry} {added : List Bool}
      (h : Laid rows) (ho : addEntries queue entries rows = .ok (added, rows')) : Laid rows'
  /-- Some rows are deleted. -/
  | deleted {rows : List Row} (h : Laid rows) (pick : Row → Bool) : Laid (rows.filter (!pick ·))

variable {rows : List Row}

/-- Rows that are written into an empty table. -/
theorem Laid.of_toOption {queue : String} {entries : List Entry} {added : List Bool}
    (h : (addEntries queue entries []).toOption = some (added, rows)) : Laid rows := by
  cases ho : addEntries queue entries [] with
  | error refusal =>
    rw [ho] at h
    cases h
  | ok p =>
    rw [ho] at h
    cases h
    exact .written .nil ho

/-- They are those of an ordered list for every queue. -/
theorem Laid.partition (h : Laid rows) (queue : String) : ∃ l, Partition queue rows l := by
  induction h with
  | nil => exact ⟨[], .of_rowsOf_nil rfl⟩
  | @written rows rows' name entries added _ ho ih =>
    obtain ⟨l, hl⟩ := ih
    by_cases hn : name = queue
    · subst hn
      obtain ⟨added', rows₁, hrun, hp, -⟩ := hl.enterAll entries
      rw [ho] at hrun
      cases hrun
      exact ⟨_, hp⟩
    · obtain ⟨added', rows₁, hrun, hrows⟩ := addEntries_spares hn entries rows
      rw [ho] at hrun
      cases hrun
      exact ⟨l, hl.of_rowsOf_eq hrows⟩
  | deleted _ pick ih =>
    obtain ⟨l, hl⟩ := ih
    obtain ⟨written, hperm, hw⟩ := hl.rows
    let left : Entry → Bool := fun e => !pick (Row.ofEntry queue e)
    refine ⟨l.filter left, hl.order.filter left, written.filter left, hperm.filter left, ?_⟩
    rw [rowsOf, List.filter_comm, ← rowsOf, hw, List.filter_map]
    rfl

/-- Listing all queues gives their exact totals, or is refused if those of one of them are. -/
theorem queueNames_eq (hp : ∀ queue, ∃ l, Partition queue rows l)
    (hb : ∀ queue, (Tally.total (entriesOf queue rows)).bytes < 2 ^ 64) :
    queueNames rows = if ∀ queue ∈ namesOf rows, Reckonable (entriesOf queue rows) then
        .ok ((namesOf rows).map fun queue => (queue, Tally.total (entriesOf queue rows)), rows)
      else .error .totalOverflow := by
  rw [queueNames, bind_of_ok (get_apply rows)]
  refine mapM_of_cases (fun queue => ?_) (namesOf rows)
  obtain ⟨l, hl⟩ := hp queue
  have hword := hb queue
  rw [hl.entriesOf_eq] at hword ⊢
  rw [hl.tallyOf_eq hword]
  split <;> rfl

/-- An answer that is given under a condition, and refused otherwise because a sum leaves the range
of signed words. -/
structure AnsweredIf {α : Type} (p : Prop) (task : Task) (answer : α) (outcome : Except Fault α) :
    Prop where
  given : p → outcome = .ok answer
  refused : ¬ p → outcome = .error (.failed task .totalOverflow)

/-- Over a link that serves, a statement on rows answers. -/
theorem Store.answered {α : Type} {s : Store} {statement : Statement α} {task : Task} {answer : α}
    {p : Prop} [Decidable p] (ht : s.table = some rows) (hs : s.link.Serving)
    (h : statement rows = if p then .ok (answer, rows) else .error .totalOverflow) :
    AnsweredIf p task answer ((Store.call task statement).on s).1 := by
  constructor
  · intro hp
    rw [if_pos hp] at h
    rcases Store.call_of_ok task ht h with ⟨s', ho, -⟩ | ⟨fault, s', -, hm⟩
    · rw [ho]
    · exact absurd hs hm.unserved
  · intro hp
    rw [if_neg hp] at h
    exact Store.call_of_error task ht h hs

/-- A queue that opens with given totals if the sizes of given entries add up in signed words, and
is refused to open otherwise. -/
structure OpensWith {Q : Type} [Contract Q] (d : Desk Q) (es : List Entry) (tally : Tally) :
    Prop where
  given : Reckonable es → ∃ d', (serve .start).on d = (.ok .done, d') ∧
    Managed.phase d'.queue = .active ∧ Managed.tally d'.queue = tally
  refused : ¬ Reckonable es → ((serve .start).on d).1 = .error (.failed .count .totalOverflow)

/-! ## A queue in the table -/

namespace Durable

variable {d d₁ : Desk Durable} {l : List Entry}

/-- The entries in the rows of a queue. -/
def contents (d : Desk Durable) : List Entry := entriesOf d.queue.name d.store.rows

/-- A queue in the table with a history in which the bytes of its rows are always a word. -/
inductive Tended : Desk Durable → Prop
  | made {d : Desk Durable} (h : Made d) (hb : (Tally.total (contents d)).bytes < 2 ^ 64) : Tended d
  /-- It is asked something. -/
  | asked {d : Desk Durable} (h : Tended d) (request : Request)
      (hb : (Tally.total (contents ((serve request).on d).2)).bytes < 2 ^ 64) :
      Tended ((serve request).on d).2
  /-- The link changes, others use the store. -/
  | meanwhile {d : Desk Durable} (h : Tended d) {s : Store} (hs : d.store.Spares d.queue.name s) :
      Tended { d with store := s }
  /-- It gets other hooks. -/
  | hooked {d : Desk Durable} (h : Tended d) (hooks : Hooks) :
      Tended { d with queue := { d.queue with hooks } }
  /-- It is dropped as it is, and made anew. -/
  | renewed {d : Desk Durable} (h : Tended d) {bounds : Bounds} {q : Durable}
      (hq : create d.queue.storageId bounds = .ok q) (hooks : Hooks) :
      Tended { queue := { q with hooks }, store := d.store }

theorem Rests.contents (h : Rests d l) : Durable.contents d = l := h.rows.entriesOf_eq

/-- As long as the bytes are a word, the totals of an active queue are exact. -/
theorem tended_exact (h : Tended d) :
    ∃ l, Rests d l ∧ Exact d l ∧ (Tally.total l).bytes < 2 ^ 64 := by
  induction h with
  | @made d h hb =>
    obtain ⟨⟨q, hooks, hq, he⟩, l, hp⟩ := h
    have hrests : Rests d l := by
      have := made_rests hq hp hooks d.calls
      rw [← he] at this
      exact this
    refine ⟨l, hrests, fun ha => ?_, hrests.contents ▸ hb⟩
    rw [he, create_eq hq] at ha
    cases ha
  | asked _ request hb ih =>
    obtain ⟨l, hl, hx, hword⟩ := ih
    obtain ⟨-, m, hm, -, hexact⟩ := serve_follows hl request
    exact ⟨m, hm, hexact hx hword, hm.contents ▸ hb⟩
  | meanwhile _ hs ih =>
    obtain ⟨l, hl, hx, hword⟩ := ih
    exact ⟨l, hl.spared hs, fun ha => ⟨(hx ha).1, hs.tableName ▸ (hx ha).2⟩, hword⟩
  | hooked _ hooks ih =>
    obtain ⟨l, hl, hx, hword⟩ := ih
    exact ⟨l, ⟨hl.rows, hl.made, hl.gone⟩, hx, hword⟩
  | renewed _ hq hooks ih =>
    obtain ⟨l, hl, -, hword⟩ := ih
    refine ⟨l, made_rests hq hl.rows hooks [], fun ha => ?_, hword⟩
    rw [create_eq hq] at ha
    cases ha

/-- A queue is opened over its rows with their exact totals, if they can be counted. -/
theorem opensWith (hd : d.queue.phase ≠ .destroyed) (hp : Partition d.queue.name d.store.rows l)
    (hs : d.store.link.Serving) (hn : TableName.isReserved d.store.tableName = false)
    (hb : (Tally.total l).bytes < 2 ^ 64) : OpensWith d l (Tally.total l) := by
  constructor
  · intro hr
    rcases start_cases hd hp with
      ⟨tally, store, ho, -, -, -, htally⟩ | ⟨fault, store, -, -, -, -, hf⟩
    · exact ⟨_, on_done ho, rfl, (htally hb).2⟩
    · exact absurd hs (hf hn hr).2
  · intro hr
    obtain ⟨store, ho⟩ := start_refused hd hp hs hn hb hr
    rw [show (serve .start).on d = _ from on_done ho]
    rfl

theorem Tended.tally (h : Tended d) (ha : d.queue.phase = .active) :
    Managed.tally d.queue = Tally.total (contents d) := by
  obtain ⟨l, hl, hx, -⟩ := tended_exact h
  rw [hl.contents]
  exact (hx ha).1

/-- What an active queue has counted by hand is what is counted in its rows later, by whoever. -/
theorem Tended.opensWith (h : Tended d) (ha : d.queue.phase = .active)
    (hi : d₁.queue.storageId = d.queue.storageId) (hd : d₁.queue.phase ≠ .destroyed)
    (hr : d.store.Spares d.queue.name d₁.store) (hs : d₁.store.link.Serving) :
    OpensWith d₁ (contents d) (Managed.tally d.queue) := by
  obtain ⟨l, hl, hx, hb⟩ := tended_exact h
  have hname : d₁.queue.name = d.queue.name := congrArg StorageId.text hi
  have hp : Partition d₁.queue.name d₁.store.rows l := hname ▸ hl.rows.of_rowsOf_eq hr.rows
  rw [h.tally ha, hl.contents]
  exact Durable.opensWith hd hp hs (hr.tableName.symm ▸ (hx ha).2) hb

end Durable

/-! ## A cached queue -/

namespace Cached

variable {d : Desk Cached} {l : List Held}

/-- An active queue counts what it holds. -/
theorem Stocks.tally (h : Stocks d l) :
    Managed.tally d.queue = Tally.total (l.map Held.entry) := tally_of_lists h.index

/-- A cached queue is not opened over rows that cannot be counted. -/
theorem start_refused (h : Shelved d l) (hn : d.queue.phase ≠ .active)
    (hd : d.queue.phase ≠ .destroyed) (hs : d.store.link.Serving)
    (hfit : TableName.isReserved d.store.tableName = false)
    (hb : (Tally.total (inTable l)).bytes < 2 ^ 64) (hr : ¬ Reckonable (inTable l)) :
    ((serve .start).on d).1 = .error (.failed .count .totalOverflow) := by
  have hname : d.queue.cold.name = d.queue.storageId.text := congrArg StorageId.text h.named
  obtain ⟨store, ho⟩ := Durable.start_refused (d := ⟨d.queue.cold, d.store, d.calls⟩)
    (h.alive hd).2 (l := inTable l) (hname.symm ▸ h.rows) hs hfit hb hr
  have hopen : (onCold Durable.start).on d =
      (.error (.failed .count .totalOverflow), { d with store }) := by
    rw [onCold, Action.on_focus, ho]
  have hstart : start.on d = (.error (.failed .count .totalOverflow), { d with store }) := by
    rw [start, Action.on_bind_of_ok (on_requireAlive_alive hd),
      Action.on_bind_of_ok (on_theQueue d), if_neg hn, Action.on_bind_of_error hopen]
  rw [show (serve .start).on d = _ from on_done hstart]
  rfl

/-- A cached queue that was closed is opened again with the totals of what it holds, if its rows can
be counted. -/
theorem opensWith_again (h : Shelved d l) (hp : d.queue.phase = .shutdown)
    (hs : d.store.link.Serving) (hfit : TableName.isReserved d.store.tableName = false)
    (hb : (Tally.total (inTable l)).bytes < 2 ^ 64) :
    OpensWith d (inTable l) (Tally.total (l.map Held.entry)) := by
  have hn : d.queue.phase ≠ .active := by rw [hp]; nofun
  have hd : d.queue.phase ≠ .destroyed := by rw [hp]; nofun
  constructor
  · intro hr
    rcases start_on h hn hd with
      ⟨d', m, ho, -, ha, hst, hsame, -⟩ | ⟨fault, d', m, -, -, -, -, -, -, hf⟩
    · have hrest : reopened d l = l := if_neg (by rw [hp]; nofun)
      refine ⟨d', on_done ho, ha, hst.tally.trans ?_⟩
      rw [hsame.entries, hrest]
    · exact absurd hs (hf ⟨hfit, hr⟩)
  · exact start_refused h hn hd hs hfit hb

/-- A new queue is opened over rows with the totals of those that must survive, if all of them can
be counted. -/
theorem opensWith_anew {id : StorageId} {bounds : Bounds} {q : Cached} {es : List Entry} {s : Store}
    (hq : create id bounds = .ok q) (hp : Partition id.text s.rows es) (hooks : Hooks)
    (calls : List Call) (hs : s.link.Serving) (hfit : TableName.isReserved s.tableName = false)
    (hb : (Tally.total es).bytes < 2 ^ 64) :
    OpensWith { queue := { q with hooks }, store := s, calls } es
      (Tally.total (es.filter (·.persistent))) := by
  have hphase : q.phase = .uninitialized := by rw [create_eq hq]
  constructor
  · intro hr
    obtain ⟨d', m, ho, -, ha, hst, hsame⟩ := opened_anew hq hp hooks calls hfit hs hr
    refine ⟨d', on_done ho, ha, hst.tally.trans ?_⟩
    rw [hsame.entries, entries_row]
  · intro hr
    have hheld := (made_holds hq hp hooks calls).shelved
    refine start_refused hheld ?_ ?_ hs hfit ?_ ?_
    · exact fun h => nomatch hphase.symm.trans h
    · exact fun h => nomatch hphase.symm.trans h
    · rwa [inTable_row]
    · rwa [inTable_row]

/-- An active queue that is closed, by whatever name its rows are found again. -/
theorem closed_shelved (h : Stocks d l) (ha : d.queue.phase = .active) :
    ∃ m, Shelved ((serve .shutdown).on d).2 m ∧ Kept d ((serve .shutdown).on d).2 ∧
      ((serve .shutdown).on d).2.queue.phase = .shutdown ∧
      m.map Held.entry = l.map Held.entry := by
  obtain ⟨d', m, ho, hk, hs, hphase, -, -, hm⟩ := shutdown_active h ha
  rw [show (serve .shutdown).on d = _ from on_done ho]
  refine ⟨m, hs, hk, hphase, ?_⟩
  rcases hm with ⟨-, rfl⟩ | ⟨-, rfl, -⟩
  · exact entries_flushed l
  · rfl

variable {c c₀ c₁ : Desk Cached}

/-- A queue that is closed and opened again has the totals that it had, if its rows can be
counted. -/
theorem closed_reload (h : Reachable c) (ha : c.queue.phase = .active)
    (hc : c₀ = ((serve .shutdown).on c).2) (he : c₁.queue = c₀.queue)
    (hr : c₀.store.Spares c.queue.storageId.text c₁.store) (hs : c₁.store.link.Serving)
    (hb : (Tally.total (rowEntries c₀)).bytes < 2 ^ 64) :
    OpensWith c₁ (rowEntries c₀) (Managed.tally c.queue) := by
  obtain ⟨l, hl⟩ := reachable_stocks h ha
  obtain ⟨m, hm, hk, hp, hentries⟩ := closed_shelved hl ha
  rw [← hc] at hm hk hp
  have hrows : rowEntries c₀ = inTable m := rowEntries_eq hm.rows
  rw [hrows] at hb ⊢
  rw [hl.tally, ← hentries]
  obtain ⟨queue, store, calls⟩ := c₁
  subst he
  refine opensWith_again ?_ hp hs ?_ hb
  · exact { hm with rows := hm.rows.of_rowsOf_eq (hk.storageId.symm ▸ hr.rows) }
  · exact hr.tableName.symm ▸ hk.used.tableName.symm ▸ hl.fit

/-- A queue that is dropped, closed or not, and made anew has the totals of what must survive, if
nothing was held back and its rows can be counted. -/
theorem dropped_reload {bounds : Bounds} {q : Cached} {s : Store} (h : Reachable c)
    (ha : c.queue.phase = .active) (hc : c₀ = c ∨ c₀ = ((serve .shutdown).on c).2)
    (hpending : c₀.queue.pending = []) (hr : c₀.store.Spares c.queue.storageId.text s)
    (hs : s.link.Serving) (hb : (Tally.total (rowEntries c₀)).bytes < 2 ^ 64)
    (hq : create c.queue.storageId bounds = .ok q) (hooks : Hooks) :
    OpensWith { queue := { q with hooks }, store := s } (rowEntries c₀)
      (Managed.tally c.queue).surviving := by
  obtain ⟨l, hl⟩ := reachable_stocks h ha
  -- Closed or not, the queue has the same entries.
  obtain ⟨m, hm, hk, he⟩ : ∃ m, Shelved c₀ m ∧ Kept c c₀ ∧ m.map Held.entry = l.map Held.entry := by
    rcases hc with rfl | rfl
    · exact ⟨l, hl.shelved ha, .refl _, rfl⟩
    · obtain ⟨m, hm, hk, -, he⟩ := closed_shelved hl ha
      exact ⟨m, hm, hk, he⟩
  have hrows : rowEntries c₀ = inTable m := rowEntries_eq hm.rows
  rw [hm.pending] at hpending
  have htotal : (Managed.tally c.queue).surviving =
      Tally.total ((inTable m).filter (·.persistent)) := by
    rw [hl.tally, ← Tally.total_surviving, ← he,
      (pendingIds_eq_nil_iff_filter hm.layout.order).1 hpending]
  rw [hrows] at hb ⊢
  rw [htotal]
  refine opensWith_anew hq ?_ hooks [] hs ?_ hb
  · rw [← hk.storageId]
    exact hm.rows.of_rowsOf_eq (hk.storageId.symm ▸ hr.rows)
  · exact hr.tableName.symm ▸ hk.used.tableName.symm ▸ hl.fit

end Cached

/-! ## Reading totals back -/

/-- Over rows that writes and deletions have left, as long as the bytes of each queue are a word and
the link serves: the table counts a queue and lists all queues with exact totals, and a queue that
is found again, in the table or cached, closed or made anew, opens with the totals that were kept by
hand. All this holds exactly if the sizes of the rows add up in signed words; if they do not, each
of these is refused. -/
theorem totals_reload {rows : List Row} {s : Store} {d d₁ : Desk Durable} {c c₀ c₁ : Desk Cached}
    {bounds : Bounds} {q : Cached} {hooks : Hooks} :
    (Laid rows → s.table = some rows → s.link.Serving →
      (∀ queue, (Tally.total (entriesOf queue rows)).bytes < 2 ^ 64) →
      (∀ queue, AnsweredIf (Reckonable (entriesOf queue rows)) .count
        (Tally.total (entriesOf queue rows)) ((Store.call .count (count queue)).on s).1) ∧
      AnsweredIf (∀ queue ∈ namesOf rows, Reckonable (entriesOf queue rows)) .queueNames
        ((namesOf rows).map fun queue => (queue, Tally.total (entriesOf queue rows)))
        ((Store.call .queueNames queueNames).on s).1) ∧
    (Durable.Tended d → d.queue.phase = .active →
      Managed.tally d.queue = Tally.total (Durable.contents d) ∧
        (d₁.queue.storageId = d.queue.storageId → d₁.queue.phase ≠ .destroyed →
          d.store.Spares d.queue.name d₁.store → d₁.store.link.Serving →
          OpensWith d₁ (Durable.contents d) (Managed.tally d.queue))) ∧
    (Cached.Reachable c → c.queue.phase = .active → c₀ = ((serve .shutdown).on c).2 →
      c₁.queue = c₀.queue → c₀.store.Spares c.queue.storageId.text c₁.store →
      c₁.store.link.Serving → (Tally.total (Cached.rowEntries c₀)).bytes < 2 ^ 64 →
      OpensWith c₁ (Cached.rowEntries c₀) (Managed.tally c.queue)) ∧
    (Cached.Reachable c → c.queue.phase = .active →
      c₀ = c ∨ c₀ = ((serve .shutdown).on c).2 → c₀.queue.pending = [] →
      c₀.store.Spares c.queue.storageId.text s → s.link.Serving →
      (Tally.total (Cached.rowEntries c₀)).bytes < 2 ^ 64 →
      Cached.create c.queue.storageId bounds = .ok q →
      OpensWith { queue := { q with hooks }, store := s } (Cached.rowEntries c₀)
        (Managed.tally c.queue).surviving) := by
  refine ⟨fun hlaid ht hs hb => ⟨fun queue => ?_, ?_⟩, fun h ha => ⟨h.tally ha, h.opensWith ha⟩,
    fun h ha hc he hr hs hb => Cached.closed_reload h ha hc he hr hs hb,
    fun h ha hc hpending hr hs hb hq => Cached.dropped_reload h ha hc hpending hr hs hb hq hooks⟩
  · obtain ⟨l, hl⟩ := hlaid.partition queue
    refine Store.answered ht hs ?_
    have hword := hb queue
    rw [hl.entriesOf_eq] at hword ⊢
    split
    · next hr => exact hl.count hr
    · next hr => exact hl.count_refused hword hr
  · exact Store.answered ht hs (queueNames_eq hlaid.partition hb)

/-- A persistent message of some size. -/
def Entry.sized (id size : UInt64) : Entry := ⟨id, .normal, size, true, ⟨"", .empty⟩⟩

/-- A queue in the table with two entries of given sizes. -/
def Durable.laden (size size' : UInt64) : Desk Durable :=
  ((serve (.put [.sized 1 size, .sized 2 size'] false)).on ((serve .start).on newborn).2).2

/-- A cached queue with the same entries. -/
def Cached.laden (size size' : UInt64) : Desk Cached :=
  (serveAll [.start, .put [.sized 1 size, .sized 2 size'] false] newborn).2

theorem Durable.tended_laden {size size' : UInt64}
    (h : (Tally.total (contents (laden size size'))).bytes < 2 ^ 64) :
    Tended (laden size size') := by
  have hmade : Made newborn := ⟨⟨newborn.queue, {}, rfl, rfl⟩, [], .of_rowsOf_nil rfl⟩
  have hstarted : Tended ((serve .start).on newborn).2 :=
    (Tended.made hmade (by decide +kernel)).asked .start (by decide +kernel)
  exact hstarted.asked (.put [.sized 1 size, .sized 2 size'] false) h

/-- A queue with an entry whose size lies in the upper half of the words, in the table and cached,
that is closed, and found again in every way. -/
theorem totals_reload_laden :
    let d := Durable.laden 0x8000000000000000 5
    let d₁ := ((serve .shutdown).on d).2
    let c := Cached.laden 0x8000000000000000 5
    let c₀ := ((serve .shutdown).on c).2
    (Durable.Tended d ∧ Cached.Reachable c ∧ Reckonable (Durable.contents d) ∧
      Reckonable (Cached.rowEntries c₀) ∧ d.store.link.Serving ∧ c₀.store.link.Serving) ∧
    ((Store.call .count (count d.queue.name)).on d.store).1 = .ok (Managed.tally d.queue) ∧
    (∃ d', (serve .start).on d₁ = (.ok .done, d') ∧
      Managed.tally d'.queue = Managed.tally d.queue) ∧
    (∃ c', (serve .start).on c₀ = (.ok .done, c') ∧
      Managed.tally c'.queue = Managed.tally c.queue) ∧
    ∃ c', (serve .start).on { queue := Cached.newborn.queue, store := c₀.store } = (.ok .done, c') ∧
      Managed.tally c'.queue = (Managed.tally c.queue).surviving := by
  intro d d₁ c c₀
  have hd : Durable.Tended d := Durable.tended_laden (by decide +kernel)
  have hc : Cached.Reachable c := Cached.reachable_newborn.runs (Cached.runs_serveAll _ _)
  have hactive : d.queue.phase = .active ∧ c.queue.phase = .active := by decide +kernel
  have hr : Reckonable (Durable.contents d) := by decide +kernel
  have hr₀ : Reckonable (Cached.rowEntries c₀) := by decide +kernel
  have hs : d.store.link.Serving := by decide +kernel
  have hs₁ : d₁.store.link.Serving := by decide +kernel
  have hs₀ : c₀.store.link.Serving := by decide +kernel
  let entries : List Entry := [.sized 1 0x8000000000000000, .sized 2 5]
  let rows := entries.map (Row.ofEntry "mail:")
  have hrows : d.store.table = some rows := by decide +kernel
  have hlaid : Laid rows :=
    @Laid.of_toOption rows "mail:" entries [true, true] (by decide +kernel)
  have hb : ∀ queue, (Tally.total (entriesOf queue rows)).bytes < 2 ^ 64 := by
    intro queue
    by_cases hq : "mail:" = queue
    · subst hq
      decide +kernel
    · have hnone : rowsOf queue rows = [] := by simp [rows, entries, rowsOf, Row.ofEntry, hq]
      rw [entriesOf, hnone]
      decide
  have hcontents : entriesOf d.queue.name rows = Durable.contents d := by
    rw [Durable.contents, Store.rows, hrows]
    rfl
  have hspared : d.store.Spares d.queue.name d₁.store := ⟨by decide +kernel, by decide +kernel,
    by decide +kernel⟩
  have hname : c.queue.storageId = .mail := by decide +kernel
  have hmade : Cached.create c.queue.storageId .tight = .ok Cached.newborn.queue := by
    rw [hname]
    rfl
  have hpending : c₀.queue.pending = [] := by decide +kernel
  have hreload := @totals_reload rows d.store d d₁ c c₀ c₀ .tight Cached.newborn.queue {}
  have hreload₀ := @totals_reload rows c₀.store d d₁ c c₀ c₀ .tight Cached.newborn.queue {}
  obtain ⟨htally, hopens⟩ := hreload.2.1 hd hactive.1
  have hcount := ((hreload.1 hlaid hrows hs hb).1 d.queue.name).given (hcontents ▸ hr)
  obtain ⟨d', ho, -, ht⟩ := (hopens (by decide +kernel) (by decide +kernel) hspared hs₁).given hr
  obtain ⟨c', ho', -, ht'⟩ :=
    (hreload₀.2.2.1 hc hactive.2 rfl rfl (.refl _ _) hs₀ hr₀.lt).given hr₀
  obtain ⟨c'', ho'', -, ht''⟩ :=
    (hreload₀.2.2.2 hc hactive.2 (.inr rfl) hpending (.refl _ _) hs₀ hr₀.lt hmade).given hr₀
  refine ⟨⟨hd, hc, hr, hr₀, hs, hs₀⟩, ?_, ⟨d', ho, ht⟩, ⟨c', ho', ht'⟩, c'', ho'', ht''⟩
  rw [hcount, hcontents, htally]

/-- A queue whose bytes are a word that does not fit a signed one is closed, and cannot be opened
again. -/
theorem not_reloaded : ¬ ∀ {d d₁ : Desk Durable}, Durable.Tended d → d.queue.phase = .active →
    d₁ = ((serve .shutdown).on d).2 → d₁.store.link.Serving →
    ((serve .start).on d₁).1 = .ok .done := by
  intro hall
  let d := Durable.laden 0x7FFFFFFFFFFFFFFF 1
  let d₁ := ((serve .shutdown).on d).2
  have hd : Durable.Tended d := Durable.tended_laden (by decide +kernel)
  have hs : d₁.store.link.Serving := by decide +kernel
  have hopened := hall hd (by decide +kernel) rfl hs
  have hrefused : ((serve .start).on d₁).1 ≠ .ok .done := by decide +kernel
  exact hrefused hopened

end Spillway
