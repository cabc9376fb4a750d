import Spillway.Proofs.Bookkeeping

/-!
# The rows of a cached queue

A cached queue keeps its rows in a queue in the table. Whatever it is asked, it does to that queue
nothing but give it jobs, so that the books of its rows are in order whenever it is active, whatever
it moves between memory and table and wherever the database fails it.
-/

namespace Spillway

open Desk

namespace Cached

variable {α β : Type} {d d' : Desk Cached}

/-- The part of a cached queue in the table, at work. -/
def coldDesk (d : Desk Cached) : Desk Durable :=
  { queue := d.queue.cold, store := d.store, calls := d.calls }

/-- Work that does not touch the part in the table, nor its rows. -/
def Apart (act : Action (Desk Cached) α) : Prop := ∀ d : Desk Cached,
  (act.on d).2.queue.cold = d.queue.cold ∧ (act.on d).2.store.table = d.store.table ∧
    (act.on d).2.store.tableName = d.store.tableName

/-- Work that does to the part in the table of a queue nothing but give it jobs. -/
def ConfinedAt (d : Desk Cached) (act : Action (Desk Cached) α) : Prop :=
  Durable.Worked (coldDesk d) → Durable.Worked (coldDesk (act.on d).2) ∧
    ∃ jobs, Durable.Course (coldDesk d) jobs (coldDesk (act.on d).2)

/-- Work that is so confined wherever it is done. -/
def Confined (act : Action (Desk Cached) α) : Prop := ∀ d, ConfinedAt d act

/-! ## Work elsewhere -/

/-- Work that leaves the part in the table with its rows gives it no job. -/
theorem Apart.confined {act : Action (Desk Cached) α} (h : Apart act) : Confined act := by
  intro d hw
  obtain ⟨hcold, htable, hname⟩ := h d
  have hs : d.store.Spares d.queue.cold.name (act.on d).2.store :=
    ⟨hname, fun hmade => htable.symm ▸ hmade, by rw [Store.rows, htable, Store.rows]⟩
  have he : coldDesk (act.on d).2 =
      { queue := d.queue.cold, store := (act.on d).2.store, calls := (act.on d).2.calls } := by
    rw [coldDesk, hcold]
  rw [he]
  exact ⟨hw.meanwhile hs _, [], (Durable.Course.nil (coldDesk d)).meanwhile hs _⟩

/-- To give a result does not touch the part in the table. -/
theorem apart_pure (a : α) : Apart (pure a : Action (Desk Cached) α) := fun _ => ⟨rfl, rfl, rfl⟩

/-- Nor does to fail. -/
theorem apart_throw (fault : Fault) : Apart (throw fault : Action (Desk Cached) α) :=
  fun _ => ⟨rfl, rfl, rfl⟩

/-- Nor does to look at the queue. -/
theorem apart_theQueue : Apart (theQueue : Action (Desk Cached) Cached) := fun _ => ⟨rfl, rfl, rfl⟩

/-- Nor does a check. -/
theorem apart_require (check : Except Fault α) :
    Apart (Action.require check : Action (Desk Cached) α) := fun _ => ⟨rfl, rfl, rfl⟩

/-- Nor does a change of the rest of the queue. -/
theorem apart_changeQueue {change : Cached → Cached} (h : ∀ q, (change q).cold = q.cold) :
    Apart (changeQueue change) := fun d => ⟨h d.queue, rfl, rfl⟩

/-- Nor does counting an event. -/
theorem apart_count (change : Totals → Totals) : Apart (count change) := fun _ => ⟨rfl, rfl, rfl⟩

/-- Nor do calls. -/
theorem apart_record (calls : List Call) : Apart (record calls) := fun _ => ⟨rfl, rfl, rfl⟩

/-- What is done in memory does not touch the table. -/
theorem apart_onHot {act : Action (Desk Ram) α}
    (h : ∀ r, (act.on r).2.store = r.store) : Apart (onHot act) := fun d => by
  have hstore := h { queue := d.queue.hot, store := d.store, calls := d.calls }
  rw [onHot, Action.on_focus]
  exact ⟨rfl, congrArg Store.table hstore, congrArg Store.tableName hstore⟩

/-! ## Work that is put together -/

/-- The jobs of one thing after the other are those of both. -/
theorem ConfinedAt.bind {act : Action (Desk Cached) α} {next : α → Action (Desk Cached) β}
    (h : ConfinedAt d act) (hn : ∀ a, Confined (next a)) : ConfinedAt d (act >>= next) := by
  intro hw
  obtain ⟨hw', jobs, hc⟩ := h hw
  rw [Action.on_bind]
  rcases ho : act.on d with ⟨_ | a, d'⟩
  · rw [ho] at hw' hc
    exact ⟨hw', jobs, hc⟩
  · rw [ho] at hw' hc
    obtain ⟨hw'', jobs', hc'⟩ := hn a d' hw'
    exact ⟨hw'', jobs ++ jobs', hc.trans hc'⟩

/-- That is so wherever the first is done. -/
theorem Confined.bind {act : Action (Desk Cached) α} {next : α → Action (Desk Cached) β}
    (h : Confined act) (hn : ∀ a, Confined (next a)) : Confined (act >>= next) :=
  fun d => (h d).bind hn

/-- What is tried gives the jobs that it gives otherwise. -/
theorem Confined.attempt {act : Action (Desk Cached) α} (h : Confined act) :
    Confined act.attempt := fun d hw => h d hw

/-- To give a result is no job. -/
theorem confined_pure (a : α) : Confined (pure a : Action (Desk Cached) α) :=
  (apart_pure a).confined

/-- To look at the queue is none either. -/
theorem confined_theQueue : Confined (theQueue : Action (Desk Cached) Cached) :=
  apart_theQueue.confined

/-- Work on the part in the table is confined if it is a job, and not to open. -/
theorem confined_onCold {act : Action (Desk Durable) α} (job : Durable.Job)
    (hs : job ≠ .ask .start) (h : ∀ e, (act.on e).2 = (job.act.on e).2) :
    Confined (onCold act) := by
  intro d hw
  have he : coldDesk ((onCold act).on d).2 = (job.act.on (coldDesk d)).2 := h (coldDesk d)
  rw [he]
  exact ⟨hw.job job fun hj => absurd hj hs,
    [job], (Durable.Course.nil (coldDesk d)).job hw.balanced job⟩

/-- Holding entries is a job of the part in the table. -/
theorem confined_hold (entries : List Entry) : Confined (onCold (Durable.hold entries)) :=
  confined_onCold (.hold entries) nofun fun _ => rfl

/-- So is reading by ids. -/
theorem confined_peekIds (ids : List UInt64) : Confined (onCold (Durable.peekIds ids)) :=
  confined_onCold (.peekIds ids) nofun (Durable.left_of_seen _ rfl)

/-- So is taking by ids. -/
theorem confined_takeIds (ids : List UInt64) : Confined (onCold (Durable.takeIds ids)) :=
  confined_onCold (.takeIds ids) nofun (Durable.left_of_seen _ rfl)

/-- So is deleting by ids. -/
theorem confined_deleteIds (ids : List UInt64) : Confined (onCold (Durable.deleteIds ids)) :=
  confined_onCold (.deleteIds ids) nofun (Durable.left_of_seen _ rfl)

/-- So is reading the slots. -/
theorem confined_slots : Confined (onCold Durable.slots) :=
  confined_onCold .slots nofun (Durable.left_of_seen _ rfl)

/-- So is answering a request that is not to open. -/
theorem confined_request {act : Action (Desk Durable) α} (request : Request) (hs : request ≠ .start)
    (view : α → Reply) (h : serve request = act >>= fun a => pure (view a)) :
    Confined (onCold act) :=
  confined_onCold (.ask request) (by rintro ⟨⟩; exact hs rfl)
    fun e => (Durable.left_of_seen view h e).trans (Durable.left_of_seen _ rfl e)

/-! ## What a cached queue does -/

/-- The index is no concern of the part in the table. -/
theorem confined_reindex (change : Roll Resident → Roll Resident) : Confined (reindex change) :=
  (apart_changeQueue fun _ => rfl).confined

/-- Nor is what is kept in memory. -/
theorem confined_heat (entries : List Entry) : Confined (heat entries) :=
  (apart_changeQueue fun _ => rfl).confined

/-- Nor is what is let go from there. -/
theorem confined_cool (ids : List UInt64) : Confined (cool ids) :=
  confined_theQueue.bind fun _ =>
    Confined.bind (apart_changeQueue fun _ => rfl).confined fun _ => confined_pure _

/-- Nor are the events that are counted. -/
theorem confined_count (change : Totals → Totals) : Confined (count change) :=
  (apart_count change).confined

/-- Writing the rows of a put is one job, whether or not they may be held back. -/
theorem confined_writeRows (needed wanted : List Entry) : Confined (writeRows needed wanted) := by
  unfold writeRows
  split
  · exact (confined_hold _).bind fun _ => confined_pure _
  · refine (confined_hold wanted).attempt.bind fun outcome => ?_
    cases outcome with
    | ok => exact confined_pure _
    | error fault =>
      dsimp only
      split
      · exact (confined_count _).bind fun _ => confined_pure _
      · exact (apart_throw fault).confined

/-- A put gives the part in the table the rows to hold, and nothing else. -/
theorem confined_place (new : List Entry) : Confined (place new) := by
  refine confined_theQueue.bind fun q => ?_
  refine (confined_writeRows _ _).bind fun _ => ?_
  refine (confined_cool _).bind fun _ => ?_
  refine (confined_heat _).bind fun _ => ?_
  exact (confined_reindex _).bind fun _ => confined_count _

/-- Refilling memory has it read by ids. -/
theorem confined_promote : Confined promote := by
  refine confined_theQueue.bind fun q => ?_
  dsimp only
  split
  · exact confined_pure _
  · refine (confined_peekIds _).attempt.bind fun outcome => ?_
    cases outcome with
    | error => exact confined_pure _
    | ok entries =>
      refine (confined_heat entries).bind fun _ => ?_
      exact (confined_reindex _).bind fun _ => confined_count _

/-- Catching up has it hold what was held back. -/
theorem confined_flush : Confined flush := by
  refine confined_theQueue.bind fun q => ?_
  dsimp only
  split
  · exact confined_pure _
  · exact (confined_hold _).bind fun _ => confined_reindex _

/-- Restoring the prefix has it hold what must leave memory. -/
theorem confined_restorePrefix : Confined restorePrefix := by
  refine confined_theQueue.bind fun q => ?_
  dsimp only
  split
  · exact confined_promote
  · split
    · refine (confined_hold _).bind fun _ => ?_
      refine (confined_cool _).bind fun _ => ?_
      exact (confined_reindex _).bind fun _ => confined_promote
    · exact confined_promote

/-- Reading by keys has it read by ids. -/
theorem confined_fetch (keys : List Key) : Confined (fetch keys) := by
  refine confined_theQueue.bind fun q => ?_
  refine (confined_peekIds _).attempt.bind fun outcome => ?_
  cases outcome with
  | ok => exact confined_pure _
  | error fault =>
    dsimp only
    split
    · exact confined_pure _
    · exact (apart_throw fault).confined

/-- Memory and the index follow rows that are gone without touching the table, but for reading. -/
theorem confined_forgetting (ids : List UInt64) (change : Roll Resident → Roll Resident)
    (answer : List Entry → α) : Confined (do
      let taken ← cool ids
      reindex change
      promote
      return answer taken) := by
  refine (confined_cool _).bind fun _ => ?_
  refine (confined_reindex _).bind fun _ => ?_
  exact confined_promote.bind fun _ => confined_pure _

/-- Taking by keys has it take by ids, and read for what comes up into memory. -/
theorem confined_takeKeys (keys : List Key) : Confined (takeKeys keys) := by
  refine confined_theQueue.bind fun q => ?_
  exact (confined_takeIds _).bind fun _ => confined_forgetting _ _ _

/-- Removing by keys has it delete by ids, and read for what comes up into memory. -/
theorem confined_dropKeys (keys : List Key) : Confined (dropKeys keys) := by
  refine confined_theQueue.bind fun q => ?_
  exact (confined_deleteIds _).bind fun _ => confined_forgetting _ _ _

/-- A check of the phase is no job. -/
theorem confined_requireActive : Confined (requireActive : Action (Desk Cached) Unit) :=
  confined_theQueue.bind fun _ => (apart_require _).confined

/-- Nor is telling the watchers. -/
theorem confined_announce (closed : Bool) :
    Confined (announce closed : Action (Desk Cached) Unit) :=
  confined_theQueue.bind fun _ => (apart_record _).confined

/-- Reading gives the jobs of what is read. -/
theorem Confined.reading {act : Action (Desk Cached) α} (h : Confined act) :
    Confined (Desk.reading act) :=
  confined_requireActive.bind fun _ => h

/-- A change gives the jobs of what is changed, although it is tried first. -/
theorem Confined.altering {act : Action (Desk Cached) α} (h : Confined act) :
    Confined (Cached.altering act) := by
  refine confined_requireActive.bind fun _ => ?_
  refine h.attempt.bind fun outcome => ?_
  exact (confined_announce false).bind fun _ => (apart_require outcome).confined

/-- A check of the bounds is no job. -/
theorem confined_requireRoom : Confined (requireRoom : Action (Desk Cached) Unit) := by
  refine confined_theQueue.bind fun q => ?_
  split
  · exact confined_pure _
  · exact (confined_count _).bind fun _ => (apart_throw _).confined

/-- Around a put, hooks are called, which is no job. -/
theorem confined_put (batch : List Entry) (bypass : Bool) : Confined (put batch bypass) := by
  have hstore : Confined (do
      altering do
        requireRoom
        let new := (← theQueue).fresh batch
        if !new.isEmpty then place new
      return true : Action (Desk Cached) Bool) := by
    refine Confined.bind (Confined.altering ?_) fun _ => confined_pure _
    refine confined_requireRoom.bind fun _ => ?_
    refine confined_theQueue.bind fun q => ?_
    dsimp only
    split
    · exact confined_place _
    · exact confined_pure _
  refine confined_requireActive.bind fun _ => ?_
  refine confined_theQueue.bind fun q => ?_
  dsimp only
  refine Confined.bind (apart_record _).confined fun _ => ?_
  split
  · refine hstore.bind fun stored => ?_
    split
    · exact (apart_record _).confined
    · exact confined_pure _
  · exact confined_pure _

/-- Work in memory behind a check uses the store no more than without it. -/
theorem store_of_checked {check : Action (Desk Ram) Unit} {act : Action (Desk Ram) α}
    (hc : ∀ r, (check.on r).2 = r) (h : ∀ r, (act.on r).2.store = r.store) (r : Desk Ram) :
    ((check >>= fun _ => act).on r).2.store = r.store := by
  have hr := hc r
  rw [Action.on_bind]
  rcases ho : check.on r with ⟨_ | _, r'⟩
  · rw [ho] at hr
    exact congrArg Desk.store hr
  · rw [ho] at hr
    exact hr ▸ h r'

/-- Opening the part in memory touches no row. -/
theorem confined_hotStart : Confined (onHot Ram.start) :=
  (apart_onHot (store_of_checked (fun _ => rfl) fun _ => rfl)).confined

/-- Nor does choosing there. -/
theorem confined_hotSelect (admits : Entry → Bool) : Confined (onHot (Ram.select admits)) :=
  (apart_onHot (store_of_checked (fun _ => rfl) fun _ => rfl)).confined

/-- Nor does clearing it. -/
theorem confined_hotClear : Confined (onHot Ram.clear) :=
  (apart_onHot (store_of_checked (fun _ => rfl) fun _ => rfl)).confined

/-- Nor does closing it. -/
theorem confined_hotShutdown : Confined (onHot Ram.shutdown) := by
  refine (apart_onHot fun r => ?_).confined
  rw [Ram.shutdown, Action.on_bind_of_ok (on_theQueue r)]
  split
  · rfl
  · rfl

/-- Opening has the part in the table read its slots, and restore the prefix. -/
theorem confined_resume : Confined resume := by
  refine confined_hotStart.bind fun _ => ?_
  refine confined_slots.bind fun slots => ?_
  refine (confined_hotSelect _).bind fun entries => ?_
  refine (confined_reindex _).bind fun _ => ?_
  refine confined_restorePrefix.bind fun _ => ?_
  refine Confined.bind (apart_changeQueue fun _ => rfl).confined fun _ => ?_
  exact confined_announce false

/-- Closing has it hold what was held back, and then close. -/
theorem confined_shutdown : Confined shutdown := by
  refine confined_theQueue.bind fun q => ?_
  have hrest : Confined (do
      onHot Ram.shutdown
      let outcome ← (onCold Durable.shutdown).attempt
      changeQueue fun q => { q with phase := .shutdown }
      announce true
      Action.require outcome : Action (Desk Cached) Unit) := by
    refine confined_hotShutdown.bind fun _ => ?_
    refine (confined_request .shutdown nofun (fun _ => .done) rfl).attempt.bind fun outcome => ?_
    refine Confined.bind (apart_changeQueue fun _ => rfl).confined fun _ => ?_
    exact (confined_announce true).bind fun _ => (apart_require outcome).confined
  dsimp only
  split
  · exact confined_pure _
  · split
    · exact confined_flush.attempt.bind fun _ => hrest
    · exact hrest

/-- Destroying has it be destroyed. -/
theorem confined_destroy : Confined destroy := by
  refine confined_theQueue.bind fun q => ?_
  split
  · exact confined_pure _
  · refine Confined.bind (apart_onHot fun _ => rfl).confined fun _ => ?_
    refine (confined_request .destroy nofun (fun _ => .done) rfl).attempt.bind fun outcome => ?_
    refine Confined.bind (apart_changeQueue fun _ => rfl).confined fun _ => ?_
    exact (confined_announce true).bind fun _ => (apart_require outcome).confined

/-- A notification has it hold what was held back, and read for memory. -/
theorem confined_catchUp : Confined catchUp := by
  refine confined_theQueue.bind fun q => ?_
  split
  · refine confined_flush.attempt.bind fun outcome => ?_
    cases outcome with
    | ok => exact confined_promote
    | error => exact confined_pure _
  · exact confined_pure _

/-- What is asked of a cached queue that is not to open it does to its rows nothing but give jobs to
the part in the table. -/
theorem confined_serve {request : Request} (hs : request ≠ .start) :
    Confined (serve request : Action (Desk Cached) Reply) := by
  cases request with
  | start => exact absurd rfl hs
  | shutdown => exact confined_shutdown.bind fun _ => confined_pure _
  | destroy => exact confined_destroy.bind fun _ => confined_pure _
  | put batch bypass => exact (confined_put batch bypass).bind fun _ => confined_pure _
  | peek w band =>
    refine Confined.bind (Confined.reading ?_) fun _ => confined_pure _
    exact confined_theQueue.bind fun _ => confined_fetch _
  | peekFirst =>
    refine Confined.bind (Confined.reading ?_) fun _ => confined_pure _
    exact confined_theQueue.bind fun _ => confined_fetch _
  | peekBefore limit =>
    refine Confined.bind (Confined.reading ?_) fun _ => confined_pure _
    refine confined_theQueue.bind fun q => ?_
    dsimp only
    split
    · exact confined_fetch _
    · exact confined_pure _
  | peekLowest w limit leaveOne =>
    refine Confined.bind (Confined.reading ?_) fun _ => confined_pure _
    exact confined_theQueue.bind fun _ => (confined_fetch _).bind fun _ => confined_pure _
  | takeLowest w limit leaveOne =>
    refine Confined.bind (Confined.altering ?_) fun _ => confined_pure _
    exact confined_theQueue.bind fun _ => (confined_takeKeys _).bind fun _ => confined_pure _
  | take w low high =>
    refine Confined.bind (Confined.altering ?_) fun _ => confined_pure _
    exact confined_theQueue.bind fun _ => confined_takeKeys _
  | removeFirst count | removeWindow | removeUpTo | removeTransient =>
    refine Confined.bind (Confined.altering ?_) fun _ => confined_pure _
    exact confined_theQueue.bind fun _ => confined_dropKeys _
  | removeListed entries =>
    refine Confined.bind ?_ fun _ => confined_pure _
    change Confined (removeListed entries)
    unfold removeListed
    split
    · exact Confined.reading (confined_pure _)
    · exact Confined.altering (confined_theQueue.bind fun _ => confined_dropKeys _)
  | clear =>
    refine Confined.bind (Confined.altering ?_) fun _ => confined_pure _
    refine confined_theQueue.bind fun q => ?_
    refine Confined.bind (confined_request .clear nofun Reply.count rfl) fun _ => ?_
    refine confined_hotClear.bind fun _ => ?_
    exact (confined_reindex _).bind fun _ => confined_pure _
  | references =>
    refine Confined.bind (Confined.reading ?_) fun _ => confined_pure _
    exact confined_theQueue.bind fun _ => confined_pure _
  | select admits =>
    refine Confined.bind (Confined.reading ?_) fun _ => confined_pure _
    refine (confined_hotSelect admits).bind fun warm => ?_
    refine (confined_request (.select admits) nofun Reply.entries rfl).bind fun rows => ?_
    exact confined_theQueue.bind fun _ => confined_pure _

/-- Opening is confined too, and opens the part in the table over the rows that are there. -/
theorem confined_start (hb : (Durable.rowTotals (coldDesk d)).bytes < 2 ^ 64) :
    ConfinedAt d start := by
  intro hw
  by_cases hd : d.queue.phase = .destroyed
  · rw [start_destroyed hd]
    exact ⟨hw, [], .nil _⟩
  by_cases ha : d.queue.phase = .active
  · rw [start_active ha]
    exact ⟨hw, [], .nil _⟩
  have hopen : ConfinedAt d (onCold Durable.start) := fun hw => by
    have he : coldDesk ((onCold Durable.start).on d).2 =
        ((Durable.Job.ask .start).act.on (coldDesk d)).2 :=
      (Durable.left_of_seen (fun _ => Reply.done) rfl (coldDesk d)).trans
        (Durable.left_of_seen (fun _ => ()) rfl _)
    rw [he]
    exact ⟨hw.job _ fun _ => hb, [.ask .start], (Durable.Course.nil _).job hw.balanced _⟩
  have hrest : ∀ _ : Unit, Confined (do
      if d.queue.phase = .uninitialized then
        let _ ← onCold Durable.removeTransient
      resume : Action (Desk Cached) Unit) := fun _ => by
    split
    · refine (confined_request .removeTransient nofun Reply.count rfl).bind fun _ => ?_
      exact confined_resume
    · exact confined_resume
  have halive : (requireAlive : Action (Desk Cached) Unit).on d = (.ok (), d) :=
    on_requireAlive_alive hd
  have he : start.on d = (onCold Durable.start >>= fun _ => do
      if d.queue.phase = .uninitialized then
        let _ ← onCold Durable.removeTransient
      resume).on d := by
    rw [start, Action.on_bind_of_ok halive, Action.on_bind_of_ok (on_theQueue d), if_neg ha]
  rw [he]
  exact (hopen.bind hrest) hw

/-! ## Histories -/

/-- A cached queue with a history, in which the bytes of its rows are a word whenever it is opened
over them. -/
inductive Worked : Desk Cached → Prop
  /-- It is made, over whatever rows an earlier one of its name has left. -/
  | made {d : Desk Cached} (h : Made d) : Worked d
  /-- Something happens to it. -/
  | step {d d' : Desk Cached} {event : Event} (h : Worked d) (hs : Step d event d')
      (hb : event = .ask .start → (Durable.rowTotals (coldDesk d)).bytes < 2 ^ 64) : Worked d'

/-- A queue that was opened only over rows whose bytes are a word has a history. -/
theorem Worked.reachable (h : Worked d) : Reachable d := by
  induction h with
  | made h => exact ⟨_, [], h, .nil _⟩
  | step _ hs _ ih =>
    obtain ⟨d₀, events, hm, hr⟩ := ih
    exact ⟨d₀, _, hm, hr.snoc hs⟩

/-- What happens to it one after the other is a history, as long as it is not opened. -/
theorem Worked.runs {events : List Event} (h : Worked d) (hr : Runs d events d')
    (hs : Event.ask .start ∉ events) : Worked d' := by
  induction hr with
  | nil => exact h
  | snoc _ hstep ih =>
    rw [List.mem_append, not_or, List.mem_singleton] at hs
    exact (ih hs.1).step hstep fun he => absurd he.symm hs.2

/-- A request to a cached queue gives jobs to the part in the table. -/
theorem asked_confined (request : Request)
    (hb : request = .start → (Durable.rowTotals (coldDesk d)).bytes < 2 ^ 64) :
    ConfinedAt d (serve request) := by
  by_cases hs : request = .start
  · subst hs
    exact (confined_start (hb rfl)).bind fun _ => confined_pure _
  · exact confined_serve hs d

/-- The part in the table of a queue that is made is made with it. -/
theorem create_cold {id : StorageId} {bounds : Bounds} {q : Cached}
    (h : create id bounds = .ok q) : Durable.create id bounds = .ok q.cold := by
  have hq := create_eq h
  rw [create] at h
  rw [Durable.create]
  cases hv : bounds.validate with
  | error => rw [hv] at h; cases h
  | ok => rw [hq]; rfl

/-- The part in the table of a cached queue with a history has one itself. -/
theorem Worked.cold (h : Worked d) : Durable.Worked (coldDesk d) := by
  induction h with
  | @made d h =>
    obtain ⟨⟨q, hooks, hq, he⟩, es, hp⟩ := h
    have hcold := create_cold hq
    have hqueue : d.queue.cold = q.cold := by rw [he]
    have hname : d.queue.cold.storageId = d.queue.storageId := by rw [he, create_eq hq]
    have hbounds : d.queue.cold.bounds = d.queue.bounds := by rw [he, create_eq hq]
    rw [← hname, ← hbounds] at hcold
    rw [← hname] at hp
    exact .made ⟨⟨q.cold, q.cold.hooks, hcold, hqueue⟩, es, hp⟩
  | @step d d' event h hs hb ih =>
    obtain ⟨l, hl⟩ := reachable_holds h.reachable
    have hnamed : d.queue.cold.storageId = d.queue.storageId := hl.shelved.named
    cases hs with
    | ask request => exact (asked_confined request (fun hr => hb (hr ▸ rfl)) ih).1
    | notified => exact (confined_catchUp d ih).1
    | meanwhile hs =>
      have hname : d.queue.cold.name = d.queue.storageId.text := congrArg StorageId.text hnamed
      exact ih.meanwhile (hname.symm ▸ hs) d.calls
    | hooked => exact ih
    | renewed hq hooks =>
      have hcold := create_cold hq
      rw [← hnamed] at hcold
      exact ih.renewed hcold _ []

end Cached

/-! ## The books are always in order -/

/-- The totals that a queue in the table keeps by hand are those of its rows whenever it is active,
and have whatever is taken off them, whatever jobs it was given and wherever the database failed it.
So it is with the part in the table of a cached queue: a cached queue does nothing to it but give it
jobs, one after the other, each of which finds the books in order. All of this supposes that others
leave the rows of the queue alone, and that the bytes of the rows over which it is opened are a
word. -/
theorem totals_never_drift {d : Desk Durable} {c : Desk Cached} :
    (Durable.Worked d → d.queue.phase = .active → Durable.Balanced d) ∧
    (Cached.Worked c → c.queue.phase = .active →
      c.queue.cold.phase = .active ∧ Durable.Balanced (Cached.coldDesk c)) ∧
    (Cached.Worked c → (∀ request : Request,
        (request = .start → (Durable.rowTotals (Cached.coldDesk c)).bytes < 2 ^ 64) →
        ∃ jobs, Durable.Course (Cached.coldDesk c) jobs
          (Cached.coldDesk ((serve request).on c).2)) ∧
      ∃ jobs, Durable.Course (Cached.coldDesk c) jobs
        (Cached.coldDesk (Cached.catchUp.on c).2)) := by
  refine ⟨fun hd ha => hd.balanced ha, fun hc ha => ?_, fun hc => ⟨fun request hb => ?_, ?_⟩⟩
  · obtain ⟨l, hl⟩ := Cached.reachable_stocks hc.reachable ha
    exact ⟨hl.cold, hc.cold.balanced hl.cold⟩
  · exact (Cached.asked_confined request hb hc.cold).2
  · exact (Cached.confined_catchUp c hc.cold).2

/-- A queue in the table that was given two entries, changed one in place, and deleted the other. -/
def Durable.revised : Desk Durable :=
  [.ask (.put [.blank 1 true, .blank 2 false, .blank 1 false] false),
    .modify ⟨1, .normal, 9, false, ⟨"", .empty⟩⟩, .deleteIds [2, 7]].foldl
    (fun d job => ((Job.act job).on d).2) ((serve .start).on newborn).2

/-- A cached queue with two entries, of which memory has room for one. -/
def Cached.filled : Desk Cached :=
  (serveAll [.put [.sized 1 4, .sized 2 9] false] ((serve .start).on newborn).2).2

/-- The revised queue came to be by jobs. -/
theorem Durable.worked_revised : Worked revised := worked_started.jobs (by simp)

/-- The filled one came to be by requests. -/
theorem Cached.worked_filled : Worked filled := by
  have hmade : Worked newborn :=
    .made ⟨⟨newborn.queue, {}, rfl, rfl⟩, [], .of_rowsOf_nil rfl⟩
  have hstarted : Worked ((serve .start).on newborn).2 :=
    hmade.step (.ask _ .start) fun _ => by decide +kernel
  exact hstarted.runs (runs_serveAll _ _) (by simp)

/-- The books of that queue, and of the rows of a cached queue whose entries are taken. -/
theorem totals_never_drift_revised :
    (Durable.Worked Durable.revised ∧ Durable.Balanced Durable.revised ∧
      Durable.revised.queue.tally = ⟨1, 9, 0, 0⟩) ∧
    Cached.Worked Cached.filled ∧ Durable.Balanced (Cached.coldDesk Cached.filled) ∧
      Cached.filled.queue.cold.tally = ⟨2, 13, 2, 13⟩ ∧
      ∃ jobs, Durable.Course (Cached.coldDesk Cached.filled) jobs
        (Cached.coldDesk ((serve (.take {} .lowest .highest)).on Cached.filled).2) := by
  have hd := Durable.worked_revised
  have hc := Cached.worked_filled
  have hdrift := @totals_never_drift Durable.revised Cached.filled
  refine ⟨⟨hd, hdrift.1 hd (by decide +kernel), by decide +kernel⟩, hc, ?_, by decide +kernel, ?_⟩
  · exact (hdrift.2.1 hc (by decide +kernel)).2
  · exact (hdrift.2.2 hc).1 _ nofun

end Spillway
