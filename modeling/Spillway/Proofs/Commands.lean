import Spillway.Cli.Perform
import Spillway.Proofs.ByIds

/-!
# What commands do to the table

A command that names a queue opens it as a durable queue and closes it again; neither touches a row.
What it does in between is to read, or to remove a part of the rows of that queue. A removal that
succeeds removes exactly that part and reports its number, and it succeeds exactly if the queue can
be opened and what it removes can be read; otherwise, as after every other command, each row is as
it was.
-/

namespace Spillway

/-! ## Statements that read -/

namespace Statement

variable {α β : Type} {queue : String}

/-- A statement that leaves the rows as they are. -/
def Reads (statement : Statement α) : Prop :=
  ∀ rows a rows', statement rows = .ok (a, rows') → rows' = rows

/-- To give a result leaves the rows. -/
theorem reads_pure (a : α) : Reads (pure a : Statement α) := by
  rintro rows _ _ ⟨⟩
  rfl

/-- So does looking at them. -/
theorem reads_get : Reads (get : Statement (List Row)) := by
  rintro rows _ _ ⟨⟩
  rfl

/-- So does what does not ask the table. -/
theorem reads_lift (x : Except Refusal α) : Reads (liftM x : Statement α) := by
  cases x with
  | ok a => exact reads_pure a
  | error refusal => exact nofun

/-- To read twice is to read. -/
theorem Reads.bind {act : Statement α} {next : α → Statement β} (h : Reads act)
    (hn : ∀ a, Reads (next a)) : Reads (act >>= next) := by
  intro rows b rows' hb
  cases ho : act rows with
  | ok p =>
    rw [bind_of_ok ho] at hb
    exact (hn p.1 _ _ _ hb).trans (h _ _ _ ho)
  | error refusal =>
    rw [bind_of_error ho] at hb
    cases hb

/-- To read for each member of a list is to read. -/
theorem reads_mapM {act : β → Statement α} (h : ∀ b, Reads (act b)) (l : List β) :
    Reads (l.mapM act) :=
  mapM_closed Reads reads_pure Reads.bind h l

/-- To count is to read. -/
theorem reads_count : Reads (count queue) := reads_get.bind fun _ => reads_lift _

/-- So is to name all queues. -/
theorem reads_queueNames : Reads queueNames :=
  reads_get.bind fun _ => reads_mapM (fun _ => (reads_lift _).bind fun _ => reads_pure _) _

/-- So is to give a head window, found first and read then. -/
theorem reads_getEntries (w : Window) (band : Band) : Reads (getEntries queue w band) := by
  have hslots : Reads (headSlots queue w band) :=
    reads_get.bind fun _ => (reads_lift _).bind fun _ => reads_pure _
  exact hslots.bind fun _ => reads_get.bind fun _ =>
    (reads_mapM (fun _ => reads_lift _) _).bind fun _ => reads_pure _

end Statement

/-! ## Removals -/

namespace Cli

/-- The parts of a queue that commands remove. -/
inductive Part
  /-- The entries that need not survive a restart. -/
  | transient
  /-- All entries. -/
  | all
  deriving DecidableEq

/-- Whether a row belongs to a part of a queue. -/
def Part.picks (part : Part) (id : StorageId) (r : Row) : Bool :=
  r.queue == id.text && (part = .all || !r.persistent)

/-- What is printed once a number of entries of a queue has been removed. -/
def Part.report (part : Part) (id : StorageId) (removed : Nat) : String :=
  linesText ["Removed " ++ toString removed ++
    (match part with
    | .transient => " transient entries from '"
    | .all => " entries from '") ++ id.text ++ "'"]

/-- What is said to have failed if a part of a queue cannot be removed. -/
def Part.failing : Part → String
  | .transient => "failed to remove transient entries"
  | .all => "failed to clear queue"

/-- The written id and the part of a queue that a command removes. -/
def Command.removal? : Command → Option (String × Part)
  | .purgeTransient text => some (text, .transient)
  | .clear text => some (text, .all)
  | .queues | .stats _ | .peek .. | .ping => none

/-- A queue that can be opened in a table of a name with some rows. -/
structure Opens (tableName : String) (rows : List Row) (id : StorageId) : Prop where
  /-- The name can be that of a table. -/
  named : TableName.isReserved tableName = false
  /-- Its sizes can be summed. -/
  counted : ∃ tally, Statement.tallyOf (Row.inOrder (Statement.rowsOf id.text rows)) = .ok tally

/-- A part of a queue that can be removed. -/
structure Removable (tableName : String) (rows : List Row) (part : Part) (id : StorageId) : Prop
    extends Opens tableName rows id where
  /-- Transient entries are read as they are removed. -/
  legible : part = .transient → ∀ r ∈ rows, part.picks id r = true → r.readable = true

/-! ## Jobs -/

namespace Job

variable {σ α β : Type}

/-- The outcome of a job and the state it leaves. -/
def on (job : Job σ α) (s : σ) : Except Complaint α × σ := (ExceptT.run job).run s

/-- A job may look at what it works on. -/
theorem on_get (s : σ) : Job.on (get : Job σ σ) s = (.ok s, s) := rfl

/-- A complaint ends a sequence of jobs; the state reached so far is kept. -/
theorem on_bind (job : Job σ α) (next : α → Job σ β) (s : σ) :
    Job.on (job >>= next) s =
      match Job.on job s with
      | (.ok a, s') => Job.on (next a) s'
      | (.error complaint, s') => (.error complaint, s') := by
  rcases h : Job.on job s with ⟨r, s'⟩
  have run : StateT.run (ExceptT.run job) s = (r, s') := h
  simp only [on, ExceptT.run_bind, StateT.run_bind]
  rw [run]
  cases r <;> rfl

/-- A job that does something complains of what that fails with. -/
theorem on_during (what : String) (act : Action σ α) (s : σ) :
    Job.on (during what act) s = ((act.on s).1.mapError (Complaint.mk what ·), (act.on s).2) := rfl

end Job

end Cli

/-! ## Opened queues -/

/-- Over a link that serves, a statement is run, or the database says why not. -/
theorem Store.call_serving {α : Type} {s : Store} {rows : List Row} (task : Task)
    (statement : Statement α) (hs : s.link.Serving) (ht : s.table = some rows) :
    (∃ a rows' s', statement rows = .ok (a, rows') ∧
      (Store.call task statement).on s = (.ok a, s') ∧ s'.table = some rows' ∧ s.Used s') ∨
    ∃ refusal fault s', statement rows = .error refusal ∧
      (Store.call task statement).on s = (.error fault, s') ∧ s'.table = some rows := by
  cases hst : statement rows with
  | ok p =>
    rcases call_of_ok task ht hst with ⟨s', ho, ht', hu⟩ | ⟨fault, s', -, hm⟩
    · exact .inl ⟨p.1, p.2, s', rfl, ho, ht', hu⟩
    · exact absurd hs hm.unserved
  | error refusal =>
    rcases call_cases task statement ht with ⟨a, rows', s', hst', -⟩ | ⟨fault, s', ho, ht', -⟩
    · rw [hst] at hst'
      cases hst'
    · exact .inr ⟨refusal, fault, s', rfl, ho, ht'.trans ht⟩

/-- A statement that reads leaves the table, if there is one, as it is. -/
theorem Store.call_reads {α : Type} {s : Store} (task : Task) {statement : Statement α}
    (h : statement.Reads) : ((Store.call task statement).on s).2.table = s.table := by
  cases ht : s.table with
  | none =>
    obtain ⟨fault, s', ho, ht', -⟩ : ∃ fault s',
        (Store.call task statement).on s = (.error fault, s') ∧ s'.table = s.table ∧ s.Used s' := by
      refine run_of_error task (?_ : _ = Except.error Refusal.noTable)
      rw [ht]
    rw [ho]
    exact ht'.trans ht
  | some rows =>
    rcases call_cases task statement ht with
      ⟨a, rows', s', hst, ho, ht', -⟩ | ⟨fault, s', ho, ht', -⟩
    · rw [ho]
      exact ht'.trans (congrArg some (h _ _ _ hst))
    · rw [ho]
      exact ht'.trans ht

/-- A probe does not touch the table. -/
theorem Store.ping_table (s : Store) : (Store.ping.on s).2.table = s.table := by
  rcases checkout_cases .ping s with ⟨link, ho, -⟩ | ⟨fault, s', ho, hm⟩
  · rw [ping, Action.on_bind_of_ok ho, checkin, Action.on_bind_of_ok (Action.on_modify _ _),
      Action.on_bind_of_ok (Action.on_get _)]
    cases link.giveBack.reachable with
    | true => rfl
    | false => exact table_markLost _
  · rw [ping, Action.on_bind_of_error ho]
    exact hm.table

/-- Where there is no connection and none can be had, no call gets through. -/
theorem Link.barred_of_unreachable {l : Link} (hs : l.forecast = []) (hr : l.reachable = false)
    (hi : l.idle = 0) : l.Barred := by
  refine .inr (.inl ?_)
  have hl : l.advance = l := by rw [Link.advance, hs]
  rw [hl]
  cases ht : l.settings.testFirst with
  | true => simp [Link.acquire, hr, ht]
  | false => simp [Link.acquire, hr, hi, ht]

/-- Over a barred link no work is done. -/
theorem Store.run_barred {α : Type} {s : Store} (task : Task)
    (work : Option (List Row) → Except Refusal (α × Option (List Row))) (h : s.link.Barred) :
    ∃ fault s', (run task work).on s = (.error fault, s') := by
  rcases checkout_outcome task s with ⟨s', hc, ha, hg⟩ | ⟨outage, s', hc⟩
  · have hcut : s.link.cutsOff = true :=
      (h.resolve_left (by simp [ha])).resolve_left (by simp [hg])
    simp only [run, Action.on_bind, Action.on_get, hc, hcut, if_true, checkin, Action.on_modify,
      breakOff, Action.on_of]
    exact ⟨_, _, rfl⟩
  · simp only [run, Action.on_bind, Action.on_get, hc]
    exact ⟨_, _, rfl⟩

namespace Durable

open Desk

/-- A queue that has been opened in a table with some rows, over a link that serves. -/
structure Opened (id : StorageId) (rows : List Row) (d : Desk Durable) : Prop where
  active : d.queue.phase = .active
  named : d.queue.storageId = id
  table : d.store.table = some rows
  serving : d.store.link.Serving

variable {α : Type} {id : StorageId} {rows : List Row} {d : Desk Durable}

/-- An opened queue asks about its own rows, and stays open. -/
theorem Opened.ask (h : Opened id rows d) (task : Task) (statement : String → Statement α) :
    (∃ a rows' d', statement id.text rows = .ok (a, rows') ∧
      (Durable.ask task statement).on d = (.ok a, d') ∧ Opened id rows' d') ∨
    ∃ refusal fault d', statement id.text rows = .error refusal ∧
      (Durable.ask task statement).on d = (.error fault, d') ∧ d'.store.table = some rows := by
  have hname : d.queue.name = id.text := congrArg StorageId.text h.named
  rw [ask_on, hname]
  rcases Store.call_serving task (statement id.text) h.serving h.table with
    ⟨a, rows', s', hst, ho, ht, hu⟩ | ⟨refusal, fault, s', hst, ho, ht⟩
  · rw [ho]
    exact .inl ⟨a, rows', _, hst, rfl, h.active, h.named, ht, hu.link.serving h.serving⟩
  · rw [ho]
    exact .inr ⟨refusal, fault, _, hst, rfl, ht⟩

/-- A look into an opened queue leaves all rows. -/
theorem Opened.peek (h : Opened id rows d) (w : Window) (band : Band) :
    ((peek w band).on d).2.store.table = some rows := by
  rw [Durable.peek, on_reading h.active]
  rcases h.ask .getEntries (fun name => Statement.getEntries name w band) with
    ⟨a, rows', d', hst, ho, h'⟩ | ⟨refusal, fault, d', hst, ho, ht⟩
  · rw [ho, h'.table, Statement.reads_getEntries w band _ _ _ hst]
  · rw [ho, ht]

/-! ## Removals from opened queues -/

/-- The deletion of transient rows reads them, and is undone if one of them cannot be read. -/
theorem deleteTransient_eq (id : StorageId) (rows : List Row) :
    Statement.deleteTransient id.text rows =
      if ∀ r ∈ rows.filter (Cli.Part.transient.picks id), r.readable = true then
        .ok ((Row.decode (rows.filter (Cli.Part.transient.picks id))).map Entry.slot,
          rows.filter (!Cli.Part.transient.picks id ·))
      else .error .unreadableRow := by
  have hpick : (fun r : Row => r.queue == id.text && !r.persistent) =
      Cli.Part.transient.picks id := by
    funext r
    simp [Cli.Part.picks]
  rw [← hpick]
  exact Statement.deleteSlots_eq _ _

/-- Deleting all deletes what the part of all entries picks, and counts it. -/
theorem deleteAll_eq (id : StorageId) (rows : List Row) :
    Statement.deleteAll id.text rows =
      .ok ((rows.filter (Cli.Part.all.picks id)).length,
        rows.filter (!Cli.Part.all.picks id ·)) := by
  have hpick : (fun r : Row => r.queue == id.text) = Cli.Part.all.picks id := by
    funext r
    simp [Cli.Part.picks]
  rw [← hpick]
  rfl

/-- How a part of a queue is removed. -/
def removing : Cli.Part → Action (Desk Durable) Nat
  | .transient => removeTransient
  | .all => clear

/-- What is removed of an opened queue is exactly its part, and its number is told. Only where a
transient row cannot be read, nothing is removed. -/
theorem Opened.remove (h : Opened id rows d) (part : Cli.Part) :
    ((part = .transient → ∀ r ∈ rows, part.picks id r = true → r.readable = true) ∧
      ∃ d', (removing part).on d = (.ok (rows.filter (part.picks id)).length, d') ∧
        d'.store.table = some (rows.filter (!part.picks id ·))) ∨
    (¬ (part = .transient → ∀ r ∈ rows, part.picks id r = true → r.readable = true) ∧
      ∃ fault d', (removing part).on d = (.error fault, d') ∧ d'.store.table = some rows) := by
  cases part with
  | transient =>
    have hlegible : (∀ r ∈ rows.filter (Cli.Part.transient.picks id), r.readable = true) ↔
        (Cli.Part.transient = .transient →
          ∀ r ∈ rows, Cli.Part.transient.picks id r = true → r.readable = true) := by
      simp [List.mem_filter]
    have hseen : (removing .transient).on d =
        (((deleting .deleteTransient Statement.deleteTransient).on d).1.map List.length,
          ((deleting .deleteTransient Statement.deleteTransient).on d).2) :=
      Action.on_seen _ List.length d
    have heq := deleteTransient_eq id rows
    rw [hseen, deleting, on_changing h.active, ← hlegible]
    rcases h.ask .deleteTransient Statement.deleteTransient with
      ⟨slots, rows', d', hst, ho, h'⟩ | ⟨refusal, fault, d', hst, ho, ht⟩
    · rw [hst] at heq
      split at heq
      · next hall =>
        cases heq
        rw [Action.on_bind_of_ok ho, ← Row.length_decode hall, ← List.length_map Entry.slot]
        exact .inl ⟨hall, _, rfl, h'.table⟩
      · cases heq
    · rw [hst] at heq
      split at heq
      · cases heq
      · next hall =>
        rw [Action.on_bind_of_error ho]
        exact .inr ⟨hall, fault, d', rfl, ht⟩
  | all =>
    refine .inl ⟨nofun, ?_⟩
    change ∃ d', (changing _).on d = _ ∧ _
    rw [on_changing h.active, Action.on_bind]
    have heq := deleteAll_eq id rows
    rcases h.ask .deleteAll Statement.deleteAll with
      ⟨a, rows', d', hst, ho, h'⟩ | ⟨refusal, fault, d', hst, -⟩
    · rw [hst] at heq
      cases heq
      rw [ho]
      exact ⟨_, rfl, h'.table⟩
    · rw [hst] at heq
      cases heq

/-! ## Opening and closing -/

/-- A count adds up the rows of the queue, in their order. -/
theorem count_eq (queue : String) (rows : List Row) : Statement.count queue rows =
    (Statement.tallyOf (Row.inOrder (Statement.rowsOf queue rows))).map (·, rows) := rfl

/-- A queue is opened exactly if its table can be made and its rows can be counted; neither touches
a row. -/
theorem start_opens (h : d.store.link.Serving) (hq : d.queue.phase ≠ .destroyed)
    (hn : d.queue.storageId = id) :
    (Cli.Opens d.store.tableName d.store.rows id ∧
      ∃ d', start.on d = (.ok (), d') ∧ Opened id d.store.rows d') ∨
    (¬ Cli.Opens d.store.tableName d.store.rows id ∧
      ∃ fault d', start.on d = (.error fault, d') ∧ d'.store.rows = d.store.rows) := by
  have hname : d.queue.name = id.text := congrArg StorageId.text hn
  have halive : (requireAlive : Action (Desk Durable) Unit).on d = (.ok (), d) :=
    on_requireAlive_alive hq
  have hmake : (onStore Store.createTable : Action (Desk Durable) Unit).on d =
      ((Store.createTable.on d.store).1,
        { d with store := (Store.createTable.on d.store).2 }) := rfl
  rcases Store.createTable_cases d.store with
    ⟨made, hc, ht, hu, hnamed⟩ | ⟨fault, made, hc, ht, hu, hmissed⟩
  · rw [hc] at hmake
    have hask := ask_on .count Statement.count { d with store := made }
    have hcount := count_eq d.queue.name d.store.rows
    rcases Store.call_serving .count (Statement.count d.queue.name) (hu.link.serving h) ht with
      ⟨tally, rows', left, hst, hcall, ht', hu'⟩ | ⟨refusal, fault, left, hst, hcall, ht'⟩
    · rw [hcall] at hask
      have hrows := Statement.reads_count _ _ _ hst
      refine .inl ⟨⟨hnamed, tally, ?_⟩, { d with
        queue := { d.queue with tally, phase := .active }, store := left }, ?_, rfl, hn, ?_, ?_⟩
      · rw [hst, hname] at hcount
        cases htally : Statement.tallyOf (Row.inOrder (Statement.rowsOf id.text d.store.rows)) with
        | ok t =>
          rw [htally] at hcount
          cases hcount
          rfl
        | error refusal =>
          rw [htally] at hcount
          cases hcount
      · rw [start, Action.on_bind_of_ok halive, Action.on_bind_of_ok hmake,
          Action.on_bind_of_ok hask, on_changeQueue]
      · rw [ht', hrows]
      · exact hu'.link.serving (hu.link.serving h)
    · rw [hcall] at hask
      refine .inr ⟨fun hopens => ?_, fault, { d with store := left }, ?_, ?_⟩
      · obtain ⟨tally, htally⟩ := hopens.counted
        rw [hst, hname, htally] at hcount
        cases hcount
      · rw [start, Action.on_bind_of_ok halive, Action.on_bind_of_ok hmake,
          Action.on_bind_of_error hask]
      · rw [Store.rows, ht']
        rfl
  · rw [hc] at hmake
    refine .inr ⟨fun hcan => (hmissed hcan.named).unserved h, fault, { d with store := made },
      ?_, ?_⟩
    · rw [start, Action.on_bind_of_ok halive, Action.on_bind_of_error hmake]
    · exact congrArg (Option.getD · []) ht

/-- Over a barred link no queue is opened. -/
theorem start_barred (h : d.store.link.Barred) (hq : d.queue.phase ≠ .destroyed) :
    ∃ fault d', start.on d = (.error fault, d') := by
  have hmake : (onStore Store.createTable : Action (Desk Durable) Unit).on d =
      ((Store.createTable.on d.store).1,
        { d with store := (Store.createTable.on d.store).2 }) := rfl
  obtain ⟨fault, made, hc⟩ : ∃ fault made, Store.createTable.on d.store = (.error fault, made) := by
    simp only [Store.createTable, Action.on_bind, Action.on_get]
    exact Store.run_barred .createTable _ h
  rw [hc] at hmake
  refine ⟨fault, { d with store := made }, ?_⟩
  rw [start, Action.on_bind_of_ok (on_requireAlive_alive hq), Action.on_bind_of_error hmake]

end Durable

namespace Cli

open Durable (Opened)

variable {bounds : Bounds} {s : Store}

/-! ## Commands at work -/

/-- What is done on a queue between its opening and its closing. -/
def visit (opening : String) (job : Job (Desk Durable) String) : Job (Desk Durable) String := do
  during opening Durable.start
  let text ← job
  during "failed to close queue" Durable.shutdown
  return text

/-- A visit to a queue that can be opened comes to what is done there; closing it takes no row. -/
theorem visit_opened (opening : String) (job : Job (Desk Durable) String) {d d' : Desk Durable}
    (ho : Durable.start.on d = (.ok (), d')) :
    (Job.on (visit opening job) d).1 = (Job.on job d').1 ∧
      (Job.on (visit opening job) d).2.store = (Job.on job d').2.store := by
  have hstart : Job.on (during opening Durable.start) d = (.ok (), d') := by
    rw [Job.on_during, ho]
    rfl
  rw [visit, Job.on_bind, hstart]
  dsimp only
  rw [Job.on_bind]
  rcases Job.on job d' with ⟨complaint | text, e⟩
  · exact ⟨rfl, rfl⟩
  · obtain ⟨calls, hshut⟩ := Durable.shutdown_on e
    have hclose : Job.on (during "failed to close queue" Durable.shutdown) e =
        (.ok (), { e with queue := { e.queue with phase := e.queue.phase.closed }, calls }) := by
      rw [Job.on_during, hshut]
      rfl
    dsimp only
    rw [Job.on_bind, hclose]
    exact ⟨rfl, rfl⟩

/-- A visit to a queue that cannot be opened ends with the complaint of that. -/
theorem visit_shut {opening : String} {job : Job (Desk Durable) String} {d d' : Desk Durable}
    {fault : Fault} (ho : Durable.start.on d = (.error fault, d')) :
    Job.on (visit opening job) d = (.error ⟨opening, fault⟩, d') := by
  have hstart : Job.on (during opening Durable.start) d = (.error ⟨opening, fault⟩, d') := by
    rw [Job.on_during, ho]
    rfl
  rw [visit, Job.on_bind, hstart]

/-- Nothing is done at a queue whose id cannot be read. -/
theorem onQueue_unread {text : String} {fault : Fault} (hp : StorageId.parse text = .error fault)
    (job : StorageId → Job (Desk Durable) String) : Job.on (onQueue bounds text job) s =
      (.error ⟨"invalid storage id '" ++ text ++ "'", fault⟩, s) := by
  rw [onQueue, Job.on_bind, Job.on_during, Action.on_require, hp]
  rfl

/-- A new queue of an id over a store. -/
def newDesk (id : StorageId) (bounds : Bounds) (s : Store) : Desk Durable :=
  { queue := { storageId := id, bounds }, store := s }

/-- A job at a queue visits the queue that is made for the id. -/
theorem onQueue_read (hb : bounds.Consistent) {text : String} {id : StorageId}
    (hp : StorageId.parse text = .ok id) (job : StorageId → Job (Desk Durable) String) :
    ∃ opening, Job.on (onQueue bounds text job) s =
      ((Job.on (visit opening (job id)) (newDesk id bounds s)).1,
        (Job.on (visit opening (job id)) (newDesk id bounds s)).2.store) := by
  have hmade : Durable.create id bounds = .ok { storageId := id, bounds } := by
    rw [Durable.create, Bounds.validate_eq_ok_iff.2 hb]
    rfl
  refine ⟨"failed to open queue '" ++ id.text ++ "'", ?_⟩
  simp only [onQueue, Job.on_bind, Job.on_during, Action.on_require, hp, hmade, Except.mapError]
  rfl

/-- A job on a queue is done on the opened queue; if the queue cannot be opened, all rows are left.
-/
theorem onQueue_cases (hb : bounds.Consistent) (hs : s.link.Serving) (text : String)
    (job : StorageId → Job (Desk Durable) String) :
    (∃ id d, StorageId.parse text = .ok id ∧ Opens s.tableName s.rows id ∧ Opened id s.rows d ∧
      Job.on (onQueue bounds text job) s = ((Job.on (job id) d).1, (Job.on (job id) d).2.store)) ∨
    ∃ complaint s', Job.on (onQueue bounds text job) s = (.error complaint, s') ∧
      s'.rows = s.rows ∧ ∀ id, StorageId.parse text = .ok id → ¬ Opens s.tableName s.rows id := by
  cases hp : StorageId.parse text with
  | error fault => exact .inr ⟨_, s, onQueue_unread hp job, rfl, fun _ hread => nomatch hread⟩
  | ok id =>
    obtain ⟨opening, hvisit⟩ := onQueue_read (s := s) hb hp job
    rcases Durable.start_opens (d := newDesk id bounds s) hs nofun rfl with
      ⟨hopens, d', ho, hd⟩ | ⟨hshut, fault, d', ho, hrows⟩
    · obtain ⟨houtcome, hstore⟩ := visit_opened opening (job id) ho
      rw [houtcome, hstore] at hvisit
      exact .inl ⟨id, d', rfl, hopens, hd, hvisit⟩
    · rw [visit_shut ho] at hvisit
      refine .inr ⟨_, d'.store, hvisit, hrows, ?_⟩
      rintro _ ⟨⟩
      exact hshut

/-- Over a barred link no queue is opened. -/
theorem onQueue_barred (hb : bounds.Consistent) (hs : s.link.Barred) (text : String)
    (job : StorageId → Job (Desk Durable) String) :
    ∃ complaint, (Job.on (onQueue bounds text job) s).1 = .error complaint := by
  cases hp : StorageId.parse text with
  | error fault => exact ⟨_, congrArg Prod.fst (onQueue_unread hp job)⟩
  | ok id =>
    obtain ⟨opening, hvisit⟩ := onQueue_read (s := s) hb hp job
    obtain ⟨fault, d', ho⟩ := Durable.start_barred (d := newDesk id bounds s) hs nofun
    rw [visit_shut ho] at hvisit
    exact ⟨_, congrArg Prod.fst hvisit⟩

/-- A job at a queue that leaves the rows there leaves them altogether. -/
theorem visit_rows (hb : bounds.Consistent) (hs : s.link.Serving) (text : String)
    {job : StorageId → Job (Desk Durable) String}
    (hjob : ∀ {id d}, Opened id s.rows d → (Job.on (job id) d).2.store.rows = s.rows) :
    (Job.on (onQueue bounds text job) s).2.rows = s.rows := by
  rcases onQueue_cases hb hs text job with ⟨id, d, -, -, hd, ho⟩ | ⟨complaint, s', ho, hrows, -⟩
  · rw [ho]
    exact hjob hd
  · rw [ho]
    exact hrows

/-- What is done with what was found does not matter for the rows. -/
theorem looked_rows {σ α : Type} (what : String) (act : Action σ α) (view : α → Job σ String)
    (hview : ∀ a s, (Job.on (view a) s).2 = s) (s : σ) :
    (Job.on (during what act >>= view) s).2 = (act.on s).2 := by
  rw [Job.on_bind, Job.on_during]
  rcases act.on s with ⟨fault | a, s'⟩
  · rfl
  · exact hview a s'

/-- Commands that remove nothing leave all rows. -/
theorem perform_looks (hb : bounds.Consistent) (hs : s.link.Serving) {command : Command}
    (hc : command.removal? = none) : (Job.on (perform bounds command) s).2.rows = s.rows := by
  cases command with
  | purgeTransient text | clear text => cases hc
  | queues =>
    rw [perform, looked_rows _ _ _ fun _ _ => rfl, Store.rows,
      Store.call_reads .queueNames Statement.reads_queueNames]
    rfl
  | ping =>
    rw [perform, Job.on_bind, Job.on_get]
    dsimp only
    rw [looked_rows _ _ _ fun _ _ => rfl, Store.rows, Store.ping_table]
    rfl
  | stats text =>
    refine visit_rows hb hs text fun {id d} h => ?_
    rw [Job.on_bind, Job.on_get]
    dsimp only
    rw [looked_rows _ _ _ fun _ _ => rfl, Store.rows, h.peek]
    rfl
  | peek text entries bytes json =>
    refine visit_rows hb hs text fun {id d} h => ?_
    rw [looked_rows _ _ _ fun _ _ => rfl, Store.rows, h.peek]
    rfl

/-- A removal is a job on a queue. -/
theorem perform_removal {command : Command} {text : String} {part : Part}
    (hc : command.removal? = some (text, part)) : perform bounds command =
      onQueue bounds text fun id => do
        let removed ← during part.failing (Durable.removing part)
        return part.report id removed := by
  cases command with
  | purgeTransient _ | clear _ =>
    cases hc
    rfl
  | queues | stats _ | peek _ _ _ _ | ping => cases hc

/-- A removal removes exactly its part of the queue and reports the number, if the queue can be
opened and the part removed; if not, it fails and leaves all rows. -/
theorem perform_removes (hb : bounds.Consistent) (hs : s.link.Serving) {command : Command}
    {text : String} {part : Part} (hc : command.removal? = some (text, part)) :
    (∃ id s', StorageId.parse text = .ok id ∧ Removable s.tableName s.rows part id ∧
      Job.on (perform bounds command) s =
        (.ok (part.report id (s.rows.filter (part.picks id)).length), s') ∧
      s'.rows = s.rows.filter (!part.picks id ·)) ∨
    ∃ complaint s', Job.on (perform bounds command) s = (.error complaint, s') ∧
      s'.rows = s.rows ∧
      ∀ id, StorageId.parse text = .ok id → ¬ Removable s.tableName s.rows part id := by
  rw [perform_removal hc]
  rcases onQueue_cases hb hs text _ with
    ⟨id, d, hp, hopens, hd, ho⟩ | ⟨complaint, s', ho, hrows, hshut⟩
  · rcases hd.remove part with ⟨hlegible, d', hact, ht⟩ | ⟨hillegible, fault, d', hact, ht⟩
    · refine .inl ⟨id, d'.store, hp, ⟨hopens, hlegible⟩, ?_, ?_⟩
      · rw [ho, Job.on_bind, Job.on_during, hact]
        rfl
      · rw [Store.rows, ht]
        rfl
    · refine .inr ⟨⟨part.failing, fault⟩, d'.store, ?_, ?_, ?_⟩
      · rw [ho, Job.on_bind, Job.on_during, hact]
        rfl
      · rw [Store.rows, ht]
        rfl
      · intro id' hp' h
        rw [hp] at hp'
        cases hp'
        exact hillegible h.legible
  · exact .inr ⟨complaint, s', ho, hrows, fun id hp h => hshut id hp h.toOpens⟩

/-- Over a barred link nothing is removed. -/
theorem perform_barred (hb : bounds.Consistent) (hs : s.link.Barred) {command : Command}
    {text : String} {part : Part} (hc : command.removal? = some (text, part)) :
    ∃ complaint, (Job.on (perform bounds command) s).1 = .error complaint := by
  rw [perform_removal hc]
  exact onQueue_barred hb hs text _

/-- Nothing is removed either where there is no database. -/
theorem performOnJunk_removal (place : String) {command : Command} {text : String} {part : Part}
    (hc : command.removal? = some (text, part)) :
    ∃ complaint, performOnJunk place command = .error complaint := by
  cases command with
  | queues | stats _ | peek _ _ _ _ | ping => cases hc
  | purgeTransient written | clear written =>
    cases hp : StorageId.parse written with
    | error fault => exact ⟨_, by rw [performOnJunk, hp]⟩
    | ok id => exact ⟨_, by rw [performOnJunk, hp]⟩

/-! ## Spellings of an id -/

/-- The written id that a command names. -/
def Command.idText? : Command → Option String
  | .stats text | .peek text _ _ _ | .purgeTransient text | .clear text => some text
  | .queues | .ping => none

/-- The command with another written id, if it names one. -/
def Command.respelled (text : String) : Command → Command
  | .stats _ => .stats text
  | .peek _ entries bytes json => .peek text entries bytes json
  | .purgeTransient _ => .purgeTransient text
  | .clear _ => .clear text
  | command => command

/-- It is the queue that matters, not how its id is spelled. -/
theorem onQueue_respelled {text text' : String} {id : StorageId}
    (hp : StorageId.parse text = .ok id) (hp' : StorageId.parse text' = .ok id)
    (job : StorageId → Job (Desk Durable) String) :
    onQueue bounds text' job = onQueue bounds text job := by
  have hread : ∀ {spelling : String}, StorageId.parse spelling = .ok id →
      (during ("invalid storage id '" ++ spelling ++ "'")
        (Action.require (StorageId.parse spelling)) : Job Store StorageId) = pure id := by
    intro spelling h
    rw [h]
    rfl
  simp only [onQueue, hread hp, hread hp']

/-- How an id is written does not matter. -/
theorem perform_respelled {command : Command} {text text' : String} {id : StorageId}
    (hc : command.idText? = some text) (hp : StorageId.parse text = .ok id)
    (hp' : StorageId.parse text' = .ok id) :
    perform bounds (command.respelled text') = perform bounds command := by
  cases command with
  | queues | ping => cases hc
  | stats _ | peek _ _ _ _ | purgeTransient _ | clear _ =>
    cases hc
    exact onQueue_respelled hp hp' _

/-- Nor does it where there is no database. -/
theorem performOnJunk_respelled {place : String} {command : Command} {text text' : String}
    {id : StorageId} (hc : command.idText? = some text) (hp : StorageId.parse text = .ok id)
    (hp' : StorageId.parse text' = .ok id) :
    performOnJunk place (command.respelled text') = performOnJunk place command := by
  cases command with
  | queues | ping => cases hc
  | stats _ | peek _ _ _ _ | purgeTransient _ | clear _ =>
    cases hc
    simp only [performOnJunk, Command.respelled, hp, hp']

end Cli

end Spillway
