import Spillway.Proofs.Jobs

/-!
# Bookkeeping

A queue in the table counts by hand: it takes off its totals what a deletion reports, adds what a
write reports as new, and reads the totals from the table only when it is opened. What the statement
of a job reports is exactly the change that it makes to the rows, so that the totals are those of
the rows after any history, and none is ever asked for more than it has.
-/

namespace Spillway

open Desk

/-! ## Totals -/

/-- The totals of rows, as their cells say. -/
def Row.totals (rows : List Row) : Tally where
  entries := rows.length
  bytes := (rows.map fun r => (sizeOfCell r.size).toNat).sum
  persistentEntries := (rows.filter (·.persistent)).length
  persistentBytes := ((rows.filter (·.persistent)).map fun r => (sizeOfCell r.size).toNat).sum

/-- The rows of the entries of a list have the totals of the list. -/
theorem Partition.totals_rows {queue : String} {rows : List Row} {l : List Entry}
    (h : Partition queue rows l) : Row.totals (Statement.rowsOf queue rows) = Tally.total l := by
  obtain ⟨written, hp, hw⟩ := h.rows
  have hsize : (fun r => (sizeOfCell r.size).toNat) ∘ Row.ofEntry queue = chargeOf := by
    funext e
    exact congrArg UInt64.toNat (sizeOfCell_sizeToCell e.size)
  have hkept : (written.map (Row.ofEntry queue)).filter (·.persistent) =
      (written.filter lasting).map (Row.ofEntry queue) := List.filter_map
  rw [hw, ← Tally.total_perm hp, Tally.total_eq, Row.totals, hkept]
  simp only [List.map_map, hsize, List.length_map]

theorem Except.map_eq_ok_iff {ε α β : Type} {x : Except ε α} {f : α → β} {b : β} :
    x.map f = .ok b ↔ ∃ a, x = .ok a ∧ f a = b := by
  cases x <;> simp [Except.map]

namespace Durable

/-! ## What jobs report -/

namespace Job

/-- The slots of what a statement reports. -/
def slotsOf {α : Type} [Slotted α] (statement : Statement (List α)) : Statement (List Slot) := do
  return (← statement).map Slotted.slot

/-- The statement whose report a job takes off the totals. Clearing and destroying take off nothing,
they set the totals to zero. -/
def reports (queue : String) : Job → Statement (List Slot)
  | .ask (.takeLowest window limit leaveOne) =>
    slotsOf (Statement.takeLowest queue window (limit.map Entry.key) leaveOne)
  | .ask (.take window low high) | .ask (.removeWindow window low high) =>
    slotsOf (Statement.takeEntries queue window (.between low high))
  | .ask (.removeFirst count) => slotsOf (Statement.deleteFirst queue count)
  | .ask (.removeListed entries) => slotsOf (Statement.deleteByIds queue (entries.map Entry.id))
  | .ask (.removeUpTo limit inclusive) => slotsOf (Statement.deleteUpTo queue limit.key inclusive)
  | .ask .removeTransient => slotsOf (Statement.deleteTransient queue)
  | .takeIds ids => slotsOf (Statement.takeByIds queue ids)
  | .deleteIds ids => slotsOf (Statement.deleteByIds queue ids)
  | .modify e => do return (← Statement.modifyEntry queue e).toList
  | _ => pure []

/-- What a job takes off the totals of a queue with given rows. -/
def debits (job : Job) (queue : String) (rows : List Row) : List Slot :=
  match job.reports queue rows with
  | .ok (gone, _) => gone
  | .error _ => []

/-- What writing entries reports as new. -/
def written (queue : String) (entries : List Entry) (rows : List Row) : List Slot :=
  match Statement.addEntries queue entries rows with
  | .ok (added, _) => ((entries.zip added).filter (·.2)).map (·.1.slot)
  | .error _ => []

/-- What a job adds to the totals of a queue with given rows. -/
def credits (job : Job) (q : Durable) (rows : List Row) : List Slot :=
  match job with
  | .ask (.put batch bypass) =>
    if (q.hooks.beforePut batch bypass).2 then written q.name batch rows else []
  | .hold entries => written q.name entries rows
  | .modify e => (job.debits q.name rows).map fun _ => e.slot
  | _ => []

/-- The totals of a queue with given rows after a job that it has done. -/
def booked (job : Job) (q : Durable) (rows : List Row) : Tally :=
  match job with
  | .ask .clear | .ask .destroy => .zero
  | _ => (q.tally.subtractAll (job.debits q.name rows)).addAll (job.credits q rows)

section
open Statement
variable {queue : String} {rows : List Row} {l : List Entry}

theorem slotsOf_of_ok {α : Type} [Slotted α] {statement : Statement (List α)} {gone : List α}
    {rows' : List Row} (h : statement rows = .ok (gone, rows')) :
    slotsOf statement rows = .ok (gone.map Slotted.slot, rows') := by
  rw [slotsOf, bind_of_ok h, pure_apply]

/-- Slots are seen as what they are. -/
theorem slotsOf_slots {statement : Statement (List Slot)} {gone : List Slot} {rows' : List Row}
    (h : statement rows = .ok (gone, rows')) : slotsOf statement rows = .ok (gone, rows') := by
  rw [slotsOf_of_ok h]
  exact congrArg (fun slots => Except.ok (slots, rows')) gone.map_id

/-- Entries that a part of the list has, forwards or backwards, are a part of its slots. -/
theorem part_of_sublist (ho : Ordered l) {m : List Entry} (hm : m.Sublist l ∨ m.Sublist l.reverse) :
    ∃ rest : List Entry, (m.map Entry.slot ++ rest.map Entry.slot).Perm (l.map Entry.slot) :=
  ⟨_, perm_split ((ho.perm_filter_ids hm).map _)⟩

/-- What a condition picks from the list is a part of its slots. -/
theorem part_of_filter {gone : List Slot} {p : Entry → Bool}
    (h : gone.Perm ((l.filter p).map Entry.slot)) :
    ∃ rest : List Entry, (gone ++ rest.map Entry.slot).Perm (l.map Entry.slot) := by
  have hgone : gone.map Slotted.slot = gone := gone.map_id
  have hsplit := perm_split (hgone.symm ▸ h)
  rw [hgone] at hsplit
  exact ⟨_, hsplit⟩

/-- What the statement of a job reports are slots of rows, none of them twice. -/
theorem reports_part (hp : Partition queue rows l) (job : Job) :
    ∃ gone rows', job.reports queue rows = .ok (gone, rows') ∧
      ∃ rest : List Entry, (gone ++ rest.map Entry.slot).Perm (l.map Entry.slot) := by
  have none : ∃ gone rows', (pure [] : Statement (List Slot)) rows = .ok (gone, rows') ∧
      ∃ rest : List Entry, (gone ++ rest.map Entry.slot).Perm (l.map Entry.slot) :=
    ⟨[], rows, rfl, l, .refl _⟩
  have byIds : ∀ ids : List UInt64, ∃ gone rows',
      slotsOf (Statement.deleteByIds queue ids) rows = .ok (gone, rows') ∧
        ∃ rest : List Entry, (gone ++ rest.map Entry.slot).Perm (l.map Entry.slot) := fun ids => by
    obtain ⟨slots, rows', hslots, hrun, -⟩ := hp.deleteByIds ids
    exact ⟨slots, rows', slotsOf_slots hrun, part_of_filter hslots⟩
  have window : ∀ (w : Window) (band : Band), ∃ gone rows',
      slotsOf (Statement.takeEntries queue w band) rows = .ok (gone, rows') ∧
        ∃ rest : List Entry, (gone ++ rest.map Entry.slot).Perm (l.map Entry.slot) := by
    intro w band
    obtain ⟨rows', hrun, -⟩ := hp.takeEntries w band
    exact ⟨_, rows', slotsOf_of_ok hrun, part_of_sublist hp.order (.inl (w.head_sublist band l))⟩
  cases job with
  | peekIds | hold | slots => exact none
  | takeIds ids =>
    obtain ⟨rows', hrun, -⟩ := hp.takeByIds ids
    exact ⟨_, rows', slotsOf_of_ok hrun, part_of_filter (.refl _)⟩
  | deleteIds ids => exact byIds ids
  | modify e =>
    obtain ⟨hrun, -⟩ := hp.modifyEntry e
    refine ⟨_, _, bind_of_ok hrun, ?_⟩
    cases hf : l.find? fun f => decide (f.id = e.id) with
    | none => exact ⟨l, .refl _⟩
    | some f =>
      exact part_of_sublist hp.order
        (.inl (List.singleton_sublist.2 (List.mem_of_find?_eq_some hf)))
  | ask request =>
    cases request with
    | takeLowest w limit leaveOne =>
      obtain ⟨rows', hrun, -⟩ := hp.takeLowest w (limit.map Entry.key) leaveOne
      exact ⟨_, rows', slotsOf_of_ok hrun,
        part_of_sublist hp.order (.inr (w.tail_sublist (limit.map Entry.key) leaveOne _ _))⟩
    | take w low high | removeWindow w low high => exact window w (.between low high)
    | removeFirst count =>
      obtain ⟨slots, rows', hslots, hrun, -⟩ := hp.deleteFirst count
      refine ⟨slots, rows', slotsOf_slots hrun, ?_⟩
      rw [← hp.order.filter_ids (List.take_sublist count l)] at hslots
      exact part_of_filter hslots
    | removeListed entries => exact byIds _
    | removeUpTo limit inclusive =>
      obtain ⟨slots, rows', hslots, hrun, -⟩ := hp.deleteUpTo limit.key inclusive
      exact ⟨slots, rows', slotsOf_slots hrun, part_of_filter hslots⟩
    | removeTransient =>
      obtain ⟨slots, rows', hslots, hrun, -⟩ := hp.deleteTransient
      exact ⟨slots, rows', slotsOf_slots hrun, part_of_filter hslots⟩
    | _ => exact none

/-- The totals of the rows have all that a job takes off them. -/
theorem covers_debits (hp : Partition queue rows l) (job : Job) :
    (Tally.total l).Covers (job.debits queue rows) := by
  obtain ⟨gone, rows', hrun, rest, hpart⟩ := reports_part hp job
  rw [debits, hrun]
  exact Tally.covers_total hpart

end

end Job

variable {d d' : Desk Durable} {l m : List Entry}

/-! ## What jobs book -/

/-- Work after which, if it is done, the totals are given ones. -/
def Books {α : Type} (t : Tally) (outcome : Except Fault α × Desk Durable) : Prop :=
  ∀ a, outcome.1 = .ok a → outcome.2.queue.tally = t

/-- Work that fails books whatever one likes. -/
theorem Books.of_error {α : Type} {t : Tally} (fault : Fault) (d : Desk Durable) :
    Books t ((.error fault : Except Fault α), d) := by
  intro a ha
  cases ha

/-- Work whose answer is seen differently books alike. -/
theorem Books.seen {α β : Type} {t : Tally} {act : Action (Desk Durable) α}
    (h : Books t (act.on d)) (view : α → β) :
    Books t ((act >>= fun a => pure (view a)).on d) := by
  rw [Action.on_seen]
  intro b hb
  obtain ⟨a, ha, -⟩ := Except.map_eq_ok_iff.1 hb
  exact h a ha

theorem Works.books {α : Type} {outcome : Except Fault α × Desk Durable} {result : α → Prop}
    (hw : Works d l outcome result m) (ht : d.queue.tally = Tally.total l) :
    Books (Tally.total m) outcome := by
  rcases hw with ⟨a, tally, store, calls, rfl, -, htally, -⟩ | ⟨fault, store, rfl, -⟩
  · exact fun _ _ => htally ht
  · exact .of_error fault _

variable {rows : List Row}

/-- A change books what its work books. -/
theorem changing_books {α : Type} {t : Tally} {act : Action (Desk Durable) α}
    (ha : d.queue.phase = .active) (h : Books t (act.on d)) : Books t ((changing act).on d) := by
  rw [on_changing (show Managed.phase d.queue = .active from ha)]
  rcases ho : act.on d with ⟨fault | a, d'⟩
  · exact .of_error fault d'
  · rw [ho] at h
    exact fun b _ => h a rfl

/-- The totals follow what a statement reports. -/
theorem reporting_books {α β : Type} (ht : d.store.table = some rows) (task : Task)
    {statement : String → Statement β} {change : β → Tally → Tally} {view : β → α} {t : Tally}
    (hs : ∀ report rows', statement d.queue.name rows = .ok (report, rows') →
      change report d.queue.tally = t) :
    Books t ((do
      let report ← ask task statement
      retally (change report)
      return view report : Action (Desk Durable) α).on d) := by
  simp only [Action.on_bind, ask_on, retally, on_changeQueue, Action.on_pure]
  rcases Store.call_cases task (statement d.queue.name) ht with
    ⟨report, rows', s', hrun, hc, -⟩ | ⟨fault, s', hc, -⟩
  · rw [hc]
    exact fun _ _ => hs report rows' hrun
  · rw [hc]
    exact .of_error fault _

/-- A deletion takes off the totals what its statement reports. -/
theorem deleting_books {α : Type} [Slotted α] (ha : d.queue.phase = .active)
    (ht : d.store.table = some rows) (job : Job) (task : Task)
    {statement : String → Statement (List α)}
    (hs : job.reports d.queue.name = Job.slotsOf (statement d.queue.name)) :
    Books (d.queue.tally.subtractAll (job.debits d.queue.name rows))
      ((deleting task statement).on d) := by
  refine changing_books ha (reporting_books ht task fun gone rows' hrun => ?_)
  rw [Job.debits, hs, Job.slotsOf_of_ok hrun]
  exact d.queue.tally.subtractAll_slots gone

/-- A read leaves the totals alone. -/
theorem reading_books {α : Type} (ha : d.queue.phase = .active) (task : Task)
    (statement : String → Statement α) :
    Books d.queue.tally ((reading (ask task statement)).on d) := by
  rw [on_reading (show Managed.phase d.queue = .active from ha), ask_on]
  exact fun _ _ => rfl

/-- Writing adds what is reported as new. -/
theorem write_books (ht : d.store.table = some rows) (entries : List Entry) :
    Books (d.queue.tally.addAll (Job.written d.queue.name entries rows))
      ((write entries).on d) := by
  refine reporting_books ht .addEntries fun added rows' hrun => (Tally.addAll_slots _ _).trans ?_
  rw [Job.written, hrun, List.map_map]
  rfl

/-- A put adds what is reported as new, if its hook lets it go on. -/
theorem put_books (ha : d.queue.phase = .active) (ht : d.store.table = some rows)
    (batch : List Entry) (bypass : Bool) :
    Books ((Job.ask (.put batch bypass)).booked d.queue rows)
      ((serve (.put batch bypass)).on d) := by
  cases hv : (d.queue.hooks.beforePut batch bypass).2 with
  | false =>
    obtain ⟨calls, ho⟩ := put_idle ha (.inl hv)
    rw [ho]
    intro _ _
    simp only [Job.booked, Job.credits, hv]
    rfl
  | true =>
    by_cases hb : batch = []
    · subst hb
      have hidle : (d.queue.hooks.beforePut [] bypass).2 = false ∨ ([] : List Entry) = [] :=
        .inr rfl
      obtain ⟨calls, ho⟩ := put_idle ha hidle
      rw [ho]
      intro _ _
      simp only [Job.booked, Job.credits, hv, if_true]
      rfl
    obtain ⟨before, after, ho⟩ := put_framed ha hb hv
    cases hov : d.queue.tally.overflow? d.queue.bounds with
    | some excess =>
      obtain ⟨store, hrun, -⟩ := admitting_full (d := { d with calls := before }) ha hov batch
      rw [ho hrun]
      exact .of_error _ _
    | none =>
      have hroom := on_requireRoom_ok (d := { d with calls := before })
        (show (Managed.tally d.queue).overflow? (Managed.bounds d.queue) = none from hov)
      have hadd : Books (d.queue.tally.addAll (Job.written d.queue.name batch rows))
          ((admitting batch).on { d with calls := before }) := by
        refine changing_books ha ?_
        rw [Action.on_bind_of_ok hroom]
        exact (write_books (d := { d with calls := before }) ht batch).seen fun _ => ()
      rcases hrun : (admitting batch).on { d with calls := before } with ⟨outcome, d'⟩
      rw [ho hrun]
      intro reply hreply
      obtain ⟨a, ha', -⟩ := Except.map_eq_ok_iff.1 hreply
      rw [hrun] at hadd
      refine (hadd a ha').trans ?_
      simp only [Job.booked, Job.credits, hv, if_true]
      rfl

/-- Deleting by ids takes off what is reported, which is nothing for no ids. -/
theorem deleteIds_books (ha : d.queue.phase = .active) (ht : d.store.table = some rows)
    (ids : List UInt64) :
    Books (d.queue.tally.subtractAll ((Job.deleteIds ids).debits d.queue.name rows))
      ((deleteIds ids).on d) := by
  unfold deleteIds
  split
  · rename_i hi
    rw [List.isEmpty_iff.1 hi]
    exact fun _ _ => rfl
  · exact deleting_books ha ht _ .deleteEntries rfl

theorem takeIds_books (ha : d.queue.phase = .active) (ht : d.store.table = some rows)
    (ids : List UInt64) :
    Books (d.queue.tally.subtractAll ((Job.takeIds ids).debits d.queue.name rows))
      ((takeIds ids).on d) := by
  unfold takeIds
  split
  · rename_i hi
    rw [List.isEmpty_iff.1 hi]
    exact fun _ _ => rfl
  · exact deleting_books ha ht _ .takeEntries rfl

/-- Changing an entry in place takes its former slot off and adds its new one. -/
theorem modify_books (ha : d.queue.phase = .active) (ht : d.store.table = some rows) (e : Entry) :
    Books ((Job.modify e).booked d.queue rows) ((modifyEntry e).on d) := by
  refine changing_books ha ?_
  rw [Action.on_bind, ask_on]
  rcases Store.call_cases .modifyEntry (Statement.modifyEntry d.queue.name e) ht with
    ⟨former, rows', s', hrun, hc, -⟩ | ⟨fault, s', hc, -⟩
  · have hreport : (Job.modify e).debits d.queue.name rows = former.toList := by
      rw [Job.debits, Job.reports, Statement.bind_of_ok hrun, Statement.pure_apply]
    rw [hc]
    simp only [Job.booked, Job.credits, hreport]
    cases former with
    | none => exact fun _ _ => rfl
    | some s => exact fun _ _ => rfl
  · rw [hc]
    exact .of_error fault _

/-- A destroyed queue has nothing in its totals. -/
theorem destroy_books (ha : d.queue.phase = .active) : Books .zero (destroy.on d) := by
  have hd : d.queue.phase ≠ .destroyed := by rw [ha]; nofun
  rw [destroy, Action.on_bind_of_ok (on_theQueue d), if_neg hd, Action.on_bind, ask_on]
  rcases (Store.call .deleteAll (Statement.deleteAll d.queue.name)).on d.store with ⟨fault | _, s'⟩
  · exact .of_error fault _
  · exact fun _ _ => rfl

/-- A request that only reads leaves the totals alone. -/
theorem lookup_books (h : Accurate d l) (ha : d.queue.phase = .active) {request : Request}
    (hr : request.looksUp = true) (hn : request.removes = false) :
    Books d.queue.tally ((serve request).on d) := by
  have hf : request.Fair l := by
    cases request with
    | put => cases hr
    | removeUpTo => cases hn
    | _ => trivial
  have hleft : request.left l = l := by rw [Request.left, hn]; rfl
  have hw := serve_on ha (h.rests.keeps ha) hr hf
  rw [hleft] at hw
  rw [h.tally ha]
  exact hw.books (h.tally ha)

/-- A job that is done has booked what its statement reports, and nothing else. -/
theorem Job.books (h : Accurate d l) (ha : d.queue.phase = .active)
    (ht : d.store.table = some rows) (job : Job) (hs : job ≠ .ask .start) :
    Books (job.booked d.queue rows) (job.act.on d) := by
  cases job with
  | modify e => exact (modify_books ha ht e).seen fun _ => ()
  | takeIds ids => exact (takeIds_books ha ht ids).seen fun _ => ()
  | deleteIds ids => exact (deleteIds_books ha ht ids).seen fun _ => ()
  | slots => exact (reading_books ha .getSlots Statement.getSlots).seen fun _ => ()
  | peekIds ids =>
    refine Books.seen ?_ fun _ => ()
    unfold Durable.peekIds
    split
    · exact fun _ _ => rfl
    · exact reading_books ha .getByIds _
  | hold entries =>
    rw [act, Durable.hold]
    split
    · rename_i hn
      rw [List.isEmpty_iff.1 hn]
      exact fun _ _ => rfl
    · exact (changing_books ha (write_books ht entries)).seen fun _ => ()
  | ask request =>
    refine Books.seen ?_ fun _ => ()
    cases request with
    | start => exact absurd rfl hs
    | put batch bypass => exact put_books ha ht batch bypass
    | shutdown =>
      refine Books.seen (fun _ _ => ?_) fun _ => Reply.done
      obtain ⟨calls, ho⟩ := shutdown_on d
      rw [show Contract.shutdown.on d = _ from ho]
      rfl
    | destroy => exact (destroy_books ha).seen fun _ => Reply.done
    | clear => exact ((clear_works ha (h.rests.keeps ha)).books (h.tally ha)).seen Reply.count
    | take w low high => exact (deleting_books ha ht _ .takeEntries rfl).seen Reply.entries
    | takeLowest w limit leaveOne =>
      exact (deleting_books ha ht _ .takeLowest rfl).seen Reply.entries
    | removeWindow w low high =>
      exact ((deleting_books ha ht _ .takeEntries rfl).seen List.length).seen Reply.count
    | removeFirst count =>
      exact ((deleting_books ha ht _ .deleteFirst rfl).seen List.length).seen Reply.count
    | removeUpTo limit inclusive =>
      exact ((deleting_books ha ht _ .deleteUpTo rfl).seen List.length).seen Reply.count
    | removeTransient =>
      exact ((deleting_books ha ht _ .deleteTransient rfl).seen List.length).seen Reply.count
    | removeListed entries =>
      refine Books.seen ?_ Reply.count
      rw [show Contract.removeListed entries = Durable.removeListed entries from rfl,
        Durable.removeListed]
      split
      · rename_i hn
        rw [List.isEmpty_iff.1 hn, on_reading (show Managed.phase d.queue = .active from ha)]
        exact fun _ _ => rfl
      · exact (deleteIds_books ha ht (entries.map Entry.id)).seen List.length
    | _ => exact lookup_books h ha rfl rfl

/-! ## Histories -/

/-- The totals of the rows of a queue. -/
def rowTotals (d : Desk Durable) : Tally :=
  Row.totals (Statement.rowsOf d.queue.name d.store.rows)

/-- The books of an active queue in the table are in order. -/
structure Balanced (d : Desk Durable) : Prop where
  /-- The totals are those of the rows. -/
  exact : d.queue.tally = rowTotals d
  /-- They have whatever a job takes off them, slot by slot. -/
  covered : ∀ job : Job, d.queue.tally.Covers (job.debits d.queue.name d.store.rows)
  /-- A job that is done takes off what its statement reports as gone, and adds what it reports as
  new. Opening reads the totals anew. -/
  done : ∀ job : Job, job ≠ .ask .start → ∀ d', job.act.on d = (.ok (), d') →
    d'.queue.tally = job.booked d.queue d.store.rows
  /-- A job that fails changes neither the totals nor the rows. -/
  failed : ∀ (job : Job) fault d', job.act.on d = (.error fault, d') →
    d'.queue.tally = d.queue.tally ∧ d'.store.rows = d.store.rows

/-- A queue in the table with a history of jobs. The bytes of its rows are a word whenever it is
opened over them. -/
inductive Worked : Desk Durable → Prop
  /-- It is made, over whatever rows an earlier one of its name has left. -/
  | made {d : Desk Durable} (h : Made d) : Worked d
  /-- It is given a job, whatever comes of it. -/
  | job {d : Desk Durable} (h : Worked d) (job : Job)
      (hb : job = .ask .start → (rowTotals d).bytes < 2 ^ 64) : Worked (job.act.on d).2
  /-- The link changes, others use the store, and call hooks of their own. -/
  | meanwhile {d : Desk Durable} (h : Worked d) {s : Store} (hs : d.store.Spares d.queue.name s)
      (calls : List Call) : Worked { queue := d.queue, store := s, calls }
  /-- It gets other hooks. -/
  | hooked {d : Desk Durable} (h : Worked d) (hooks : Hooks) :
      Worked { d with queue := { d.queue with hooks } }
  /-- It is dropped as it is, and made anew. -/
  | renewed {d : Desk Durable} (h : Worked d) {bounds : Bounds} {q : Durable}
      (hq : create d.queue.storageId bounds = .ok q) (hooks : Hooks) (calls : List Call) :
      Worked { queue := { q with hooks }, store := d.store, calls }

theorem Accurate.rowTotals (h : Accurate d l) : rowTotals d = Tally.total l :=
  h.rests.rows.totals_rows

theorem Accurate.spared (h : Accurate d l) {s : Store} (hs : d.store.Spares d.queue.name s)
    (calls : List Call) : Accurate { queue := d.queue, store := s, calls } l :=
  ⟨⟨h.rests.rows.of_rowsOf_eq hs.rows, fun ha => hs.made (h.rests.made ha), h.rests.gone⟩, h.tally⟩

/-- The books of an active queue with exact totals are in order. -/
theorem Accurate.balanced (h : Accurate d l) (ha : d.queue.phase = .active) : Balanced d := by
  obtain ⟨rows, ht, -⟩ := h.rests.keeps ha
  have hrows : d.store.rows = rows := by rw [Store.rows, ht]; rfl
  refine ⟨(h.tally ha).trans h.rowTotals.symm, fun job => ?_, fun job hs d' ho => ?_,
    fun job fault d' ho => ?_⟩
  · rw [h.tally ha]
    exact Job.covers_debits h.rests.rows job
  · have hbooks := job.books h ha ht hs
    rw [ho] at hbooks
    rw [hrows]
    exact hbooks () rfl
  · have hu := job.failed h ho
    exact ⟨congrArg Durable.tally hu.queue, hu.rows⟩

/-- A job leaves exact totals. -/
theorem Job.accurate (h : Accurate d l) (job : Job)
    (hb : job = .ask .start → (rowTotals d).bytes < 2 ^ 64) :
    ∃ m, Accurate (job.act.on d).2 m := by
  rcases (job.turns h fun hj => h.rowTotals ▸ hb hj).2 with ⟨_, m, -, hm⟩ | ⟨_, -, hu⟩
  · exact ⟨m, hm⟩
  · exact ⟨l, h.unmoved hu⟩

/-- After any history the totals are exact. -/
theorem Worked.accurate (h : Worked d) : ∃ l, Accurate d l := by
  induction h with
  | made h =>
    obtain ⟨⟨q, hooks, hq, he⟩, l, hp⟩ := h
    have hrests := made_rests hq hp hooks []
    rw [← he] at hrests
    refine ⟨l, ⟨hp, fun ha => hrests.made ha, fun hd => hrests.gone hd⟩, fun ha => ?_⟩
    rw [he, create_eq hq] at ha
    cases ha
  | job _ job hb ih =>
    obtain ⟨l, hl⟩ := ih
    exact job.accurate hl hb
  | meanwhile _ hs calls ih =>
    obtain ⟨l, hl⟩ := ih
    exact ⟨l, hl.spared hs calls⟩
  | hooked _ hooks ih =>
    obtain ⟨l, hl⟩ := ih
    exact ⟨l, ⟨hl.rests.rows, hl.rests.made, hl.rests.gone⟩, hl.tally⟩
  | renewed _ hq hooks calls ih =>
    obtain ⟨l, hl⟩ := ih
    refine ⟨l, made_rests hq hl.rests.rows hooks calls, fun ha => ?_⟩
    rw [create_eq hq] at ha
    cases ha

/-- Jobs that are not to open, one after the other, are a history. -/
theorem Worked.jobs {jobs : List Job} (h : Worked d) (hs : Job.ask .start ∉ jobs) :
    Worked (jobs.foldl (fun d job => (job.act.on d).2) d) := by
  induction jobs generalizing d with
  | nil => exact h
  | cons job jobs ih =>
    rw [List.mem_cons, not_or] at hs
    exact ih (h.job job fun hj => absurd hj.symm hs.1) hs.2

/-- A queue that is opened over a store without a table. -/
theorem worked_started : Worked ((serve .start).on newborn).2 := by
  have hmade : Worked newborn :=
    .made ⟨⟨newborn.queue, {}, rfl, rfl⟩, [], .of_rowsOf_nil rfl⟩
  rw [left_of_seen (fun _ => ()) rfl newborn]
  exact hmade.job (.ask .start) fun _ => by decide +kernel

/-- After any history the books of an active queue are in order. -/
theorem Worked.balanced (h : Worked d) (ha : d.queue.phase = .active) : Balanced d := by
  obtain ⟨l, hl⟩ := h.accurate
  exact hl.balanced ha

/-- Jobs one after the other, between which others use the store. The books are in order whenever an
active queue is given the next one. -/
inductive Course : Desk Durable → List Job → Desk Durable → Prop
  | nil (d : Desk Durable) : Course d [] d
  | job {d d' : Desk Durable} {jobs : List Job} (h : Course d jobs d')
      (hd : d'.queue.phase = .active → Balanced d') (job : Job) :
      Course d (jobs ++ [job]) (job.act.on d').2
  | meanwhile {d d' : Desk Durable} {jobs : List Job} (h : Course d jobs d') {s : Store}
      (hs : d'.store.Spares d'.queue.name s) (calls : List Call) :
      Course d jobs { queue := d'.queue, store := s, calls }

theorem Course.trans {d₁ d₂ d₃ : Desk Durable} {jobs jobs' : List Job} (h : Course d₁ jobs d₂)
    (h' : Course d₂ jobs' d₃) : Course d₁ (jobs ++ jobs') d₃ := by
  induction h' with
  | nil => exact jobs.append_nil.symm ▸ h
  | job _ hd job ih => exact jobs.append_assoc _ _ ▸ ih.job hd job
  | meanwhile _ hs calls ih => exact ih.meanwhile hs calls

end Durable

end Spillway
