import Spillway.Proofs.AnyKind
import Spillway.Proofs.Reloading

/-!
# Jobs of a queue in the table

Every piece of work that a queue in the table can be given is a job, whether its users ask for it or
a cached queue that keeps its rows in it. A queue whose totals are exact does its job and has exact
totals again, or fails and has changed nothing.
-/

namespace Spillway

open Desk

namespace Durable

/-- What a queue in the table can be given to do. -/
inductive Job
  /-- Answer a request. -/
  | ask (request : Request)
  /-- Change an entry in place. -/
  | modify (e : Entry)
  /-- Read by ids. -/
  | peekIds (ids : List UInt64)
  /-- Take by ids. -/
  | takeIds (ids : List UInt64)
  /-- Delete by ids. -/
  | deleteIds (ids : List UInt64)
  /-- Store entries whatever the bounds say. -/
  | hold (entries : List Entry)
  /-- Read the slots. -/
  | slots

namespace Job

/-- The work of a job; its answer does not matter here. -/
def act : Job → Action (Desk Durable) Unit
  | .ask request => do let _ ← serve request
  | .modify e => do let _ ← Durable.modifyEntry e
  | .peekIds ids => do let _ ← Durable.peekIds ids
  | .takeIds ids => do let _ ← Durable.takeIds ids
  | .deleteIds ids => do let _ ← Durable.deleteIds ids
  | .hold entries => Durable.hold entries
  | .slots => do let _ ← Durable.slots

end Job

variable {α β : Type} {d d' : Desk Durable} {l m : List Entry}

/-- How an answer is seen does not matter to the queue that it leaves. -/
theorem left_of_seen {act : Action (Desk Durable) α} {act' : Action (Desk Durable) β} (view : α → β)
    (h : act' = act >>= fun a => pure (view a)) (d : Desk Durable) :
    (act.on d).2 = (act'.on d).2 := by
  rw [h, Action.on_seen]

/-! ## What jobs leave -/

/-- A queue in the table whose totals, while it is active, are those of its list. -/
structure Accurate (d : Desk Durable) (l : List Entry) : Prop where
  /-- Its rows are those of the list. -/
  rests : Rests d l
  /-- Its totals are exact. -/
  tally : d.queue.phase = .active → d.queue.tally = Tally.total l

/-- Work that changes neither the queue nor the table. -/
structure Unmoved (d d' : Desk Durable) : Prop where
  /-- The queue. -/
  queue : d'.queue = d.queue
  /-- The rows. -/
  rows : d'.store.rows = d.store.rows
  /-- A table that was there. -/
  made : d.store.table.isSome = true → d'.store.table.isSome = true

theorem Unmoved.refl (d : Desk Durable) : Unmoved d d := ⟨rfl, rfl, id⟩

theorem Unmoved.of_table (hq : d'.queue = d.queue) (ht : d'.store.table = d.store.table) :
    Unmoved d d' :=
  ⟨hq, by rw [Store.rows, Store.rows, ht], fun h => ht ▸ h⟩

theorem Rests.unmoved (h : Rests d l) (hu : Unmoved d d') : Rests d' l := by
  obtain ⟨queue, store, calls⟩ := d'
  obtain ⟨rfl, hrows, hmade⟩ := hu
  refine ⟨?_, fun ha => hmade (h.made ha), h.gone⟩
  rw [hrows]
  exact h.rows

theorem Accurate.unmoved (h : Accurate d l) (hu : Unmoved d d') : Accurate d' l := by
  refine ⟨h.rests.unmoved hu, ?_⟩
  rw [hu.queue]
  exact h.tally

/-- What comes of work of a queue with exact totals: it is done, and the totals are exact again, or
it fails and nothing has changed. -/
def Turns (d : Desk Durable) (outcome : Except Fault α × Desk Durable) : Prop :=
  outcome.2.queue.storageId = d.queue.storageId ∧
    ((∃ a m, outcome.1 = .ok a ∧ Accurate outcome.2 m) ∨
      ∃ fault, outcome.1 = .error fault ∧ Unmoved d outcome.2)

theorem Works.turns {outcome : Except Fault α × Desk Durable} {result : α → Prop}
    (h : Accurate d l) (ha : d.queue.phase = .active) (hw : Works d l outcome result m) :
    Turns d outcome := by
  rcases hw with ⟨a, tally, store, calls, rfl, -, htally, hk, -⟩ | ⟨fault, store, rfl, hm⟩
  · have hd : d.queue.phase ≠ .destroyed := by rw [ha]; nofun
    exact ⟨rfl, .inl ⟨a, m, rfl, rests_of_keeps hk hd, fun _ => htally (h.tally ha)⟩⟩
  · exact ⟨rfl, .inr ⟨fault, rfl, .of_table rfl hm.table⟩⟩

/-- Work whose answer is seen differently turns alike. -/
theorem Turns.seen {act : Action (Desk Durable) α} (h : Turns d (act.on d))
    (view : α → β) : Turns d ((act >>= fun a => pure (view a)).on d) := by
  rw [Action.on_seen]
  refine ⟨h.1, h.2.imp ?_ ?_⟩
  · rintro ⟨a, m, ho, hm⟩
    exact ⟨view a, m, by rw [ho]; rfl, hm⟩
  · rintro ⟨fault, ho, hu⟩
    exact ⟨fault, by rw [ho]; rfl, hu⟩

/-- An active queue answers requests for contents. -/
theorem lookup_turns (h : Accurate d l) (ha : d.queue.phase = .active) {request : Request}
    (hr : request.looksUp = true) : Turns d ((serve request).on d) := by
  have hk := h.rests.keeps ha
  cases request with
  | removeUpTo limit inclusive => exact (removeUpTo_works ha hk limit inclusive).turns h ha
  | start | shutdown | destroy | put => cases hr
  | _ => exact (serve_on ha hk hr trivial).turns h ha

/-- It stores the new entries of a batch. -/
theorem put_turns (h : Accurate d l) (ha : d.queue.phase = .active) (batch : List Entry)
    (bypass : Bool) : Turns d ((serve (.put batch bypass)).on d) := by
  by_cases hidle : (d.queue.hooks.beforePut batch bypass).2 = false ∨ batch = []
  · obtain ⟨calls, ho⟩ := put_idle ha hidle
    rw [ho]
    exact ⟨rfl, .inl ⟨.done, l, rfl, h.unmoved ⟨rfl, rfl, id⟩⟩⟩
  obtain ⟨hv, hb⟩ := not_or.1 hidle
  obtain ⟨before, after, ho⟩ := put_framed ha hb (Bool.not_eq_false _ ▸ hv)
  cases hov : d.queue.tally.overflow? d.queue.bounds with
  | some excess =>
    obtain ⟨store, hrun, ht, -⟩ := admitting_full (d := { d with calls := before }) ha hov batch
    rw [ho hrun]
    exact ⟨rfl, .inr ⟨_, rfl, .of_table rfl ht⟩⟩
  | none =>
    have hd : d.queue.phase ≠ .destroyed := by rw [ha]; nofun
    rcases admitting_room (d := { d with calls := before }) ha (h.rests.keeps ha) hov batch with
      ⟨_, tally, store, calls, hrun, -, htally, hk, -⟩ | ⟨fault, store, hrun, hm⟩
    · rw [ho hrun]
      exact ⟨rfl, .inl ⟨.done, _, rfl, rests_of_keeps hk hd, fun _ => htally (h.tally ha)⟩⟩
    · rw [ho hrun]
      exact ⟨rfl, .inr ⟨fault, rfl, .of_table rfl hm.table⟩⟩

/-- A read changes nothing, whatever it gives. -/
theorem reading_unmoved (h : Rests d l) (ha : d.queue.phase = .active) (task : Task)
    {statement : String → Statement α}
    (hs : ∀ rows, Partition d.queue.name rows l →
      ∃ a, statement d.queue.name rows = .ok (a, rows)) :
    Unmoved d ((reading (ask task statement)).on d).2 := by
  obtain ⟨rows, ht, hp⟩ := h.keeps ha
  obtain ⟨a, hrun⟩ := hs rows hp
  rw [on_reading (show Managed.phase d.queue = .active from ha), ask_on]
  rcases Store.call_of_ok task ht hrun with ⟨s', hc, ht', -⟩ | ⟨fault, s', hc, hm⟩
  · rw [hc]
    exact .of_table rfl (ht'.trans ht.symm)
  · rw [hc]
    exact .of_table rfl hm.table

/-- What changes nothing turns a queue to itself. -/
theorem Unmoved.turns {outcome : Except Fault α × Desk Durable} (h : Accurate d l)
    (hu : Unmoved d outcome.2) : Turns d outcome := by
  rcases outcome with ⟨fault | a, d'⟩
  · exact ⟨congrArg Durable.storageId hu.queue, .inr ⟨fault, rfl, hu⟩⟩
  · exact ⟨congrArg Durable.storageId hu.queue, .inl ⟨a, l, rfl, h.unmoved hu⟩⟩

/-- Reading by ids reads only, even if an id is given twice. -/
theorem entriesByIds_reads {queue : String} {rows : List Row} (hp : Partition queue rows l)
    (ids : List UInt64) : ∃ es, Statement.entriesByIds queue ids rows = .ok (es, rows) := by
  obtain ⟨written, -, hw⟩ := hp.rows
  have hread : ∀ piece, Statement.readEntries (rows.filter (Statement.isAmong queue piece)) rows =
      if True then .ok (written.filter fun e => decide (e.id ∈ piece), rows)
      else .error .unreadableRow := fun piece => by
    rw [Partition.filter_isAmong hw, Statement.readEntries_ofEntry, if_pos trivial]
  have hall := Statement.mapM_of_cases hread (Statement.pieces Statement.idsPerQuery ids)
  rw [if_pos fun _ _ => trivial] at hall
  rw [Statement.entriesByIds, Statement.bind_of_ok (Statement.get_apply rows),
    Statement.bind_of_ok hall]
  exact ⟨_, rfl⟩

/-- Entries that are stored whatever the bounds say are entered one after the other. -/
theorem hold_turns (h : Accurate d l) (ha : d.queue.phase = .active) (entries : List Entry) :
    Turns d ((hold entries).on d) := by
  unfold hold
  cases entries.isEmpty with
  | true => exact ⟨rfl, .inl ⟨(), l, rfl, h⟩⟩
  | false =>
    have hwrite := write_works (h.rests.keeps ha) fun rows hp => hp.enterAll entries
    rw [if_neg Bool.false_ne_true]
    exact Turns.seen ((hwrite.changing ha).turns h ha) fun _ => ()

/-- Opening, over bytes that are a word, finds the exact totals. -/
theorem start_turns (h : Accurate d l) (hb : (Tally.total l).bytes < 2 ^ 64) :
    Turns d (start.on d) := by
  by_cases hd : d.queue.phase = .destroyed
  · rw [start_destroyed hd]
    exact ⟨rfl, .inr ⟨_, rfl, .refl d⟩⟩
  rcases start_cases hd h.rests.rows with
    ⟨tally, store, ho, hk, -, -, htally⟩ | ⟨fault, store, ho, hrows, -, ht, -⟩
  · rw [ho]
    exact ⟨rfl, .inl ⟨(), l, rfl, rests_of_keeps hk nofun, fun _ => (htally hb).2⟩⟩
  · rw [ho]
    exact ⟨rfl, .inr ⟨fault, rfl, rfl, hrows, fun hmade => ht hmade ▸ hmade⟩⟩

theorem shutdown_turns (h : Accurate d l) : Turns d (shutdown.on d) := by
  obtain ⟨calls, ho⟩ := shutdown_on d
  rw [ho]
  refine ⟨rfl, .inl ⟨(), l, rfl, ⟨h.rests.rows, fun ha => ?_, fun hd => ?_⟩, fun ha => ?_⟩⟩
  · exact absurd ha d.queue.phase.closed_ne_active
  · exact h.rests.gone (Phase.closed_eq_destroyed_iff.1 hd)
  · exact absurd ha d.queue.phase.closed_ne_active

theorem destroy_turns (h : Accurate d l) : Turns d (destroy.on d) := by
  by_cases hd : d.queue.phase = .destroyed
  · rw [destroy_destroyed hd]
    exact ⟨rfl, .inl ⟨(), l, rfl, h⟩⟩
  rcases destroy_cases hd h.rests.rows with ⟨store, calls, ho, hk, -⟩ | ⟨fault, store, ho, ht, -⟩
  · rw [ho]
    exact ⟨rfl, .inl ⟨(), [], rfl, ⟨hk.partition, nofun, fun _ => rfl⟩, nofun⟩⟩
  · rw [ho]
    exact ⟨rfl, .inr ⟨fault, rfl, .of_table rfl ht⟩⟩

/-- What a queue that is not active is given to do changes nothing, unless it is to open, to close
or to be destroyed. -/
theorem Job.idle (hn : d.queue.phase ≠ .active) (job : Job)
    (hj : ∀ request, job = .ask request → request.needsActive = true) :
    job.act.on d = (.ok (), d) ∨ ∃ fault, job.act.on d = (.error fault, d) := by
  have hn' : Managed.phase d.queue ≠ .active := hn
  have hread : ∀ {α : Type} (act : Action (Desk Durable) α),
      (reading act).on d = (.error (.inactive d.queue.storageId.text), d) :=
    on_reading_inactive hn'
  have hchange : ∀ {α : Type} (act : Action (Desk Durable) α),
      (changing act).on d = (.error (.inactive d.queue.storageId.text), d) :=
    on_changing_inactive hn'
  cases job with
  | ask request =>
    exact .inr ⟨_, Action.on_bind_of_error (serve_inactive hn (hj request rfl))⟩
  | modify e => exact .inr ⟨_, Action.on_bind_of_error (modifyEntry_inactive hn e)⟩
  | slots => exact .inr ⟨_, Action.on_bind_of_error (hread _)⟩
  | peekIds ids =>
    rw [Job.act, Durable.peekIds]
    split
    · exact .inl rfl
    · exact .inr ⟨_, Action.on_bind_of_error (hread _)⟩
  | takeIds ids =>
    rw [Job.act, Durable.takeIds]
    split
    · exact .inl rfl
    · exact .inr ⟨_, Action.on_bind_of_error (hchange _)⟩
  | deleteIds ids =>
    rw [Job.act, Durable.deleteIds]
    split
    · exact .inl rfl
    · exact .inr ⟨_, Action.on_bind_of_error (hchange _)⟩
  | hold entries =>
    rw [Job.act, Durable.hold]
    split
    · exact .inl rfl
    · exact .inr ⟨_, Action.on_bind_of_error (hchange _)⟩

/-- Whatever it is given to do, a queue with exact totals does it and has exact totals again, or
fails and has changed nothing. -/
theorem Job.turns (h : Accurate d l) (job : Job)
    (hb : job = .ask .start → (Tally.total l).bytes < 2 ^ 64) : Turns d (job.act.on d) := by
  by_cases hlife : ∃ request, job = .ask request ∧ request.needsActive = false
  · obtain ⟨request, rfl, hr⟩ := hlife
    refine Turns.seen ?_ fun _ => ()
    cases request with
    | start => exact (start_turns h (hb rfl)).seen fun _ => Reply.done
    | shutdown => exact (shutdown_turns h).seen fun _ => Reply.done
    | destroy => exact (destroy_turns h).seen fun _ => Reply.done
    | _ => cases hr
  by_cases ha : d.queue.phase = .active
  · have hk := h.rests.keeps ha
    cases job with
    | ask request =>
      refine Turns.seen ?_ fun _ => ()
      cases request with
      | start | shutdown | destroy => exact absurd ⟨_, rfl, rfl⟩ hlife
      | put batch bypass => exact put_turns h ha batch bypass
      | _ => exact lookup_turns h ha rfl
    | modify e => exact ((modifyEntry_works ha hk e).turns h ha).seen fun _ => ()
    | takeIds ids => exact ((takeIds_works ha hk ids).turns h ha).seen fun _ => ()
    | deleteIds ids => exact ((deleteIds_works ha hk ids).turns h ha).seen fun _ => ()
    | slots => exact ((slots_works ha hk).turns h ha).seen fun _ => ()
    | hold entries => exact hold_turns h ha entries
    | peekIds ids =>
      refine Turns.seen ?_ fun _ => ()
      unfold Durable.peekIds
      split
      · exact ⟨rfl, .inl ⟨[], l, rfl, h⟩⟩
      · exact (reading_unmoved h.rests ha .getByIds
          fun rows hp => entriesByIds_reads hp ids).turns h
  · have hneeds : ∀ request, job = .ask request → request.needsActive = true := by
      intro request hj
      by_contra hr
      exact hlife ⟨request, hj, Bool.not_eq_true _ ▸ hr⟩
    rcases Job.idle ha job hneeds with ho | ⟨fault, ho⟩
    · rw [ho]
      exact ⟨rfl, .inl ⟨(), l, rfl, h⟩⟩
    · rw [ho]
      exact ⟨rfl, .inr ⟨fault, rfl, .refl d⟩⟩

/-- A job that fails changes neither the totals nor the rows. -/
theorem Job.failed (h : Accurate d l) (job : Job) {fault : Fault}
    (ho : job.act.on d = (.error fault, d')) : Unmoved d d' := by
  by_cases hs : job = .ask .start
  · subst hs
    by_cases hd : d.queue.phase = .destroyed
    · have hrefused : (serve .start).on d = _ := on_done (start_destroyed hd)
      rw [Job.act, Action.on_bind_of_error hrefused] at ho
      cases ho
      exact .refl d
    rcases start_cases hd h.rests.rows with
      ⟨tally, store, hstart, -⟩ | ⟨fault', store, hstart, hrows, -, ht, -⟩
    · have hdone : (serve .start).on d = _ := on_done hstart
      rw [Job.act, Action.on_bind_of_ok hdone] at ho
      cases ho
    · have hrefused : (serve .start).on d = _ := on_done hstart
      rw [Job.act, Action.on_bind_of_error hrefused] at ho
      cases ho
      exact ⟨rfl, hrows, fun hmade => ht hmade ▸ hmade⟩
  · rcases (job.turns h fun hj => absurd hj hs).2 with ⟨a, m, hok, -⟩ | ⟨fault', -, hu⟩
    · rw [ho] at hok
      cases hok
    · rwa [ho] at hu

end Durable

end Spillway
