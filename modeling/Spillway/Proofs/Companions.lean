import Spillway.Proofs.Durability
import Spillway.Proofs.Pairs

/-!
# A queue in the table answers like a queue in memory

A queue in the table is opened over a table without rows of its name, and beside it a queue in
memory is made, to which every request is passed on that the database does not fail. Whatever the
link does from then on, a request that it fails changes nothing, and every other one is answered
alike by both. As long as the link serves it fails none.
-/

namespace Spillway

open Desk

namespace Durable

variable {d : Desk Durable}

/-- A queue that is made has nothing but its name and its bounds. -/
theorem create_eq {id : StorageId} {bounds : Bounds} {q : Durable} (h : create id bounds = .ok q) :
    q = { storageId := id, bounds } :=
  Bounds.eq_of_validate h

/-- A queue in the table that is not active refuses all that needs an active one. -/
theorem serve_inactive (hn : d.queue.phase ≠ .active) {request : Request}
    (hr : request.needsActive = true) :
    (serve request).on d = (.error (.inactive d.queue.storageId.text), d) := by
  have hn' : Managed.phase d.queue ≠ .active := hn
  have hread : ∀ {α : Type} (act : Action (Desk Durable) α),
      (reading act).on d = (.error (.inactive d.queue.storageId.text), d) :=
    on_reading_inactive hn'
  have hchange : ∀ {α : Type} (act : Action (Desk Durable) α),
      (changing act).on d = (.error (.inactive d.queue.storageId.text), d) :=
    on_changing_inactive hn'
  cases request with
  | start | shutdown | destroy => cases hr
  | put batch bypass =>
    exact Action.on_bind_of_error (on_framingPut_inactive hn' batch bypass _)
  | removeListed entries =>
    apply Action.on_bind_of_error
    change (removeListed entries).on d = _
    unfold removeListed deleteIds
    cases entries with
    | nil => exact hread _
    | cons first rest => exact Action.on_bind_of_error (hchange _)
  | peek | peekFirst | peekBefore | peekLowest | select =>
    exact Action.on_bind_of_error (hread _)
  | references => exact Action.on_bind_of_error (Action.on_bind_of_error (hread _))
  | takeLowest | take | clear => exact Action.on_bind_of_error (hchange _)
  | removeFirst | removeUpTo | removeTransient | removeWindow =>
    exact Action.on_bind_of_error (Action.on_bind_of_error (hchange _))

/-- A destroyed queue is not opened again. -/
theorem start_destroyed (hd : d.queue.phase = .destroyed) :
    start.on d = (.error (.inactive d.queue.storageId.text), d) :=
  Action.on_bind_of_error (on_requireAlive_destroyed hd)

theorem destroy_destroyed (hd : d.queue.phase = .destroyed) : destroy.on d = (.ok (), d) := by
  rw [destroy, Action.on_bind_of_ok (on_theQueue d), if_pos hd, Action.on_pure]

end Durable

/-- A refused put is not one that the database failed. -/
theorem not_retryable_of_putOn {name : String} {bounds : Bounds} {hooks : Hooks}
    {batch l : List Entry} {bypass : Bool} {fault : Fault}
    (h : (putOn name bounds hooks batch bypass l).1 = .error fault) :
    fault.isRetryable = false := by
  unfold putOn at h
  split at h
  · unfold admitOn at h
    split at h <;> cases h
    rfl
  · cases h

/-- A queue in the table and a queue in memory that have the same entries. -/
structure Level (d : Desk Durable) (r : Desk Ram) (l : List Entry) : Prop where
  /-- The rows are those of a list of entries. -/
  keeps : d.store.Keeps d.queue.name l
  /-- The table can have its name. -/
  fit : TableName.isReserved d.store.tableName = false
  /-- The totals of the rows are exact. -/
  tally : d.queue.tally = Tally.total l
  /-- The queue in memory has the same entries. -/
  roll : r.queue.roll.Lists l
  /-- They have the same name. -/
  storageId : r.queue.storageId = d.queue.storageId
  /-- They have the same bounds. -/
  bounds : r.queue.bounds = d.queue.bounds
  /-- They are at the same point of their lives. -/
  phase : r.queue.phase = d.queue.phase
  /-- They have the same hooks. -/
  hooks : r.queue.hooks = d.queue.hooks
  /-- Once destroyed, they have nothing. -/
  gone : d.queue.phase = .destroyed → l = []

/-- The database fails a queue in the table: the queue says so and is as it was. -/
structure Misses (d : Desk Durable) (request : Request) : Prop where
  /-- It says so. -/
  fault : ∃ fault, ((serve request).on d).1 = .error fault ∧ fault.kind = .resourceUnavailable
  /-- Its totals and the point of its life are what they were. -/
  queue : ((serve request).on d).2.queue = d.queue
  /-- So are the rows. -/
  table : ((serve request).on d).2.store.table = d.store.table
  /-- The link was used. -/
  used : d.store.Used ((serve request).on d).2.store
  /-- It does not serve. -/
  unserved : ¬ d.store.link.Serving

namespace Level

variable {d d' : Desk Durable} {r r' : Desk Ram} {l m : List Entry} {request : Request}

/-- Two queues answer a request alike, and are level afterwards. -/
structure Answers (d : Desk Durable) (r : Desk Ram) (request : Request) : Prop where
  /-- The answers. -/
  same : ((serve request).on d).1 = ((serve request).on r).1
  /-- No request is refused for want of the database. -/
  refused : ∀ fault, ((serve request).on d).1 = .error fault → fault.isRetryable = false
  /-- They have the same entries. -/
  level : ∃ m, Level ((serve request).on d).2 ((serve request).on r).2 m

theorem answers_of {outcome : Except Fault Reply} (hd : (serve request).on d = (outcome, d'))
    (hr : (serve request).on r = (outcome, r'))
    (hf : ∀ fault, outcome = .error fault → fault.isRetryable = false) (h : Level d' r' m) :
    Answers d r request := by
  refine ⟨?_, ?_, ?_⟩ <;> rw [hd]
  · rw [hr]
  · exact hf
  · rw [hr]
    exact ⟨m, h⟩

theorem misses_of {fault : Fault} (ho : (serve request).on d = (.error fault, d'))
    (hq : d'.queue = d.queue) (hm : d.store.Missed fault d'.store) : Misses d request := by
  refine ⟨⟨fault, ?_, of_decide_eq_true hm.retryable⟩, ?_, ?_, ?_, hm.unserved⟩ <;> rw [ho]
  · exact hq
  · exact hm.table
  · exact hm.used

/-- Queues that were level are level after work that turned the one and the other alike. -/
theorem worked (h : Level d r l) {tally : Tally} {store : Store} {calls calls' : List Call}
    {roll : Roll Entry} {s : Store} (ha : d.queue.phase = .active)
    (hk : store.Keeps d.queue.name m) (hu : d.store.Used store) (ht : tally = Tally.total m)
    (hr : roll.Lists m) :
    Level (Durable.turned d tally store calls)
      { queue := { r.queue with roll }, store := s, calls := calls' } m :=
  { h with
    keeps := hk
    fit := hu.tableName ▸ h.fit
    tally := ht
    roll := hr
    gone := fun hd => by
      have : d.queue.phase = .destroyed := hd
      rw [ha] at this
      cases this }

/-- Two queues answer requests for contents alike, or the database fails the one in the table. -/
theorem lookup (h : Level d r l) (ha : d.queue.phase = .active) (hr : request.looksUp = true)
    (hf : request.Fair l) : Answers d r request ∨ Misses d request := by
  obtain ⟨roll, calls', hor, hroll⟩ := Ram.serve_on (h.phase.trans ha) h.roll hr
  rcases Durable.serve_on ha h.keeps hr hf with
    ⟨reply, tally, store, calls, ho, rfl, htally, hk, hu⟩ | ⟨fault, store, ho, hm⟩
  · exact .inl (answers_of ho hor (by rintro _ ⟨⟩) (h.worked ha hk hu (htally h.tally) hroll))
  · exact .inr (misses_of ho rfl hm)

/-- Two queues put alike, or the database fails the one in the table. -/
theorem put (h : Level d r l) (ha : d.queue.phase = .active) {batch : List Entry}
    (hb : batch ≠ []) (bypass : Bool) :
    Answers d r (.put batch bypass) ∨ Misses d (.put batch bypass) := by
  obtain ⟨roll, s, calls', hor, hroll⟩ := Ram.put_on (h.phase.trans ha) h.roll batch bypass
  rw [h.storageId, h.bounds, h.hooks] at hor hroll
  rcases Durable.put_on ha h.keeps h.tally hb bypass with
    ⟨tally, store, calls, ho, htally, hk, hu⟩ | ⟨fault, store, calls, ho, hm⟩
  · exact .inl (answers_of ho hor (fun _ => not_retryable_of_putOn)
      (h.worked ha hk hu htally hroll))
  · exact .inr (misses_of ho rfl hm)

/-- Two queues open alike, or the one in the table stays as it is. -/
theorem start (h : Level d r l) (hb : (Tally.total l).bytes < 2 ^ 63) :
    Answers d r .start ∨ Misses d .start := by
  by_cases hd : d.queue.phase = .destroyed
  · have hor := Ram.serve_start_destroyed (h.phase.trans hd)
    rw [h.storageId] at hor
    exact .inl (answers_of (on_done (Durable.start_destroyed hd)) hor (by rintro _ ⟨⟩; rfl) h)
  have hor := Ram.serve_start (r := r) (by rwa [h.phase])
  rcases Durable.start_cases hd h.keeps.partition with
    ⟨tally, store, ho, hk, hu, -, htally⟩ | ⟨fault, store, ho, -, hu, ht, hf⟩
  · exact .inl (answers_of (on_done ho) hor (by rintro _ ⟨⟩)
      { h with keeps := hk, fit := hu.tableName ▸ h.fit, tally := (htally (by omega)).2
               phase := rfl, gone := nofun })
  · obtain ⟨rows, hrows, -⟩ := h.keeps
    obtain ⟨hretryable, hns⟩ := hf h.fit (.of_lt hb)
    exact .inr (misses_of (on_done ho) rfl
      ⟨hretryable, ht (by rw [hrows]; rfl), hu, hns⟩)

/-- Two queues close alike. -/
theorem shutdown (h : Level d r l) : Answers d r .shutdown := by
  obtain ⟨calls, ho⟩ := Durable.shutdown_on d
  obtain ⟨calls', hor⟩ := Ram.serve_shutdown r
  rw [Ram.closed_eq] at hor
  refine answers_of (on_done ho) hor (by rintro _ ⟨⟩)
    { h with phase := ?_, gone := fun hd => h.gone ?_ }
  · exact congrArg Phase.closed h.phase
  · exact Phase.closed_eq_destroyed_iff.1 hd

/-- Two queues are destroyed alike, or the database fails the one in the table. -/
theorem destroy (h : Level d r l) : Answers d r .destroy ∨ Misses d .destroy := by
  obtain ⟨calls', hor⟩ := Ram.serve_destroy r
  by_cases hd : d.queue.phase = .destroyed
  · have hl := h.gone hd
    subst hl
    exact .inl (answers_of (on_done (Durable.destroy_destroyed hd)) hor (by rintro _ ⟨⟩)
      { h with roll := .empty, phase := hd.symm, gone := fun _ => rfl })
  rcases Durable.destroy_cases hd h.keeps.partition with
    ⟨store, calls, ho, hk, hu⟩ | ⟨fault, store, ho, -, -, hf⟩
  · exact .inl (answers_of (on_done ho) hor (by rintro _ ⟨⟩)
      { h with keeps := hk, fit := hu.tableName ▸ h.fit, tally := rfl, roll := .empty, phase := rfl
               gone := fun _ => rfl })
  · obtain ⟨rows, hrows, -⟩ := h.keeps
    exact .inr (misses_of (on_done ho) rfl (hf (by rw [hrows]; rfl)))

/-- Two queues refuse alike. -/
theorem refuse (h : Level d r l) (hn : d.queue.phase ≠ .active)
    (hr : request.needsActive = true) : Answers d r request := by
  have hor := Ram.serve_inactive (by rwa [h.phase]) hr
  rw [h.storageId] at hor
  exact answers_of (Durable.serve_inactive hn hr) hor (by rintro _ ⟨⟩; rfl) h

/-- What comes of a request to two queues. -/
theorem asked (h : Level d r l) (hf : request.Fair l) (hb : (Tally.total l).bytes < 2 ^ 63) :
    Answers d r request ∨ Misses d request := by
  cases request using Request.casesByNeed with
  | contents request hr =>
    by_cases ha : d.queue.phase = .active
    · obtain ⟨batch, bypass, rfl⟩ | hlooks := Request.put_or_looksUp hr
      · exact h.put ha hf bypass
      · exact h.lookup ha hlooks hf
    · exact .inl (h.refuse ha hr)
  | start => exact h.start hb
  | shutdown => exact .inl h.shutdown
  | destroy => exact h.destroy

/-- A request that the database fails leaves queues level. -/
theorem missed (h : Level d r l) (hm : Misses d request) :
    Level ((serve request).on d).2 r l := by
  have hq := hm.queue
  have ht := hm.table
  have hu := hm.used
  revert hq ht hu
  rcases ((serve request).on d).2 with ⟨queue, store, calls⟩
  rintro ⟨⟩ ht hu
  obtain ⟨rows, hrows, hp⟩ := h.keeps
  exact { h with keeps := ⟨rows, ht.trans hrows, hp⟩, fit := hu.tableName ▸ h.fit }

/-- Queues that get the same hooks stay level. -/
theorem hooked (h : Level d r l) (hooks : Hooks) :
    Level { d with queue := { d.queue with hooks } } { r with queue := { r.queue with hooks } } l :=
  { h with hooks := rfl }

/-- So do queues whose stores others use, if they leave the rows alone. -/
theorem spared (h : Level d r l) {s : Store} (hp : d.store.Spares d.queue.name s) (s' : Store) :
    Level { d with store := s } { r with store := s' } l := by
  obtain ⟨rows, hrows, hpart⟩ := h.keeps
  obtain ⟨rows', hrows'⟩ := Option.isSome_iff_exists.1 (hp.made (by rw [hrows]; rfl))
  have he := hp.rows
  rw [Store.rows, Store.rows, hrows, hrows'] at he
  exact { h with keeps := ⟨rows', hrows', hpart.of_rowsOf_eq he⟩
                 fit := hp.tableName ▸ h.fit }

/-- Two queues that are made and opened over a table without rows of their name are level. -/
theorem of_opened {id : StorageId} {bounds : Bounds} {q : Durable} {q' : Ram} {s : Store}
    (hq : Durable.create id bounds = .ok q) (hq' : Ram.create id bounds = .ok q')
    (hr : Statement.rowsOf id.text s.rows = []) (hooks : Hooks) (s' : Store) {reply : Reply}
    (ho : (serve .start).on { queue := { q with hooks }, store := s } = (.ok reply, d')) :
    Level d' ((serve .start).on { queue := { q' with hooks }, store := s' }).2 [] := by
  cases Durable.create_eq hq
  cases Ram.create_eq hq'
  rw [Ram.serve_start (by rintro ⟨⟩)]
  rcases Durable.start_cases (d := { queue := { storageId := id, bounds, hooks }, store := s })
      nofun (.of_rowsOf_nil hr) with
    ⟨tally, store, hs, hk, hu, hn, htally⟩ | ⟨fault, store, hs, -⟩
  · rw [show (serve .start).on _ = _ from on_done hs] at ho
    cases ho
    exact ⟨hk, hu.tableName ▸ hn, (htally (by decide)).2, .empty, rfl, rfl, rfl, rfl, nofun⟩
  · rw [show (serve .start).on _ = _ from on_done hs] at ho
    cases ho

end Level

/-! ## Companions -/

/-- A queue in the table over a link of any kind, and a queue in memory that is asked all that the
database does not fail. -/
inductive Companions : Desk Durable → Desk Ram → Prop
  /-- They are made under one name with the same bounds and hooks, over a table without rows of that
  name, and opened. -/
  | opened {id : StorageId} {bounds : Bounds} {q : Durable} {q' : Ram} {s : Store}
      {d : Desk Durable} {reply : Reply}
      (hq : Durable.create id bounds = .ok q) (hq' : Ram.create id bounds = .ok q')
      (hr : Statement.rowsOf id.text s.rows = []) (hooks : Hooks) (s' : Store)
      (ho : (serve .start).on { queue := { q with hooks }, store := s } = (.ok reply, d)) :
      Companions d ((serve .start).on { queue := { q' with hooks }, store := s' }).2
  /-- The database fails the queue in the table, and the other one is not asked. -/
  | missed {d d' : Desk Durable} {r : Desk Ram} {request : Request} {fault : Fault}
      (h : Companions d r) (hf : request.Fair r.queue.roll.items)
      (hb : (Managed.tally r.queue).bytes < 2 ^ 63)
      (ho : (serve request).on d = (.error fault, d')) (hk : fault.kind = .resourceUnavailable) :
      Companions d' r
  /-- It answers or refuses for another reason, and the other one is asked the same. -/
  | asked {d d' : Desk Durable} {r : Desk Ram} {request : Request} {outcome : Except Fault Reply}
      (h : Companions d r) (hf : request.Fair r.queue.roll.items)
      (hb : (Managed.tally r.queue).bytes < 2 ^ 63) (ho : (serve request).on d = (outcome, d'))
      (hk : ∀ fault, outcome = .error fault → fault.kind ≠ .resourceUnavailable) :
      Companions d' ((serve request).on r).2
  /-- The link changes, others use the stores. -/
  | meanwhile {d : Desk Durable} {r : Desk Ram} (h : Companions d r) {s : Store}
      (hp : d.store.Spares d.queue.name s) (s' : Store) :
      Companions { d with store := s } { r with store := s' }
  /-- They get the same hooks. -/
  | hooked {d : Desk Durable} {r : Desk Ram} (h : Companions d r) (hooks : Hooks) :
      Companions { d with queue := { d.queue with hooks } }
        { r with queue := { r.queue with hooks } }

variable {d : Desk Durable} {r : Desk Ram} {l : List Entry} {request : Request}

/-- What is asked of a queue in memory is asked of the list that it has. -/
theorem Level.asked_of_fair (h : Level d r l) (hf : request.Fair r.queue.roll.items)
    (hb : (Managed.tally r.queue).bytes < 2 ^ 63) : Answers d r request ∨ Misses d request := by
  rw [h.roll.items] at hf
  rw [show Managed.tally r.queue = Tally.total l from h.roll.tally] at hb
  exact h.asked hf hb

/-- Companions are level. -/
theorem Companions.level (h : Companions d r) : ∃ l, Level d r l := by
  induction h with
  | opened hq hq' hr hooks s' ho => exact ⟨[], .of_opened hq hq' hr hooks s' ho⟩
  | missed _ hf hb ho hk ih =>
    obtain ⟨l, hl⟩ := ih
    rcases hl.asked_of_fair hf hb with ha | hm
    · have := ha.refused _ (congrArg Prod.fst ho)
      rw [Fault.isRetryable, hk] at this
      cases this
    · have := hl.missed hm
      rw [ho] at this
      exact ⟨l, this⟩
  | asked _ hf hb ho hk ih =>
    obtain ⟨l, hl⟩ := ih
    rcases hl.asked_of_fair hf hb with ha | hm
    · have := ha.level
      rwa [ho] at this
    · obtain ⟨fault, hfault, hkind⟩ := hm.fault
      rw [ho] at hfault
      exact absurd hkind (hk fault hfault)
  | meanwhile _ hp s' ih =>
    obtain ⟨l, hl⟩ := ih
    exact ⟨l, hl.spared hp s'⟩
  | hooked _ hooks ih =>
    obtain ⟨l, hl⟩ := ih
    exact ⟨l, hl.hooked hooks⟩

/-- Whatever the link does, a queue in the table and a queue in memory that is asked all that the
database does not fail have the same totals and entries and are at the same point of their lives.
Every fair request to the queue in the table is answered or refused as the other one does, or the
database fails it and nothing of the queue and its rows changes. -/
theorem companions_agree (h : Companions d r) :
    Managed.tally d.queue = Managed.tally r.queue ∧
      Managed.phase d.queue = Managed.phase r.queue ∧
      Partition d.queue.name d.store.rows r.queue.roll.items ∧
      ∀ request, request.Fair r.queue.roll.items → (Managed.tally r.queue).bytes < 2 ^ 63 →
        Misses d request ∨ ((serve request).on d).1 = ((serve request).on r).1 := by
  obtain ⟨l, hl⟩ := h.level
  refine ⟨hl.tally.trans hl.roll.tally.symm, hl.phase.symm, ?_, fun request hf hb => ?_⟩
  · rw [hl.roll.items]
    exact hl.keeps.partition
  · exact (hl.asked_of_fair hf hb).symm.imp_right Level.Answers.same

/-- An answer keeps companions. -/
theorem Companions.answered (h : Companions d r) (hf : request.Fair r.queue.roll.items)
    (hb : (Managed.tally r.queue).bytes < 2 ^ 63)
    (hok : ((serve request).on d).1.isOk = true) :
    Companions ((serve request).on d).2 ((serve request).on r).2 := by
  obtain ⟨reply, d', ho⟩ := exists_of_isOk hok
  rw [ho]
  exact h.asked hf hb ho (by rintro _ ⟨⟩)

/-- A queue whose database goes away, or comes back. -/
theorem Companions.relinked (h : Companions d r) (link : Link) :
    Companions (d.relinked link) r :=
  @Companions.meanwhile d r h { d.store with link } ⟨rfl, id, rfl⟩ r.store

/-- Two queues that are to give up an entry while the connection breaks within the call, and again
afterwards. -/
theorem companions_agree_lost :
    let made : Desk Ram := { queue := { storageId := .mail, bounds := .tight }, store := {} }
    let batch := Request.put [.blank 1 true, .blank 2 false] false
    let d := ((serve batch).on ((serve .start).on Durable.newborn).2).2
    let r := ((serve batch).on ((serve .start).on made).2).2
    let lost := d.relinked
      { forecast := [{ reachable := false, idle := 0, busy := 0, cutsOff := true }] }
    (Companions lost r ∧ Companions d r ∧ (Request.removeFirst 1).Fair r.queue.roll.items ∧
        (Managed.tally r.queue).bytes < 2 ^ 63) ∧
      Misses lost (.removeFirst 1) ∧
        ((serve (.removeFirst 1)).on d).1 = ((serve (.removeFirst 1)).on r).1 := by
  intro made batch d r lost
  have ho : (serve .start).on Durable.newborn =
      (.ok .done, ((serve .start).on Durable.newborn).2) :=
    Prod.ext (by decide +kernel) rfl
  have hopen : Companions ((serve .start).on Durable.newborn).2 ((serve .start).on made).2 :=
    @Companions.opened .mail .tight _ _ _ _ .done rfl rfl rfl {} {} ho
  have hbatch : batch.Fair ((serve .start).on made).2.queue.roll.items := List.cons_ne_nil _ _
  have h : Companions d r := hopen.answered hbatch (by decide +kernel) (by decide +kernel)
  have hlost : Companions lost r := h.relinked _
  have hf : (Request.removeFirst 1).Fair r.queue.roll.items := trivial
  have hb : (Managed.tally r.queue).bytes < 2 ^ 63 := by decide +kernel
  have hs : d.store.link.Serving :=
    ⟨by decide +kernel, by decide +kernel, by decide +kernel, by decide +kernel⟩
  have hdiffer : ((serve (.removeFirst 1)).on lost).1 ≠ ((serve (.removeFirst 1)).on r).1 := by
    decide +kernel
  have hmisses := ((companions_agree hlost).2.2.2 (.removeFirst 1) hf hb).resolve_right hdiffer
  have hsame := ((companions_agree h).2.2.2 (.removeFirst 1) hf hb).resolve_left
    fun hm => hm.unserved hs
  exact ⟨⟨hlost, h, hf, hb⟩, hmisses, hsame⟩

end Spillway
