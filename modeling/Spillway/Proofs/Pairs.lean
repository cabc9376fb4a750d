import Spillway.Proofs.Revival

/-!
# A cached queue beside a queue in memory

A cached queue and a queue in memory are a pair if they have the same entries, bounds and hooks and
are at the same point of their lives. Every request that both are asked is answered alike and leaves
them a pair, unless the database fails the cached queue. Then the cached queue has what it had,
except that a queue that was to be destroyed counts as destroyed.
-/

namespace Spillway

open Desk Held

namespace Ram

variable {r : Desk Ram}

/-- A queue that is made has nothing but its name and its bounds. -/
theorem create_eq {id : StorageId} {bounds : Bounds} {q : Ram} (h : create id bounds = .ok q) :
    q = { storageId := id, bounds } :=
  Bounds.eq_of_validate h

/-- A queue in memory that is not active refuses all that needs an active one. -/
theorem serve_inactive (hn : r.queue.phase ≠ .active) {request : Request}
    (hr : request.needsActive = true) :
    (serve request).on r = (.error (.inactive r.queue.storageId.text), r) := by
  have hn' : Managed.phase r.queue ≠ .active := hn
  have hread : ∀ {α : Type} (act : Action (Desk Ram) α),
      (reading act).on r = (.error (.inactive r.queue.storageId.text), r) :=
    on_reading_inactive hn'
  have hchange : ∀ {α : Type} (act : Action (Desk Ram) α),
      (changing act).on r = (.error (.inactive r.queue.storageId.text), r) :=
    on_changing_inactive hn'
  cases request with
  | start | shutdown | destroy => cases hr
  | put batch bypass =>
    exact Action.on_bind_of_error (on_framingPut_inactive hn' batch bypass _)
  | removeListed entries =>
    apply Action.on_bind_of_error
    change (removeListed entries).on r = _
    unfold removeListed
    split
    · exact hread _
    · exact hchange _
  | peek | peekFirst | peekBefore | peekLowest | references | select =>
    exact Action.on_bind_of_error (hread _)
  | takeLowest | take | clear => exact Action.on_bind_of_error (hchange _)
  | removeFirst | removeUpTo | removeTransient =>
    exact Action.on_bind_of_error (Action.on_bind_of_error (hchange _))
  | removeWindow =>
    exact Action.on_bind_of_error (Action.on_bind_of_error (hchange _))

/-- A queue in memory opens at once. -/
theorem serve_start (hd : r.queue.phase ≠ .destroyed) :
    (serve .start).on r = (.ok .done, { r with queue := r.queue.opened }) := by
  have ho : (start : Action (Desk Ram) Unit).on r =
      (.ok (), { r with queue := r.queue.opened }) := by
    rw [start, Action.on_bind_of_ok (on_requireAlive_alive hd), on_changeQueue]
  exact on_done ho

theorem serve_start_destroyed (hd : r.queue.phase = .destroyed) :
    (serve .start).on r = (.error (.inactive r.queue.storageId.text), r) := by
  have ho : (start : Action (Desk Ram) Unit).on r =
      (.error (.inactive r.queue.storageId.text), r) :=
    Action.on_bind_of_error (on_requireAlive_destroyed hd)
  exact on_done ho

/-- Closing changes nothing but the phase. -/
theorem closed_eq (q : Ram) : q.closed =
    { q with phase := q.phase.closed } := by
  unfold closed
  cases q with | mk storageId bounds phase roll hooks => cases phase <;> rfl

/-- A queue in memory closes and keeps what it has. -/
theorem serve_shutdown (r : Desk Ram) : ∃ calls, (serve .shutdown).on r =
    (.ok .done, { r with queue := r.queue.closed, calls }) := by
  by_cases hd : r.queue.phase = .destroyed
  · have ho : (shutdown : Action (Desk Ram) Unit).on r =
        (.ok (), { r with queue := r.queue.closed, calls := r.calls }) := by
      simp only [shutdown, Action.on_bind, on_theQueue, if_pos hd, Action.on_pure, closed]
    exact ⟨_, on_done ho⟩
  · have ho : ∃ calls, (shutdown : Action (Desk Ram) Unit).on r =
        (.ok (), { r with queue := r.queue.closed, calls }) := by
      simp only [shutdown, Action.on_bind, on_theQueue, if_neg hd, on_changeQueue, on_announce]
      exact ⟨_, rfl⟩
    obtain ⟨calls, ho⟩ := ho
    exact ⟨calls, on_done ho⟩

/-- A queue in memory is destroyed with all that it has. -/
theorem serve_destroy (r : Desk Ram) : ∃ calls, (serve .destroy).on r =
    (.ok .done, { r with queue := r.queue.destroyed, calls }) := by
  have ho : ∃ calls, (destroy : Action (Desk Ram) Unit).on r =
      (.ok (), { r with queue := r.queue.destroyed, calls }) := by
    simp only [destroy, Action.on_bind, on_changeQueue, on_announce]
    exact ⟨_, rfl⟩
  obtain ⟨calls, ho⟩ := ho
  exact ⟨calls, on_done ho⟩

end Ram

/-! ## Requests -/

theorem Desk.exists_of_isOk {Q : Type} {outcome : Except Fault Reply × Desk Q}
    (h : outcome.1.isOk = true) : ∃ reply d, outcome = (.ok reply, d) := by
  rcases outcome with ⟨fault | reply, d⟩
  · cases h
  · exact ⟨reply, d, rfl⟩

theorem Desk.exists_of_not_isOk {Q : Type} {outcome : Except Fault Reply × Desk Q}
    (h : outcome.1.isOk = false) : ∃ fault d, outcome = (.error fault, d) := by
  rcases outcome with ⟨fault | reply, d⟩
  · exact ⟨fault, d, rfl⟩
  · cases h

/-- Whether a request changes what a queue has. -/
def Request.alters (request : Request) : Bool := request.puts || request.removes

/-- Changes need an active queue. -/
theorem Request.needsActive_of_alters {request : Request} (h : request.alters = true) :
    request.needsActive = true := by
  cases request with
  | start | shutdown | destroy => cases h
  | _ => rfl

/-! ## Pairs -/

/-- A cached queue and a queue in memory that have the same entries. -/
structure Paired (c : Desk Cached) (r : Desk Ram) (l : List Held) : Prop where
  /-- What the cached queue has. -/
  holds : Cached.Holds c l
  /-- Its index knows it. -/
  index : c.queue.index.Lists (l.map resident)
  /-- The queue in memory has the same. -/
  roll : r.queue.roll.Lists (l.map Held.entry)
  /-- They have the same name. -/
  storageId : r.queue.storageId = c.queue.storageId
  /-- They have the same bounds. -/
  bounds : r.queue.bounds = c.queue.bounds
  /-- They are at the same point of their lives. -/
  phase : r.queue.phase = c.queue.phase
  /-- They have the same hooks. -/
  hooks : r.queue.hooks = c.queue.hooks
  /-- Once destroyed, they have nothing. -/
  gone : c.queue.phase = .destroyed → l = []

namespace Paired

variable {c c' : Desk Cached} {r r' : Desk Ram} {l m : List Held} {request : Request}

/-- Two queues answer a request alike, and are a pair afterwards. -/
structure Answers (c : Desk Cached) (r : Desk Ram) (request : Request) : Prop where
  /-- The answers. -/
  same : ((serve request).on c).1 = ((serve request).on r).1
  /-- Nothing changes in the cached queue that no request changes. -/
  kept : Cached.Kept c ((serve request).on c).2
  /-- A table that was made stays. -/
  made : c.store.table.isSome = true → ((serve request).on c).2.store.table.isSome = true
  /-- They have the same entries. -/
  paired : ∃ m, Paired ((serve request).on c).2 ((serve request).on r).2 m
  /-- A refusal changes neither the cached queue nor its table. -/
  refused : ∀ fault, ((serve request).on c).1 = .error fault →
    ((serve request).on c).2.queue = c.queue ∧
      ((serve request).on c).2.store.table = c.store.table
  /-- Nothing but an opening, a closing or a destruction changes the phase. -/
  phase : request.needsActive = true → ((serve request).on c).2.queue.phase = c.queue.phase

/-- The database fails the cached queue, which says so. -/
structure Fails (c : Desk Cached) (r : Desk Ram) (l : List Held) (request : Request) : Prop where
  /-- It says so. -/
  fault : ∃ fault, ((serve request).on c).1 = .error fault
  /-- It is a pair with the other queue as that is, unless it was to be destroyed. -/
  remains : request = .destroy ∧ ((serve request).on c).2.queue.phase = .destroyed ∨
    Paired ((serve request).on c).2 r l
  /-- What would change its contents changes neither it nor its table. -/
  unaltered : request.alters = true → ((serve request).on c).2.queue = c.queue ∧
    ((serve request).on c).2.store.table = c.store.table
  /-- The table cannot be opened, or was not made, or the link does not serve. -/
  unserved : Cached.Openable c l → c.store.table.isSome = true → ¬ c.store.link.Serving

/-- The database fails the cached queue, which reads what it has in memory. -/
structure Glimpses (c : Desk Cached) (r : Desk Ram) (l : List Held) (request : Request) :
    Prop where
  /-- It only reads. -/
  reads : request.alters = false
  /-- It has what it had. -/
  spoilt : Cached.Spoilt c ((serve request).on c).2 l
  /-- It is a pair with the other queue if that answers. -/
  paired : Paired ((serve request).on c).2 ((serve request).on r).2 l

theorem answers_of {outcome : Except Fault Reply} (hc : (serve request).on c = (outcome, c'))
    (hr : (serve request).on r = (outcome, r')) (hk : Cached.Kept c c')
    (hm : c.store.table.isSome = true → c'.store.table.isSome = true) (h : Paired c' r' m)
    (hf : ∀ fault, outcome = .error fault →
      c'.queue = c.queue ∧ c'.store.table = c.store.table)
    (hp : request.needsActive = true → c'.queue.phase = c.queue.phase) :
    Answers c r request := by
  refine ⟨?_, ?_, ?_, ?_, ?_, ?_⟩ <;> rw [hc]
  · rw [hr]
  · exact hk
  · exact hm
  · rw [hr]
    exact ⟨m, h⟩
  · exact hf
  · exact hp

/-- A queue at work has a table. -/
theorem made_of_stocks (h : Cached.Stocks c l) : c.store.table.isSome = true := by
  obtain ⟨rows, ht, -⟩ := h.rows
  rw [ht]
  rfl

/-- A pair is a pair after it has worked. -/
theorem worked (h : Paired c r l) (hk : Cached.Kept c c') (ha : c'.queue.phase = .active)
    (hs : Cached.Stocks c' m) (hid : r'.queue.storageId = r.queue.storageId)
    (hb : r'.queue.bounds = r.queue.bounds) (hh : r'.queue.hooks = r.queue.hooks)
    (hp : r'.queue.phase = .active) (hroll : r'.queue.roll.Lists (m.map Held.entry)) :
    Paired c' r' m where
  holds := .serving ha hs
  index := hs.index
  roll := hroll
  storageId := hid.trans (h.storageId.trans hk.storageId.symm)
  bounds := hb.trans (h.bounds.trans hk.bounds.symm)
  phase := hp.trans ha.symm
  hooks := hh.trans (h.hooks.trans hk.hooks.symm)
  gone := fun hd => by
    rw [ha] at hd
    cases hd

/-- Work that changes neither the cached queue nor its table leaves a pair. -/
theorem unaltered (h : Paired c r l) (hq : c'.queue = c.queue)
    (ht : c'.store.table = c.store.table) (hu : c.store.Used c'.store) : Paired c' r l := by
  obtain ⟨queue, store, calls⟩ := c'
  cases hq
  refine { h with holds := ?_ }
  cases h.holds with
  | serving ha hs =>
    obtain ⟨rows, htable, hp⟩ := hs.rows
    exact .serving ha ⟨hs.layout, hs.index, hs.hot, ⟨rows, ht.trans htable, hp⟩, hs.named, hs.warm,
      hs.cold, hu.tableName ▸ hs.fit⟩
  | resting hn hs =>
    refine .resting hn ⟨hs.layout, hs.known, hs.hot, ?_, hs.named, hs.alive⟩
    rw [Store.rows, ht]
    exact hs.rows

/-- Work on contents that was spoilt and says so. -/
theorem fails_of_spoilt (h : Paired c r l) (hs : Cached.Spoilt c ((serve request).on c).2 l)
    (hf : ∃ fault, ((serve request).on c).1 = .error fault) : Fails c r l request where
  fault := hf
  remains := .inr (h.unaltered hs.queue hs.table hs.used)
  unaltered := fun _ => ⟨hs.queue, hs.table⟩
  unserved := fun _ _ => hs.unserved

/-- A pair answers requests for contents alike, or the database fails the cached queue, which says
so where something was to be taken out. -/
theorem lookup (h : Paired c r l) (ha : c.queue.phase = .active) (hr : request.looksUp = true) :
    Answers c r request ∨ Fails c r l request ∨ Glimpses c r l request := by
  have ha' : r.queue.phase = .active := h.phase.trans ha
  obtain ⟨roll, calls, hor, hroll⟩ := Ram.serve_on ha' h.roll hr
  rcases Cached.serve_on (h.holds.stocks ha) ha hr with
    ⟨c', m, hoc, hst, hs, hsame⟩ | ⟨hspoilt, ⟨hreads, -⟩ | hfault⟩
  · refine .inl (answers_of hoc hor hst.kept (fun _ => made_of_stocks hs)
      (h.worked hst.kept (hst.phase.trans ha) hs rfl rfl rfl ha' ?_) (by rintro _ ⟨⟩)
      fun _ => hst.phase)
    rw [hsame.entries, Cached.entries_restOf]
    exact hroll
  · refine .inr (.inr ⟨?_, hspoilt, ?_⟩)
    · rw [Request.alters, hreads, Bool.or_false]
      cases request with
      | put => cases hr
      | _ => rfl
    · rw [Request.left, hreads] at hroll
      rw [hor]
      exact h.worked hspoilt.steady.kept (hspoilt.steady.phase.trans ha) hspoilt.stocks rfl rfl rfl
        ha' hroll
  · exact .inr (.inl (h.fails_of_spoilt hspoilt hfault))

/-- A pair puts alike, or the database fails the cached queue. -/
theorem put (h : Paired c r l) (ha : c.queue.phase = .active) (batch : List Entry)
    (bypass : Bool) :
    Answers c r (.put batch bypass) ∨ Fails c r l (.put batch bypass) := by
  have ha' : r.queue.phase = .active := h.phase.trans ha
  obtain ⟨roll, store, calls, hor, hroll⟩ := Ram.put_on ha' h.roll batch bypass
  rw [h.storageId, h.bounds, h.hooks] at hor hroll
  rcases Cached.put_on (h.holds.stocks ha) ha batch bypass with
    ⟨c', m, hoc, hst, hs, hm, -, hrefused⟩ | ⟨hspoilt, fault, hfault, -⟩
  · refine .inl (answers_of hoc hor hst.kept (fun _ => made_of_stocks hs)
      (h.worked hst.kept (hst.phase.trans ha) hs rfl rfl rfl ha' ?_) hrefused fun _ => hst.phase)
    rw [hm]
    exact hroll
  · exact .inr (h.fails_of_spoilt hspoilt ⟨fault, hfault⟩)

/-- A queue that was never opened has nothing. -/
theorem nothing (h : Paired c r l) (hp : c.queue.phase = .uninitialized) : l = [] := by
  rcases h.holds.shelved.known with ⟨hi, -⟩ | ⟨hn, -⟩
  · have := h.index.items
    rw [hi] at this
    exact List.map_eq_nil_iff.1 this.symm
  · exact absurd hp hn

/-- A pair opens alike, or the cached queue stays closed. -/
theorem start (h : Paired c r l) : Answers c r .start ∨ Fails c r l .start := by
  by_cases ha : c.queue.phase = .active
  · have ha' : r.queue.phase = .active := h.phase.trans ha
    have hs := h.holds.stocks ha
    exact .inl (answers_of (on_done (Cached.start_active ha))
      (Ram.serve_start (by rw [ha']; nofun)) (.refl c) id
      (h.worked (.refl c) ha hs rfl rfl rfl rfl h.roll) (by rintro _ ⟨⟩) nofun)
  by_cases hd : c.queue.phase = .destroyed
  · have hor := Ram.serve_start_destroyed (h.phase.trans hd)
    rw [h.storageId] at hor
    exact .inl (answers_of (on_done (Cached.start_destroyed hd)) hor (.refl c) id h
      (fun _ _ => ⟨rfl, rfl⟩) nofun)
  have hd' : r.queue.phase ≠ .destroyed := by rwa [h.phase]
  have hall : Cached.reopened c l = l := by
    unfold Cached.reopened
    split
    · next hp => rw [h.nothing hp, List.filter_nil]
    · rfl
  rcases Cached.start_on h.holds.shelved ha hd with
    ⟨c', m, hoc, hk, ha', hs, hsame, -⟩ | ⟨fault, c', m, hoc, hk, hp, hi, hs, hm, hf⟩
  · refine .inl (answers_of (on_done hoc) (Ram.serve_start hd') hk (fun _ => made_of_stocks hs)
      (h.worked hk ha' hs rfl rfl rfl rfl ?_) (by rintro _ ⟨⟩) nofun)
    rw [hsame.entries, hall]
    exact h.roll
  · have hm : m = l := hm.elim id fun hm => hm.trans hall
    subst hm
    have hoc := on_done hoc
    refine .inr ⟨⟨fault, congrArg Prod.fst hoc⟩, .inr ?_, nofun, fun hopen _ => hf hopen⟩
    rw [show (serve .start).on c = _ from hoc]
    exact { holds := .resting (by rwa [hp]) hs, index := hi ▸ h.index, roll := h.roll
            storageId := h.storageId.trans hk.storageId.symm
            bounds := h.bounds.trans hk.bounds.symm, phase := h.phase.trans hp.symm
            hooks := h.hooks.trans hk.hooks.symm, gone := fun hgone => h.gone (hp ▸ hgone) }

/-- A pair closes alike. -/
theorem shutdown (h : Paired c r l) : Answers c r .shutdown := by
  obtain ⟨c', m, hoc, hk, hm, hl, hphase, hindex, hmade⟩ := Cached.shutdown_on h.holds
  obtain ⟨calls, hor⟩ := Ram.serve_shutdown r
  have hentries : m.map Held.entry = l.map Held.entry := by
    rcases hl with rfl | rfl
    · rfl
    · exact Cached.entries_flushed l
  rw [Ram.closed_eq] at hor
  refine answers_of (on_done hoc) hor hk hmade
    { holds := hm, index := hindex h.index, roll := hentries ▸ h.roll
      storageId := h.storageId.trans hk.storageId.symm, bounds := h.bounds.trans hk.bounds.symm
      phase := ?_, hooks := h.hooks.trans hk.hooks.symm, gone := fun hd => ?_ }
    (by rintro _ ⟨⟩) nofun
  · rw [hphase]
    exact congrArg Phase.closed h.phase
  · have hd' : c.queue.phase = .destroyed := Phase.closed_eq_destroyed_iff.1 (hphase ▸ hd)
    rw [h.gone hd', List.map_nil] at hentries
    exact List.map_eq_nil_iff.1 hentries

/-- A pair is destroyed alike, or the cached queue counts as destroyed although its rows could not
be deleted. -/
theorem destroy (h : Paired c r l) : Answers c r .destroy ∨ Fails c r l .destroy := by
  obtain ⟨calls, hor⟩ := Ram.serve_destroy r
  by_cases hd : c.queue.phase = .destroyed
  · have hl := h.gone hd
    subst hl
    exact .inl (answers_of (on_done (Cached.destroy_destroyed hd)) hor (.refl c) id
      { h with roll := .empty, phase := hd.symm, gone := fun _ => rfl } (by rintro _ ⟨⟩) nofun)
  obtain ⟨outcome, c', m, hoc, hk, hm, hdone, hphase, hindex, hmade⟩ :=
    Cached.destroy_on h.holds hd
  rcases hdone with ⟨rfl, rfl⟩ | ⟨fault, rfl, -, hf⟩
  · exact .inl (answers_of (on_done hoc) hor hk hmade
      { holds := hm, index := hindex ▸ .empty, roll := .empty
        storageId := h.storageId.trans hk.storageId.symm, bounds := h.bounds.trans hk.bounds.symm
        phase := hphase.symm, hooks := h.hooks.trans hk.hooks.symm, gone := fun _ => rfl }
      (by rintro _ ⟨⟩) nofun)
  · have hoc := on_done hoc
    refine .inr ⟨⟨fault, congrArg Prod.fst hoc⟩, .inl ⟨rfl, ?_⟩, nofun, fun _ hm => (hf hm).2⟩
    rw [show (serve .destroy).on c = _ from hoc]
    exact hphase

/-- A pair refuses alike. -/
theorem refuse (h : Paired c r l) (hn : c.queue.phase ≠ .active)
    (hr : request.needsActive = true) : Answers c r request := by
  have hor := Ram.serve_inactive (by rwa [h.phase]) hr
  rw [h.storageId] at hor
  exact answers_of (Cached.serve_inactive hn hr) hor (.refl c) id h (fun _ _ => ⟨rfl, rfl⟩)
    fun _ => rfl

/-- What comes of a request to a pair. -/
theorem asked (h : Paired c r l) (request : Request) :
    Answers c r request ∨ Fails c r l request ∨ Glimpses c r l request := by
  cases request using Request.casesByNeed with
  | contents request hr =>
    by_cases ha : c.queue.phase = .active
    · obtain ⟨batch, bypass, rfl⟩ | hlooks := Request.put_or_looksUp hr
      · exact (h.put ha batch bypass).imp_right .inl
      · exact h.lookup ha hlooks
    · exact .inl (h.refuse ha hr)
  | start => exact h.start.imp_right .inl
  | shutdown => exact .inl h.shutdown
  | destroy => exact h.destroy.imp_right .inl

/-- A notification changes nothing between them. -/
theorem notified (h : Paired c r l) : Cached.Kept c (Cached.catchUp.on c).2 ∧
    (c.store.table.isSome = true → (Cached.catchUp.on c).2.store.table.isSome = true) ∧
    ∃ m, Paired (Cached.catchUp.on c).2 r m := by
  by_cases ha : c.queue.phase = .active
  · obtain ⟨c', m, ho, hst, hs, hentries, -⟩ := Cached.catchUp_on (h.holds.stocks ha) ha
    rw [ho]
    exact ⟨hst.kept, fun _ => made_of_stocks hs, m, h.worked hst.kept (hst.phase.trans ha) hs rfl
      rfl rfl (h.phase.trans ha) (hentries ▸ h.roll)⟩
  · rw [Cached.catchUp_inactive ha]
    exact ⟨.refl c, id, l, h⟩

/-- New queues over a table without rows of their name are a pair. -/
theorem of_made {id : StorageId} {bounds : Bounds} {q : Cached} {q' : Ram} {s : Store}
    (hq : Cached.create id bounds = .ok q) (hq' : Ram.create id bounds = .ok q')
    (hr : Statement.rowsOf id.text s.rows = []) (hooks : Hooks) (s' : Store) :
    Paired { queue := { q with hooks }, store := s } { queue := { q' with hooks }, store := s' }
      [] := by
  have hheld := Cached.made_holds hq (.of_rowsOf_nil hr) hooks []
  cases Cached.create_eq hq
  cases Ram.create_eq hq'
  exact ⟨hheld, .empty, .empty, rfl, rfl, rfl, rfl, nofun⟩

/-- Queues that get the same hooks stay a pair. -/
theorem hooked (h : Paired c r l) (hooks : Hooks) :
    Paired { c with queue := { c.queue with hooks } } { r with queue := { r.queue with hooks } }
      l :=
  { h with holds := h.holds.hooked hooks, hooks := rfl }

/-- So do queues whose stores others use, if they leave the rows alone. -/
theorem spared (h : Paired c r l) {s : Store} (hp : c.store.Spares c.queue.storageId.text s)
    (s' : Store) : Paired { c with store := s } { r with store := s' } l :=
  { h with holds := h.holds.spared hp }

end Paired

end Spillway
