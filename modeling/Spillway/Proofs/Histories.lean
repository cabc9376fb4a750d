import Spillway.Proofs.Lifecycle

/-!
# Histories of a cached queue

A queue is made over whatever rows an earlier one of its name has left, answers requests, is told
that the database is there again, and is dropped and made anew. Meanwhile the link does what it
likes, also within a request, and others change their own rows. Whatever the history, memory and
rows are those of one list in the layout of the cache.
-/

namespace Spillway

/-- Others used the store, and left the rows of a queue alone. -/
structure Store.Spares (queue : String) (s s' : Store) : Prop where
  /-- The table keeps its name. -/
  tableName : s'.tableName = s.tableName
  /-- A table that was made stays. -/
  made : s.table.isSome = true → s'.table.isSome = true
  /-- The rows of the queue. -/
  rows : Statement.rowsOf queue s'.rows = Statement.rowsOf queue s.rows

theorem Store.Spares.refl (queue : String) (s : Store) : s.Spares queue s := ⟨rfl, id, rfl⟩

/-- Whether a request needs an active queue. -/
def Request.needsActive : Request → Bool
  | .start | .shutdown | .destroy => false
  | _ => true

/-- A request for contents needs an active queue, and the others are about its life. -/
@[elab_as_elim]
theorem Request.casesByNeed {motive : Request → Prop}
    (contents : ∀ request : Request, request.needsActive = true → motive request)
    (start : motive .start) (shutdown : motive .shutdown) (destroy : motive .destroy)
    (request : Request) : motive request := by
  cases request with
  | start => exact start
  | shutdown => exact shutdown
  | destroy => exact destroy
  | _ => exact contents _ rfl

/-- A request for contents puts entries or looks them up. -/
theorem Request.put_or_looksUp {request : Request} (h : request.needsActive = true) :
    (∃ batch bypass, request = .put batch bypass) ∨ request.looksUp = true := by
  cases request with
  | start | shutdown | destroy => cases h
  | put batch bypass => exact .inl ⟨batch, bypass, rfl⟩
  | _ => exact .inr rfl

/-- Whether a request is a put. -/
def Request.puts : Request → Bool
  | .put _ _ => true
  | _ => false

/-- The entries of the batch of a put. -/
def Request.brought : Request → List Entry
  | .put batch _ => batch
  | _ => []

/-- What is made once its bounds are found consistent is what was to be made. -/
theorem Bounds.eq_of_validate {α : Type} {b : Bounds} {q q' : α}
    (h : (do b.validate; return q : Except Fault α) = .ok q') : q' = q := by
  cases hv : b.validate with
  | ok u =>
    rw [hv] at h
    exact (Except.ok.inj h).symm
  | error fault =>
    rw [hv] at h
    cases h

/-- An answer that says no more than that something is done. -/
theorem Desk.on_done {Q : Type} {act : Action (Desk Q) Unit} {d d' : Desk Q}
    {outcome : Except Fault Unit} (h : act.on d = (outcome, d')) :
    (do act; return Reply.done : Action (Desk Q) Reply).on d =
      (outcome.map fun _ => .done, d') := by
  cases outcome with
  | ok u => exact Action.on_bind_of_ok h
  | error fault => exact Action.on_bind_of_error h

/-- A request that was answered, on the desk that it left. -/
theorem Desk.on_of_answer {Q : Type} [Contract Q] {d : Desk Q} {request : Request} {reply : Reply}
    (h : ((serve request).on d).1 = .ok reply) :
    (serve request).on d = (.ok reply, ((serve request).on d).2) := Prod.ext h rfl

namespace Cached

open Desk Held

/-- What happens around a cached queue. -/
inductive Event
  /-- It is asked something. -/
  | ask (request : Request)
  /-- It is told that the database is there again. -/
  | notified
  /-- The link changes, others use the store. -/
  | meanwhile (store : Store)
  /-- It gets other hooks. -/
  | hooked (hooks : Hooks)
  /-- It is dropped as it is, and made anew. -/
  | renewed (bounds : Bounds) (hooks : Hooks)

/-- The entries that an event may bring. -/
def Event.brought : Event → List Entry
  | .ask request => request.brought
  | _ => []

/-- What an event makes of a cached queue at work. -/
inductive Step : Desk Cached → Event → Desk Cached → Prop
  | ask (d : Desk Cached) (request : Request) : Step d (.ask request) ((serve request).on d).2
  | notified (d : Desk Cached) : Step d .notified (catchUp.on d).2
  | meanwhile (d : Desk Cached) {store : Store}
      (hs : d.store.Spares d.queue.storageId.text store) :
      Step d (.meanwhile store) { d with store }
  | hooked (d : Desk Cached) (hooks : Hooks) :
      Step d (.hooked hooks) { d with queue := { d.queue with hooks } }
  | renewed (d : Desk Cached) {bounds : Bounds} {q : Cached}
      (hq : create d.queue.storageId bounds = .ok q) (hooks : Hooks) :
      Step d (.renewed bounds hooks) { queue := { q with hooks }, store := d.store }

/-- Events, one after the other. -/
inductive Runs : Desk Cached → List Event → Desk Cached → Prop
  | nil (d : Desk Cached) : Runs d [] d
  | snoc {d d' d'' : Desk Cached} {events : List Event} {event : Event}
      (hr : Runs d events d') (hs : Step d' event d'') : Runs d (events ++ [event]) d''

/-- A queue that was just made, over the rows that others of its name have left. -/
structure Made (d : Desk Cached) : Prop where
  /-- It is new. -/
  fresh : ∃ q hooks, create d.queue.storageId d.queue.bounds = .ok q ∧ d.queue = { q with hooks }
  /-- Its rows are those of entries of different ids. -/
  rows : ∃ es, Partition d.queue.storageId.text d.store.rows es

/-- A queue with a history. -/
def Reachable (d : Desk Cached) : Prop := ∃ d₀ events, Made d₀ ∧ Runs d₀ events d

/-! ## Queues that are not active -/

theorem on_altering_inactive {α : Type} {d : Desk Cached} (hn : d.queue.phase ≠ .active)
    (act : Action (Desk Cached) α) :
    (altering act).on d = (.error (.inactive d.queue.storageId.text), d) := by
  have hn' : Managed.phase d.queue ≠ .active := hn
  simp only [altering, Action.on_bind, on_requireActive, Phase.requireActive, if_neg hn']
  rfl

/-- A queue that is not active refuses all that needs an active one. -/
theorem serve_inactive {d : Desk Cached} (hn : d.queue.phase ≠ .active) {request : Request}
    (hr : request.needsActive = true) :
    (serve request).on d = (.error (.inactive d.queue.storageId.text), d) := by
  have hn' : Managed.phase d.queue ≠ .active := hn
  have hread : ∀ {α : Type} (act : Action (Desk Cached) α),
      (reading act).on d = (.error (.inactive d.queue.storageId.text), d) :=
    on_reading_inactive hn'
  have halter : ∀ {α : Type} (act : Action (Desk Cached) α),
      (altering act).on d = (.error (.inactive d.queue.storageId.text), d) :=
    on_altering_inactive hn
  cases request with
  | start | shutdown | destroy => cases hr
  | put batch bypass =>
    exact Action.on_bind_of_error (on_framingPut_inactive hn' batch bypass _)
  | removeListed entries =>
    apply Action.on_bind_of_error
    change (removeListed entries).on d = _
    unfold removeListed
    split
    · exact hread _
    · exact halter _
  | peek | peekFirst | peekBefore | peekLowest | references | select =>
    exact Action.on_bind_of_error (hread _)
  | takeLowest | take | removeFirst | removeWindow | removeUpTo | removeTransient | clear =>
    exact Action.on_bind_of_error (halter _)

/-! ## What a request makes of what is held -/

/-- A list that a request may leave of another: nothing is there that was not there or is brought,
and only a put over a link that does not serve may hold rows back. -/
structure Follows (d : Desk Cached) (request : Request) (l m : List Held) : Prop where
  /-- Nothing comes from nowhere. -/
  entries : ∀ e ∈ m.map Held.entry, e ∈ l.map Held.entry ∨ e ∈ request.brought
  /-- Nothing more is held back. -/
  heldBack : (request.puts = true → d.store.link.Serving) → pendingIds m ⊆ pendingIds l

variable {d d' : Desk Cached} {l m : List Held} {request : Request}

theorem follows_of_sublist {rest : List Held} (h : rest.Sublist l) (hs : SameRows rest m) :
    Follows d request l m := by
  refine ⟨fun e he => .inl ?_, fun _ id hid => ?_⟩
  · rw [hs.entries] at he
    exact (h.map _).subset he
  · rw [pendingIds, hs.pending] at hid
    exact ((h.filter _).map _).subset hid

theorem follows_same (d : Desk Cached) (request : Request) (l : List Held) :
    Follows d request l l :=
  follows_of_sublist (List.Sublist.refl l) (.refl l)

theorem restOf_sublist (l : List Held) (request : Request) : (restOf l request).Sublist l := by
  unfold restOf
  split
  · exact List.filter_sublist
  · exact List.Sublist.refl l

theorem reopened_sublist (d : Desk Cached) (l : List Held) : (reopened d l).Sublist l := by
  unfold reopened
  split
  · exact List.filter_sublist
  · exact List.Sublist.refl l

/-- Entering a batch adds none but its entries. -/
theorem mem_of_mem_foldl_enter {es batch : List Entry} {e : Entry}
    (h : e ∈ batch.foldl enter es) : e ∈ es ∨ e ∈ batch := by
  induction batch generalizing es with
  | nil => exact .inl h
  | cons a batch ih =>
    rcases ih h with he | he
    · unfold enter at he
      split at he
      · exact .inl he
      · rcases mem_insertByKey.1 he with rfl | he
        · exact .inr (List.mem_cons_self ..)
        · exact .inl he
    · exact .inr (List.mem_cons_of_mem _ he)

theorem mem_of_mem_putOn {name : String} {bounds : Bounds} {hooks : Hooks} {batch es : List Entry}
    {bypass : Bool} {e : Entry} (h : e ∈ (putOn name bounds hooks batch bypass es).2) :
    e ∈ es ∨ e ∈ batch := by
  unfold putOn at h
  split at h
  · unfold admitOn at h
    split at h
    · exact .inl h
    · exact mem_of_mem_foldl_enter h
  · exact .inl h

/-- After a put an active queue has a list that follows. -/
theorem put_follows (h : Stocks d l) (ha : d.queue.phase = .active) (batch : List Entry)
    (bypass : Bool) : ∃ m, Kept d ((serve (.put batch bypass)).on d).2 ∧
      Holds ((serve (.put batch bypass)).on d).2 m ∧ Follows d (.put batch bypass) l m := by
  rcases put_on h ha batch bypass with ⟨d', m, ho, hst, hs, hm, hp, -⟩ | ⟨hspoilt, -⟩
  · rw [ho]
    refine ⟨m, hst.kept, .serving (hst.phase.trans ha) hs, fun e he => ?_, fun hr => hp (hr rfl)⟩
    rw [hm] at he
    exact mem_of_mem_putOn he
  · exact ⟨l, hspoilt.steady.kept, .serving (hspoilt.steady.phase.trans ha) hspoilt.stocks,
      follows_same _ _ l⟩

/-- After a request for contents an active queue has a list that follows. -/
theorem lookup_follows (h : Stocks d l) (ha : d.queue.phase = .active)
    (hr : request.looksUp = true) : ∃ m, Kept d ((serve request).on d).2 ∧
      Holds ((serve request).on d).2 m ∧ Follows d request l m := by
  rcases serve_on h ha hr with ⟨d', m, ho, hst, hs, hsame⟩ | ⟨hspoilt, -⟩
  · rw [ho]
    exact ⟨m, hst.kept, .serving (hst.phase.trans ha) hs,
      follows_of_sublist (restOf_sublist l request) hsame⟩
  · exact ⟨l, hspoilt.steady.kept, .serving (hspoilt.steady.phase.trans ha) hspoilt.stocks,
      follows_same _ _ l⟩

/-- An active queue is started already. -/
theorem start_active (ha : d.queue.phase = .active) : start.on d = (.ok (), d) := by
  have hd : Managed.phase d.queue ≠ .destroyed := by
    rw [show Managed.phase d.queue = .active from ha]
    nofun
  rw [start, Action.on_bind_of_ok (on_requireAlive_alive hd),
    Action.on_bind_of_ok (on_theQueue d), if_pos ha, Action.on_pure]

/-- A destroyed queue is not started again. -/
theorem start_destroyed (hd : d.queue.phase = .destroyed) :
    start.on d = (.error (.inactive d.queue.storageId.text), d) :=
  Action.on_bind_of_error (on_requireAlive_destroyed hd)

theorem destroy_destroyed (hd : d.queue.phase = .destroyed) : destroy.on d = (.ok (), d) := by
  rw [destroy, Action.on_bind_of_ok (on_theQueue d), if_pos hd, Action.on_pure]

/-- A destroyed queue stays destroyed. -/
theorem serve_destroyed (hd : d.queue.phase = .destroyed)
    (request : Request) : ((serve request).on d).2 = d := by
  cases request using Request.casesByNeed with
  | contents request hr => rw [serve_inactive (by rw [hd]; nofun) hr]
  | start => rw [show (serve .start).on d = _ from on_done (start_destroyed hd)]
  | shutdown =>
    have ho : shutdown.on d = (.ok (), d) := by
      rw [shutdown, Action.on_bind_of_ok (on_theQueue d), hd]
      rfl
    rw [show (serve .shutdown).on d = _ from on_done ho]
  | destroy => rw [show (serve .destroy).on d = _ from on_done (destroy_destroyed hd)]

/-- After an opening, whatever comes of it, a queue that was not active has a list that follows. -/
theorem start_follows (h : Shelved d l) (hn : d.queue.phase ≠ .active)
    (hd : d.queue.phase ≠ .destroyed) : ∃ m, Kept d ((serve .start).on d).2 ∧
      Holds ((serve .start).on d).2 m ∧ Follows d .start l m := by
  rcases start_on h hn hd with
    ⟨d', m, ho, hk, hp, hs, hsame, -⟩ | ⟨fault, d', m, ho, hk, hp, -, hs, hm, -⟩
  · rw [show (serve .start).on d = _ from on_done ho]
    exact ⟨m, hk, .serving hp hs, follows_of_sublist (reopened_sublist d l) hsame⟩
  · rw [show (serve .start).on d = _ from on_done ho]
    refine ⟨m, hk, .resting (by rwa [hp]) hs, ?_⟩
    rcases hm with rfl | rfl
    · exact follows_same _ _ m
    · exact follows_of_sublist (reopened_sublist d l) (.refl _)

/-- After a closing a queue has a list that follows. -/
theorem shutdown_follows (h : Holds d l) : ∃ m, Kept d ((serve .shutdown).on d).2 ∧
    Holds ((serve .shutdown).on d).2 m ∧ Follows d .shutdown l m := by
  obtain ⟨d', m, ho, hk, hs, hm, -⟩ := shutdown_on h
  rw [show (serve .shutdown).on d = _ from on_done ho]
  refine ⟨m, hk, hs, ?_⟩
  rcases hm with rfl | rfl
  · exact follows_same _ _ m
  · refine ⟨fun e he => .inl ?_, fun _ id hid => ?_⟩
    · rwa [entries_flushed] at he
    · rw [pendingIds_flushed h.shelved.layout.order] at hid
      cases hid

/-- After it is destroyed, as far as that succeeds, a queue has a list that follows. -/
theorem destroy_follows (h : Holds d l) (hd : d.queue.phase ≠ .destroyed) :
    ∃ m, Kept d ((serve .destroy).on d).2 ∧ Holds ((serve .destroy).on d).2 m ∧
      Follows d .destroy l m := by
  obtain ⟨outcome, d', m, ho, hk, hs, hm, -⟩ := destroy_on h hd
  rw [show (serve .destroy).on d = _ from on_done ho]
  refine ⟨m, hk, hs, ?_⟩
  rcases hm with ⟨-, rfl⟩ | ⟨fault, -, rfl, -⟩
  · exact ⟨nofun, fun _ => nofun⟩
  · refine ⟨fun e he => .inl ?_, fun _ id hid => ?_⟩
    · rw [entries_row] at he
      exact (List.filter_sublist.map _).subset he
    · rw [pendingIds_of_cold hs.shelved.layout (cold_row _)] at hid
      cases hid

/-- After any request a queue has a list that follows. -/
theorem serve_follows (h : Holds d l) (request : Request) :
    ∃ m, Kept d ((serve request).on d).2 ∧ Holds ((serve request).on d).2 m ∧
      Follows d request l m := by
  have stay : ∀ {request : Request} {outcome : Except Fault Reply},
      (serve request).on d = (outcome, d) →
      ∃ m, Kept d ((serve request).on d).2 ∧ Holds ((serve request).on d).2 m ∧
        Follows d request l m := fun ho => by
    rw [ho]
    exact ⟨l, .refl d, h, follows_same _ _ l⟩
  cases request using Request.casesByNeed with
  | contents request hr =>
    by_cases ha : d.queue.phase = .active
    · obtain ⟨batch, bypass, rfl⟩ | hlooks := Request.put_or_looksUp hr
      · exact put_follows (h.stocks ha) ha batch bypass
      · exact lookup_follows (h.stocks ha) ha hlooks
    · exact stay (serve_inactive ha hr)
  | start =>
    by_cases ha : d.queue.phase = .active
    · exact stay (on_done (start_active ha))
    by_cases hd : d.queue.phase = .destroyed
    · exact stay (on_done (start_destroyed hd))
    exact start_follows h.shelved ha hd
  | shutdown => exact shutdown_follows h
  | destroy =>
    by_cases hd : d.queue.phase = .destroyed
    · exact stay (on_done (destroy_destroyed hd))
    exact destroy_follows h hd

/-! ## What a history makes of what is held -/

/-- A queue that is made has nothing but its name and its bounds. -/
theorem create_eq {id : StorageId} {bounds : Bounds} {q : Cached}
    (h : create id bounds = .ok q) : q =
      { storageId := id, bounds, hot := { storageId := id, bounds := bounds.hot }
        cold := { storageId := id, bounds } } := by
  have hb : bounds.validate = .ok () := by
    cases hv : bounds.validate with
    | ok u => rfl
    | error fault =>
      rw [create, hv] at h
      cases h
  have hh : bounds.hot.validate = .ok () := Bounds.validate_eq_ok_iff.2 bounds.hot_consistent
  simp only [create, Ram.create, Durable.create, hb, hh] at h
  exact (Except.ok.inj h).symm

/-- A queue that is made has the rows of its name. -/
theorem made_holds {id : StorageId} {bounds : Bounds} {q : Cached} {es : List Entry} {s : Store}
    (hq : create id bounds = .ok q) (hp : Partition id.text s.rows es) (hooks : Hooks)
    (calls : List Call) :
    Holds { queue := { q with hooks }, store := s, calls } (es.map Held.row) := by
  cases create_eq hq
  refine .resting nofun ⟨Layout.row _ hp.order, .inl ⟨rfl, cold_row es⟩, ?_, ?_, rfl, fun _ => ?_⟩
  · rw [inMemory_of_cold (cold_row es)]
    exact .empty
  · rw [inTable_row]
    exact hp
  · exact ⟨nofun, nofun⟩

/-- What others do to the store does not change what is held. -/
theorem Holds.spared (h : Holds d l) {s : Store}
    (hs : d.store.Spares d.queue.storageId.text s) : Holds { d with store := s } l := by
  cases h with
  | serving ha h =>
    refine .serving ha { h with rows := ?_, fit := hs.tableName ▸ h.fit }
    obtain ⟨rows, ht, hp⟩ := h.rows
    obtain ⟨rows', ht'⟩ := Option.isSome_iff_exists.1 (hs.made (by rw [ht]; rfl))
    have hr := hs.rows
    rw [Store.rows, Store.rows, ht, ht'] at hr
    exact ⟨rows', ht', hp.of_rowsOf_eq hr⟩
  | resting hn h => exact .resting hn { h with rows := h.rows.of_rowsOf_eq hs.rows }

theorem Holds.hooked (h : Holds d l) (hooks : Hooks) :
    Holds { d with queue := { d.queue with hooks } } l := by
  cases h with
  | serving ha h =>
    exact .serving ha ⟨h.layout, h.index, h.hot, h.rows, h.named, h.warm, h.cold, h.fit⟩
  | resting hn h => exact .resting hn ⟨h.layout, h.known, h.hot, h.rows, h.named, h.alive⟩

/-- A queue that is told that the database is there again has the same entries. -/
theorem catchUp_holds (h : Holds d l) : ∃ m, Kept d (catchUp.on d).2 ∧
    Holds (catchUp.on d).2 m ∧ m.map Held.entry = l.map Held.entry := by
  by_cases ha : d.queue.phase = .active
  · obtain ⟨d', m, ho, hst, hs, hentries, -⟩ := catchUp_on (h.stocks ha) ha
    rw [ho]
    exact ⟨m, hst.kept, .serving (hst.phase.trans ha) hs, hentries⟩
  · rw [catchUp_inactive ha]
    exact ⟨l, .refl d, h, rfl⟩

/-- An event leaves a queue of the same name and a list to which nothing came but what it brought.
-/
theorem step_holds {event : Event} (hstep : Step d event d') (h : Holds d l) :
    d'.queue.storageId = d.queue.storageId ∧ ∃ m, Holds d' m ∧
      ∀ e ∈ m.map Held.entry, e ∈ l.map Held.entry ∨ e ∈ event.brought := by
  cases hstep with
  | ask request =>
    obtain ⟨m, hk, hm, hf⟩ := serve_follows h request
    exact ⟨hk.storageId, m, hm, hf.entries⟩
  | notified =>
    obtain ⟨m, hk, hm, he⟩ := catchUp_holds h
    exact ⟨hk.storageId, m, hm, fun e hin => .inl (he ▸ hin)⟩
  | meanwhile hs => exact ⟨rfl, l, h.spared hs, fun e hin => .inl hin⟩
  | hooked hooks => exact ⟨rfl, l, h.hooked hooks, fun e hin => .inl hin⟩
  | renewed hq hooks =>
    refine ⟨by rw [create_eq hq], _, made_holds hq h.shelved.rows hooks [], fun e hin => .inl ?_⟩
    rw [entries_row] at hin
    exact (List.filter_sublist.map _).subset hin

/-- So does a history. -/
theorem runs_holds {events : List Event} (hr : Runs d events d') (h : Holds d l) :
    d'.queue.storageId = d.queue.storageId ∧ ∃ m, Holds d' m ∧
      ∀ e ∈ m.map Held.entry, e ∈ l.map Held.entry ∨ e ∈ events.flatMap Event.brought := by
  induction hr with
  | nil => exact ⟨rfl, l, h, fun e he => .inl he⟩
  | snoc _ hs ih =>
    obtain ⟨hname, m, hm, hfrom⟩ := ih
    obtain ⟨hname', n, hn, hfrom'⟩ := step_holds hs hm
    refine ⟨hname'.trans hname, n, hn, fun e he => ?_⟩
    rw [List.flatMap_append, List.mem_append, List.flatMap_singleton]
    rcases hfrom' e he with he | he
    · exact (hfrom e he).imp_right .inl
    · exact .inr (.inr he)

/-- A queue with a history has a list. -/
theorem reachable_holds (h : Reachable d) : ∃ l, Holds d l := by
  obtain ⟨d₀, events, ⟨⟨q, hooks, hq, he⟩, es, hp⟩, hr⟩ := h
  have h₀ : Holds d₀ (es.map Held.row) := by
    have := made_holds hq hp hooks d₀.calls
    rw [← he] at this
    exact this
  obtain ⟨-, m, hm, -⟩ := runs_holds hr h₀
  exact ⟨m, hm⟩

/-- An active queue with a history has a list that index, memory and rows agree on. -/
theorem reachable_stocks (h : Reachable d) (ha : d.queue.phase = .active) : ∃ l, Stocks d l := by
  obtain ⟨l, hl⟩ := reachable_holds h
  exact ⟨l, hl.stocks ha⟩

/-! ## Requests one after the other -/

theorem Runs.trans {events events' : List Event} {d'' : Desk Cached} (h : Runs d events d')
    (h' : Runs d' events' d'') : Runs d (events ++ events') d'' := by
  induction h' with
  | nil => rwa [List.append_nil]
  | snoc _ hs ih =>
    rw [← List.append_assoc]
    exact .snoc ih hs

theorem Reachable.runs {events : List Event} (h : Reachable d) (hr : Runs d events d') :
    Reachable d' := by
  obtain ⟨d₀, before, hm, hb⟩ := h
  exact ⟨d₀, before ++ events, hm, hb.trans hr⟩

/-- Answering requests one after the other is a history. -/
theorem runs_serveAll (requests : List Request) (d : Desk Cached) :
    Runs d (requests.map .ask) (serveAll requests d).2 := by
  induction requests generalizing d with
  | nil => exact .nil d
  | cons request requests ih =>
    have hfirst : Runs d [.ask request] ((serve request).on d).2 := .snoc (.nil d) (.ask d request)
    exact hfirst.trans (ih _)

end Cached

/-- The desk when the link has become another. -/
def Desk.relinked {Q : Type} (d : Desk Q) (link : Link) : Desk Q :=
  { d with store := { d.store with link } }

/-- A name for queues to look at. -/
def StorageId.mail : StorageId := ⟨"mail", "", by decide, by decide, by decide, by decide⟩

/-- Bounds that leave room for one entry in memory. -/
def Bounds.tight : Bounds := ⟨10, 100, 1, 10⟩

/-- A message without content. -/
def Entry.blank (id : UInt64) (persistent : Bool) : Entry :=
  ⟨id, .normal, 4, persistent, ⟨"", .empty⟩⟩

/-- A new queue over a store without a table. -/
def Cached.newborn : Desk Cached where
  queue :=
    { storageId := .mail, bounds := .tight
      hot := { storageId := .mail, bounds := Bounds.tight.hot }
      cold := { storageId := .mail, bounds := .tight } }
  store := {}

/-- A new queue in the table, over the same. -/
def Durable.newborn : Desk Durable where
  queue := { storageId := .mail, bounds := .tight }
  store := {}

theorem Cached.reachable_newborn : Reachable newborn :=
  ⟨newborn, [], ⟨⟨newborn.queue, {}, rfl, rfl⟩, [], .of_rowsOf_nil rfl⟩, .nil _⟩

end Spillway
