import Spillway.Proofs.DurableHistories

/-!
# What is left of a destroyed queue

A queue in the table that was destroyed has no rows: a destruction that fails changes nothing, so
that the next one deletes them. A cached queue counts as destroyed even if its rows could not be
deleted. From then on destroying it again does nothing and says that all is well, while the rows
stay, and the next queue of its name finds them.
-/

namespace Spillway

open Desk

/-- The table has no row of a queue. -/
def Store.Vacant (s : Store) (queue : String) : Prop := Statement.rowsOf queue s.rows = []

instance (s : Store) (queue : String) : Decidable (s.Vacant queue) :=
  inferInstanceAs (Decidable (_ = []))

theorem Store.Spares.vacant_iff {s s' : Store} {queue : String} (h : s.Spares queue s') :
    s'.Vacant queue ↔ s.Vacant queue := by
  rw [Store.Vacant, Store.Vacant, h.rows]

/-- Its rows are those of no entries then. -/
theorem Store.vacant_iff {s : Store} {queue : String} :
    s.Vacant queue ↔ Partition queue s.rows [] := by
  refine ⟨Partition.of_rowsOf_nil, fun h => ?_⟩
  obtain ⟨written, hp, hw⟩ := h.rows
  rw [Store.Vacant, hw, List.perm_nil.1 hp, List.map_nil]

theorem Partition.eq_nil {s : Store} {queue : String} {l : List Entry}
    (h : Partition queue s.rows l) (hv : s.Vacant queue) : l = [] := by
  obtain ⟨written, hp, hw⟩ := h.rows
  rw [Store.Vacant, hw, List.map_eq_nil_iff] at hv
  exact List.nil_perm.1 (hv ▸ hp)

namespace Cached

variable {d d' : Desk Cached} {l : List Held} {request : Request} {event : Event}

/-- Whether an event makes a queue anew. -/
def Event.renews : Event → Bool
  | .renewed _ _ => true
  | _ => false

/-- A destruction of the queue failed for want of the database and left rows, and the queue was not
made anew since. -/
inductive Derelict : Desk Cached → Prop
  /-- A queue with a history is to be destroyed, and that fails. -/
  | left {d d' : Desk Cached} {fault : Fault} (h : Reachable d)
      (ho : (serve .destroy).on d = (.error fault, d')) (hf : fault.kind = .resourceUnavailable)
      (hr : ¬ d'.store.Vacant d'.queue.storageId.text) : Derelict d'
  /-- Something else happens. -/
  | later {d d' : Desk Cached} {event : Event} (h : Derelict d) (hs : Step d event d')
      (hn : event.renews = false) : Derelict d'

/-- Requests for contents do not change the phase. -/
theorem phase_of_lookup (h : Stocks d l) (ha : d.queue.phase = .active)
    (hr : request.looksUp = true) : ((serve request).on d).2.queue.phase = d.queue.phase := by
  rcases serve_on h ha hr with ⟨d', m, ho, hst, -⟩ | ⟨hspoilt, -⟩
  · rw [ho]
    exact hst.phase
  · exact hspoilt.steady.phase

/-- Nor do puts. -/
theorem phase_of_put (h : Stocks d l) (ha : d.queue.phase = .active) (batch : List Entry)
    (bypass : Bool) : ((serve (.put batch bypass)).on d).2.queue.phase = d.queue.phase := by
  rcases put_on h ha batch bypass with ⟨d', m, ho, hst, -⟩ | ⟨hspoilt, -⟩
  · rw [ho]
    exact hst.phase
  · exact hspoilt.steady.phase

/-- Nothing but a destruction destroys a queue. -/
theorem phase_of_serve (h : Holds d l) (hd : d.queue.phase ≠ .destroyed)
    (hr : request ≠ .destroy) : ((serve request).on d).2.queue.phase ≠ .destroyed := by
  by_cases hactive : request.needsActive = true
  · by_cases ha : d.queue.phase = .active
    · cases request with
      | put batch bypass => rwa [phase_of_put (h.stocks ha) ha]
      | start | shutdown | destroy => cases hactive
      | _ => rwa [phase_of_lookup (h.stocks ha) ha rfl]
    · rwa [serve_inactive ha hactive]
  cases request with
  | start =>
    by_cases ha : d.queue.phase = .active
    · rwa [show (serve .start).on d = _ from on_done (start_active ha)]
    rcases start_on h.shelved ha hd with
      ⟨d', m, ho, -, hphase, -⟩ | ⟨fault, d', m, ho, -, hphase, -⟩
    · rw [show (serve .start).on d = _ from on_done ho, hphase]
      nofun
    · rwa [show (serve .start).on d = _ from on_done ho, hphase]
  | shutdown =>
    obtain ⟨d', m, ho, -, -, -, hphase, -⟩ := shutdown_on h
    rw [show (serve .shutdown).on d = _ from on_done ho, hphase]
    exact fun h => hd (Phase.closed_eq_destroyed_iff.1 h)
  | destroy => exact absurd rfl hr
  | _ => exact absurd rfl hactive

/-- What happens to a destroyed queue, but for its being made anew, leaves it and its rows. -/
theorem step_destroyed (hs : Step d event d') (hn : event.renews = false)
    (hd : d.queue.phase = .destroyed) : d'.queue.phase = .destroyed ∧
      (d'.store.Vacant d'.queue.storageId.text ↔ d.store.Vacant d.queue.storageId.text) := by
  cases hs with
  | ask request =>
    rw [serve_destroyed hd]
    exact ⟨hd, .rfl⟩
  | notified =>
    rw [catchUp_inactive (by rw [hd]; nofun)]
    exact ⟨hd, .rfl⟩
  | meanwhile hs => exact ⟨hd, hs.vacant_iff⟩
  | hooked hooks => exact ⟨hd, .rfl⟩
  | renewed hq hooks => cases hn

/-- A derelict queue counts as destroyed, and has rows. -/
theorem Derelict.rows (h : Derelict d) :
    d.queue.phase = .destroyed ∧ ¬ d.store.Vacant d.queue.storageId.text := by
  induction h with
  | @left d d' fault h ho hf hr =>
    refine ⟨?_, hr⟩
    obtain ⟨l, hl⟩ := reachable_holds h
    by_cases hd : d.queue.phase = .destroyed
    · rw [show (serve .destroy).on d = _ from on_done (destroy_destroyed hd)] at ho
      cases ho
    obtain ⟨outcome, d'', m, ho', -, -, -, hphase, -⟩ := destroy_on hl hd
    rw [show (serve .destroy).on d = _ from on_done ho'] at ho
    have he : d'' = d' := congrArg Prod.snd ho
    rwa [← he]
  | later _ hs hn ih =>
    obtain ⟨hd, hiff⟩ := step_destroyed hs hn ih.1
    exact ⟨hd, fun hv => ih.2 (hiff.1 hv)⟩

/-- The destruction of a queue that was not destroyed before succeeds and leaves no rows, or fails
for want of the database if it leaves some. -/
theorem destroy_outcome (h : Holds d l) (hd : d.queue.phase ≠ .destroyed) :
    ∃ d', d'.queue.storageId = d.queue.storageId ∧
      ((serve .destroy).on d = (.ok .done, d') ∧ d'.store.Vacant d'.queue.storageId.text ∨
        ∃ fault, (serve .destroy).on d = (.error fault, d') ∧
          (¬ d'.store.Vacant d'.queue.storageId.text → fault.kind = .resourceUnavailable)) := by
  obtain ⟨outcome, d', m, ho, hk, hm, hdone, -⟩ := destroy_on h hd
  refine ⟨d', hk.storageId, ?_⟩
  rcases hdone with ⟨rfl, rfl⟩ | ⟨fault, rfl, rfl, hf⟩
  · exact .inl ⟨on_done ho, Store.vacant_iff.2 hm.shelved.rows⟩
  · refine .inr ⟨fault, on_done ho, fun hr => ?_⟩
    cases ht : d.store.table with
    | some rows => exact of_decide_eq_true (hf (by rw [ht]; rfl)).1
    | none =>
      -- Without a table there was no row, and none has come.
      have hnone : inTable l = [] := by
        refine h.shelved.rows.eq_nil ?_
        rw [Store.Vacant, Store.rows, ht]
        rfl
      have hrows := hm.shelved.rows
      rw [inTable_row, hnone] at hrows
      exact absurd (Store.vacant_iff.2 hrows) hr

/-- A destroyed queue that has rows is derelict. -/
theorem derelict_of_rows (h : Reachable d) (hd : d.queue.phase = .destroyed)
    (hr : ¬ d.store.Vacant d.queue.storageId.text) : Derelict d := by
  obtain ⟨d₀, events, hm, hruns⟩ := h
  induction hruns with
  | nil =>
    obtain ⟨q, hooks, hq, he⟩ := hm.fresh
    rw [he, create_eq hq] at hd
    cases hd
  | @snoc d₁ d₂ before event hruns hs ih =>
    have h₁ : Reachable d₁ := ⟨_, before, hm, hruns⟩
    -- What was destroyed before has its rows since then; else this is the step that left them.
    have stay : d₁.queue.phase = .destroyed → event.renews = false → Derelict d₂ :=
      fun hd₁ hn => .later (ih hd₁ fun hv => hr ((step_destroyed hs hn hd₁).2.2 hv)) hs hn
    cases hs with
    | ask request =>
      by_cases hd₁ : d₁.queue.phase = .destroyed
      · exact stay hd₁ rfl
      obtain ⟨l, hl⟩ := reachable_holds h₁
      by_cases hdestroy : request = .destroy
      · subst hdestroy
        obtain ⟨d', -, ⟨ho, hv⟩ | ⟨fault, ho, hf⟩⟩ := destroy_outcome hl hd₁
        · rw [ho] at hr
          exact absurd hv hr
        · rw [ho] at hr ⊢
          exact .left h₁ ho (hf hr) hr
      · exact absurd hd (phase_of_serve hl hd₁ hdestroy)
    | notified =>
      by_cases ha : d₁.queue.phase = .active
      · obtain ⟨l, hl⟩ := reachable_stocks h₁ ha
        obtain ⟨d', m, ho, hst, -⟩ := catchUp_on hl ha
        rw [ho, hst.phase, ha] at hd
        cases hd
      · rw [catchUp_inactive ha] at hd
        exact stay hd rfl
    | meanwhile => exact stay hd rfl
    | hooked => exact stay hd rfl
    | renewed hq =>
      rw [create_eq hq] at hd
      cases hd

end Cached

/-! ## What later queues find -/

/-- A store has forgotten the queues of a name: the table has no row of theirs, and a queue that is
made under the name never has anything but what was brought to it. -/
structure Store.Forgets (s : Store) (id : StorageId) : Prop where
  /-- There are no rows. -/
  vacant : s.Vacant id.text
  /-- The rows of a queue in the table are those of entries that were brought to it. -/
  durable : ∀ {bounds : Bounds} {q : Durable} {hooks : Hooks} {es : List Entry} {d : Desk Durable},
    Durable.create id bounds = .ok q → Durable.Runs { queue := { q with hooks }, store := s } es d →
      ∃ l, Partition d.queue.name d.store.rows l ∧ ∀ e ∈ l, e ∈ es
  /-- So are those of a cached queue, and what it has in memory. -/
  cached : ∀ {bounds : Bounds} {q : Cached} {hooks : Hooks} {events : List Cached.Event}
    {d : Desk Cached}, Cached.create id bounds = .ok q →
      Cached.Runs { queue := { q with hooks }, store := s } events d →
        (∀ e ∈ Cached.rowEntries d, e ∈ events.flatMap Cached.Event.brought) ∧
          (d.queue.phase = .active →
            ∀ e ∈ Cached.contents d, e ∈ events.flatMap Cached.Event.brought)

/-- A store without rows of a name has forgotten its queues. -/
theorem Store.forgets_iff {s : Store} {id : StorageId} : s.Forgets id ↔ s.Vacant id.text := by
  refine ⟨Store.Forgets.vacant, fun h => ⟨h, ?_, ?_⟩⟩
  · intro bounds q hooks es d hq hr
    have hmade := Durable.made_rests hq (Store.vacant_iff.1 h) hooks []
    obtain ⟨-, l, hl, hfrom⟩ := Durable.runs_follow hr hmade
    exact ⟨l, hl.rows, fun e he => (hfrom e he).resolve_left nofun⟩
  · intro bounds q hooks events d hq hr
    have hmade := Cached.made_holds hq (Store.vacant_iff.1 h) hooks []
    obtain ⟨-, l, hl, hfrom⟩ := Cached.runs_holds hr hmade
    refine ⟨fun e he => ?_, fun ha e he => ?_⟩
    · rw [Cached.rowEntries_eq hl.shelved.rows] at he
      exact (hfrom e ((List.filter_sublist.map _).subset he)).resolve_left nofun
    · rw [Cached.contents_eq (hl.stocks ha)] at he
      exact (hfrom e he).resolve_left nofun

/-- Whatever the history of a queue in the table, once its destruction succeeds it is forgotten,
also if it failed before. A cached queue is forgotten then exactly if no earlier destruction of it
failed for want of the database and left rows. -/
theorem destruction_final {d d' : Desk Durable} {c c' : Desk Cached} {reply reply' : Reply} :
    (Durable.Reachable d → (serve .destroy).on d = (.ok reply, d') →
      d'.store.Forgets d.queue.storageId) ∧
    (Cached.Reachable c → (serve .destroy).on c = (.ok reply', c') →
      (c'.store.Forgets c.queue.storageId ↔ ¬ Cached.Derelict c)) := by
  refine ⟨fun h ho => ?_, fun h ho => ?_⟩
  · obtain ⟨l, hl⟩ := Durable.reachable_rests h
    rcases Durable.destroy_follows hl with ⟨e, ho', hname, -, he⟩ | ⟨fault, e, ho', -⟩
    · rw [ho] at ho'
      cases ho'
      rw [Store.forgets_iff, ← hname]
      exact Store.vacant_iff.2 he.rows
    · rw [ho] at ho'
      cases ho'
  · rw [Store.forgets_iff]
    by_cases hd : c.queue.phase = .destroyed
    · rw [show (serve .destroy).on c = _ from on_done (Cached.destroy_destroyed hd)] at ho
      cases ho
      refine ⟨fun hv hderelict => hderelict.rows.2 hv, fun hn => ?_⟩
      by_contra hv
      exact hn (Cached.derelict_of_rows h hd hv)
    · obtain ⟨l, hl⟩ := Cached.reachable_holds h
      refine ⟨fun _ hderelict => hd hderelict.rows.1, fun _ => ?_⟩
      obtain ⟨e, hname, ⟨ho', hv⟩ | ⟨fault, ho', -⟩⟩ := Cached.destroy_outcome hl hd
      · rw [ho] at ho'
        cases ho'
        rwa [← hname]
      · rw [ho] at ho'
        cases ho'

/-! ## A destruction that is tried again -/

theorem Cached.Reachable.relinked {d : Desk Cached} (h : Reachable d) (link : Link) :
    Reachable (d.relinked link) :=
  h.runs (.snoc (.nil d) (.meanwhile d ⟨rfl, id, rfl⟩))

theorem Durable.Runs.relinked {d d' : Desk Durable} {es : List Entry} (h : Runs d es d')
    (link : Link) : Runs d es (d'.relinked link) :=
  h.meanwhile ⟨rfl, id, rfl⟩

/-- A cached queue with an entry that must survive. -/
def Cached.stocked : Desk Cached := (serveAll [.start, .put [.blank 1 true] false] newborn).2

/-- The same queue after its destruction failed, over a database that is back. -/
def Cached.wrecked : Desk Cached :=
  ((serve .destroy).on (stocked.relinked { reachable := false })).2.relinked {}

theorem Cached.reachable_stocked : Reachable stocked :=
  reachable_newborn.runs (runs_serveAll _ _)

theorem Cached.reachable_wrecked : Reachable wrecked := by
  have hlost : Reachable (stocked.relinked { reachable := false }) :=
    reachable_stocked.relinked { reachable := false }
  exact (hlost.runs (.snoc (.nil _) (.ask _ .destroy))).relinked {}

/-- A queue in the table with an entry. -/
def Durable.stocked : Desk Durable :=
  ((serve (.put [.blank 1 true] false)).on ((serve .start).on newborn).2).2

/-- The same queue after its destruction failed, over a database that is back. -/
def Durable.wrecked : Desk Durable :=
  ((serve .destroy).on (stocked.relinked { reachable := false })).2.relinked {}

theorem Durable.reachable_wrecked : Reachable wrecked := by
  have hmade : Made newborn := ⟨⟨newborn.queue, {}, rfl, rfl⟩, [], .of_rowsOf_nil rfl⟩
  have hstocked : Runs newborn [.blank 1 true] stocked :=
    ((Runs.nil newborn).ask .start).ask (.put [.blank 1 true] false)
  have hlost := hstocked.relinked { reachable := false }
  exact ⟨newborn, _, hmade, (hlost.ask .destroy).relinked {}⟩

/-- Three destructions that succeed: of a queue in the table that could not be destroyed before, of
a cached queue at once, and of a cached queue that could not be destroyed before. -/
theorem destruction_final_retried :
    (∃ reply d', (serve .destroy).on Durable.wrecked = (.ok reply, d') ∧
      d'.store.Forgets Durable.wrecked.queue.storageId) ∧
    (∃ reply d', (serve .destroy).on Cached.stocked = (.ok reply, d') ∧
      d'.store.Forgets Cached.stocked.queue.storageId) ∧
    ∃ reply d', (serve .destroy).on Cached.wrecked = (.ok reply, d') ∧
      ¬ d'.store.Forgets Cached.wrecked.queue.storageId := by
  obtain ⟨reply₁, d₁, h₁⟩ := exists_of_isOk
    (show ((serve .destroy).on Durable.wrecked).1.isOk = true by decide +kernel)
  obtain ⟨reply₂, d₂, h₂⟩ := exists_of_isOk
    (show ((serve .destroy).on Cached.stocked).1.isOk = true by decide +kernel)
  obtain ⟨reply₃, d₃, h₃⟩ := exists_of_isOk
    (show ((serve .destroy).on Cached.wrecked).1.isOk = true by decide +kernel)
  have halive : Cached.stocked.queue.phase ≠ .destroyed := by decide +kernel
  have hderelict : Cached.Derelict Cached.wrecked :=
    Cached.derelict_of_rows Cached.reachable_wrecked (by decide +kernel) (by decide +kernel)
  obtain ⟨hdurable, hcached⟩ :=
    @destruction_final Durable.wrecked d₁ Cached.stocked d₂ reply₁ reply₂
  obtain ⟨-, hwrecked⟩ := @destruction_final Durable.wrecked d₁ Cached.wrecked d₃ reply₁ reply₃
  refine ⟨⟨reply₁, d₁, h₁, hdurable Durable.reachable_wrecked h₁⟩, ⟨reply₂, d₂, h₂, ?_⟩,
    reply₃, d₃, h₃, fun h => ?_⟩
  · exact (hcached Cached.reachable_stocked h₂).2 fun h => halive h.rows.1
  · exact (hwrecked Cached.reachable_wrecked h₃).1 h hderelict

/-- A cached queue whose destruction failed is destroyed again once the database is back: that
succeeds, and the row is still there. -/
theorem Cached.not_forgotten : ¬ ∀ {d d' : Desk Cached} {reply : Reply}, Reachable d →
    (serve .destroy).on d = (.ok reply, d') → d'.store.Vacant d.queue.storageId.text := by
  intro hall
  obtain ⟨reply, d', ho⟩ := exists_of_isOk
    (show ((serve .destroy).on wrecked).1.isOk = true by decide +kernel)
  have hd : wrecked.queue.phase = .destroyed := by decide +kernel
  have hrows : ¬ wrecked.store.Vacant wrecked.queue.storageId.text := by decide +kernel
  have hv := hall reachable_wrecked ho
  rw [show (serve .destroy).on wrecked = _ from on_done (destroy_destroyed hd)] at ho
  cases ho
  exact hrows hv

end Spillway
