import Spillway.Proofs.Revival

/-!
# What is held back once an outage is over

A cached queue holds rows back while the database cannot be used, and writes them when it is told
that the database is there again, or when it is closed. But a put that finds no free connection is
followed by no notification, and a notification that reaches a queue that is not active, or that
finds no free connection itself, is not repeated. What is held back in these ways is stranded.
Through every history of a queue, stranded ids are all that it holds back once everything is quiet.
-/

namespace Spillway.Cached

open Desk Held

/-- A cached queue, what it has still to be told, and what it holds back for good. -/
structure Site where
  /-- The queue at work. -/
  desk : Desk Cached
  /-- How many notifications are on their way to it. -/
  owed : Nat := 0
  /-- Ids held back for which none is. -/
  stranded : List UInt64 := []

namespace Site

/-- The site once its queue has worked. Of what is held back, that is stranded which was so before,
and that which was at risk while the database is believed to be there. -/
def worked (site : Site) (desk : Desk Cached) (owed : Nat) (atRisk : UInt64 → Bool) : Site where
  desk
  owed
  stranded := desk.queue.pending.filter fun id =>
    site.stranded.contains id || desk.store.link.available && atRisk id

/-- The queue is asked something. At risk is what a put holds back for which no connection may be
free. -/
def asked (site : Site) (request : Request) : Site :=
  site.worked ((serve request).on site.desk).2 site.owed fun id =>
    request.puts && !site.desk.queue.pending.contains id && !decide site.desk.store.link.Serving

/-- The queue gets a notification. All is at risk if it is not active, or if no connection may be
free. -/
def told (site : Site) : Site :=
  site.worked (catchUp.on site.desk).2 (site.owed - 1) fun _ =>
    !decide (site.desk.queue.phase = .active ∧ site.desk.store.link.Serving)

/-- The link changes, others use the store. -/
def meanwhile (site : Site) (store : Store) : Site := { site with desk := { site.desk with store } }

/-- The database is found again, and the queue is to be told. -/
def found (site : Site) : Site :=
  { site.meanwhile site.desk.store.markFound with owed := site.owed + 1 }

/-- What may happen to a site. -/
inductive Step : Site → Site → Prop
  /-- The queue is asked something. -/
  | asked (site : Site) (request : Request) : Step site (site.asked request)
  /-- A notification arrives that was on its way. -/
  | told {site : Site} (ho : 0 < site.owed) : Step site site.told
  /-- The database goes or comes back, connections are held and released, others use the store. They
  may notice that the database is gone, but not that it is back. -/
  | meanwhile {site : Site} {store : Store}
      (hs : site.desk.store.Spares site.desk.queue.storageId.text store)
      (ha : store.link.available = true → site.desk.store.link.available = true) :
      Step site (site.meanwhile store)
  /-- A lost database that is reachable is found. -/
  | found {site : Site} (hl : site.desk.store.link.available = false)
      (hr : site.desk.store.link.reachable = true) : Step site site.found
  /-- The queue gets other hooks. -/
  | hooked (site : Site) (hooks : Hooks) :
      Step site { site with desk.queue.hooks := hooks }

/-- A site with a history. -/
inductive Reached : Site → Prop
  /-- The queue was just made. -/
  | made {d : Desk Cached} (h : Made d) (owed : Nat) : Reached { desk := d, owed }
  /-- Something has happened. -/
  | step {site site' : Site} (h : Reached site) (hs : Step site site') : Reached site'

/-- Everything is quiet. -/
structure Quiet (site : Site) : Prop where
  /-- The queue is active. -/
  active : site.desk.queue.phase = .active
  /-- The database is believed to be there. -/
  available : site.desk.store.link.available = true
  /-- It is there. -/
  reachable : site.desk.store.link.reachable = true
  /-- A connection is free, or another one may be opened. -/
  free : 0 < site.desk.store.link.idle ∨ site.desk.store.link.idle + site.desk.store.link.busy <
    site.desk.store.link.settings.connections
  /-- Every notification has arrived. -/
  told : site.owed = 0

variable {site site' : Site}

/-- The queue of a site with a history has a history. -/
theorem Reached.reachable (h : Reached site) : Reachable site.desk := by
  induction h with
  | made h owed => exact ⟨_, [], h, .nil _⟩
  | @step site site' _ hs ih =>
    have hrun : ∃ event, Cached.Step site.desk event site'.desk := by
      cases hs with
      | asked request => exact ⟨_, .ask _ request⟩
      | told ho => exact ⟨_, .notified _⟩
      | meanwhile hs ha => exact ⟨_, .meanwhile _ hs⟩
      | found hl hr => exact ⟨_, .meanwhile _ ⟨rfl, id, rfl⟩⟩
      | hooked hooks => exact ⟨_, .hooked _ hooks⟩
    obtain ⟨event, hrun⟩ := hrun
    exact ih.runs (.snoc (.nil _) hrun)

/-! ## What becomes stranded -/

/-- A request that does not put over a link that does not serve holds nothing more back. -/
theorem pending_asked (h : Reached site) {request : Request}
    (hr : request.puts = true → site.desk.store.link.Serving) :
    (site.asked request).desk.queue.pending ⊆ site.desk.queue.pending := by
  obtain ⟨l, hl⟩ := reachable_holds h.reachable
  obtain ⟨m, -, hm, hf⟩ := serve_follows hl request
  change ((serve request).on site.desk).2.queue.pending ⊆ _
  rw [hm.shelved.pending, hl.shelved.pending]
  exact hf.heldBack hr

/-- An active queue that is told while the link serves holds nothing back any more. -/
theorem pending_told (h : Reached site) (ha : site.desk.queue.phase = .active)
    (hs : site.desk.store.link.Serving) : site.told.desk.queue.pending = [] := by
  obtain ⟨l, hl⟩ := reachable_stocks h.reachable ha
  obtain ⟨d', m, ho, -, hm, -, hwritten⟩ := catchUp_on hl ha
  have hsame := (hwritten (flush_of_serving hl hs)).1
  change (catchUp.on site.desk).2.queue.pending = []
  rw [ho, show d'.queue.pending = pendingIds m from pending_eq hm, pendingIds, hsame.pending]
  exact pendingIds_flushed hl.layout.order

/-- A step that may strand rows although the database is believed to be there: a put for which no
connection may be free, or a notification for which none may be, or to a queue that is not active.
-/
def MayStrand (site site' : Site) : Prop :=
  site'.desk.store.link.available = true ∧
    ((∃ request, site' = site.asked request ∧ request.puts = true ∧
        ¬ site.desk.store.link.Serving) ∨
      site' = site.told ∧ (site.desk.queue.phase ≠ .active ∨ ¬ site.desk.store.link.Serving))

/-- No other step strands anything. -/
theorem mayStrand_of_stranded (hs : Step site site') {id : UInt64} (hin : id ∈ site'.stranded)
    (hnew : id ∉ site.stranded) : MayStrand site site' := by
  cases hs with
  | asked request =>
    obtain ⟨-, hrisk⟩ := List.mem_filter.1 hin
    simp only [List.contains_eq_mem, hnew, decide_false, Bool.false_or, Bool.and_eq_true,
      Bool.not_eq_true', decide_eq_false_iff_not] at hrisk
    obtain ⟨ha, ⟨hput, -⟩, hserve⟩ := hrisk
    exact ⟨ha, .inl ⟨request, rfl, hput, hserve⟩⟩
  | told ho =>
    obtain ⟨-, hrisk⟩ := List.mem_filter.1 hin
    simp only [List.contains_eq_mem, hnew, decide_false, Bool.false_or, Bool.and_eq_true,
      Bool.not_eq_true', decide_eq_false_iff_not] at hrisk
    exact ⟨hrisk.1, .inr ⟨rfl, not_and_or.1 hrisk.2⟩⟩
  | meanwhile | found | hooked => exact absurd hin hnew

/-! ## What is held back -/

/-- While the database is believed to be there and no notification is on its way, exactly the
stranded ids are held back. -/
theorem Reached.stranded_eq (h : Reached site) (ha : site.desk.store.link.available = true)
    (ho : site.owed = 0) : site.stranded = site.desk.queue.pending := by
  induction h with
  | @made d h owed =>
    obtain ⟨⟨q, hooks, hq, hd⟩, -⟩ := h
    change [] = d.queue.pending
    rw [hd, create_eq hq]
    rfl
  | @step site site' h hs ih =>
    cases hs with
    | asked request =>
      obtain ⟨l, hl⟩ := reachable_holds h.reachable
      obtain ⟨m, hk, -, -⟩ := serve_follows hl request
      have hbefore := ih (hk.used.link.available ha) ho
      refine List.filter_eq_self.2 fun id hid => ?_
      by_cases hold : id ∈ site.desk.queue.pending
      · simp [hbefore, hold]
      · -- What is held back anew was put, and was put over a link that did not serve.
        have hput : request.puts = true := by
          by_contra hn
          exact hold (pending_asked h (fun hp => absurd hp hn) hid)
        have hserve : ¬ site.desk.store.link.Serving := fun hs =>
          hold (pending_asked h (fun _ => hs) hid)
        simp [show ((serve request).on site.desk).2.store.link.available = true from ha, hput, hold,
          hserve]
    | told =>
      refine List.filter_eq_self.2 fun id hid => ?_
      have hrisk : ¬ (site.desk.queue.phase = .active ∧ site.desk.store.link.Serving) := by
        rintro ⟨hactive, hs⟩
        have hnone := pending_told h hactive hs
        rw [show (catchUp.on site.desk).2.queue.pending = [] from hnone] at hid
        cases hid
      simp [show (catchUp.on site.desk).2.store.link.available = true from ha, hrisk]
    | meanwhile hs hstays => exact ih (hstays ha) ho
    | found => cases ho
    | hooked hooks => exact ih ha ho

/-- A site with a history in which nothing may have been stranded. -/
inductive Smooth : Site → Prop
  /-- The queue was just made. -/
  | made {d : Desk Cached} (h : Made d) (owed : Nat) : Smooth { desk := d, owed }
  /-- Something has happened that strands nothing. -/
  | step {site site' : Site} (h : Smooth site) (hs : Step site site')
      (hn : ¬ MayStrand site site') : Smooth site'

/-- A smooth history is a history. -/
theorem Smooth.reached (h : Smooth site) : Reached site := by
  induction h with
  | made h owed => exact .made h owed
  | step _ hs _ ih => exact .step ih hs

/-- Step by step nothing becomes stranded in it. -/
theorem Smooth.stranded (h : Smooth site) : site.stranded = [] := by
  induction h with
  | made => rfl
  | step h hs hn ih =>
    rw [List.eq_nil_iff_forall_not_mem]
    exact fun id hin => hn (mayStrand_of_stranded hs hin (by simp [ih]))

/-- After a smooth history nothing is held back while the database is believed to be there and no
notification is on its way. -/
theorem Smooth.pending (h : Smooth site) (ha : site.desk.store.link.available = true)
    (ho : site.owed = 0) : site.desk.queue.pending = [] := by
  rw [← h.reached.stranded_eq ha ho, h.stranded]

end Site

variable {d : Desk Cached} {l : List Held}

/-- Nothing is held back exactly if every entry that must survive has its row. -/
theorem pending_eq_nil_iff (h : Stocks d l) : d.queue.pending = [] ↔
    ∀ e ∈ contents d, e.persistent = true → e ∈ rowEntries d := by
  rw [contents_eq h, rowEntries_eq h.rows.partition, show d.queue.pending = pendingIds l from
    pending_eq h]
  exact pendingIds_eq_nil_iff h.layout.order

/-- Nothing is held back exactly if a crash loses nothing that must survive. -/
theorem pending_eq_nil_iff_survivors (h : Stocks d l) : d.queue.pending = [] ↔
    survivors d = (contents d).filter (·.persistent) := by
  rw [survivors_eq h, contents_eq h, show d.queue.pending = pendingIds l from pending_eq h]
  exact pendingIds_eq_nil_iff_filter h.layout.order

namespace Site

variable {site : Site}

/-- Once everything is quiet, a queue holds back exactly what is stranded: every entry that must
survive has its row, and a crash loses none of them, exactly if nothing is. -/
theorem settled_iff (h : Reached site) (hq : Quiet site) :
    site.desk.queue.pending = site.stranded ∧
      (site.stranded = [] ↔
        ∀ e ∈ contents site.desk, e.persistent = true → e ∈ rowEntries site.desk) ∧
      (site.stranded = [] ↔
        survivors site.desk = (contents site.desk).filter (·.persistent)) := by
  obtain ⟨l, hl⟩ := reachable_stocks h.reachable hq.active
  rw [h.stranded_eq hq.available hq.told]
  exact ⟨rfl, pending_eq_nil_iff hl, pending_eq_nil_iff_survivors hl⟩

/-- The site when its database is gone, and others have noticed. -/
def deprived (site : Site) : Site :=
  site.meanwhile { site.desk.store with
    link := { site.desk.store.link with reachable := false, available := false } }

/-- The site when its database is back and found. -/
def recovered (site : Site) : Site :=
  (site.meanwhile { site.desk.store with link.reachable := true }).found

/-- A queue that holds an entry back. -/
def heldOut : Site :=
  (Site.asked { desk := newborn } .start).deprived.asked (.put [.blank 1 true] false)

/-- A database may go away at any time. -/
theorem Reached.deprived (h : Reached site) : Reached site.deprived := by
  have hgone : Step site site.deprived := .meanwhile ⟨rfl, id, rfl⟩ nofun
  exact .step h hgone

/-- A database that is believed to be gone may come back and be found. -/
theorem Reached.recovered (h : Reached site) (hl : site.desk.store.link.available = false) :
    Reached site.recovered := by
  have hback : Reached (site.meanwhile { site.desk.store with link.reachable := true }) :=
    .step h (.meanwhile ⟨rfl, id, rfl⟩ id)
  exact .step hback (.found hl rfl)

/-- The site whose queue holds an entry back has a history. -/
theorem reached_heldOut : Reached heldOut := by
  have hmade : Reached { desk := newborn } :=
    .made ⟨⟨newborn.queue, {}, rfl, rfl⟩, [], .of_rowsOf_nil rfl⟩ 0
  exact .step (Reached.step hmade (.asked _ .start)).deprived (.asked _ _)

/-- A queue that is told once the database is found. -/
theorem settled_iff_told : (Reached heldOut.recovered.told ∧ Quiet heldOut.recovered.told) ∧
    heldOut.recovered.told.desk.queue.pending = heldOut.recovered.told.stranded ∧
    heldOut.desk.queue.pending = [1] ∧ heldOut.recovered.told.stranded = [] := by
  have h : Reached heldOut.recovered.told :=
    .step (reached_heldOut.recovered (by decide +kernel)) (.told (by decide +kernel))
  have hq : Quiet heldOut.recovered.told :=
    ⟨by decide +kernel, by decide +kernel, by decide +kernel, by decide +kernel, by decide +kernel⟩
  exact ⟨⟨h, hq⟩, (settled_iff h hq).1, by decide +kernel, by decide +kernel⟩

/-- A queue that is closed while the database is gone, told while it is closed, and opened again:
the database is there, every notification has arrived, and an entry that must survive has no row. -/
theorem not_settled : ¬ ∀ site : Site, Reached site → Quiet site →
    site.desk.queue.pending = [] ∧
      ∀ e ∈ contents site.desk, e.persistent = true → e ∈ rowEntries site.desk := by
  intro hall
  let closed := heldOut.asked .shutdown
  let opened := closed.recovered.told.asked .start
  have hclosed : Reached closed := .step reached_heldOut (.asked _ .shutdown)
  have h : Reached opened := .step (.step (hclosed.recovered (by decide +kernel))
    (.told (by decide +kernel))) (.asked _ .start)
  have hq : Quiet opened :=
    ⟨by decide +kernel, by decide +kernel, by decide +kernel, by decide +kernel, by decide +kernel⟩
  have hpending : opened.desk.queue.pending = [1] := by decide +kernel
  rw [(hall opened h hq).1] at hpending
  cases hpending

end Site

end Spillway.Cached
