import Spillway.Proofs.Revival

/-!
# Memory under a link that serves

As long as the link serves, memory is full whenever a cached queue is active: opening fills it, and
no work on the contents leaves room for the first entry that is in the table only. So memory has the
longest prefix of the queue that the cache bounds allow, whatever order or batching led there.
-/

namespace Spillway.Cached

open Desk Held

/-- A queue with a history throughout which the link serves. -/
inductive Attended : Desk Cached → Prop
  /-- It is made over the rows that others of its name have left. -/
  | made {d : Desk Cached} (h : Made d) (hs : d.store.link.Serving) : Attended d
  /-- Something happens that leaves the link serving. -/
  | step {d d' : Desk Cached} {event : Event} (h : Attended d) (hstep : Step d event d')
      (hs : d'.store.link.Serving) : Attended d'

variable {d d' : Desk Cached} {l : List Held}

theorem Attended.reachable (h : Attended d) : Reachable d := by
  induction h with
  | @made d hmade _ => exact ⟨d, [], hmade, .nil d⟩
  | step _ hstep _ ih => exact ih.runs (.snoc (.nil _) hstep)

theorem Attended.serving (h : Attended d) : d.store.link.Serving := by
  cases h with
  | made _ hs => exact hs
  | step _ _ hs => exact hs

/-- A link that serves goes on serving through requests, one after the other. -/
theorem Attended.serveAll (h : Attended d) (requests : List Request) :
    Attended (serveAll requests d).2 := by
  induction requests generalizing d with
  | nil => exact h
  | cons request requests ih =>
    obtain ⟨l, hl⟩ := reachable_holds h.reachable
    obtain ⟨m, hk, -⟩ := serve_follows hl request
    exact ih (h.step (.ask d request) (hk.used.link.serving h.serving))

/-- A put over a link that serves leaves full memory full. -/
theorem put_filled (h : Stocks d l) (ha : d.queue.phase = .active) (hs : d.store.link.Serving)
    (hf : Filled d) (batch : List Entry) (bypass : Bool) :
    Filled ((serve (.put batch bypass)).on d).2 := by
  rcases put_on h ha batch bypass with ⟨d', m, ho, hst, -⟩ | ⟨hspoilt, -⟩
  · rw [ho]
    exact hst.filled hs hf
  · exact absurd hs hspoilt.unserved

/-- So does every request for contents. -/
theorem lookup_filled (h : Stocks d l) (ha : d.queue.phase = .active) (hs : d.store.link.Serving)
    (hf : Filled d) {request : Request} (hr : request.looksUp = true) :
    Filled ((serve request).on d).2 := by
  rcases serve_on h ha hr with ⟨d', m, ho, hst, -⟩ | ⟨hspoilt, -⟩
  · rw [ho]
    exact hst.filled hs hf
  · exact absurd hs hspoilt.unserved

/-- Opening over a link that serves fills memory. -/
theorem start_filled (h : Shelved d l) (hn : d.queue.phase ≠ .active) (hs : d.store.link.Serving)
    (ha : ((serve .start).on d).2.queue.phase = .active) :
    Filled ((serve .start).on d).2 := by
  by_cases hd : d.queue.phase = .destroyed
  · rw [show (serve .start).on d = _ from on_done (start_destroyed hd)] at ha
    exact absurd ha hn
  · rcases start_on h hn hd with ⟨d', m, ho, -, -, -, -, hfull⟩ | ⟨fault, d', m, ho, -, hp, -⟩
    · rw [show (serve .start).on d = _ from on_done ho]
      exact hfull hs
    · rw [show (serve .start).on d = _ from on_done ho] at ha
      exact absurd (hp.symm.trans ha) hn

/-- A queue is not active after it was closed. -/
theorem shutdown_inactive (h : Holds d l) :
    ((serve .shutdown).on d).2.queue.phase ≠ .active := by
  obtain ⟨d', m, ho, -, -, -, hphase, -⟩ := shutdown_on h
  rw [show (serve .shutdown).on d = _ from on_done ho]
  change d'.queue.phase ≠ .active
  rw [hphase]
  exact d.queue.phase.closed_ne_active

/-- Nor after it was destroyed, also if that failed. -/
theorem destroy_inactive (h : Holds d l) : ((serve .destroy).on d).2.queue.phase ≠ .active := by
  by_cases hd : d.queue.phase = .destroyed
  · rw [show (serve .destroy).on d = _ from on_done (destroy_destroyed hd)]
    change d.queue.phase ≠ .active
    rw [hd]
    nofun
  · obtain ⟨outcome, d', m, ho, -, -, -, hphase, -⟩ := destroy_on h hd
    rw [show (serve .destroy).on d = _ from on_done ho]
    change d'.queue.phase ≠ .active
    rw [hphase]
    nofun

/-- A request over a link that serves leaves full memory in a queue that is active afterwards. -/
theorem serve_filled (h : Holds d l) (hs : d.store.link.Serving)
    (hf : d.queue.phase = .active → Filled d) (request : Request)
    (ha : ((serve request).on d).2.queue.phase = .active) : Filled ((serve request).on d).2 := by
  by_cases hactive : d.queue.phase = .active
  · have hstocks := h.stocks hactive
    cases request with
    | start =>
      rw [show (serve .start).on d = _ from on_done (start_active hactive)]
      exact hf hactive
    | shutdown => exact absurd ha (shutdown_inactive h)
    | destroy => exact absurd ha (destroy_inactive h)
    | put batch bypass => exact put_filled hstocks hactive hs (hf hactive) batch bypass
    | _ => exact lookup_filled hstocks hactive hs (hf hactive) rfl
  · cases request with
    | start => exact start_filled h.shelved hactive hs ha
    | shutdown => exact absurd ha (shutdown_inactive h)
    | destroy => exact absurd ha (destroy_inactive h)
    | _ =>
      rw [serve_inactive hactive rfl] at ha
      exact absurd ha hactive

/-- Whatever happens while the link serves, memory is full in a queue that is active afterwards. -/
theorem step_filled {event : Event} (hstep : Step d event d') (h : Holds d l)
    (hs : d.store.link.Serving) (hf : d.queue.phase = .active → Filled d)
    (ha : d'.queue.phase = .active) : Filled d' := by
  cases hstep with
  | ask request => exact serve_filled h hs hf request ha
  | notified =>
    by_cases hactive : d.queue.phase = .active
    · obtain ⟨d', m, ho, hst, -⟩ := catchUp_on (h.stocks hactive) hactive
      rw [ho]
      exact hst.filled hs (hf hactive)
    · rw [catchUp_inactive hactive] at ha
      exact absurd ha hactive
  | meanwhile => exact hf ha
  | hooked => exact hf ha
  | renewed hq =>
    cases create_eq hq
    cases ha

theorem Attended.filled (h : Attended d) (ha : d.queue.phase = .active) : Filled d := by
  induction h with
  | made hmade _ =>
    obtain ⟨⟨q, hooks, hq, he⟩, -⟩ := hmade
    rw [he, create_eq hq] at ha
    cases ha
  | step hbefore hstep _ ih =>
    obtain ⟨l, hl⟩ := reachable_holds hbefore.reachable
    exact step_filled hstep hl hbefore.serving ih ha

/-- As long as the link serves, an active cached queue has in memory the longest prefix of all its
entries that the cache bounds allow, and its index knows that. Two such queues of the same contents
and cache bounds have the same in memory, whatever led there. -/
theorem memory_longest (h : Attended d) (ha : d.queue.phase = .active) :
    Ordered (contents d) ∧
      ((serve (.select fun _ => true)).on d).1 = .ok (.entries (contents d)) ∧
      d.queue.bounds.Longest (contents d) d.queue.hot.roll.items ∧
      d.queue.hotResidents.map idOf = d.queue.hot.roll.items.map idOf ∧
      ∀ {d' : Desk Cached}, Attended d' → d'.queue.phase = .active → contents d' = contents d →
        d'.queue.bounds.cacheEntries = d.queue.bounds.cacheEntries →
        d'.queue.bounds.cacheBytes = d.queue.bounds.cacheBytes →
        d'.queue.hot.roll.items = d.queue.hot.roll.items := by
  have hlongest : ∀ {d : Desk Cached}, Attended d → d.queue.phase = .active →
      d.queue.bounds.Longest (contents d) d.queue.hot.roll.items := by
    intro d h ha
    obtain ⟨l, hl⟩ := reachable_stocks h.reachable ha
    rw [contents_eq hl, hl.hot.items]
    exact hl.layout.longest ((filled_iff hl).1 (h.filled ha))
  obtain ⟨l, hl⟩ := reachable_stocks h.reachable ha
  refine ⟨?_, select_all hl ha h.serving, hlongest h ha, ?_, fun h' ha' hsame he hb => ?_⟩
  · rw [contents_eq hl]
    exact ordered_entries.2 hl.layout.order
  · rw [hotResidents_eq hl, hl.hot.items, inMemory, List.map_map, List.map_map]
    rfl
  · have hother := hlongest h' ha'
    rw [hsame] at hother
    exact ((hlongest h ha).unique hother he hb).symm

/-- Two entries, put together or the later one first, in a memory with room for one. -/
theorem memory_longest_batched :
    let d := (Spillway.serveAll [.start, .put [.blank 1 true, .blank 2 true] false] newborn).2
    let d' := (Spillway.serveAll
      [.start, .put [.blank 2 true] false, .put [.blank 1 true] false] newborn).2
    (Attended d ∧ d.queue.phase = .active ∧ Attended d' ∧ d'.queue.phase = .active ∧
        contents d' = contents d) ∧
      d.queue.bounds.Longest (contents d) d.queue.hot.roll.items ∧
      d'.queue.hot.roll.items = d.queue.hot.roll.items := by
  intro d d'
  have hnew : Attended newborn :=
    .made ⟨⟨newborn.queue, {}, rfl, rfl⟩, [], .of_rowsOf_nil rfl⟩ ⟨rfl, rfl, rfl, .inr (by decide)⟩
  have h : Attended d := hnew.serveAll _
  have h' : Attended d' := hnew.serveAll _
  have ha : d.queue.phase = .active := by decide +kernel
  have ha' : d'.queue.phase = .active := by decide +kernel
  have hsame : contents d' = contents d := by decide +kernel
  obtain ⟨-, -, hlongest, -, hunique⟩ := memory_longest h ha
  exact ⟨⟨h, ha, h', ha', hsame⟩, hlongest,
    hunique h' ha' hsame (by decide +kernel) (by decide +kernel)⟩

end Spillway.Cached
