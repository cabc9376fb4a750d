import Spillway.Proofs.Pairs

/-!
# Changes happen as a whole or not at all

Beside a cached queue stands a queue in memory that is asked only what the cached queue answers. It
has the same entries at any time, whatever the link does, also within a request and after promotions
that failed: a change that fails has changed nothing, and one that is answered is answered as the
queue in memory answers it.
-/

namespace Spillway

open Desk Held

/-- A queue in memory that has what a cached queue has. -/
structure Mirrors (c : Desk Cached) (r : Desk Ram) : Prop where
  /-- The same name. -/
  storageId : r.queue.storageId = c.queue.storageId
  /-- The same bounds. -/
  bounds : r.queue.bounds = c.queue.bounds
  /-- The same hooks. -/
  hooks : r.queue.hooks = c.queue.hooks
  /-- The same point of life. -/
  phase : r.queue.phase = c.queue.phase
  /-- The same entries. -/
  contents : r.queue.roll.Lists (Cached.contents c)
  /-- The same references. -/
  references : r.queue.roll.ids = c.queue.index.ids
  /-- The same totals. -/
  tally : Managed.tally r.queue = Managed.tally c.queue

/-- A cached queue, and a queue in memory that is asked what the cached queue answers and nothing
else. -/
inductive Shadowed : Desk Cached → Desk Ram → Prop
  /-- Both are made under one name with the same bounds and hooks, over a store without rows of that
  name. -/
  | made {id : StorageId} {bounds : Bounds} {q : Cached} {q' : Ram} {s : Store}
      (hq : Cached.create id bounds = .ok q) (hq' : Ram.create id bounds = .ok q')
      (hr : Statement.rowsOf id.text s.rows = []) (hooks : Hooks) (s' : Store) :
      Shadowed { queue := { q with hooks }, store := s } { queue := { q' with hooks }, store := s' }
  /-- A queue in memory joins a cached queue with any history that is active. -/
  | joined {c : Desk Cached} {r : Desk Ram} (h : Cached.Reachable c)
      (ha : c.queue.phase = .active) (hm : Mirrors c r) : Shadowed c r
  /-- What the cached queue answers is asked of the other one too. -/
  | answered {c c' : Desk Cached} {r : Desk Ram} {request : Request} {reply : Reply}
      (h : Shadowed c r) (ho : (serve request).on c = (.ok reply, c')) :
      Shadowed c' ((serve request).on r).2
  /-- What fails is not. -/
  | failed {c c' : Desk Cached} {r : Desk Ram} {request : Request} {fault : Fault}
      (h : Shadowed c r) (ho : (serve request).on c = (.error fault, c')) : Shadowed c' r
  /-- The cached queue is told that the database is there again. -/
  | notified {c : Desk Cached} {r : Desk Ram} (h : Shadowed c r) :
      Shadowed (Cached.catchUp.on c).2 r
  /-- The link changes, others use the stores. -/
  | meanwhile {c : Desk Cached} {r : Desk Ram} (h : Shadowed c r) {s : Store}
      (hp : c.store.Spares c.queue.storageId.text s) (s' : Store) :
      Shadowed { c with store := s } { r with store := s' }
  /-- Both get the same hooks. -/
  | hooked {c : Desk Cached} {r : Desk Ram} (h : Shadowed c r) (hooks : Hooks) :
      Shadowed { c with queue := { c.queue with hooks } }
        { r with queue := { r.queue with hooks } }

variable {c c' : Desk Cached} {r : Desk Ram} {l : List Held} {request : Request}

namespace Paired

/-- A queue in memory beside an active cached queue mirrors it if they are a pair. -/
theorem mirrors (h : Paired c r l) (ha : c.queue.phase = .active) : Mirrors c r where
  storageId := h.storageId
  bounds := h.bounds
  hooks := h.hooks
  phase := h.phase
  contents := by
    rw [Cached.contents_eq (h.holds.stocks ha)]
    exact h.roll
  references := by
    rw [Roll.ids, Roll.ids, h.roll.items, h.index.items, List.map_map, List.map_map]
    rfl
  tally := h.roll.tally.trans (Cached.tally_of_lists h.index).symm

/-- An active cached queue and a queue in memory that mirrors it are a pair. -/
theorem of_mirrors (h : Mirrors c r) (ha : c.queue.phase = .active) (hs : Cached.Stocks c l) :
    Paired c r l where
  holds := .serving ha hs
  index := hs.index
  roll := Cached.contents_eq hs ▸ h.contents
  storageId := h.storageId
  bounds := h.bounds
  phase := h.phase
  hooks := h.hooks
  gone := fun hd => by
    rw [ha] at hd
    cases hd

/-- What the cached queue answers leaves a pair if the other one is asked it too. -/
theorem answered {reply : Reply} (h : Paired c r l)
    (ho : (serve request).on c = (.ok reply, c')) :
    ∃ m, Paired c' ((serve request).on r).2 m := by
  rcases h.asked request with hb | hf | hg
  · have := hb.paired
    rwa [ho] at this
  · obtain ⟨fault, hf⟩ := hf.fault
    rw [ho] at hf
    cases hf
  · have := hg.paired
    rw [ho] at this
    exact ⟨l, this⟩

/-- What fails leaves a pair, unless the cached queue was to be destroyed. -/
theorem failed {fault : Fault} (h : Paired c r l)
    (ho : (serve request).on c = (.error fault, c')) :
    c'.queue.phase = .destroyed ∨ Paired c' r l := by
  rcases h.asked request with hb | hf | hg
  · obtain ⟨hq, ht⟩ := hb.refused fault (congrArg Prod.fst ho)
    have hu := hb.kept.used
    rw [ho] at hq ht hu
    exact .inr (h.unaltered hq ht hu)
  · have := hf.remains
    rw [ho] at this
    exact this.imp_left And.right
  · have hs := hg.spoilt
    rw [ho] at hs
    exact .inr (h.unaltered hs.queue hs.table hs.used)

/-- A change that fails has changed nothing. -/
theorem unaltered_of_error {fault : Fault} (h : Paired c r l) (hr : request.alters = true)
    (ho : (serve request).on c = (.error fault, c')) :
    c'.queue = c.queue ∧ c'.store.table = c.store.table := by
  rcases h.asked request with hb | hf | hg
  · have := hb.refused fault (congrArg Prod.fst ho)
    rwa [ho] at this
  · have := hf.unaltered hr
    rwa [ho] at this
  · have := hg.reads
    rw [hr] at this
    cases this

/-- A change that is answered is answered alike. -/
theorem mirrors_of_ok {reply : Reply} (h : Paired c r l) (ha : c.queue.phase = .active)
    (hr : request.alters = true) (ho : (serve request).on c = (.ok reply, c')) :
    ∃ r', (serve request).on r = (.ok reply, r') ∧ Mirrors c' r' := by
  rcases h.asked request with hb | hf | hg
  · have hsame := hb.same
    have hphase := hb.phase (Request.needsActive_of_alters hr)
    obtain ⟨m, hm⟩ := hb.paired
    rw [ho] at hsame hphase hm
    exact ⟨_, Prod.ext hsame.symm rfl, hm.mirrors (hphase.trans ha)⟩
  · obtain ⟨fault, hf⟩ := hf.fault
    rw [ho] at hf
    cases hf
  · have := hg.reads
    rw [hr] at this
    cases this

end Paired

/-- A queue in memory beside a cached queue is a pair with it, unless that is destroyed. -/
theorem Shadowed.paired (h : Shadowed c r) :
    c.queue.phase = .destroyed ∨ ∃ l, Paired c r l := by
  induction h with
  | made hq hq' hr hooks s' => exact .inr ⟨[], .of_made hq hq' hr hooks s'⟩
  | joined h ha hm =>
    obtain ⟨l, hl⟩ := Cached.reachable_stocks h ha
    exact .inr ⟨l, .of_mirrors hm ha hl⟩
  | @answered c c' r request reply _ ho ih =>
    rcases ih with hd | ⟨l, hl⟩
    · have := Cached.serve_destroyed hd request
      rw [ho] at this
      cases this
      exact .inl hd
    · exact .inr (hl.answered ho)
  | @failed c c' r request fault _ ho ih =>
    rcases ih with hd | ⟨l, hl⟩
    · have := Cached.serve_destroyed hd request
      rw [ho] at this
      cases this
      exact .inl hd
    · exact (hl.failed ho).imp_right fun hl => ⟨l, hl⟩
  | notified _ ih =>
    rcases ih with hd | ⟨l, hl⟩
    · rw [Cached.catchUp_inactive (by rw [hd]; nofun)]
      exact .inl hd
    · exact .inr hl.notified.2.2
  | meanwhile _ hp s' ih => exact ih.imp_right fun ⟨l, hl⟩ => ⟨l, hl.spared hp s'⟩
  | hooked _ hooks ih => exact ih.imp_right fun ⟨l, hl⟩ => ⟨l, hl.hooked hooks⟩

/-- Beside every active cached queue with a history a queue in memory can stand that mirrors it. -/
theorem exists_mirrors (h : Cached.Reachable c) (ha : c.queue.phase = .active) :
    ∃ r, Mirrors c r := by
  obtain ⟨l, hl⟩ := Cached.reachable_stocks h ha
  have ho : Ordered (l.map Held.entry) := ordered_entries.2 hl.layout.order
  have hroll : (({} : Roll Entry).insertAll (l.map Held.entry)).Lists (l.map Held.entry) :=
    Roll.Lists.empty.insertAll_new ho.unique (by simp) ho (by simp)
  let r : Desk Ram :=
    { queue := { storageId := c.queue.storageId, bounds := c.queue.bounds, phase := .active
                 roll := ({} : Roll Entry).insertAll (l.map Held.entry), hooks := c.queue.hooks }
      store := {} }
  have hp : Paired c r l :=
    ⟨.serving ha hl, hl.index, hroll, rfl, rfl, ha.symm, rfl, fun hd => by
      rw [ha] at hd
      cases hd⟩
  exact ⟨r, hp.mirrors ha⟩

/-- Whatever the history, a queue in memory that is asked only what the cached queue answers mirrors
it. A change of the cached queue that fails has changed neither the queue nor its table; one that is
answered is answered as the queue in memory answers it, and leaves the same entries, references and
totals. -/
theorem alterations_atomic :
    (∀ {c}, Cached.Reachable c → c.queue.phase = .active → ∃ r, Shadowed c r) ∧
      ∀ {c r}, Shadowed c r → c.queue.phase = .active → Mirrors c r ∧
        ∀ {request c'}, request.alters = true →
          (∀ {fault}, (serve request).on c = (.error fault, c') →
            c'.queue = c.queue ∧ c'.store.table = c.store.table) ∧
          ∀ {reply}, (serve request).on c = (.ok reply, c') →
            ∃ r', (serve request).on r = (.ok reply, r') ∧ Mirrors c' r' := by
  refine ⟨fun h ha => ?_, fun h ha => ?_⟩
  · obtain ⟨r, hm⟩ := exists_mirrors h ha
    exact ⟨r, .joined h ha hm⟩
  obtain ⟨l, hl⟩ := h.paired.resolve_left (by rw [ha]; nofun)
  exact ⟨hl.mirrors ha, fun halters =>
    ⟨fun ho => hl.unaltered_of_error halters ho, fun ho => hl.mirrors_of_ok ha halters ho⟩⟩

/-- A queue whose database goes away, or comes back. -/
theorem Shadowed.relinked (h : Shadowed c r) (link : Link) : Shadowed (c.relinked link) r :=
  @Shadowed.meanwhile c r h { c.store with link } ⟨rfl, id, rfl⟩ r.store

/-- A queue over its cache bounds is to take out an entry, before and after the database is gone. -/
theorem alterations_atomic_lost :
    let c := (serveAll [.start, .put [.blank 1 true, .blank 2 false] false] Cached.newborn).2
    let lost := { c with store := { c.store with link := { reachable := false } } }
    (Cached.Reachable c ∧ c.queue.phase = .active ∧ (Request.removeFirst 1).alters = true) ∧
      ∃ r, Shadowed c r ∧ Shadowed lost r ∧
        (∃ reply c' r', (serve (.removeFirst 1)).on c = (.ok reply, c') ∧
          (serve (.removeFirst 1)).on r = (.ok reply, r') ∧ Mirrors c' r') ∧
        ∃ fault c', (serve (.removeFirst 1)).on lost = (.error fault, c') ∧
          c'.queue = lost.queue ∧ c'.store.table = lost.store.table := by
  intro c lost
  have hr : Cached.Reachable c := Cached.reachable_newborn.runs (Cached.runs_serveAll _ _)
  have ha : c.queue.phase = .active := by decide +kernel
  have ha' : lost.queue.phase = .active := by decide +kernel
  have halters : (Request.removeFirst 1).alters = true := rfl
  obtain ⟨r, hc⟩ := alterations_atomic.1 hr ha
  have hlost : Shadowed lost r := hc.relinked { reachable := false }
  obtain ⟨reply, c', ho⟩ := exists_of_isOk
    (show ((serve (.removeFirst 1)).on c).1.isOk = true by decide +kernel)
  obtain ⟨fault, c'', ho'⟩ := exists_of_not_isOk
    (show ((serve (.removeFirst 1)).on lost).1.isOk = false by decide +kernel)
  obtain ⟨r', hor, hm⟩ := ((alterations_atomic.2 hc ha).2 halters).2 ho
  have hsame := ((alterations_atomic.2 hlost ha').2 halters).1 ho'
  exact ⟨⟨hr, ha, halters⟩, r, hc, hlost, ⟨reply, c', r', ho, hor, hm⟩, fault, c'', ho', hsame⟩

end Spillway
