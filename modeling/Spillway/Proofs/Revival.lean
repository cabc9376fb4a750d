import Spillway.Proofs.Histories

/-!
# Dropping a queue and opening another over its rows

A cached queue that is dropped as it is leaves its rows behind. A queue of the same name that is
opened over them has exactly the entries that had to survive and had a row, and it has them whole.
Nothing that a removal took out is among them, unless it was put again.
-/

namespace Spillway.Cached

open Desk Held

/-- The entries in the rows of a queue, in the order of service. -/
def rowEntries (d : Desk Cached) : List Entry :=
  (Row.inOrder (Statement.rowsOf d.queue.storageId.text d.store.rows)).filterMap
    fun r => r.readEntry.toOption

/-- All that a queue has, with its content: what is in memory, and the rows of what is not. -/
def contents (d : Desk Cached) : List Entry :=
  d.queue.hot.roll.items ++ (rowEntries d).filter fun e =>
    (d.queue.index.get? e.id).any Resident.isCold

/-- What of a queue is to outlive it: what must survive and is not held back. -/
def survivors (d : Desk Cached) : List Entry :=
  (contents d).filter fun e => e.persistent && !d.queue.pending.contains e.id

/-- What a queue has that was opened over the rows of another. -/
structure Revives (d d' : Desk Cached) : Prop where
  /-- It is active. -/
  active : d'.queue.phase = .active
  /-- It has what was to outlive the other. -/
  contents : contents d' = survivors d
  /-- It has it in the order of service, each id once. -/
  order : Ordered (survivors d)
  /-- Its totals are exact. -/
  tally : Managed.tally d'.queue = Tally.total (survivors d)
  /-- The table has the rows of that and no others. -/
  rows : ((Statement.rowsOf d'.queue.storageId.text d'.store.rows).map Row.readEntry).Perm
    ((survivors d).map .ok)
  /-- Nothing is held back. -/
  settled : d'.queue.pending = []

variable {d d' : Desk Cached} {l : List Held} {request : Request}

theorem rowEntries_eq {es : List Entry}
    (h : Partition d.queue.storageId.text d.store.rows es) : rowEntries d = es :=
  h.entriesOf_eq

/-- What a queue has is what its list says, if its index knows it. -/
theorem contents_of_known (hl : Layout d.queue.bounds l)
    (hi : d.queue.index.Lists (l.map resident)) (hh : d.queue.hot.roll.Lists (inMemory l))
    (hp : Partition d.queue.storageId.text d.store.rows (inTable l)) :
    contents d = l.map Held.entry := by
  have := select_value hl hi fun _ => true
  rw [List.filter_true, List.filter_true, List.filter_true] at this
  rw [contents, rowEntries_eq hp, hh.items]
  exact this

theorem contents_eq (h : Stocks d l) : contents d = l.map Held.entry :=
  contents_of_known h.layout h.index h.hot h.rows.partition

/-- What must survive and is not held back is what must survive and has a row. -/
theorem survivors_eq (h : Stocks d l) : survivors d = (inTable l).filter (·.persistent) := by
  rw [survivors, contents_eq h, show d.queue.pending = pendingIds l from pending_eq h]
  exact filter_not_pending h.layout.order

/-- After a removal that succeeds, what it named is gone. -/
theorem removal_holds (h : Stocks d l) (ha : d.queue.phase = .active)
    (hr : request.removes = true) {reply : Reply} (ho : (serve request).on d = (.ok reply, d')) :
    ∃ m, Holds d' m ∧ m.map Held.entry = request.left (contents d) := by
  have hl : request.looksUp = true := by
    cases request with
    | start | shutdown | destroy | put => cases hr
    | _ => rfl
  rw [contents_eq h, ← entries_restOf]
  rcases serve_on h ha hl with ⟨e, m, ho', hst, hs, hsame⟩ | ⟨hspoilt, hclaim⟩
  · rw [ho] at ho'
    cases ho'
    exact ⟨m, .serving (hst.phase.trans ha) hs, hsame.entries⟩
  · rw [ho] at hclaim
    rcases hclaim with ⟨hn, -⟩ | ⟨fault, hf⟩
    · rw [hr] at hn
      cases hn
    · cases hf

/-- What a later queue has was left by a removal, or was brought since. -/
theorem contents_after_removal {d₁ d₂ : Desk Cached} {reply : Reply} {events : List Event}
    (h : Reachable d₁) (ha₁ : d₁.queue.phase = .active) (hr : request.removes = true)
    (ho : (serve request).on d₁ = (.ok reply, d₂)) (hruns : Runs d₂ events d)
    (ha : d.queue.phase = .active) :
    ∀ e ∈ contents d, e ∈ request.left (contents d₁) ∨ e ∈ events.flatMap Event.brought := by
  obtain ⟨l₁, hs₁⟩ := reachable_stocks h ha₁
  obtain ⟨m, hm, hleft⟩ := removal_holds hs₁ ha₁ hr ho
  obtain ⟨-, n, hn, hfrom⟩ := runs_holds hruns hm
  rw [contents_eq (hn.stocks ha), ← hleft]
  exact hfrom

/-- A new queue that is opened over rows has those of them that must survive, and no others are
left. -/
theorem opened_anew {id : StorageId} {bounds : Bounds} {q : Cached} {es : List Entry} {s : Store}
    (hq : create id bounds = .ok q) (hp : Partition id.text s.rows es) (hooks : Hooks)
    (calls : List Call) (hfit : TableName.isReserved s.tableName = false)
    (hserve : s.link.Serving) (hr : Reckonable es) :
    ∃ d' m, start.on { queue := { q with hooks }, store := s, calls } = (.ok (), d') ∧
      Kept { queue := { q with hooks }, store := s, calls } d' ∧ d'.queue.phase = .active ∧
      Stocks d' m ∧ SameRows ((es.filter (·.persistent)).map Held.row) m := by
  let d₁ : Desk Cached := { queue := { q with hooks }, store := s, calls }
  have hphase : d₁.queue.phase = .uninitialized := by
    change q.phase = _
    rw [create_eq hq]
  have hheld : Holds d₁ (es.map Held.row) := made_holds hq hp hooks calls
  have hopenable : Openable d₁ (es.map Held.row) := ⟨hfit, by rwa [inTable_row]⟩
  rcases start_on hheld.shelved (by rw [hphase]; nofun) (by rw [hphase]; nofun) with
    ⟨d', m, ho, hk, ha, hst, hsame, -⟩ | ⟨fault, d', m, -, -, -, -, -, -, hf⟩
  · have hrest : reopened d₁ (es.map Held.row) = (es.filter (·.persistent)).map Held.row := by
      rw [reopened, if_pos hphase, List.filter_map]
      rfl
    exact ⟨d', m, ho, hk, ha, hst, hrest ▸ hsame⟩
  · exact absurd hserve (hf hopenable)

/-- A queue that is opened over the rows of an active one has what was to outlive that. -/
theorem revives_of_stocks (h : Stocks d l) {bounds : Bounds} {q : Cached}
    (hq : create d.queue.storageId bounds = .ok q) (hooks : Hooks) (calls : List Call) {s : Store}
    (hs : d.store.Spares d.queue.storageId.text s) (hserve : s.link.Serving)
    (hb : (Tally.total (rowEntries d)).bytes < 2 ^ 63) :
    ∃ d', start.on { queue := { q with hooks }, store := s, calls } = (.ok (), d') ∧
      Kept { queue := { q with hooks }, store := s, calls } d' ∧ Revives d d' ∧
      ∃ m, Stocks d' m := by
  have hp := h.rows.partition
  rw [rowEntries_eq hp] at hb
  obtain ⟨d', m, ho, hk, ha, hst, hsame⟩ := opened_anew hq (hp.of_rowsOf_eq hs.rows) hooks calls
    (hs.tableName ▸ h.fit) hserve (.of_lt hb)
  have hentries : m.map Held.entry = survivors d := by
    rw [hsame.entries, entries_row, survivors_eq h]
  have hrows : inTable m = survivors d := by
    rw [hsame.inTable, inTable_row, survivors_eq h]
  refine ⟨d', ho, hk, ⟨ha, ?_, ?_, ?_, ?_, ?_⟩, m, hst⟩
  · rw [contents_eq hst, hentries]
  · rw [← hentries]
    exact ordered_entries.2 hst.layout.order
  · rw [← hentries]
    exact tally_of_lists hst.index
  · obtain ⟨written, hperm, hw⟩ := hst.rows.partition.rows
    rw [hw, List.map_map, ← hrows]
    refine List.Perm.trans (.of_eq ?_) (hperm.map _)
    exact List.map_congr_left fun e _ => Row.readEntry_ofEntry _ e
  · rw [show d'.queue.pending = pendingIds m from pending_eq hst, pendingIds, hsame.pending]
    have ho := (ordered_inTable h.layout.order).filter (·.persistent)
    exact pendingIds_of_cold (Layout.row d.queue.bounds ho) (cold_row _)

/-- A queue that serves answers with all that it has. -/
theorem select_all (h : Stocks d l) (ha : d.queue.phase = .active) (hs : d.store.link.Serving) :
    ((serve (.select fun _ => true)).on d).1 = .ok (.entries (contents d)) := by
  have hr : (Request.select fun _ => true).looksUp = true := rfl
  rcases serve_on h ha hr with ⟨d', m, ho, -⟩ | ⟨hspoilt, -⟩
  · rw [ho, contents_eq h]
    exact congrArg (fun es => Except.ok (Reply.entries es)) (List.filter_true _)
  · exact absurd hs hspoilt.unserved

/-- Whatever the history of a queue that is dropped while it is active: another of its name, opened
over its rows while the link serves, has exactly what had to survive and was not held back. -/
theorem revives_of_reachable (h : Reachable d) (ha : d.queue.phase = .active) {bounds : Bounds}
    {q : Cached} (hq : create d.queue.storageId bounds = .ok q) (hooks : Hooks) (calls : List Call)
    {s : Store} (hs : d.store.Spares d.queue.storageId.text s) (hserve : s.link.Serving)
    (hb : (Tally.total (rowEntries d)).bytes < 2 ^ 63) :
    ∃ d', (serve .start).on { queue := { q with hooks }, store := s, calls } = (.ok .done, d') ∧
      Revives d d' ∧
      ((serve (.select fun _ => true)).on d').1 = .ok (.entries (survivors d)) ∧
      (d.queue.pending = [] → survivors d = (contents d).filter (·.persistent)) ∧
      ∀ {d₁ d₂ : Desk Cached} {request : Request} {reply : Reply} {events : List Event},
        Reachable d₁ → d₁.queue.phase = .active → request.removes = true →
        (serve request).on d₁ = (.ok reply, d₂) → Runs d₂ events d →
        ∀ e ∈ contents d', e ∈ request.left (contents d₁) ∨ e ∈ events.flatMap Event.brought := by
  obtain ⟨l, hl⟩ := reachable_stocks h ha
  obtain ⟨d', ho, hk, hr, m, hm⟩ := revives_of_stocks hl hq hooks calls hs hserve hb
  refine ⟨d', on_done ho, hr, ?_, fun hp => ?_, ?_⟩
  · rw [← hr.contents]
    exact select_all hm hr.active (hk.used.link.serving hserve)
  · simp [survivors, hp]
  · intro d₁ d₂ request reply events h₁ ha₁ hremoves hserved hruns e he
    rw [hr.contents] at he
    exact contents_after_removal h₁ ha₁ hremoves hserved hruns ha e (List.mem_filter.1 he).1

/-- A queue that is dropped with a persistent entry in memory and a transient one in the table. -/
theorem revives_spilt :
    let d := (serveAll [.start, .put [.blank 1 true, .blank 2 false] false] newborn).2
    (Reachable d ∧ d.queue.phase = .active ∧ d.store.link.Serving) ∧
      ∃ d', (serve .start).on { queue := newborn.queue, store := d.store } = (.ok .done, d') ∧
        Revives d d' := by
  intro d
  have hr : Reachable d := reachable_newborn.runs (runs_serveAll _ newborn)
  have ha : d.queue.phase = .active := by decide +kernel
  have hname : d.queue.storageId = .mail := by decide +kernel
  have hserve : d.store.link.Serving :=
    ⟨by decide +kernel, by decide +kernel, by decide +kernel, by decide +kernel⟩
  have hq : create d.queue.storageId .tight = .ok newborn.queue := by
    rw [hname]
    rfl
  have hb : (Tally.total (rowEntries d)).bytes < 2 ^ 63 := by decide +kernel
  obtain ⟨d', ho, hrevives, -⟩ :=
    revives_of_reachable hr ha hq {} [] (.refl _ d.store) hserve hb
  exact ⟨⟨hr, ha, hserve⟩, d', ho, hrevives⟩

end Spillway.Cached
