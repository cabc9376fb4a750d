import Spillway.Proofs.Puts
import Spillway.Proofs.Rebuilding

/-!
# The life of a cached queue

A queue that is not active still has entries in memory and rows in the table. Opening it finds them
again, closing it keeps them, destroying it gives them up. What an opening, a closing or a
notification leaves is stated on the list held, for every outcome of the calls to the store.
-/

namespace Spillway.Cached

open Desk Held

/-- What no request changes. -/
structure Kept (d d' : Desk Cached) : Prop where
  /-- The name. -/
  storageId : d'.queue.storageId = d.queue.storageId
  /-- The bounds. -/
  bounds : d'.queue.bounds = d.queue.bounds
  /-- The hooks. -/
  hooks : d'.queue.hooks = d.queue.hooks
  /-- The store, the rows aside. -/
  used : d.store.Used d'.store

/-- A cached queue, active or not, whose memory and rows are those of a list. -/
structure Shelved (d : Desk Cached) (l : List Held) : Prop where
  /-- The list is laid out within the bounds. -/
  layout : Layout d.queue.bounds l
  /-- The index knows nothing, and nothing is in memory; or it knows all of the list. -/
  known : (d.queue.index = {} ∧ ∀ x ∈ l, x.isHot = false) ∨
    (d.queue.phase ≠ .uninitialized ∧ d.queue.index.Lists (l.map resident))
  /-- Memory has its first entries. -/
  hot : d.queue.hot.roll.Lists (inMemory l)
  /-- The table has exactly its rows. -/
  rows : Partition d.queue.storageId.text d.store.rows (inTable l)
  /-- The part in the table goes by the name of the queue. -/
  named : d.queue.cold.storageId = d.queue.storageId
  /-- Neither part is destroyed before the queue is. -/
  alive : d.queue.phase ≠ .destroyed →
    d.queue.hot.phase ≠ .destroyed ∧ d.queue.cold.phase ≠ .destroyed

variable {d d' d'' : Desk Cached} {l m : List Held}

theorem Kept.refl (d : Desk Cached) : Kept d d := ⟨rfl, rfl, rfl, .refl _⟩

theorem Kept.trans (h : Kept d d') (h' : Kept d' d'') : Kept d d'' :=
  ⟨h'.storageId.trans h.storageId, h'.bounds.trans h.bounds, h'.hooks.trans h.hooks,
    h.used.trans h'.used⟩

theorem Steady.kept (h : Steady d d') : Kept d d' := ⟨h.storageId, h.bounds, h.hooks, h.used⟩

/-- An active queue is one of those. -/
theorem Stocks.shelved (h : Stocks d l) (ha : d.queue.phase = .active) : Shelved d l := by
  refine ⟨h.layout, .inr ⟨by rw [ha]; nofun, h.index⟩, h.hot, h.rows.partition, h.named,
    fun _ => ?_⟩
  rw [h.warm, h.cold]
  exact ⟨nofun, nofun⟩

/-- What is held back of a list whose entries are all in the table. -/
theorem pendingIds_of_cold {b : Bounds} (h : Layout b l) (hc : ∀ x ∈ l, x.isHot = false) :
    pendingIds l = [] := by
  rw [pendingIds, List.map_eq_nil_iff, List.filter_eq_nil_iff]
  intro x hx
  simp [isPending, resident, Resident.isPending, h.rows x hx (hc x hx)]

/-- The index knows what is held back. -/
theorem Shelved.pending (h : Shelved d l) : d.queue.pending = pendingIds l := by
  rcases h.known with ⟨hi, hc⟩ | ⟨-, hi⟩
  · rw [pendingIds_of_cold h.layout hc, Cached.pending, hi]
    rfl
  · rw [Cached.pending, hi.items, List.filter_map, List.map_map]
    rfl

/-- The desk of a queue in another phase, with other hook calls made. -/
def withPhase (d : Desk Cached) (phase : Phase) (calls : List Call) : Desk Cached :=
  { queue := { d.queue with phase }, store := d.store, calls }

theorem Stocks.phased (h : Stocks d l) (phase : Phase) (calls : List Call) :
    Stocks (withPhase d phase calls) l :=
  ⟨h.layout, h.index, h.hot, h.rows, h.named, h.warm, h.cold, h.fit⟩

/-! ## Opening -/

/-- Where the list held may be opened: the table can have its name, and its totals fit. -/
structure Openable (d : Desk Cached) (l : List Held) : Prop where
  /-- The table can have its name. -/
  fit : TableName.isReserved d.store.tableName = false
  /-- The bytes of its rows can be counted. -/
  counted : Reckonable (inTable l)

/-- Nothing lies behind the first cold entry, so the hot entries are a prefix already. -/
theorem restorePrefix_on (h : Stocks d l) : restorePrefix.on d = promote.on d := by
  rw [restorePrefix, Action.on_bind_of_ok (on_theQueue d)]
  cases hf : d.queue.firstCold? with
  | none => rfl
  | some first =>
    have hbehind : d.queue.hotResidents.filter (fun r => decide (first ≤ keyOf r)) = [] := by
      rw [firstCold?, coldResidents_eq h, List.head?_map, Option.map_map] at hf
      obtain ⟨c, hc, rfl⟩ := Option.map_eq_some_iff.1 hf
      have hc := List.mem_filter.1 (List.mem_of_mem_head? hc)
      rw [isCold_eq, Bool.not_eq_true'] at hc
      rw [hotResidents_eq h, List.filter_eq_nil_iff]
      intro r hr hle
      obtain ⟨x, hx, rfl⟩ := List.mem_map.1 hr
      rw [List.mem_filter] at hx
      have hle : c.entry.key ≤ x.entry.key := of_decide_eq_true hle
      exact hle (h.layout.front x hx.1 c hc.1 hx.2 hc.2)
    dsimp only
    rw [hbehind]
    rfl

/-- Opening finds the list again that memory and rows make up, or fails for want of the database. -/
theorem resume_on (hl : Layout d.queue.bounds l) (hot : d.queue.hot.roll.Lists (inMemory l))
    (hk : d.store.Keeps d.queue.storageId.text (inTable l))
    (named : d.queue.cold.storageId = d.queue.storageId) (hw : d.queue.hot.phase ≠ .destroyed)
    (hc : d.queue.cold.phase = .active) (fit : TableName.isReserved d.store.tableName = false) :
    (∃ d' m, resume.on d = (.ok (), d') ∧ Kept d d' ∧ d'.queue.phase = .active ∧ Stocks d' m ∧
      SameRows l m ∧ (d.store.link.Serving → Filled d')) ∨
    ∃ fault store, resume.on d =
        (.error fault, { withHot d d.queue.hot.opened with store }) ∧
      d.store.Missed fault store := by
  have hopen : (onHot Ram.start).on d = (.ok (), withHot d d.queue.hot.opened) := by
    rw [onHot, Action.on_focus, Ram.start, Action.on_bind_of_ok (on_requireAlive_alive hw),
      on_changeQueue]
    rfl
  have hname : d.queue.cold.name = d.queue.storageId.text := congrArg StorageId.text named
  rw [resume, Action.on_bind_of_ok hopen]
  rcases onCold_cases (d := withHot d d.queue.hot.opened)
      (Durable.slots_works hc (l := inTable l) (hname.symm ▸ hk)) with
    ⟨slots, tally, store, calls, ho, rfl, hk', hu⟩ | ⟨fault, store, ho, hm⟩
  · have hread := on_hotSelect (d := withTable (withHot d d.queue.hot.opened) tally store calls)
      rfl hot fun _ => true
    rw [List.filter_true] at hread
    have hs : Stocks (withIndex (withTable (withHot d d.queue.hot.opened) tally store calls)
        (rebuild ((inTable l).map Entry.slot) (inMemory l))) l :=
      ⟨hl, rebuild_lists hl, hot, named ▸ hk', named, rfl, hc, hu.tableName ▸ fit⟩
    obtain ⟨d', m, hp, hst, hs', hsame, hfull⟩ := promote_on hs
    rw [← restorePrefix_on hs] at hp
    let calls' := d'.calls ++ announcement (withPhase d' .active d'.calls).queue false
    refine .inl ⟨withPhase d' .active calls', m, ?_, ?_, rfl, hs'.phased .active calls', hsame,
      fun hserving => hfull (hs.fed (hu.link.serving hserving))⟩
    · rw [Action.on_bind_of_ok ho, Action.on_bind_of_ok hread,
        Action.on_bind_of_ok (on_reindex _ _), Action.on_bind_of_ok hp]
      rfl
    · exact ⟨hst.storageId, hst.bounds, hst.hooks, hu.trans hst.used⟩
  · exact .inr ⟨fault, store, Action.on_bind_of_error ho, hm⟩

/-- What is held after an opening: the first time, only what must survive. -/
def reopened (d : Desk Cached) (l : List Held) : List Held :=
  if d.queue.phase = .uninitialized then l.filter (·.entry.persistent) else l

theorem inTable_filter (p : Entry → Bool) (l : List Held) :
    inTable (l.filter fun x => p x.entry) = (inTable l).filter p := by
  rw [inTable, inTable, List.filter_map, List.filter_comm]
  rfl

/-- Before the first opening, what need not survive is given up. -/
theorem onCold_removeTransient (h : Shelved d l) (hp : d.queue.phase = .uninitialized)
    (hc : d.queue.cold.phase = .active)
    (hk : d.store.Keeps d.queue.storageId.text (inTable l)) :
    (∃ count tally store calls, (onCold Durable.removeTransient).on d =
        (.ok count, withTable d tally store calls) ∧
      store.Keeps d.queue.storageId.text (inTable (reopened d l)) ∧ d.store.Used store) ∨
    ∃ fault store, (onCold Durable.removeTransient).on d = (.error fault, { d with store }) ∧
      d.store.Missed fault store := by
  have hname : d.queue.cold.name = d.queue.storageId.text := congrArg StorageId.text h.named
  rcases onCold_cases (Durable.removeTransient_works hc (l := inTable l) (hname.symm ▸ hk)) with
    ⟨count, tally, store, calls, ho, -, hk', hu⟩ | ⟨fault, store, ho, hm⟩
  · refine .inl ⟨count, tally, store, calls, ho, ?_, hu⟩
    rw [reopened, if_pos hp, inTable_filter, ← h.named]
    exact hk'
  · exact .inr ⟨fault, store, ho, hm⟩

theorem layout_reopened (h : Layout d.queue.bounds l) :
    Layout d.queue.bounds (reopened d l) := by
  unfold reopened
  split
  · exact h.filter _
  · exact h

/-- What is given up before the first opening is not in memory. -/
theorem Shelved.inMemory_reopened (h : Shelved d l) : inMemory (reopened d l) = inMemory l := by
  unfold reopened
  split
  · next hp =>
    rcases h.known with ⟨-, hc⟩ | ⟨hn, -⟩
    · rw [inMemory_of_cold hc, inMemory_of_cold fun x hx => hc x (List.mem_filter.1 hx).1]
    · exact absurd hp hn
  · rfl

/-- What comes of an opening: the queue is active and has what it had, or what of that must survive;
or the opening fails, and the queue has one or the other, still on the shelf. An opening over a link
that serves fills memory. -/
def Opens (d : Desk Cached) (l : List Held) (outcome : Except Fault Unit × Desk Cached) : Prop :=
  (∃ d' m, outcome = (.ok (), d') ∧ Kept d d' ∧ d'.queue.phase = .active ∧ Stocks d' m ∧
    SameRows (reopened d l) m ∧ (d.store.link.Serving → Filled d')) ∨
  ∃ fault d' m, outcome = (.error fault, d') ∧ Kept d d' ∧ d'.queue.phase = d.queue.phase ∧
    d'.queue.index = d.queue.index ∧ Shelved d' m ∧ (m = l ∨ m = reopened d l) ∧
    (Openable d l → ¬ d.store.link.Serving)

/-- The last part of an opening, once the table is open and only what must survive is left. -/
theorem opens_of_resume (hk : Kept d d') (hp : d'.queue.phase = d.queue.phase)
    (hi : d'.queue.index = d.queue.index) (h : Shelved d' (reopened d l))
    (hd : d.queue.phase ≠ .destroyed) (hc : d'.queue.cold.phase = .active)
    (hrows : d'.store.Keeps d'.queue.storageId.text (inTable (reopened d l)))
    (fit : TableName.isReserved d'.store.tableName = false) : Opens d l (resume.on d') := by
  have hd' : d'.queue.phase ≠ .destroyed := by rwa [hp]
  rcases resume_on h.layout h.hot hrows h.named (h.alive hd').1 hc fit with
    ⟨d'', m, ho, hk', ha, hs, hsame, hfull⟩ | ⟨fault, store, ho, hm⟩
  · exact .inl ⟨d'', m, ho, hk.trans hk', ha, hs, hsame,
      fun hserving => hfull (hk.used.link.serving hserving)⟩
  · refine .inr ⟨fault, _, reopened d l, ho, ?_, hp, hi, ?_, .inr rfl, fun _ hs => ?_⟩
    · exact ⟨hk.storageId, hk.bounds, hk.hooks, hk.used.trans hm.used⟩
    · refine { h with rows := (hrows.missed hm).partition, alive := fun _ => ⟨nofun, ?_⟩ }
      exact (h.alive hd').2
    · exact hm.unserved (hk.used.link.serving hs)

/-- Opening a queue. -/
theorem start_on (h : Shelved d l) (hn : d.queue.phase ≠ .active)
    (hd : d.queue.phase ≠ .destroyed) : Opens d l (start.on d) := by
  have hname : d.queue.cold.name = d.queue.storageId.text := congrArg StorageId.text h.named
  obtain ⟨hwarm, hcold⟩ := h.alive hd
  rw [start, Action.on_bind_of_ok (on_requireAlive_alive hd),
    Action.on_bind_of_ok (on_theQueue d), if_neg hn]
  rcases Durable.start_cases (d := ⟨d.queue.cold, d.store, d.calls⟩) hcold
      (l := inTable l) (hname.symm ▸ h.rows) with
    ⟨tally, store, ho, hk, hu, hfit, -⟩ | ⟨fault, store, ho, hrows, hu, -, hf⟩
  · let opened := withCold { d with store } { d.queue.cold with tally, phase := .active }
    have hopen : (onCold Durable.start).on d = (.ok (), opened) := on_onCold ho
    have hk : store.Keeps d.queue.storageId.text (inTable l) := hname ▸ hk
    have hkept : Kept d opened := ⟨rfl, rfl, rfl, hu⟩
    have hfit : TableName.isReserved store.tableName = false := hu.tableName ▸ hfit
    have halive : Phase.active ≠ Phase.destroyed := by decide
    have hs : Shelved opened l :=
      { h with rows := hk.partition, alive := fun _ => ⟨hwarm, halive⟩ }
    rw [Action.on_bind_of_ok hopen]
    by_cases hp : d.queue.phase = .uninitialized
    · rw [if_pos hp]
      rcases onCold_removeTransient hs hp rfl hk with
        ⟨count, tally', store', calls, ho', hk', hu'⟩ | ⟨fault, store', ho', hm⟩
      · rw [Action.on_bind_of_ok ho']
        refine opens_of_resume ⟨rfl, rfl, rfl, hu.trans hu'⟩ rfl rfl ?_ hd rfl
          hk' (hu'.tableName ▸ hfit)
        refine { layout := layout_reopened h.layout, known := ?_, hot := ?_, rows := hk'.partition
                 named := h.named, alive := hs.alive }
        · rcases h.known with ⟨hi, hc⟩ | ⟨hn', -⟩
          · refine .inl ⟨hi, fun x hx => hc x ?_⟩
            rw [reopened, if_pos hp] at hx
            exact (List.mem_filter.1 hx).1
          · exact absurd hp hn'
        · rw [h.inMemory_reopened]
          exact h.hot
      · refine .inr ⟨fault, _, l, Action.on_bind_of_error ho', ?_, rfl, rfl,
          { hs with rows := (hk.missed hm).partition }, .inl rfl, fun _ hserving => ?_⟩
        · exact ⟨rfl, rfl, rfl, hu.trans hm.used⟩
        · exact hm.unserved (hu.link.serving hserving)
    · have hl : reopened d l = l := if_neg hp
      rw [if_neg hp]
      exact opens_of_resume hkept rfl rfl (hl.symm ▸ hs) hd rfl (hl.symm ▸ hk) hfit
  · have hopen : (onCold Durable.start).on d = (.error fault, { d with store }) := by
      rw [onCold, Action.on_focus, ho]
    refine .inr ⟨fault, { d with store }, l, Action.on_bind_of_error hopen,
      ⟨rfl, rfl, rfl, hu⟩, rfl, rfl, { h with rows := ?_ }, .inl rfl,
      fun hop => (hf hop.fit hop.counted).2⟩
    change Partition d.queue.storageId.text store.rows (inTable l)
    rw [hrows]
    exact h.rows

/-! ## Closing -/

/-- A cached queue, whatever its phase, that has a list. -/
inductive Holds (d : Desk Cached) (l : List Held) : Prop
  /-- It is active. -/
  | serving (ha : d.queue.phase = .active) (h : Stocks d l)
  /-- It is not. -/
  | resting (hn : d.queue.phase ≠ .active) (h : Shelved d l)

theorem Holds.shelved (h : Holds d l) : Shelved d l := by
  cases h with
  | serving ha h => exact h.shelved ha
  | resting hn h => exact h

theorem Holds.stocks (h : Holds d l) (ha : d.queue.phase = .active) : Stocks d l := by
  cases h with
  | serving _ h => exact h
  | resting hn _ => exact absurd ha hn

/-- The part in memory closes. -/
theorem on_hotShutdown (hw : d.queue.hot.phase ≠ .destroyed) : ∃ calls,
    (onHot Ram.shutdown).on d =
      (.ok (), { withHot d { d.queue.hot with phase := .shutdown } with calls }) := by
  have ho : ∃ calls, (Ram.shutdown).on ⟨d.queue.hot, d.store, d.calls⟩ =
      (.ok (), ⟨{ d.queue.hot with phase := .shutdown }, d.store, calls⟩) := by
    simp only [Ram.shutdown, Action.on_bind, on_theQueue, if_neg hw, on_changeQueue, on_announce,
      Ram.closed]
    exact ⟨_, rfl⟩
  obtain ⟨calls, ho⟩ := ho
  exact ⟨calls, on_onHot ho⟩

/-- The part in the table closes. -/
theorem on_coldShutdown (d : Desk Cached) : ∃ phase calls, (onCold Durable.shutdown).on d =
      (.ok (), { withCold d { d.queue.cold with phase } with calls }) ∧
    (d.queue.cold.phase ≠ .destroyed → phase ≠ .destroyed) := by
  obtain ⟨calls, ho⟩ := Durable.shutdown_on ⟨d.queue.cold, d.store, d.calls⟩
  exact ⟨_, calls, on_onCold ho, fun hn hd => hn (Phase.closed_eq_destroyed_iff.1 hd)⟩

/-- The last part of a closing, once what was held back is written. -/
def closing : Action (Desk Cached) Unit := do
  onHot Ram.shutdown
  let outcome ← (onCold Durable.shutdown).attempt
  changeQueue fun q => { q with phase := .shutdown }
  announce true
  Action.require outcome

/-- Closing both parts keeps the list. -/
theorem closing_on (h : Shelved d l) (hd : d.queue.phase ≠ .destroyed) :
    ∃ d', closing.on d = (.ok (), d') ∧ Kept d d' ∧ Shelved d' l ∧ d'.queue.phase = .shutdown ∧
      d'.queue.index = d.queue.index ∧ d'.store = d.store := by
  obtain ⟨hwarm, hcold⟩ := h.alive hd
  obtain ⟨calls, hhot⟩ := on_hotShutdown hwarm
  obtain ⟨phase, calls', ho, hphase⟩ := on_coldShutdown
    { withHot d { d.queue.hot with phase := .shutdown } with calls }
  have hattempt := Action.on_attempt_of ho
  refine ⟨_, (Action.on_bind_of_ok hhot).trans ((Action.on_bind_of_ok hattempt).trans rfl),
    ⟨rfl, rfl, rfl, .refl _⟩, ?_, rfl, rfl, rfl⟩
  refine { layout := h.layout, known := ?_, hot := h.hot, rows := h.rows, named := h.named
           alive := fun _ => ⟨nofun, hphase hcold⟩ }
  exact h.known.imp_right fun ⟨_, hi⟩ => ⟨nofun, hi⟩

/-- Closing an active queue keeps what it has. What was held back is written first, unless the
database cannot be used; the closing succeeds either way. -/
theorem shutdown_active (h : Stocks d l) (ha : d.queue.phase = .active) :
    ∃ d' m, shutdown.on d = (.ok (), d') ∧ Kept d d' ∧ Shelved d' m ∧
      d'.queue.phase = .shutdown ∧ d'.queue.index.Lists (m.map resident) ∧
      d'.store.table.isSome = true ∧
      ((flush.on d).1 = .ok () ∧ m = flushed l ∨
        (flush.on d).1.isOk = false ∧ m = l ∧ ¬ d.store.link.Serving) := by
  have hbegin : ∀ {outcome : Except Fault Unit} {e : Desk Cached}, flush.on d = (outcome, e) →
      shutdown.on d = closing.on e := by
    intro outcome e hf
    rw [shutdown, Action.on_bind_of_ok (on_theQueue d), ha]
    exact Action.on_bind_of_ok (Action.on_attempt_of hf)
  have close : ∀ {e : Desk Cached} {m : List Held}, Steady d e → Stocks e m →
      ∃ d', closing.on e = (.ok (), d') ∧ Kept d d' ∧ Shelved d' m ∧ d'.queue.phase = .shutdown ∧
        d'.queue.index.Lists (m.map resident) ∧ d'.store.table.isSome = true := by
    intro e m hst hs
    have he : e.queue.phase = .active := hst.phase.trans ha
    obtain ⟨d', ho, hk, hs', hphase, hi, hstore⟩ := closing_on (hs.shelved he) (by rw [he]; nofun)
    obtain ⟨rows, ht, -⟩ := hs.rows
    exact ⟨d', ho, hst.kept.trans hk, hs', hphase, hi ▸ hs.index, by rw [hstore, ht]; rfl⟩
  rcases flush_on h with ⟨e, hf, hst, hs⟩ | ⟨fault, store, hf, hm⟩
  · obtain ⟨d', ho, hk, hs', hphase, hi, hmade⟩ := close hst hs
    exact ⟨d', _, (hbegin hf).trans ho, hk, hs', hphase, hi, hmade, .inl ⟨by rw [hf], rfl⟩⟩
  · obtain ⟨d', ho, hk, hs', hphase, hi, hmade⟩ := close (steady_missed hm) (h.missed hm)
    exact ⟨d', l, (hbegin hf).trans ho, hk, hs', hphase, hi, hmade,
      .inr ⟨by rw [hf]; rfl, rfl, hm.unserved⟩⟩

/-- Closing a queue keeps what it has, and may write what was held back. -/
theorem shutdown_on (h : Holds d l) : ∃ d' m, shutdown.on d = (.ok (), d') ∧ Kept d d' ∧
    Holds d' m ∧ (m = l ∨ m = flushed l) ∧
    d'.queue.phase = d.queue.phase.closed ∧
    (d.queue.index.Lists (l.map resident) → d'.queue.index.Lists (m.map resident)) ∧
    (d.store.table.isSome = true → d'.store.table.isSome = true) := by
  cases hp : d.queue.phase with
  | shutdown | destroyed =>
    have ho : shutdown.on d = (.ok (), d) := by
      rw [shutdown, Action.on_bind_of_ok (on_theQueue d), hp]
      rfl
    exact ⟨d, l, ho, .refl d, h, .inl rfl, hp, id, id⟩
  | uninitialized =>
    obtain ⟨d', ho, hk, hs, hphase, hi, hst⟩ := closing_on h.shelved (by rw [hp]; nofun)
    refine ⟨d', l, ?_, hk, .resting (by rw [hphase]; nofun) hs, .inl rfl, hphase, ?_, ?_⟩
    · rw [shutdown, Action.on_bind_of_ok (on_theQueue d), hp]
      exact ho
    · rw [hi]
      exact id
    · rw [hst]
      exact id
  | active =>
    obtain ⟨d', m, ho, hk, hs, hphase, hi, hmade, hm⟩ := shutdown_active (h.stocks hp) hp
    refine ⟨d', m, ho, hk, .resting (by rw [hphase]; nofun) hs, ?_, hphase, fun _ => hi,
      fun _ => hmade⟩
    rcases hm with ⟨-, rfl⟩ | ⟨-, rfl, -⟩
    · exact .inr rfl
    · exact .inl rfl

/-- The part in memory gives up all it has. -/
theorem on_hotDestroy (d : Desk Cached) : ∃ calls,
    (onHot Ram.destroy).on d = (.ok (), { withHot d d.queue.hot.destroyed with calls }) := by
  have ho : ∃ calls, (Ram.destroy).on ⟨d.queue.hot, d.store, d.calls⟩ =
      (.ok (), ⟨d.queue.hot.destroyed, d.store, calls⟩) := by
    simp only [Ram.destroy, Action.on_bind, on_changeQueue, on_announce]
    exact ⟨_, rfl⟩
  obtain ⟨calls, ho⟩ := ho
  exact ⟨calls, on_onHot ho⟩

/-- Destroying a queue gives up what it has in memory, and its rows unless the database cannot be
used. -/
theorem destroy_on (h : Holds d l) (hd : d.queue.phase ≠ .destroyed) :
    ∃ outcome d' m, destroy.on d = (outcome, d') ∧ Kept d d' ∧ Holds d' m ∧
      (outcome = .ok () ∧ m = [] ∨ ∃ fault, outcome = .error fault ∧
        m = (inTable l).map Held.row ∧
        (d.store.table.isSome = true → fault.isRetryable = true ∧ ¬ d.store.link.Serving)) ∧
      d'.queue.phase = .destroyed ∧ d'.queue.index = {} ∧
      (d.store.table.isSome = true → d'.store.table.isSome = true) := by
  have hs := h.shelved
  have hname : d.queue.cold.name = d.queue.storageId.text := congrArg StorageId.text hs.named
  obtain ⟨hwarm, hcold⟩ := hs.alive hd
  obtain ⟨calls, hhot⟩ := on_hotDestroy d
  let emptied : Desk Cached := { withHot d d.queue.hot.destroyed with calls }
  have hfinish : ∀ {outcome : Except Fault Unit} {e : Desk Cached},
      (onCold Durable.destroy).on emptied = (outcome, e) →
      destroy.on d = (outcome, { e with
        queue := { e.queue with index := {}, phase := .destroyed }
        calls := e.calls ++
          announcement { e.queue with index := {}, phase := .destroyed } true }) := by
    intro outcome e ho
    rw [destroy, Action.on_bind_of_ok (on_theQueue d), if_neg hd, Action.on_bind_of_ok hhot,
      Action.on_bind_of_ok (Action.on_attempt_of ho)]
    rfl
  rcases Durable.destroy_cases (d := ⟨d.queue.cold, d.store, calls⟩) hcold
      (l := inTable l) (hname.symm ▸ hs.rows) with
    ⟨store, calls', ho, hk, hu⟩ | ⟨fault, store, ho, ht, hu, hf⟩
  · have hcold : (onCold Durable.destroy).on emptied = (.ok (), { withCold emptied
        { d.queue.cold with phase := .destroyed, tally := .zero } with store, calls := calls' }) :=
      on_onCold (d := emptied) ho
    refine ⟨.ok (), _, [], hfinish hcold, ⟨rfl, rfl, rfl, hu⟩, .resting nofun ?_, .inl ⟨rfl, rfl⟩,
      rfl, rfl, fun _ => ?_⟩
    · exact ⟨.nil _, .inl ⟨rfl, by simp⟩, .empty, hname ▸ hk.partition, hs.named,
        fun hn => absurd rfl hn⟩
    · obtain ⟨rows, ht, -⟩ := hk
      exact Option.isSome_iff_exists.2 ⟨rows, ht⟩
  · have hcold : (onCold Durable.destroy).on emptied = (.error fault, { emptied with store }) :=
      on_onCold (d := emptied) ho
    have ho := ordered_inTable hs.layout.order
    refine ⟨.error fault, _, (inTable l).map Held.row, hfinish hcold, ⟨rfl, rfl, rfl, hu⟩,
      .resting nofun ?_,
      .inr ⟨fault, rfl, rfl, fun hmade => ⟨(hf hmade).retryable, (hf hmade).unserved⟩⟩, rfl, rfl,
      fun hm => ht.symm ▸ hm⟩
    refine ⟨Layout.row _ ho, .inl ⟨rfl, cold_row _⟩, ?_, ?_, hs.named, fun hn => absurd rfl hn⟩
    · rw [inMemory_of_cold (cold_row _)]
      exact .empty
    · rw [inTable_row]
      change Partition d.queue.storageId.text store.rows (inTable l)
      rw [Store.rows, ht]
      exact hs.rows

/-! ## Catching up -/

/-- A notification that the database is there again keeps what is held. If what was held back is
written, memory is refilled as far as the table gives what may be promoted. -/
theorem catchUp_on (h : Stocks d l) (ha : d.queue.phase = .active) :
    ∃ d' m, catchUp.on d = (.ok (), d') ∧ Steady d d' ∧ Stocks d' m ∧
      m.map Held.entry = l.map Held.entry ∧
      ((flush.on d).1 = .ok () →
        SameRows (flushed l) m ∧ (Fed (flush.on d).2 → Filled d')) := by
  rw [catchUp, Action.on_bind_of_ok (on_theQueue d), if_pos ha]
  rcases flush_on h with ⟨e, hf, hst, hs⟩ | ⟨fault, store, hf, hm⟩
  · obtain ⟨d', m, ho, hst', hs', hsame, hfull⟩ := promote_on hs
    refine ⟨d', m, (Action.on_bind_of_ok (Action.on_attempt_of hf)).trans ho, hst.trans hst', hs',
      hsame.entries.trans (entries_flushed l), fun _ => ⟨hsame, ?_⟩⟩
    rwa [hf]
  · refine ⟨_, l, (Action.on_bind_of_ok (Action.on_attempt_of hf)).trans rfl, steady_missed hm,
      h.missed hm, rfl, fun hwritten => ?_⟩
    rw [hf] at hwritten
    cases hwritten

/-- A queue that is not active lets a notification pass. -/
theorem catchUp_inactive (hn : d.queue.phase ≠ .active) : catchUp.on d = (.ok (), d) := by
  rw [catchUp, Action.on_bind_of_ok (on_theQueue d), if_neg hn]
  rfl

end Spillway.Cached
