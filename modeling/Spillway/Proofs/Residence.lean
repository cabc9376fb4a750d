import Spillway.Proofs.Filling
import Spillway.Proofs.Rolls
import Spillway.Proofs.Stores
import Spillway.Queue.Cached

/-!
# Moving entries between memory and table

A cached queue holds a list in the layout of the cache: its index knows all of it, its part in
memory and its rows are what the layout says. The pieces of work from which the queue is built are
stated on that list. Each of them either does its part on all three, or fails for want of the
database and changes none of them.
-/

namespace Spillway.Cached

open Desk Held

/-- No entry that is in the table only fits into memory any more. -/
def Filled (d : Desk Cached) : Prop :=
  (d.queue.bounds.fill d.queue.hot.roll.tally.entries d.queue.hot.roll.tally.bytes
    d.queue.coldResidents).1 = []

/-- What no work on the contents of a cached queue changes. -/
structure Steady (d d' : Desk Cached) : Prop where
  /-- Its name. -/
  storageId : d'.queue.storageId = d.queue.storageId
  /-- Its bounds. -/
  bounds : d'.queue.bounds = d.queue.bounds
  /-- Its phase. -/
  phase : d'.queue.phase = d.queue.phase
  /-- Its hooks. -/
  hooks : d'.queue.hooks = d.queue.hooks
  /-- The store, the rows aside. -/
  used : d.store.Used d'.store
  /-- As long as the link serves, full memory stays full. -/
  filled : d.store.link.Serving → Filled d → Filled d'

/-- A cached queue at work whose index, memory and rows agree on what it holds. -/
structure Stocks (d : Desk Cached) (l : List Held) : Prop where
  /-- The list is laid out within the bounds. -/
  layout : Layout d.queue.bounds l
  /-- The index knows all of it. -/
  index : d.queue.index.Lists (l.map resident)
  /-- Memory has its first entries. -/
  hot : d.queue.hot.roll.Lists (inMemory l)
  /-- The table has exactly the rows that the index knows. -/
  rows : d.store.Keeps d.queue.storageId.text (inTable l)
  /-- The part in the table goes by the name of the queue. -/
  named : d.queue.cold.storageId = d.queue.storageId
  /-- The part in memory is active. -/
  warm : d.queue.hot.phase = .active
  /-- The part in the table is active. -/
  cold : d.queue.cold.phase = .active
  /-- The table can have its name. -/
  fit : TableName.isReserved d.store.tableName = false

variable {α : Type} {d : Desk Cached} {l : List Held}

/-- Where nothing happens a queue is where it is. -/
theorem Steady.refl (d : Desk Cached) : Steady d d := ⟨rfl, rfl, rfl, rfl, .refl _, fun _ => id⟩

/-- So it is where one such thing happens after another. -/
theorem Steady.trans {d d' d'' : Desk Cached} (h : Steady d d') (h' : Steady d' d'') :
    Steady d d'' :=
  ⟨h'.storageId.trans h.storageId, h'.bounds.trans h.bounds, h'.phase.trans h.phase,
    h'.hooks.trans h.hooks, h.used.trans h'.used,
    fun hs hf => h'.filled (h.used.link.serving hs) (h.filled hs hf)⟩

/-! ## Work in the table -/

/-- The desk after work in the table. -/
def withTable (d : Desk Cached) (tally : Tally) (store : Store) (calls : List Call) : Desk Cached :=
  { queue := { d.queue with cold := { d.queue.cold with tally } }, store, calls }

/-- The desk with another part in the table. -/
def withCold (d : Desk Cached) (cold : Durable) : Desk Cached :=
  { d with queue := { d.queue with cold } }

/-- The desk with another part in memory. -/
def withHot (d : Desk Cached) (hot : Ram) : Desk Cached := { d with queue := { d.queue with hot } }

/-- The desk with another index. -/
def withIndex (d : Desk Cached) (index : Roll Resident) : Desk Cached :=
  { d with queue := { d.queue with index } }

/-- The desk with other counts. -/
def withTotals (d : Desk Cached) (totals : Totals) : Desk Cached :=
  { d with store := { d.store with totals } }

/-- To change the index changes nothing else, and never fails. -/
theorem on_reindex (change : Roll Resident → Roll Resident) (d : Desk Cached) :
    (reindex change).on d = (.ok (), withIndex d (change d.queue.index)) := rfl

/-- To keep entries in memory changes memory alone. -/
theorem on_heat (entries : List Entry) (d : Desk Cached) :
    (heat entries).on d = (.ok (), withHot d (d.queue.hot.holding entries)) := rfl

/-- To let entries go gives those that were there. -/
theorem on_cool (ids : List UInt64) (d : Desk Cached) :
    (cool ids).on d =
      (.ok (d.queue.hot.releasing ids).1, withHot d (d.queue.hot.releasing ids).2) := rfl

/-- To count an event changes the totals of the store alone. -/
theorem on_counting (change : Totals → Totals) (d : Desk Cached) :
    (count change).on d = (.ok (), withTotals d (change d.store.totals)) := rfl

/-- Work in the table, seen from the cached queue. -/
theorem on_onCold {act : Action (Desk Durable) α} {outcome : Except Fault α} {e : Desk Durable}
    (h : act.on ⟨d.queue.cold, d.store, d.calls⟩ = (outcome, e)) : (onCold act).on d =
      (outcome, { withCold d e.queue with store := e.store, calls := e.calls }) := by
  rw [onCold, Action.on_focus, h]
  rfl

/-- Work in memory, seen from the cached queue. -/
theorem on_onHot {act : Action (Desk Ram) α} {outcome : Except Fault α} {e : Desk Ram}
    (h : act.on ⟨d.queue.hot, d.store, d.calls⟩ = (outcome, e)) : (onHot act).on d =
      (outcome, { withHot d e.queue with store := e.store, calls := e.calls }) := by
  rw [onHot, Action.on_focus, h]
  rfl

/-- Work in the table leaves the queue where it is in its life. -/
theorem steady_withTable {tally : Tally} {store : Store} {calls : List Call}
    (h : d.store.Used store) : Steady d (withTable d tally store calls) :=
  ⟨rfl, rfl, rfl, rfl, h, fun _ => id⟩

/-- So does a call that the database failed. -/
theorem steady_missed {fault : Fault} {store : Store} (h : d.store.Missed fault store) :
    Steady d { d with store } := ⟨rfl, rfl, rfl, rfl, h.used, fun _ => id⟩

/-- A failure for want of the database changes nothing that is held. -/
theorem Stocks.missed (h : Stocks d l) {fault : Fault} {store : Store}
    (hm : d.store.Missed fault store) : Stocks { d with store } l :=
  { h with rows := h.rows.missed hm, fit := hm.used.tableName ▸ h.fit }

/-- What comes of work in the table, seen from the cached queue. -/
theorem onCold_cases {act : Action (Desk Durable) α} {result : α → Prop}
    {before after : List Entry} (h : Durable.Works ⟨d.queue.cold, d.store, d.calls⟩ before
      (act.on ⟨d.queue.cold, d.store, d.calls⟩) result after) :
    (∃ a tally store calls, (onCold act).on d = (.ok a, withTable d tally store calls) ∧ result a ∧
      store.Keeps d.queue.cold.storageId.text after ∧ d.store.Used store) ∨
    ∃ fault store, (onCold act).on d = (.error fault, { d with store }) ∧
      d.store.Missed fault store := by
  rcases h with ⟨a, tally, store, calls, ho, hr, -, hk, hu⟩ | ⟨fault, store, ho, hm⟩
  · exact .inl ⟨a, tally, store, calls, on_onCold ho, hr, hk, hu⟩
  · exact .inr ⟨fault, store, on_onCold ho, hm⟩

/-- The rows under the name of the part in the table are those of the queue. -/
theorem Stocks.cold_rows (h : Stocks d l) : d.store.Keeps d.queue.cold.name (inTable l) := by
  have hn : d.queue.cold.name = d.queue.storageId.text := congrArg StorageId.text h.named
  exact hn.symm ▸ h.rows

/-! ## What the parts know -/

/-- The index knows what is in memory. -/
theorem hotResidents_eq (h : Stocks d l) :
    d.queue.hotResidents = (l.filter isHot).map resident := by
  rw [hotResidents, h.index.items, List.filter_map]
  rfl

/-- It knows what is in the table only. -/
theorem coldResidents_eq (h : Stocks d l) :
    d.queue.coldResidents = (l.filter isCold).map resident := by
  rw [coldResidents, h.index.items, List.filter_map]
  rfl

/-- It knows whose rows are held back. -/
theorem pending_eq (h : Stocks d l) :
    d.queue.pending = (l.filter isPending).map idOf := by
  rw [pending, h.index.items, List.filter_map, List.map_map]
  rfl

/-- An index of all that is held has the totals of its entries. -/
theorem tally_of_lists {index : Roll Resident} (h : index.Lists (l.map resident)) :
    index.tally = Tally.total (l.map Held.entry) := by
  rw [h.tally, Tally.total_map (f := resident) fun _ _ => rfl,
    Tally.total_map (f := Held.entry) fun _ _ => rfl]

/-- The totals of memory are those of what is kept there. -/
theorem hot_tally_eq (h : Stocks d l) :
    d.queue.hot.roll.tally.entries = (l.filter isHot).length ∧
      d.queue.hot.roll.tally.bytes = ((l.filter isHot).map chargeOf).sum := by
  rw [h.hot.tally, Tally.total_entries, Tally.total_bytes, inMemory, List.length_map, List.map_map]
  exact ⟨rfl, rfl⟩

/-! ## Promotion -/

/-- A change under some ids changes what the index knows under these. -/
theorem resident_onIds {ids : List UInt64} {f : Held → Held} {g : Resident → Resident}
    (hf : ∀ x, (f x).resident = g x.resident) (l : List Held) :
    (l.map (onIds ids f)).map resident =
      (l.map resident).map fun r => if idOf r ∈ ids then g r else r := by
  rw [List.map_map, List.map_map]
  refine List.map_congr_left fun x _ => ?_
  change (onIds ids f x).resident = if x.entry.id ∈ ids then g x.resident else x.resident
  unfold onIds
  split
  · exact hf x
  · rfl

/-- The ids of the entries in the table that may be promoted. -/
def wanted (q : Cached) : List UInt64 :=
  (q.bounds.fill q.hot.roll.tally.entries q.hot.roll.tally.bytes q.coldResidents).1.map idOf

/-- The table gives what may be promoted. -/
def Fed (d : Desk Cached) : Prop :=
  ((onCold (Durable.peekIds d.queue.wanted)).on d).1.isOk = true

/-- What may be promoted, as the queue computes it. -/
theorem promotable_eq (h : Stocks d l) :
    (d.queue.bounds.fill d.queue.hot.roll.tally.entries d.queue.hot.roll.tally.bytes
      d.queue.coldResidents).1.map idOf = promotable d.queue.bounds l := by
  rw [(hot_tally_eq h).1, (hot_tally_eq h).2, coldResidents_eq h,
    d.queue.bounds.fill_map (f := resident) (fun _ => rfl), List.map_map]
  rfl

/-- Memory is full if the list says so. -/
theorem filled_iff (h : Stocks d l) : Filled d ↔ Brimful d.queue.bounds l := by
  rw [brimful_iff, ← promotable_eq h, List.map_eq_nil_iff]
  rfl

/-- Work that leaves full memory full, seen from what is held before and after it. -/
theorem Stocks.steady (h : Stocks d l) {d' : Desk Cached} {m : List Held}
    (hid : d'.queue.storageId = d.queue.storageId) (hb : d'.queue.bounds = d.queue.bounds)
    (hp : d'.queue.phase = d.queue.phase) (hh : d'.queue.hooks = d.queue.hooks)
    (hu : d.store.Used d'.store)
    (hfull : Brimful d.queue.bounds l → Brimful d.queue.bounds m) (hs : Stocks d' m) :
    Steady d d' ∧ Stocks d' m := by
  refine ⟨⟨hid, hb, hp, hh, hu, fun _ hf => ?_⟩, hs⟩
  rw [filled_iff hs, hb]
  exact hfull ((filled_iff h).1 hf)

/-- The entries that may be promoted, as they are read from the table. -/
theorem mem_promoted (h : Stocks d l) {e : Entry} :
    (e ∈ (inTable l).filter fun e => decide (e.id ∈ promotable d.queue.bounds l)) ↔
      ∃ x ∈ l, x.isHot = false ∧ x.entry.id ∈ promotable d.queue.bounds l ∧ x.entry = e := by
  simp only [inTable, List.mem_filter, List.mem_map, decide_eq_true_eq]
  constructor
  · rintro ⟨⟨x, ⟨hx, -⟩, rfl⟩, hid⟩
    obtain ⟨y, hy, hc, he⟩ := exists_of_promotable hid
    have hxy : x = y := h.layout.order.eq_of_id hx hy he.symm
    exact ⟨x, hx, hxy ▸ hc, hid, rfl⟩
  · rintro ⟨x, hx, hc, hid, rfl⟩
    exact ⟨⟨x, ⟨hx, h.layout.rows x hx hc⟩, rfl⟩, hid⟩

/-- The index once what was read from the table is heated. -/
theorem index_promoted (h : Stocks d l) :
    ((promotable d.queue.bounds l).foldl (fun index id =>
      if ((inTable l).filter fun e => decide (e.id ∈ promotable d.queue.bounds l)).any
          fun e => decide (e.id = id)
      then index.update id Resident.heated else (index.takeIds [id]).2) d.queue.index).Lists
      ((l.map (onIds (promotable d.queue.bounds l) heated)).map resident) := by
  have hfound : ∀ id ∈ promotable d.queue.bounds l,
      (((inTable l).filter fun e => decide (e.id ∈ promotable d.queue.bounds l)).any
        fun e => decide (e.id = id)) = true := by
    intro id hid
    obtain ⟨x, hx, hc, rfl⟩ := exists_of_promotable hid
    exact List.any_eq_true.2 ⟨x.entry, (mem_promoted h).2 ⟨x, hx, hc, hid, rfl⟩, decide_eq_true rfl⟩
  rw [resident_onIds (g := Resident.heated) fun _ => rfl]
  refine cast (congrArg (Roll.Lists · _) (List.foldl_ext _ _ _ fun index id hid => ?_).symm)
    (h.index.updateAll (f := Resident.heated) (fun _ => rfl) (fun _ => rfl) _)
  rw [if_pos (hfound id hid)]

/-- Memory once what was read from the table is added. -/
theorem hot_promoted (h : Stocks d l) :
    (d.queue.hot.holding ((inTable l).filter fun e =>
      decide (e.id ∈ promotable d.queue.bounds l))).roll.Lists
      (inMemory (l.map (onIds (promotable d.queue.bounds l) heated))) := by
  have hentry : ∀ x, (onIds (promotable d.queue.bounds l) heated x).entry = x.entry :=
    entry_onIds fun _ => rfl
  refine h.hot.insertAll_new ?_ ?_ (ordered_inMemory h.layout.heat.order) fun e => ?_
  · exact ((ordered_inTable h.layout.order).filter _).unique
  · intro e he f hf hid
    obtain ⟨x, hx, hc, -, rfl⟩ := (mem_promoted h).1 he
    obtain ⟨y, hy, rfl⟩ := List.mem_map.1 hf
    rw [List.mem_filter] at hy
    rw [h.layout.order.eq_of_id hy.1 hx hid, hc] at hy
    exact absurd hy.2 Bool.false_ne_true
  · rw [mem_promoted h]
    simp only [inMemory, List.mem_map, List.mem_filter]
    constructor
    · rintro ⟨y, ⟨⟨x, hx, rfl⟩, hh⟩, rfl⟩
      rw [hentry]
      cases hc : x.isHot with
      | true => exact .inl ⟨x, ⟨hx, hc⟩, rfl⟩
      | false =>
        rw [isHot_heated, hc, Bool.false_or, decide_eq_true_eq] at hh
        exact .inr ⟨x, hx, hc, hh, rfl⟩
    · rintro (⟨x, ⟨hx, hc⟩, rfl⟩ | ⟨x, hx, -, hid, rfl⟩)
      · refine ⟨_, ⟨⟨x, hx, rfl⟩, ?_⟩, hentry x⟩
        rw [isHot_heated, hc, Bool.true_or]
      · refine ⟨_, ⟨⟨x, hx, rfl⟩, ?_⟩, hentry x⟩
        rw [isHot_heated, decide_eq_true hid, Bool.or_true]

/-- Reading what may be promoted gives it, or fails for want of the database. -/
theorem wanted_on (h : Stocks d l) : (∃ tally store calls,
      (onCold (Durable.peekIds (promotable d.queue.bounds l))).on d =
        (.ok ((inTable l).filter fun e => decide (e.id ∈ promotable d.queue.bounds l)),
          withTable d tally store calls) ∧
      store.Keeps d.queue.cold.storageId.text (inTable l) ∧ d.store.Used store) ∨
    ∃ fault store, (onCold (Durable.peekIds (promotable d.queue.bounds l))).on d =
      (.error fault, { d with store }) ∧ d.store.Missed fault store := by
  rcases onCold_cases (Durable.peekIds_works h.cold h.cold_rows
    (nodup_promotable (b := d.queue.bounds) h.layout.order)) with
    ⟨entries, tally, store, calls, hc, rfl, hk, hu⟩ | hmissed
  · exact .inl ⟨tally, store, calls, hc, hk, hu⟩
  · exact .inr hmissed

/-- A link that serves gives it. -/
theorem Stocks.fed (h : Stocks d l) (hs : d.store.link.Serving) : Fed d := by
  rw [Fed, wanted, promotable_eq h]
  rcases wanted_on h with ⟨tally, store, calls, hc, -⟩ | ⟨fault, store, -, hm⟩
  · rw [hc]
    rfl
  · exact absurd hs hm.unserved

/-- Promotion copies the first cold entries into memory as far as they fit, or leaves memory short
if the table does not give them. What is held, and which rows there are, does not change. -/
theorem promote_on (h : Stocks d l) : ∃ d' m, promote.on d = (.ok (), d') ∧ Steady d d' ∧
    Stocks d' m ∧ SameRows l m ∧ (Fed d → Filled d') := by
  simp only [promote, Action.on_bind, on_theQueue, promotable_eq h]
  cases hi : (promotable d.queue.bounds l).isEmpty with
  | true =>
    have hfull := (filled_iff h).2 (brimful_iff.2 (List.isEmpty_iff.1 hi))
    refine ⟨d, l, ?_, .refl d, h, .refl l, fun _ => hfull⟩
    rw [if_pos rfl, Action.on_pure]
  | false =>
    rw [if_neg Bool.false_ne_true]
    simp only [Action.on_bind, Action.on_attempt]
    rcases wanted_on h with ⟨tally, store, calls, hc, hk, hu⟩ | ⟨fault, store, hc, hm⟩
    · rw [hc]
      simp only [Action.on_bind, heat, reindex, on_changeQueue, on_count]
      have hindex := index_promoted h
      have hhot := hot_promoted h
      have hsame := sameRows_heated (promotable d.queue.bounds l) l
      have hrows : store.Keeps d.queue.storageId.text
          (inTable (l.map (onIds (promotable d.queue.bounds l) heated))) := by
        rw [hsame.inTable, ← h.named]
        exact hk
      refine ⟨_, l.map (onIds (promotable d.queue.bounds l) heated), rfl, ?_⟩
      refine And.imp_right (fun hs => ⟨hs, hsame, fun _ => (filled_iff hs).2 ?_⟩)
        (h.steady rfl rfl rfl rfl ⟨hu.tableName, hu.link⟩ (fun _ => ?_) ?_)
      · exact h.layout.brimful_heated
      · exact h.layout.brimful_heated
      · exact ⟨h.layout.heat, hindex, hhot, hrows, h.named, h.warm, h.cold, hu.tableName ▸ h.fit⟩
    · have hunfed : ¬ Fed d := by
        rw [Fed, wanted, promotable_eq h, hc]
        exact Bool.false_ne_true
      rw [hc]
      exact ⟨_, l, rfl, steady_missed hm, h.missed hm, .refl l, fun hfed => absurd hfed hunfed⟩

/-! ## Striking out -/

/-- Letting entries in memory go. -/
theorem releasing_lists {q : Ram} {m : List Entry} (h : q.roll.Lists m) (ids : List UInt64) :
    (q.releasing ids).1 = (m.filter fun e => decide (e.id ∈ ids)) ∧
      (q.releasing ids).2.roll.Lists (m.filter fun e => !decide (e.id ∈ ids)) := by
  have hrest := h.takeIds_rest ids
  simp only [decide_not] at hrest
  exact ⟨h.order.sortByKey_eq_filter (h.takeIds_taken ids), hrest⟩

/-- The entries of a list that stand under some keys. -/
def struck (keys : List Key) (l : List Held) : List Held :=
  l.filter fun x => decide (x.entry.key ∈ keys)

/-- The entries of a list that do not. -/
def spared (keys : List Key) (l : List Held) : List Held :=
  l.filter fun x => decide (x.entry.key ∉ keys)

/-- What the index finds under some keys is what stands there. -/
theorem mem_residentsAt (h : Stocks d l) {keys : List Key} {r : Resident} :
    r ∈ d.queue.residentsAt keys ↔ ∃ x ∈ l, x.entry.key ∈ keys ∧ x.resident = r := by
  simp only [residentsAt, List.mem_filterMap, h.index.atKey?_eq_some_iff, List.mem_map]
  constructor
  · rintro ⟨key, hk, ⟨x, hx, rfl⟩, rfl⟩
    exact ⟨x, hx, hk, rfl⟩
  · rintro ⟨x, hx, hk, rfl⟩
    exact ⟨x.entry.key, hk, ⟨x, hx, rfl⟩, rfl⟩

/-- The ids under some keys, of what the index knows something about. -/
theorem mem_idsAt (h : Stocks d l) (keys : List Key) (p : Resident → Bool) {x : Held}
    (hx : x ∈ l) : x.entry.id ∈ ((d.queue.residentsAt keys).filter p).map idOf ↔
      x.entry.key ∈ keys ∧ p x.resident = true := by
  simp only [List.mem_map, List.mem_filter, mem_residentsAt h]
  constructor
  · rintro ⟨r, ⟨⟨y, hy, hk, rfl⟩, hp⟩, he⟩
    rw [← h.layout.order.eq_of_id hy hx he]
    exact ⟨hk, hp⟩
  · rintro ⟨hk, hp⟩
    exact ⟨x.resident, ⟨⟨x, hx, hk, rfl⟩, hp⟩, rfl⟩

/-- There are none exactly if the index knows it of nothing that stands under the keys. -/
theorem idsAt_eq_nil_iff (h : Stocks d l) (keys : List Key) (p : Resident → Bool) :
    ((d.queue.residentsAt keys).filter p).map idOf = [] ↔
      ∀ x ∈ struck keys l, p x.resident = false := by
  simp only [List.map_eq_nil_iff, List.filter_eq_nil_iff, mem_residentsAt h, struck,
    List.mem_filter, decide_eq_true_eq, Bool.not_eq_true]
  constructor
  · exact fun hnone x hx => hnone x.resident ⟨x, hx.1, hx.2, rfl⟩
  · rintro hnone r ⟨x, hx, hk, rfl⟩
    exact hnone x ⟨hx, hk⟩

/-- Of what the index knows something about, the ids under some keys pick what is under the keys. -/
theorem filter_idsAt (h : Stocks d l) (keys : List Key) (p : Resident → Bool) :
    (((l.filter fun x => p x.resident).map Held.entry).filter fun e =>
        decide (e.id ∈ ((d.queue.residentsAt keys).filter p).map idOf)) =
      ((struck keys l).filter fun x => p x.resident).map Held.entry ∧
    (((l.filter fun x => p x.resident).map Held.entry).filter fun e =>
        !decide (e.id ∈ ((d.queue.residentsAt keys).filter p).map idOf)) =
      ((spared keys l).filter fun x => p x.resident).map Held.entry := by
  have hmem : ∀ x ∈ l.filter fun x => p x.resident,
      (x.entry.id ∈ ((d.queue.residentsAt keys).filter p).map idOf ↔ x.entry.key ∈ keys) :=
    fun x hx => by
      rw [List.mem_filter] at hx
      rw [mem_idsAt h keys p hx.1, hx.2]
      simp
  refine ⟨?_, ?_⟩
  · rw [List.filter_map, struck,
      List.filter_comm (fun x : Held => p x.resident) fun x => decide (x.entry.key ∈ keys)]
    exact congrArg _ (List.filter_congr fun x hx => decide_eq_decide.2 (hmem x hx))
  · rw [List.filter_map, spared,
      List.filter_comm (fun x : Held => p x.resident) fun x => decide (x.entry.key ∉ keys)]
    refine congrArg _ (List.filter_congr fun x hx => ?_)
    change (!decide _) = decide _
    rw [← decide_not]
    exact decide_eq_decide.2 (not_congr (hmem x hx))

/-- What is held, once what stands under some keys is gone from all three parts. -/
theorem Stocks.spare (h : Stocks d l) {keys : List Key} (tally : Tally) {store : Store}
    (calls : List Call) {hot : Ram}
    (hk : store.Keeps d.queue.storageId.text (inTable (spared keys l)))
    (hu : d.store.Used store) (hh : hot.roll.Lists (inMemory (spared keys l)))
    (hp : hot.phase = .active) :
    Stocks (withIndex (withHot (withTable d tally store calls) hot) (d.queue.index.take keys).2)
      (spared keys l) := by
  refine ⟨h.layout.filter _, ?_, hh, hk, h.named, hp, h.cold, hu.tableName ▸ h.fit⟩
  have := h.index.take_rest keys
  rw [List.filter_map] at this
  exact this

/-- Once the rows under some keys are gone, memory and index follow. -/
theorem strike_on {β : Type} (h : Stocks d l) (keys : List Key) {tally : Tally} {store : Store}
    {calls : List Call} (hk : store.Keeps d.queue.storageId.text (inTable (spared keys l)))
    (hu : d.store.Used store) (answer : List Entry → β) :
    ∃ d' m, (do
        let taken ← cool (((d.queue.residentsAt keys).filter Resident.isHot).map idOf)
        reindex fun index => (index.take keys).2
        promote
        return answer taken : Action (Desk Cached) β).on (withTable d tally store calls) =
        (.ok (answer (inMemory (struck keys l))), d') ∧ Steady d d' ∧ Stocks d' m ∧
      SameRows (spared keys l) m := by
  have hwarm := filter_idsAt h keys Resident.isHot
  obtain ⟨htaken, hleft⟩ :=
    releasing_lists h.hot (((d.queue.residentsAt keys).filter Resident.isHot).map idOf)
  rw [show (inMemory l).filter _ = inMemory (spared keys l) from hwarm.2] at hleft
  have hspared := h.spare tally calls hk hu hleft h.warm
  obtain ⟨d', m, hp, hst, hs, hsame, hfull⟩ := promote_on hspared
  refine ⟨d', m, ?_, ?_, hs, hsame⟩
  · rw [Action.on_bind_of_ok (on_cool _ _), Action.on_bind_of_ok (on_reindex _ _)]
    refine (Action.on_bind_of_ok hp).trans ?_
    exact congrArg (fun es => (Except.ok (answer es), d')) (htaken.trans hwarm.1)
  · exact ⟨hst.storageId, hst.bounds, hst.phase, hst.hooks, hu.trans hst.used,
      fun hserving _ => hfull (hspared.fed (hu.link.serving hserving))⟩

/-- Among rows that include those under some keys, the ids of the cold entries there pick the rows
of these. -/
theorem filter_coldAt (h : Stocks d l) (keys : List Key) {p : Held → Bool}
    (hp : ∀ x, x.entry.key ∈ keys → p x = true) :
    ((inTable (l.filter p)).filter fun e =>
        decide (e.id ∈ ((d.queue.residentsAt keys).filter Resident.isCold).map idOf)) =
      ((struck keys l).filter isCold).map Held.entry := by
  simp only [inTable, struck, List.filter_map, List.filter_filter]
  refine congrArg _ (List.filter_congr fun x hx => ?_)
  have hcold : x.entry.id ∈ ((d.queue.residentsAt keys).filter Resident.isCold).map idOf ↔
      x.entry.key ∈ keys ∧ x.isCold = true := mem_idsAt h keys Resident.isCold hx
  have hstored : x.isCold = true → x.stored = true := fun hc => by
    rw [isCold_eq] at hc
    exact h.layout.rows x hx (by simpa using hc)
  have hpx := hp x
  rw [Bool.eq_iff_iff]
  simp only [Bool.and_eq_true, decide_eq_true_eq, Function.comp_apply, hcold]
  tauto

/-- What stands under some keys is what is let go from memory and the rows of the cold entries. -/
theorem struck_split (h : Stocks d l) (keys : List Key) :
    inMemory (struck keys l) ++ (inTable (struck keys l)).filter (fun e =>
        (((d.queue.residentsAt keys).filter Resident.isCold).map idOf).contains e.id) =
      (struck keys l).map Held.entry := by
  have hs : (struck keys l).filter isHot ++ (struck keys l).filter isCold = struck keys l :=
    (h.layout.filter _).split
  have hc := filter_coldAt h keys (p := fun x => decide (x.entry.key ∈ keys))
    fun x hk => decide_eq_true hk
  simp only [List.contains_eq_mem]
  rw [show (inTable (struck keys l)).filter _ = _ from hc, inMemory, ← List.map_append, hs]

/-- Taking by keys gives what stands under them, in the order of service, and leaves the others; or
there are rows among that, and it fails and changes nothing. -/
theorem takeKeys_on (h : Stocks d l) (keys : List Key) :
    (∃ d' m, (takeKeys keys).on d = (.ok ((struck keys l).map Held.entry), d') ∧ Steady d d' ∧
      Stocks d' m ∧ SameRows (spared keys l) m) ∨
    ∃ fault store, (takeKeys keys).on d = (.error fault, { d with store }) ∧
      d.store.Missed fault store ∧ ¬ ∀ x ∈ struck keys l, x.stored = false := by
  have hrows := filter_idsAt h keys (·.stored)
  rw [takeKeys, Action.on_bind_of_ok (on_theQueue d)]
  rcases onCold_cases (Durable.takeIds_works h.cold h.cold_rows
      (((d.queue.residentsAt keys).filter (·.stored)).map idOf))
    with ⟨rows, tally, store, calls, hc, rfl, hk, hu⟩ | ⟨fault, store, hc, hm⟩
  · rw [show (inTable l).filter _ = inTable (spared keys l) from hrows.2, h.named] at hk
    rw [show (inTable l).filter _ = inTable (struck keys l) from hrows.1] at hc
    obtain ⟨d', m, hp, hst, hs, hsame⟩ := strike_on h keys hk hu fun taken =>
      taken ++ (inTable (struck keys l)).filter fun e =>
        (((d.queue.residentsAt keys).filter Resident.isCold).map idOf).contains e.id
    rw [struck_split h] at hp
    exact .inl ⟨d', m, (Action.on_bind_of_ok hc).trans hp, hst, hs, hsame⟩
  · refine .inr ⟨fault, store, Action.on_bind_of_error hc, hm, fun hnone => ?_⟩
    rw [(idsAt_eq_nil_iff h keys (·.stored)).2 hnone] at hc
    cases hc

/-- Dropping by keys gives the number of what stands under them, and leaves the others; or there are
rows among that, and it fails and changes nothing. -/
theorem dropKeys_on (h : Stocks d l) (keys : List Key) :
    (∃ d' m, (dropKeys keys).on d = (.ok (struck keys l).length, d') ∧ Steady d d' ∧
      Stocks d' m ∧ SameRows (spared keys l) m) ∨
    ∃ fault store, (dropKeys keys).on d = (.error fault, { d with store }) ∧
      d.store.Missed fault store ∧ ¬ ∀ x ∈ struck keys l, x.stored = false := by
  have hrows := filter_idsAt h keys (·.stored)
  rw [dropKeys, Action.on_bind_of_ok (on_theQueue d)]
  rcases onCold_cases (Durable.deleteIds_works h.cold h.cold_rows
      (((d.queue.residentsAt keys).filter (·.stored)).map idOf))
    with ⟨slots, tally, store, calls, hc, hslots, hk, hu⟩ | ⟨fault, store, hc, hm⟩
  · rw [show (inTable l).filter _ = inTable (spared keys l) from hrows.2, h.named] at hk
    rw [show (inTable l).filter _ = inTable (struck keys l) from hrows.1] at hslots
    obtain ⟨d', m, hp, hst, hs, hsame⟩ := strike_on h keys hk hu fun taken =>
      taken.length + (slots.filter fun slot =>
        (((d.queue.residentsAt keys).filter Resident.isCold).map idOf).contains slot.key.id).length
    have hcount : (inMemory (struck keys l)).length + (slots.filter fun slot =>
        (((d.queue.residentsAt keys).filter Resident.isCold).map idOf).contains
          slot.key.id).length = (struck keys l).length := by
      have hsplit := congrArg List.length (struck_split h keys)
      rw [List.length_append, List.length_map] at hsplit
      rw [(hslots.filter _).length_eq, List.filter_map, List.length_map]
      exact hsplit
    rw [hcount] at hp
    exact .inl ⟨d', m, (Action.on_bind_of_ok hc).trans hp, hst, hs, hsame⟩
  · refine .inr ⟨fault, store, Action.on_bind_of_error hc, hm, fun hnone => ?_⟩
    rw [(idsAt_eq_nil_iff h keys (·.stored)).2 hnone] at hc
    cases hc

/-! ## Over a silent store -/

/-- What the part in the table fails for, the queue does. -/
theorem lacks_onCold {task : Task} {act : Action (Desk Durable) α}
    (h : Desk.Lacks ⟨d.queue.cold, d.store, d.calls⟩ task act) : d.Lacks task (onCold act) := by
  obtain ⟨outage, ho⟩ := h
  exact ⟨outage, by rw [onCold, Action.on_focus, ho]⟩

/-- Rows are not taken from a table that does not answer. -/
theorem lacks_takeKeys (h : Stocks d l) (hs : d.store.Silent) {keys : List Key}
    (hr : ¬ ∀ x ∈ struck keys l, x.stored = false) : d.Lacks .takeEntries (takeKeys keys) := by
  have hi := mt (idsAt_eq_nil_iff h keys (·.stored)).1 hr
  exact lacks_bind_of_ok (on_theQueue d)
    ((lacks_onCold (Durable.lacks_takeIds hs h.cold hi)).bind _)

/-- Removing by keys fails over a silent store, if one of them has a row. -/
theorem lacks_dropKeys (h : Stocks d l) (hs : d.store.Silent) {keys : List Key}
    (hr : ¬ ∀ x ∈ struck keys l, x.stored = false) : d.Lacks .deleteEntries (dropKeys keys) := by
  have hi := mt (idsAt_eq_nil_iff h keys (·.stored)).1 hr
  exact lacks_bind_of_ok (on_theQueue d)
    ((lacks_onCold (Durable.lacks_deleteIds hs h.cold hi)).bind _)

end Spillway.Cached
