import Spillway.Proofs.Histories

/-!
# Index, memory and table agree

What the parts of an active cached queue know about each other, whatever its history: the index is
the whole queue in order, its hot entries are exactly what memory has, they come first and keep
within the cache bounds, the entries that it believes stored are exactly the rows of the queue, and
its totals are exact.
-/

namespace Spillway.Cached

open Desk Held

/-- The slots that the rows of a queue in the table describe. -/
def rowSlots (d : Desk Cached) : List (Except Refusal Slot) :=
  (Statement.rowsOf d.queue.storageId.text d.store.rows).map Row.readSlot

/-- The parts of a cached queue agree. -/
structure Agrees (d : Desk Cached) : Prop where
  /-- The index stands in the order of service, each id once. -/
  order : Ordered d.queue.index.items
  /-- Exactly the ids in the index have a place, and it is the key of what has the id. -/
  places : ∀ id key, d.queue.index.place? id = some key ↔
    ∃ r ∈ d.queue.index.items, idOf r = id ∧ keyOf r = key
  /-- Memory has exactly the hot entries, with their keys, sizes and flags. -/
  hot : d.queue.hot.roll.items.map Entry.slot = d.queue.hotResidents.map Resident.slot
  /-- Every hot entry is served before every cold one. -/
  front : ∀ r ∈ d.queue.index.items, ∀ c ∈ d.queue.index.items, r.isHot = true → c.isCold = true →
    keyOf r < keyOf c
  /-- Memory keeps within the cache bound on entries. -/
  entries : d.queue.hot.roll.items.length ≤ d.queue.bounds.cacheEntries
  /-- Memory keeps within the cache bound on bytes. -/
  bytes : (d.queue.hot.roll.items.map chargeOf).sum ≤ d.queue.bounds.cacheBytes
  /-- Every cold entry is believed stored. -/
  cold : ∀ r ∈ d.queue.index.items, r.isCold = true → r.stored = true
  /-- The rows of the queue are exactly the entries believed stored, each once. -/
  rows : (rowSlots d).Perm
    ((d.queue.index.items.filter (·.stored)).map fun r => .ok r.slot)
  /-- The totals of the index are exact. -/
  tally : d.queue.index.tally = Tally.total d.queue.index.items
  /-- The totals of memory are exact. -/
  warm : d.queue.hot.roll.tally = Tally.total d.queue.hot.roll.items

variable {d : Desk Cached} {l : List Held}

/-- What the rows of a partition describe. -/
theorem rowSlots_perm {es : List Entry}
    (h : Partition d.queue.storageId.text d.store.rows es) :
    (rowSlots d).Perm (es.map fun e => .ok e.slot) := by
  obtain ⟨written, hp, hw⟩ := h.rows
  rw [rowSlots, hw, List.map_map]
  refine List.Perm.trans (.of_eq ?_) (hp.map _)
  exact List.map_congr_left fun e _ => Row.readSlot_ofEntry _ e

/-- The parts of a queue that has a list agree. -/
theorem Stocks.agrees (h : Stocks d l) : Agrees d := by
  have hi : d.queue.index.items = l.map resident := h.index.items
  have hm : d.queue.hot.roll.items = (l.filter isHot).map Held.entry := h.hot.items
  refine
    { order := hi ▸ ordered_residents.2 h.layout.order
      places := fun id key => ?_
      hot := ?_
      front := ?_
      entries := ?_
      bytes := ?_
      cold := ?_
      rows := ?_
      tally := by rw [h.index.tally, hi]
      warm := by rw [h.hot.tally, h.hot.items] }
  · rw [hi]
    exact h.index.place?_eq_some_iff
  · rw [hm, hotResidents_eq h, List.map_map, List.map_map]
    rfl
  · intro r hr c hc hh hcold
    rw [hi] at hr hc
    obtain ⟨x, hx, rfl⟩ := List.mem_map.1 hr
    obtain ⟨y, hy, rfl⟩ := List.mem_map.1 hc
    have hcold : y.isCold = true := hcold
    rw [isCold_eq, Bool.not_eq_true'] at hcold
    exact h.layout.front x hx y hy hh hcold
  · rw [hm, List.length_map]
    exact h.layout.entries
  · rw [hm, List.map_map]
    exact h.layout.bytes
  · intro r hr hcold
    rw [hi] at hr
    obtain ⟨x, hx, rfl⟩ := List.mem_map.1 hr
    have hcold : x.isCold = true := hcold
    rw [isCold_eq, Bool.not_eq_true'] at hcold
    exact h.layout.rows x hx hcold
  · refine (rowSlots_perm h.rows.partition).trans (.of_eq ?_)
    rw [hi, inTable, List.filter_map, List.map_map, List.map_map]
    rfl

/-- In every active queue, whatever its history, index, memory and table agree. -/
theorem agrees_of_reachable (h : Reachable d) (ha : d.queue.phase = .active) : Agrees d := by
  obtain ⟨l, hl⟩ := reachable_stocks h ha
  exact hl.agrees

/-- A queue that has one entry in memory and one in the table. -/
theorem agrees_spilt :
    let d := (serveAll [.start, .put [.blank 1 true, .blank 2 false] false] newborn).2
    (Reachable d ∧ d.queue.phase = .active) ∧ Agrees d := by
  have hr := reachable_newborn.runs
    (runs_serveAll [.start, .put [.blank 1 true, .blank 2 false] false] newborn)
  have ha : (serveAll [.start, .put [.blank 1 true, .blank 2 false] false]
      newborn).2.queue.phase = .active := by decide +kernel
  exact ⟨⟨hr, ha⟩, agrees_of_reachable hr ha⟩

end Spillway.Cached
