import Spillway.Proofs.Residence

/-!
# Writing rows

The two occasions on which a cached queue writes rows: a put, which may hold rows back, and catching
up, which writes the rows that were held back. Either all rows are written that must be, or nothing
that is held changes.
-/

namespace Spillway.Cached

open Desk Held

variable {d : Desk Cached} {l : List Held}

/-! ## Catching up -/

/-- The ids of the entries whose rows are held back. -/
def pendingIds (l : List Held) : List UInt64 := (l.filter isPending).map idOf

/-- A list once all rows that were held back are written. -/
def flushed (l : List Held) : List Held := l.map (onIds (pendingIds l) written)

/-- What is held is pending exactly if its id is among the pending ones. -/
theorem mem_pendingIds (h : Ordered l) {x : Held} (hx : x ∈ l) :
    x.entry.id ∈ pendingIds l ↔ x.isPending = true := h.mem_filter_ids hx

/-- Nothing is held back exactly if every entry that must survive has its row. -/
theorem pendingIds_eq_nil_iff (h : Ordered l) : pendingIds l = [] ↔
    ∀ e ∈ l.map Held.entry, e.persistent = true → e ∈ inTable l := by
  have hpending : ∀ x : Held, x.isPending = (x.entry.persistent && !x.stored) := fun _ => rfl
  rw [pendingIds, List.map_eq_nil_iff, List.filter_eq_nil_iff]
  constructor
  · intro hnone e he hp
    obtain ⟨x, hx, rfl⟩ := List.mem_map.1 he
    have hstored : x.stored = true := by
      have := hnone x hx
      rw [hpending, hp] at this
      simpa using this
    exact List.mem_map_of_mem (List.mem_filter.2 ⟨hx, hstored⟩)
  · intro hall x hx hp
    rw [hpending, Bool.and_eq_true, Bool.not_eq_true'] at hp
    obtain ⟨y, hy, he⟩ := List.mem_map.1 (hall x.entry (List.mem_map_of_mem hx) hp.1)
    obtain ⟨hy, hstored⟩ := List.mem_filter.1 hy
    have hsame : y = x := h.eq_of_id hy hx (congrArg Entry.id he)
    rw [hsame, hp.2] at hstored
    cases hstored

/-- Nothing is held back exactly if the rows are those of all that must survive. -/
theorem pendingIds_eq_nil_iff_filter (h : Ordered l) : pendingIds l = [] ↔
    (inTable l).filter (·.persistent) = (l.map Held.entry).filter (·.persistent) := by
  constructor
  · intro hnone
    rw [inTable, List.filter_map, List.filter_map, List.filter_filter]
    refine congrArg _ (List.filter_congr fun x hx => ?_)
    rw [pendingIds, List.map_eq_nil_iff, List.filter_eq_nil_iff] at hnone
    have hx : ¬ (x.entry.persistent && !x.stored) = true := hnone x hx
    change (x.entry.persistent && x.stored) = x.entry.persistent
    cases hs : x.stored <;> cases hp : x.entry.persistent <;> simp [hs, hp] at hx ⊢
  · intro hall
    refine (pendingIds_eq_nil_iff h).2 fun e he hp => ?_
    have hin : e ∈ (inTable l).filter (·.persistent) := hall ▸ List.mem_filter.2 ⟨he, hp⟩
    exact (List.mem_filter.1 hin).1

/-- What must survive and is not held back is what must survive and has a row. -/
theorem filter_not_pending (h : Ordered l) : ((l.map Held.entry).filter fun e =>
    e.persistent && !(pendingIds l).contains e.id) = (inTable l).filter (·.persistent) := by
  rw [inTable, List.filter_map, List.filter_map, List.filter_filter]
  refine congrArg _ (List.filter_congr fun x hx => ?_)
  have hp : decide (x.entry.id ∈ pendingIds l) = x.isPending := by
    rw [Bool.eq_iff_iff, decide_eq_true_eq]
    exact mem_pendingIds h hx
  change (x.entry.persistent && !(pendingIds l).contains x.entry.id) =
    (x.entry.persistent && x.stored)
  rw [List.contains_eq_mem, hp]
  cases hs : x.stored <;> cases hq : x.entry.persistent <;>
    simp [isPending, resident, Resident.isPending, Entry.slot, hs, hq]

/-- Nothing is held back any more. -/
theorem pendingIds_flushed (h : Ordered l) : pendingIds (flushed l) = [] := by
  rw [pendingIds, List.map_eq_nil_iff, List.filter_eq_nil_iff]
  intro y hy
  obtain ⟨x, hx, rfl⟩ := List.mem_map.1 hy
  unfold onIds
  split
  · simp [isPending, resident, Resident.isPending, written]
  · next hn => rwa [mem_pendingIds h hx] at hn

theorem entries_flushed (l : List Held) : (flushed l).map Held.entry = l.map Held.entry := by
  rw [flushed, List.map_map]
  exact List.map_congr_left fun x _ => entry_onIds (f := written) (fun _ => rfl) x

theorem isHot_written (ids : List UInt64) (x : Held) : (onIds ids written x).isHot = x.isHot := by
  unfold onIds
  split <;> rfl

/-- Writing rows leaves memory alone. -/
theorem inMemory_flushed (l : List Held) : inMemory (flushed l) = inMemory l := by
  rw [inMemory, inMemory, flushed, List.filter_map, List.map_map]
  apply congrArg₂ _ (funext fun x => entry_onIds (f := written) (fun _ => rfl) x)
  exact List.filter_congr fun x _ => isHot_written _ x

/-- The rows that a list has once more of its entries are written. -/
theorem inTable_written (ids : List UInt64) (l : List Held) :
    (inTable (l.map (onIds ids written))).Perm
      (inTable l ++ (l.filter fun x => !x.stored && decide (x.entry.id ∈ ids)).map Held.entry) := by
  have hstored : ∀ x : Held, (onIds ids written x).stored =
      (x.stored || decide (x.entry.id ∈ ids)) := fun x => by
    unfold onIds
    split
    · next hx => simp [hx, written]
    · next hx => simp [hx]
  rw [inTable, inTable, List.filter_map, List.map_map, ← List.map_append]
  refine List.Perm.trans (.of_eq ?_) ((perm_filter_or _ _ l).symm.map _)
  apply congrArg₂ _ (funext fun x => entry_onIds (f := written) (fun _ => rfl) x)
  exact List.filter_congr fun x _ => hstored x

/-- Entries in memory without a row, picked by their ids. -/
theorem pick_rowless (h : Stocks d l) {ids : List UInt64} (hu : ids.Nodup)
    (hr : ∀ x ∈ l, x.entry.id ∈ ids → x.stored = false) :
    d.queue.hot.roll.pick ids =
      (l.filter fun x => !x.stored && decide (x.entry.id ∈ ids)).map Held.entry := by
  rw [h.hot.pick_eq hu, inMemory, List.filter_map, List.filter_filter]
  refine congrArg _ (List.filter_congr fun x hx => ?_)
  change (decide (x.entry.id ∈ ids) && x.isHot) = _
  by_cases hi : x.entry.id ∈ ids
  · have hs := hr x hx hi
    cases hh : x.isHot with
    | true => simp [hi, hs]
    | false => exact absurd ((h.layout.rows x hx hh).symm.trans hs) (by decide)
  · simp [hi]

/-- An entry without a row is not among the rows. -/
theorem not_inTable (h : Ordered l) {x : Held} (hx : x ∈ l) (hs : x.stored = false) :
    ∀ f ∈ inTable l, f.id ≠ x.entry.id := by
  intro f hf hid
  obtain ⟨y, hy, rfl⟩ := List.mem_map.1 hf
  rw [List.mem_filter] at hy
  rw [h.eq_of_id hy.1 hx hid, hs] at hy
  exact absurd hy.2 Bool.false_ne_true

/-- Writing rows keeps the layout. -/
theorem layout_flushed {b : Bounds} (h : Layout b l) : Layout b (flushed l) := by
  refine h.map (entry_onIds (f := written) fun _ => rfl) (isHot_written _) fun x hs => ?_
  · unfold onIds
    split
    · rfl
    · exact hs

theorem flushed_of_nil (h : pendingIds l = []) : flushed l = l := by
  rw [flushed, h]
  exact (List.map_congr_left fun x _ => by simp [onIds]).trans (List.map_id l)

/-- What is held back is in memory and has no row. -/
theorem pick_pending (h : Stocks d l) : d.queue.hot.roll.pick (pendingIds l) =
    (l.filter fun x => !x.stored && decide (x.entry.id ∈ pendingIds l)).map Held.entry := by
  refine pick_rowless h (h.layout.order.filter _).unique fun x hx hi => ?_
  have hp := (mem_pendingIds h.layout.order hx).1 hi
  simp only [isPending, resident, Resident.isPending, Bool.and_eq_true, Bool.not_eq_true'] at hp
  exact hp.2

/-- Catching up writes all rows that were held back, or fails and changes nothing. -/
theorem flush_on (h : Stocks d l) :
    (∃ d', flush.on d = (.ok (), d') ∧ Steady d d' ∧ Stocks d' (flushed l)) ∨
    ∃ fault store, flush.on d = (.error fault, { d with store }) ∧
      d.store.Missed fault store := by
  have hids : d.queue.pending = pendingIds l := pending_eq h
  have hlayout := layout_flushed h.layout
  rw [flush, Action.on_bind_of_ok (on_theQueue d), hids]
  dsimp only
  cases hi : (pendingIds l).isEmpty with
  | true => exact .inl ⟨d, rfl, .refl d, (flushed_of_nil (List.isEmpty_iff.1 hi)).symm ▸ h⟩
  | false =>
    rw [if_neg Bool.false_ne_true]
    have hpick := pick_pending h
    have hperm : (inTable (flushed l)).Perm
        (inTable l ++ d.queue.hot.roll.pick (pendingIds l)) :=
      hpick.symm ▸ inTable_written (pendingIds l) l
    have hnew : ∀ e ∈ d.queue.hot.roll.pick (pendingIds l), ∀ f ∈ inTable l, f.id ≠ e.id := by
      intro e he
      rw [hpick] at he
      obtain ⟨x, hx, rfl⟩ := List.mem_map.1 he
      obtain ⟨hx, hs⟩ := List.mem_filter.1 hx
      rw [Bool.and_eq_true, Bool.not_eq_true'] at hs
      exact not_inTable h.layout.order hx hs.1
    have hdistinct : ((d.queue.hot.roll.pick (pendingIds l)).map Entry.id).Nodup := by
      rw [hpick]
      exact (ordered_entries.2 (h.layout.order.filter _)).unique
    rcases onCold_cases (Durable.hold_works h.cold h.cold_rows hdistinct hnew
      (ordered_inTable hlayout.order) hperm) with
      ⟨⟨⟩, tally, store, calls, hc, -, hk, hu⟩ | ⟨fault, store, hc, hm⟩
    · refine .inl ⟨_, (Action.on_bind_of_ok hc).trans (on_reindex _ _), ?_⟩
      refine h.steady rfl rfl rfl rfl hu (fun hfull => hfull.map
        (entry_onIds (f := written) fun _ => rfl) (isHot_written _)) ?_
      refine ⟨hlayout, ?_, ?_, h.named ▸ hk, h.named, h.warm, h.cold, hu.tableName ▸ h.fit⟩
      · rw [flushed, resident_onIds (g := Resident.written) fun _ => rfl]
        exact h.index.updateAll (f := Resident.written) (fun _ => rfl) (fun _ => rfl) _
      · exact (inMemory_flushed l).symm ▸ h.hot
    · exact .inr ⟨fault, store, Action.on_bind_of_error hc, hm⟩

/-- Over a link that serves it does not fail. -/
theorem flush_of_serving (h : Stocks d l) (hs : d.store.link.Serving) :
    (flush.on d).1 = .ok () := by
  rcases flush_on h with ⟨e, hf, -, -⟩ | ⟨fault, store, -, hm⟩
  · rw [hf]
  · exact absurd hs hm.unserved

/-! ## Putting -/

/-- The ids of the entries that move out of memory. -/
def spilledIds (stay : Key → Bool) (l : List Held) : List UInt64 :=
  (l.filter fun x => x.isHot && !stay x.entry.key).map idOf

/-- What moves out of memory is what is there and may not stay. -/
theorem mem_spilledIds (h : Ordered l) {stay : Key → Bool} {x : Held} (hx : x ∈ l) :
    x.entry.id ∈ spilledIds stay l ↔ (x.isHot && !stay x.entry.key) = true := h.mem_filter_ids hx

/-- A put that writes all its rows holds no more back than before. -/
theorem pendingIds_placed (stay : Key → Bool) (l : List Held) (new : List Entry) :
    pendingIds (placed stay true l new) ⊆ pendingIds l := by
  intro id hid
  obtain ⟨x, hx, rfl⟩ := List.mem_map.1 hid
  obtain ⟨hx, hp⟩ := List.mem_filter.1 hx
  rcases mem_placed.1 hx with ⟨y, hy, rfl⟩ | ⟨e, -, rfl⟩
  · have hsame : settled stay y = y := by
      unfold settled at hp ⊢
      split
      · next hs =>
        rw [if_pos hs] at hp
        simp [isPending, resident, Resident.isPending, cooled] at hp
      · rfl
    rw [hsame] at hp ⊢
    exact List.mem_map_of_mem (List.mem_filter.2 ⟨hy, hp⟩)
  · unfold Held.fresh at hp
    split at hp <;> simp [isPending, resident, Resident.isPending, Entry.slot] at hp

/-- What comes before the first cold key lies ahead of all that is cold. -/
theorem firstCold?_all (h : Stocks d l) (key : Key) :
    d.queue.firstCold?.all (key < ·) = liesAhead l key := by
  rw [firstCold?, coldResidents_eq h, List.head?_map, Option.map_map]
  rfl

/-- A put divides its batch and what is in memory along one line. -/
theorem divide_eq (h : Stocks d l) (new : List Entry) :
    (d.queue.divide new).keep = new.filter (stays d.queue.bounds l new ·.key) ∧
    (d.queue.divide new).place.Perm (new.filter (!stays d.queue.bounds l new ·.key)) ∧
    (d.queue.divide new).spill =
      (l.filter fun x => x.isHot && !stays d.queue.bounds l new x.entry.key).map resident := by
  have hahead : ∀ x ∈ l, x.isHot = true → liesAhead l x.entry.key = true := fun x hx hh =>
    (liesAhead_iff h.layout.order).2 fun c hc hcold => h.layout.front x hx c hc hh hcold
  have hslots : d.queue.hotResidents.map Resident.slot = (l.filter isHot).map Slotted.slot := by
    rw [hotResidents_eq h, List.map_map]
    rfl
  simp only [divide, List.partition_eq_filter_filter, firstCold?_all h, hslots]
  rw [hotResidents_eq h]
  refine ⟨?_, ?_, ?_⟩
  · rw [List.filter_filter]
    exact List.filter_congr fun e _ => Bool.and_comm ..
  · rw [List.filter_filter]
    refine List.Perm.trans ?_ ((perm_filter_or (fun e : Entry => !liesAhead l e.key) (fun e =>
      !liesBefore (d.queue.bounds.fill 0 0 (sortByKey ((l.filter isHot).map Slotted.slot ++
        (new.filter (liesAhead l ·.key)).map Entry.slot))).2 e.key) new).trans (.of_eq ?_))
    · refine List.Perm.append (.refl _) (.of_eq (List.filter_congr fun e _ => ?_))
      rw [Bool.not_not, Bool.and_comm]
      rfl
    · exact List.filter_congr fun e _ => (Bool.not_and ..).symm
  · rw [List.filter_map, List.filter_filter]
    refine congrArg _ (List.filter_congr fun x hx => ?_)
    cases hh : x.isHot with
    | false => simp
    | true =>
      simp only [stays, hahead x hx hh, Bool.true_and, Bool.and_true]
      rfl

/-- What `writeRows` says of the rows that it wrote. -/
theorem writeRows_on (h : Stocks d l) {needed wanted m : List Entry}
    (hu : ((needed ++ wanted).map Entry.id).Nodup)
    (hd : ∀ e ∈ needed ++ wanted, ∀ f ∈ inTable l, f.id ≠ e.id) (ho : Ordered m)
    (hm : m.Perm (inTable l ++ (needed ++ wanted))) :
    (∃ tally store calls, (writeRows needed wanted).on d =
        (.ok true, withTable d tally store calls) ∧
      store.Keeps d.queue.storageId.text m ∧ d.store.Used store ∧
      (d.store.Silent → needed ++ wanted = [])) ∨
    (∃ fault store totals, (writeRows needed wanted).on d =
        (.ok false, withTotals { d with store } totals) ∧ needed = [] ∧
      d.store.Missed fault store) ∨
    ∃ fault store, (writeRows needed wanted).on d = (.error fault, { d with store }) ∧
      d.store.Missed fault store ∧ needed ≠ [] := by
  have hwritten : ∀ {d' : Desk Cached},
      (onCold (Durable.hold (needed ++ wanted))).on d = (.ok (), d') →
      d.store.Silent → needed ++ wanted = [] := fun hc hs => by
    by_contra hne
    obtain ⟨outage, ho⟩ := lacks_onCold (Durable.lacks_hold hs h.cold hne)
    rw [hc] at ho
    cases ho
  unfold writeRows
  cases hn : needed with
  | nil =>
    subst hn
    rw [if_neg (by simp)]
    rcases onCold_cases (Durable.hold_works h.cold h.cold_rows hu hd ho hm) with
      ⟨⟨⟩, tally, store, calls, hc, -, hk, hused⟩ | ⟨fault, store, hc, hmiss⟩
    · refine .inl ⟨tally, store, calls, ?_, h.named ▸ hk, hused, hwritten hc⟩
      exact Action.on_bind_of_ok (Action.on_attempt_of hc)
    · let totals := { store.totals with deferred := store.totals.deferred + wanted.length }
      refine .inr (.inl ⟨fault, store, totals, ?_, rfl, hmiss⟩)
      refine (Action.on_bind_of_ok (Action.on_attempt_of hc)).trans ?_
      dsimp only
      rw [if_pos hmiss.retryable]
      rfl
  | cons e rest =>
    rw [← hn, if_pos (by simp [hn])]
    rcases onCold_cases (Durable.hold_works h.cold h.cold_rows hu hd ho hm) with
      ⟨⟨⟩, tally, store, calls, hc, -, hk, hused⟩ | ⟨fault, store, hc, hmiss⟩
    · exact .inl ⟨tally, store, calls, Action.on_bind_of_ok hc, h.named ▸ hk, hused, hwritten hc⟩
    · exact .inr (.inr ⟨fault, store, Action.on_bind_of_error hc, hmiss, by rw [hn]; nofun⟩)

/-- Rows that must be written are not written to a table that does not answer. -/
theorem lacks_writeRows (h : Stocks d l) (hs : d.store.Silent) {needed : List Entry}
    (hn : needed ≠ []) (wanted : List Entry) : d.Lacks .addEntries (writeRows needed wanted) := by
  have hall : needed ++ wanted ≠ [] := fun he => hn (List.append_eq_nil_iff.1 he).1
  rw [writeRows, if_pos (by simpa using hn)]
  exact (lacks_onCold (Durable.lacks_hold hs h.cold hall)).bind _

/-- The rows after a put: those from before, and those of what is new or moved out of memory. -/
theorem inTable_placed (stay : Key → Bool) (durable : Bool) (l : List Held) (new : List Entry) :
    (inTable (placed stay durable l new)).Perm (inTable l ++
      ((new.filter (!stay ·.key) ++
          (l.filter fun x => !x.stored && (x.isHot && !stay x.entry.key)).map Held.entry) ++
        new.filter fun e => stay e.key && (e.persistent && durable))) := by
  have hold : ∀ x : Held, (settled stay x).stored =
      (x.stored || (x.isHot && !stay x.entry.key)) := fun x => by
    unfold settled
    split
    · next hc => rw [hc, Bool.or_true]; rfl
    · next hc => rw [Bool.eq_false_iff.2 hc, Bool.or_false]
  have hnew : ∀ e : Entry, (Held.fresh stay durable e).stored =
      (!stay e.key || (e.persistent && durable)) := fun e => by
    unfold Held.fresh
    cases stay e.key <;> rfl
  have hsplit : ((l.map (settled stay) ++ new.map (Held.fresh stay durable)).filter
      (·.stored)).map Held.entry =
      (l.filter fun x => x.stored || (x.isHot && !stay x.entry.key)).map Held.entry ++
        new.filter fun e => !stay e.key || (e.persistent && durable) := by
    rw [List.filter_append, List.filter_map, List.filter_map, List.map_append, List.map_map,
      List.map_map]
    refine congrArg₂ _ (congrArg₂ _ (funext (entry_settled stay)) ?_) ?_
    · exact List.filter_congr fun x _ => hold x
    · rw [show Held.entry ∘ Held.fresh stay durable = id from funext (entry_fresh stay durable),
        List.map_id]
      exact List.filter_congr fun e _ => hnew e
  have hperm := ((perm_sortOrdered servedBefore (l.map (settled stay) ++
    new.map (Held.fresh stay durable))).filter (·.stored)).map Held.entry
  rw [hsplit] at hperm
  apply hperm.trans
  have h₁ := (perm_filter_or (fun x : Held => x.stored)
    (fun x => x.isHot && !stay x.entry.key) l).map Held.entry
  have h₂ := perm_filter_or (fun e : Entry => !stay e.key) (fun e => e.persistent && durable) new
  rw [List.map_append] at h₁
  simp only [Bool.not_not] at h₂
  refine (h₁.symm.append h₂.symm).trans ?_
  refine List.Perm.trans (.of_eq (List.append_assoc ..)) (List.Perm.append_left _ ?_)
  rw [← List.append_assoc]
  exact List.perm_append_comm.append_right _

section

variable (stay : Key → Bool) {new place : List Entry}

/-- What is in memory after a put: what stayed of what was there, and what stays of what is new. -/
theorem hot_placed (h : Stocks d l) (hn : (new.map Entry.id).Nodup)
    (hd : ∀ e ∈ new, ∀ x ∈ l, x.entry.id ≠ e.id) (durable : Bool) :
    ((d.queue.hot.releasing (spilledIds stay l)).2.holding
      (new.filter (stay ·.key))).roll.Lists (inMemory (placed stay durable l new)) := by
  obtain ⟨-, hleft⟩ := releasing_lists h.hot (spilledIds stay l)
  refine hleft.insertAll_new (hn.sublist (List.filter_sublist.map _)) ?_
    (ordered_inMemory (ordered_placed h.layout.order hn hd durable)) fun e => ?_
  · intro e he f hf
    obtain ⟨x, hx, rfl⟩ := List.mem_map.1 (List.mem_filter.1 hf).1
    exact hd e (List.mem_filter.1 he).1 x (List.mem_filter.1 hx).1
  · have hold : e ∈ (inMemory l).filter (fun e => !decide (e.id ∈ spilledIds stay l)) ↔
        ∃ x ∈ l, (x.isHot && stay x.entry.key) = true ∧ x.entry = e := by
      simp only [inMemory, List.mem_filter, List.mem_map, Bool.not_eq_true',
        decide_eq_false_iff_not]
      constructor
      · rintro ⟨⟨x, ⟨hx, hh⟩, rfl⟩, hs⟩
        rw [mem_spilledIds h.layout.order hx, hh, Bool.true_and, Bool.not_eq_true',
          Bool.not_eq_false] at hs
        exact ⟨x, hx, by rw [hh, hs]; rfl, rfl⟩
      · rintro ⟨x, hx, hc, rfl⟩
        rw [Bool.and_eq_true] at hc
        refine ⟨⟨x, ⟨hx, hc.1⟩, rfl⟩, ?_⟩
        rw [mem_spilledIds h.layout.order hx, hc.1, hc.2]
        decide
    rw [hold, inMemory, List.mem_map]
    simp only [List.mem_filter]
    constructor
    · rintro ⟨y, ⟨hy, hh⟩, rfl⟩
      rcases mem_placed.1 hy with ⟨x, hx, rfl⟩ | ⟨f, hf, rfl⟩
      · rw [isHot_settled] at hh
        exact .inl ⟨x, hx, hh, (entry_settled stay x).symm⟩
      · rw [isHot_fresh] at hh
        rw [entry_fresh]
        exact .inr ⟨hf, hh⟩
    · rintro (⟨x, hx, hc, rfl⟩ | ⟨he, hs⟩)
      · refine ⟨settled stay x, ⟨mem_placed.2 (.inl ⟨x, hx, rfl⟩), ?_⟩, entry_settled stay x⟩
        rw [isHot_settled, hc]
      · refine ⟨Held.fresh stay durable e, ⟨mem_placed.2 (.inr ⟨e, he, rfl⟩), ?_⟩,
          entry_fresh stay durable e⟩
        rw [isHot_fresh, hs]

/-- What a put enters into the index. -/
def brought (durable : Bool) (new place : List Entry) : List Resident :=
  (new.filter (stay ·.key)).map (fun e =>
    { slot := e.slot, tier := .hot, stored := e.persistent && durable }) ++
  place.map fun e => { slot := e.slot, tier := .cold, stored := true }

theorem ids_brought (hp : place.Perm (new.filter (!stay ·.key))) (durable : Bool) :
    ((brought stay durable new place).map idOf).Perm (new.map Entry.id) := by
  rw [brought, List.map_append, List.map_map, List.map_map]
  refine ((hp.map Entry.id).append_left _).trans ?_
  refine List.Perm.trans (.of_eq List.map_append.symm) (List.Perm.map _ ?_)
  exact List.filter_append_perm (fun e : Entry => stay e.key) new

/-- It is what the index is to know of the new entries. -/
theorem mem_brought (hp : place.Perm (new.filter (!stay ·.key))) (durable : Bool) {r : Resident} :
    r ∈ brought stay durable new place ↔
      ∃ e ∈ new, (Held.fresh stay durable e).resident = r := by
  rw [brought, List.mem_append, List.mem_map, List.mem_map]
  constructor
  · rintro (⟨e, he, rfl⟩ | ⟨e, he, rfl⟩)
    · obtain ⟨he, hs⟩ := List.mem_filter.1 he
      exact ⟨e, he, by rw [Held.fresh, if_pos hs]; rfl⟩
    · obtain ⟨he, hs⟩ := List.mem_filter.1 (hp.mem_iff.1 he)
      refine ⟨e, he, ?_⟩
      rw [Held.fresh, if_neg (by simpa using hs)]
      rfl
  · rintro ⟨e, he, rfl⟩
    cases hs : stay e.key with
    | true =>
      refine .inl ⟨e, List.mem_filter.2 ⟨he, hs⟩, ?_⟩
      rw [Held.fresh, if_pos hs]
      rfl
    | false =>
      refine .inr ⟨e, hp.mem_iff.2 (List.mem_filter.2 ⟨he, by rw [hs]; rfl⟩), ?_⟩
      rw [Held.fresh, if_neg (by rw [hs]; decide)]
      rfl

/-- What a put enters has new ids. -/
theorem brought_fresh (hd : ∀ e ∈ new, ∀ x ∈ l, x.entry.id ≠ e.id)
    (hp : place.Perm (new.filter (!stay ·.key))) (durable : Bool) :
    ∀ r ∈ brought stay durable new place, ∀ x ∈ l, x.entry.id ≠ idOf r := by
  intro r hr x hx
  obtain ⟨e, he, rfl⟩ := (mem_brought stay hp durable).1 hr
  have hid : idOf (Held.fresh stay durable e).resident = e.id :=
    congrArg Entry.id (entry_fresh stay durable e)
  rw [hid]
  exact hd e he x hx

/-- The index with what a put enters. -/
theorem index_brought (h : Stocks d l) (hn : (new.map Entry.id).Nodup)
    (hd : ∀ e ∈ new, ∀ x ∈ l, x.entry.id ≠ e.id)
    (hp : place.Perm (new.filter (!stay ·.key))) (durable : Bool) :
    (d.queue.index.insertAll (brought stay durable new place)).Lists
      (sortByKey (l.map resident ++ brought stay durable new place)) := by
  have hnew : ∀ r ∈ brought stay durable new place, ∀ r' ∈ l.map resident, idOf r' ≠ idOf r := by
    intro r hr r' hr'
    obtain ⟨x, hx, rfl⟩ := List.mem_map.1 hr'
    exact brought_fresh stay hd hp durable r hr x hx
  have hu := ((ids_brought stay hp durable).nodup_iff).2 hn
  refine h.index.insertAll_new hu hnew (ordered_sortByKey ?_) fun r => ?_
  · exact nodup_ids_append (ordered_residents.2 h.layout.order).unique hu hnew
  · rw [mem_sortByKey, List.mem_append]

/-- What moves out of memory is cold in the index. -/
theorem resident_settled (h : Ordered l) {x : Held} (hx : x ∈ l) :
    (if idOf x.resident ∈ spilledIds stay l then x.resident.cooled else x.resident) =
      (settled stay x).resident := by
  have hspilled : idOf x.resident ∈ spilledIds stay l ↔ (x.isHot && !stay x.entry.key) = true :=
    mem_spilledIds h hx
  unfold settled
  by_cases hs : (x.isHot && !stay x.entry.key) = true
  · rw [if_pos (hspilled.2 hs), if_pos hs]
    rfl
  · rw [if_neg (fun hi => hs (hspilled.1 hi)), if_neg hs]

/-- The index after a put. -/
theorem index_placed (h : Stocks d l) (hn : (new.map Entry.id).Nodup)
    (hd : ∀ e ∈ new, ∀ x ∈ l, x.entry.id ≠ e.id)
    (hp : place.Perm (new.filter (!stay ·.key))) (durable : Bool) :
    ((spilledIds stay l).foldl (fun index id => index.update id Resident.cooled)
      ((d.queue.index.insertAll ((new.filter (stay ·.key)).map fun e =>
        { slot := e.slot, tier := .hot, stored := e.persistent && durable })).insertAll
          (place.map fun e => { slot := e.slot, tier := .cold, stored := true }))).Lists
      ((placed stay durable l new).map resident) := by
  have hall := (index_brought stay h hn hd hp durable).updateAll (f := Resident.cooled)
    (fun _ => rfl) (fun _ => rfl) (spilledIds stay l)
  rw [show d.queue.index.insertAll (brought stay durable new place) = _ from
    List.foldl_append] at hall
  refine cast (congrArg (Roll.Lists _) ?_) hall
  refine hall.order.ascending.ext
    (ordered_residents.2 (ordered_placed h.layout.order hn hd durable)).ascending fun r => ?_
  -- What is new is not among what moves out of memory.
  have hkept : ∀ r ∈ brought stay durable new place,
      (if idOf r ∈ spilledIds stay l then r.cooled else r) = r := by
    intro r hr
    refine if_neg fun hi => ?_
    obtain ⟨x, hx, hid⟩ := List.mem_map.1 hi
    exact brought_fresh stay hd hp durable r hr x (List.mem_filter.1 hx).1 hid
  rw [List.mem_map, List.mem_map]
  constructor
  · rintro ⟨r', hr', rfl⟩
    rcases List.mem_append.1 (mem_sortByKey.1 hr') with hr' | hr'
    · obtain ⟨x, hx, rfl⟩ := List.mem_map.1 hr'
      exact ⟨settled stay x, mem_placed.2 (.inl ⟨x, hx, rfl⟩),
        (resident_settled stay h.layout.order hx).symm⟩
    · obtain ⟨e, he, hr⟩ := (mem_brought stay hp durable).1 hr'
      exact ⟨Held.fresh stay durable e, mem_placed.2 (.inr ⟨e, he, rfl⟩),
        hr.trans (hkept r' hr').symm⟩
  · rintro ⟨y, hy, rfl⟩
    rcases mem_placed.1 hy with ⟨x, hx, rfl⟩ | ⟨e, he, rfl⟩
    · refine ⟨x.resident, mem_sortByKey.2 (List.mem_append_left _ (List.mem_map_of_mem hx)), ?_⟩
      exact resident_settled stay h.layout.order hx
    · have hr := (mem_brought stay hp durable).2 ⟨e, he, rfl⟩
      exact ⟨_, mem_sortByKey.2 (List.mem_append_right _ hr), hkept _ hr⟩

end

/-- Once the rows of a put are written, memory and index follow. -/
theorem settle_on (h : Stocks d l) {new : List Entry} (hn : (new.map Entry.id).Nodup)
    (hd : ∀ e ∈ new, ∀ x ∈ l, x.entry.id ≠ e.id) (d' : Desk Cached) (hst : Steady d d')
    (hi : d'.queue.index = d.queue.index) (hh : d'.queue.hot = d.queue.hot)
    (hname : d'.queue.cold.storageId = d.queue.cold.storageId)
    (hcold : d'.queue.cold.phase = d.queue.cold.phase) (durable : Bool)
    (hk : d'.store.Keeps d.queue.storageId.text
      (inTable (placed (stays d.queue.bounds l new) durable l new))) :
    ∃ d'', (do
        let _ ← cool ((d.queue.divide new).spill.map idOf)
        heat (d.queue.divide new).keep
        reindex fun index =>
          let index := index.insertAll ((d.queue.divide new).keep.map fun e =>
            { slot := e.slot, tier := .hot, stored := e.persistent && durable })
          let index := index.insertAll ((d.queue.divide new).place.map fun e =>
            { slot := e.slot, tier := .cold, stored := true })
          ((d.queue.divide new).spill.map idOf).foldl
            (fun index id => index.update id Resident.cooled) index
        count fun t => { t with spilled :=
          t.spilled + ((d.queue.divide new).spill.map idOf).length } :
          Action (Desk Cached) Unit).on d' = (.ok (), d'') ∧ Steady d d'' ∧
      Stocks d'' (placed (stays d.queue.bounds l new) durable l new) := by
  obtain ⟨hkeep, hplace, hspill⟩ := divide_eq h new
  have hids : (d.queue.divide new).spill.map idOf = spilledIds (stays d.queue.bounds l new) l := by
    rw [hspill, List.map_map]
    rfl
  rw [hids, hkeep, Action.on_bind_of_ok (on_cool _ _), Action.on_bind_of_ok (on_heat _ _),
    Action.on_bind_of_ok (on_reindex _ _), on_counting]
  refine ⟨_, rfl, h.steady hst.storageId hst.bounds hst.phase hst.hooks
    ⟨hst.used.tableName, hst.used.link⟩ (h.layout.brimful_placed · hn hd durable) ?_⟩
  refine ⟨?_, ?_, ?_, ?_, ?_, ?_, ?_, ?_⟩
  · change Layout d'.queue.bounds _
    rw [hst.bounds]
    exact h.layout.placed hn hd (cut_stays h.layout hn hd) durable
  · change Roll.Lists (List.foldl _ _ _) _
    have := index_placed _ h hn hd hplace durable
    rw [← hi] at this
    exact this
  · have := hot_placed (stays d.queue.bounds l new) h hn hd durable
    rw [← hh] at this
    exact this
  · change d'.store.Keeps d'.queue.storageId.text _
    rw [hst.storageId]
    exact hk
  · exact (hname.trans h.named).trans hst.storageId.symm
  · exact (congrArg Ram.phase hh).trans h.warm
  · exact hcold.trans h.cold
  · exact hst.used.tableName ▸ h.fit

/-- What moves out of memory without a row is read from memory. -/
theorem pick_spilled (h : Stocks d l) (new : List Entry) :
    d.queue.hot.roll.pick (((d.queue.divide new).spill.filter (!·.stored)).map idOf) =
      (l.filter fun x => !x.stored && (x.isHot && !stays d.queue.bounds l new x.entry.key)).map
        Held.entry := by
  let moves : Held → Bool := fun x =>
    !x.stored && (x.isHot && !stays d.queue.bounds l new x.entry.key)
  have hids : ((d.queue.divide new).spill.filter (!·.stored)).map idOf =
      (l.filter moves).map idOf := by
    rw [(divide_eq h new).2.2, List.filter_map, List.map_map, List.filter_filter]
    rfl
  have hmem : ∀ x ∈ l, (x.entry.id ∈ (l.filter moves).map idOf ↔ moves x = true) := fun x hx => by
    rw [List.mem_map]
    constructor
    · rintro ⟨y, hy, he⟩
      rw [List.mem_filter] at hy
      rw [← h.layout.order.eq_of_id hy.1 hx he]
      exact hy.2
    · exact fun hc => ⟨x, List.mem_filter.2 ⟨hx, hc⟩, rfl⟩
  rw [hids, pick_rowless h (h.layout.order.filter _).unique]
  · refine congrArg _ (List.filter_congr fun x hx => ?_)
    change (!x.stored && decide (x.entry.id ∈ (l.filter moves).map idOf)) = moves x
    rw [Bool.eq_iff_iff, Bool.and_eq_true, decide_eq_true_eq, hmem x hx]
    refine and_iff_right_of_imp fun hmoves => ?_
    exact (Bool.and_eq_true_iff.1 hmoves).1
  · intro x hx hi
    have hmoves := (hmem x hx).1 hi
    rw [Bool.and_eq_true, Bool.not_eq_true'] at hmoves
    exact hmoves.1

/-- A put that needs no row: all that is new stays in memory, and what moves out of it has its row.
-/
structure RowFree (stay : Key → Bool) (l : List Held) (new : List Entry) : Prop where
  /-- What is new. -/
  stays : ∀ e ∈ new, stay e.key = true
  /-- What was in memory. -/
  stored : ∀ x ∈ l, x.isHot = true → stay x.entry.key = false → x.stored = true

theorem rowFree_iff {stay : Key → Bool} {new : List Entry} : RowFree stay l new ↔
    new.filter (!stay ·.key) ++ (l.filter fun x =>
      !x.stored && (x.isHot && !stay x.entry.key)).map Held.entry = [] := by
  simp only [List.append_eq_nil_iff, List.map_eq_nil_iff, List.filter_eq_nil_iff,
    Bool.not_eq_true', Bool.not_eq_false, Bool.and_eq_true, not_and]
  constructor
  · refine fun hr => ⟨hr.stays, fun x hx hs hh => ?_⟩
    by_contra hout
    rw [hr.stored x hx hh (Bool.eq_false_iff.2 hout)] at hs
    cases hs
  · rintro ⟨hnew, hold⟩
    refine ⟨hnew, fun x hx hh hout => ?_⟩
    by_contra hs
    rw [hold x hx (Bool.eq_false_iff.2 hs) hh] at hout
    cases hout

/-- A put that brings nothing needs none. -/
theorem rowFree_nil {b : Bounds} (h : Layout b l) : RowFree (Spillway.stays b l []) l [] :=
  ⟨List.forall_mem_nil _, fun x hx hh hout => by rw [stays_nil h hx hh] at hout; cases hout⟩

/-- A put that needs no row, of which none is written, holds back what it brings that must survive.
-/
theorem perm_pendingIds_placed {stay : Key → Bool} {new : List Entry} (h : RowFree stay l new)
    {durable : Bool} (hd : durable = true → ∀ e ∈ new, e.persistent = false) :
    (pendingIds (placed stay durable l new)).Perm
      (pendingIds l ++ (new.filter (·.persistent)).map Entry.id) := by
  refine (((perm_sortOrdered servedBefore _).filter isPending).map idOf).trans (.of_eq ?_)
  rw [List.filter_append, List.map_append, List.filter_map, List.filter_map, List.map_map,
    List.map_map]
  refine congrArg₂ _ ?_ ?_
  · have hsame : l.filter (isPending ∘ settled stay) = l.filter isPending := by
      refine List.filter_congr fun x hx => ?_
      rw [Function.comp_apply, settled]
      split
      · next hout =>
        rw [Bool.and_eq_true, Bool.not_eq_true'] at hout
        have hstored := h.stored x hx hout.1 hout.2
        simp [isPending, resident, Resident.isPending, cooled, hstored]
      · rfl
    rw [hsame, pendingIds]
    exact List.map_congr_left fun x _ => congrArg Entry.id (entry_settled stay x)
  · have hsame : new.filter (isPending ∘ Held.fresh stay durable) = new.filter (·.persistent) := by
      refine List.filter_congr fun e he => ?_
      rw [Function.comp_apply, Held.fresh, if_pos (h.stays e he)]
      change (e.persistent && !(e.persistent && durable)) = e.persistent
      cases durable with
      | false => simp
      | true => rw [hd rfl e he]; rfl
    rw [hsame]
    exact List.map_congr_left fun e _ => congrArg Entry.id (entry_fresh stay durable e)

/-- The rows that a put must write. -/
theorem perm_needed (h : Stocks d l) (new : List Entry) :
    ((d.queue.divide new).place ++ d.queue.hot.roll.pick
        (((d.queue.divide new).spill.filter (!·.stored)).map idOf)).Perm
      (new.filter (!stays d.queue.bounds l new ·.key) ++ (l.filter fun x =>
        !x.stored && (x.isHot && !stays d.queue.bounds l new x.entry.key)).map Held.entry) :=
  (divide_eq h new).2.1.append (.of_eq (pick_spilled h new))

/-- The rows that a put may hold back. -/
theorem wanted_eq (h : Stocks d l) (new : List Entry) :
    (d.queue.divide new).keep.filter (·.persistent) =
      new.filter fun e => stays d.queue.bounds l new e.key && (e.persistent && true) := by
  rw [(divide_eq h new).1, List.filter_filter]
  exact List.filter_congr fun e _ => by rw [Bool.and_true, Bool.and_comm]

/-- A put stores new entries on both sides of its line, or rows are needed for that, and it fails
and changes nothing. Where nothing needs a row, rows may be held back for want of the database. -/
theorem place_on (h : Stocks d l) {new : List Entry} (hn : (new.map Entry.id).Nodup)
    (hd : ∀ e ∈ new, ∀ x ∈ l, x.entry.id ≠ e.id) :
    (∃ d' durable, (place new).on d = (.ok (), d') ∧ Steady d d' ∧
      Stocks d' (placed (stays d.queue.bounds l new) durable l new) ∧
      (d.store.link.Serving → durable = true) ∧
      (d.store.Silent → durable = true → ∀ e ∈ new, e.persistent = false)) ∨
    ∃ fault store, (place new).on d = (.error fault, { d with store }) ∧
      d.store.Missed fault store ∧ ¬ RowFree (stays d.queue.bounds l new) l new := by
  let stay := stays d.queue.bounds l new
  have hlayout : ∀ durable, Layout d.queue.bounds (placed stay durable l new) :=
    h.layout.placed hn hd (cut_stays h.layout hn hd)
  let rowless := ((d.queue.divide new).spill.filter (!·.stored)).map idOf
  let needed := (d.queue.divide new).place ++ d.queue.hot.roll.pick rowless
  let wanted := (d.queue.divide new).keep.filter (·.persistent)
  have hneeded : needed.Perm (new.filter (!stay ·.key) ++
      (l.filter fun x => !x.stored && (x.isHot && !stay x.entry.key)).map Held.entry) :=
    perm_needed h new
  have hwanted : wanted = new.filter fun e => stay e.key && (e.persistent && true) :=
    wanted_eq h new
  have hfree : needed = [] ↔ RowFree stay l new := by
    rw [rowFree_iff]
    exact ⟨fun hnil => List.nil_perm.1 (hnil ▸ hneeded),
      fun hnil => List.perm_nil.1 (hnil ▸ hneeded)⟩
  have hrows : (inTable (placed stay true l new)).Perm (inTable l ++ (needed ++ wanted)) := by
    rw [hwanted]
    exact (inTable_placed stay true l new).trans
      ((hneeded.append_right _).append_left _).symm
  have hkept : needed = [] → inTable (placed stay false l new) = inTable l := fun hnil => by
    have hp := inTable_placed stay false l new
    rw [rowFree_iff.1 (hfree.1 hnil)] at hp
    simp only [Bool.and_false, List.filter_false, List.append_nil] at hp
    exact (ordered_inTable (hlayout false).order).ascending.ext
      (ordered_inTable h.layout.order).ascending fun _ => hp.mem_iff
  have hu : ((inTable l ++ (needed ++ wanted)).map Entry.id).Nodup :=
    ((hrows.map Entry.id).nodup_iff).1 (ordered_inTable (hlayout true).order).unique
  rw [List.map_append, List.nodup_append] at hu
  rw [place, Action.on_bind_of_ok (on_theQueue d)]
  rcases writeRows_on h hu.2.1 (fun e he f hf hid => hu.2.2 _ (List.mem_map_of_mem hf) _
      (List.mem_map_of_mem he) hid) (ordered_inTable (hlayout true).order) hrows with
    ⟨tally, store, calls, hw, hk, hused, hwritten⟩ | ⟨fault, store, totals, hw, hnil, hm⟩ |
    ⟨fault, store, hw, hm, hsome⟩
  · obtain ⟨d', hon, hst, hs⟩ := settle_on h hn hd (withTable d tally store calls)
      (steady_withTable hused) rfl rfl rfl rfl true hk
    refine .inl ⟨d', true, (Action.on_bind_of_ok hw).trans hon, hst, hs, fun _ => rfl,
      fun hsilent _ e he => ?_⟩
    obtain ⟨hnone, hnone'⟩ := List.append_eq_nil_iff.1 (hwritten hsilent)
    rw [hwanted, List.filter_eq_nil_iff] at hnone'
    simpa [(hfree.1 hnone).stays e he] using hnone' e he
  · obtain ⟨d', hon, hst, hs⟩ := settle_on h hn hd (withTotals { d with store } totals)
      ⟨rfl, rfl, rfl, rfl, ⟨hm.used.tableName, hm.used.link⟩, fun _ => id⟩ rfl rfl rfl rfl false
      (show store.Keeps _ _ from (hkept hnil).symm ▸ h.rows.missed hm)
    exact .inl ⟨d', false, (Action.on_bind_of_ok hw).trans hon, hst, hs,
      fun hserving => absurd hserving hm.unserved, fun _ hdurable => by cases hdurable⟩
  · exact .inr ⟨fault, store, Action.on_bind_of_error hw, hm, mt hfree.2 hsome⟩

/-- Where rows are needed, a put fails over a table that does not answer. -/
theorem lacks_place (h : Stocks d l) (hs : d.store.Silent) {new : List Entry}
    (hr : ¬ RowFree (stays d.queue.bounds l new) l new) : d.Lacks .addEntries (place new) := by
  refine lacks_bind_of_ok (on_theQueue d) (Lacks.bind (lacks_writeRows h hs (fun hnil => ?_) _) _)
  have hneeded := perm_needed h new
  rw [hnil] at hneeded
  exact hr (rowFree_iff.2 (List.nil_perm.1 hneeded))

end Spillway.Cached
