import Spillway.Proofs.Glimpses
import Spillway.Proofs.Storing

/-!
# What is refused while the database is away

While no call to the table gets through, a cached queue goes on with what needs no row. A put
succeeds if all that is new comes before what is cold and fits into memory, and what has to leave
memory for it has its row. A removal succeeds if nothing that it takes out has a row. All else is
refused, and clearing is in any case. Memory keeps within its bounds, and a put that succeeds holds
back the rows of what it brings.
-/

namespace Spillway.Cached

open Desk Held

/-- New entries that need no row, where `part` is what fits of memory and them. -/
structure Suits (d : Desk Cached) (new part : List Entry) : Prop where
  /-- They come before all that is in the table only. -/
  ahead : ∀ e ∈ new, ∀ first, d.queue.firstCold? = some first → e.key < first
  /-- They fit. -/
  within : ∀ e ∈ new, e ∈ part
  /-- What was in memory, and does not fit any more, has its row. -/
  displaced : ∀ e ∈ d.queue.hot.roll.items, e ∉ part → e ∈ rowEntries d

/-- How a put fares, where `part` is what fits of memory and the entries that are new. -/
structure PutFares (d : Desk Cached) (batch : List Entry) (bypass : Bool) (part : List Entry) :
    Prop where
  /-- It is as much as the cache bounds allow. -/
  longest : d.queue.bounds.Longest
    (sortByKey (d.queue.hot.roll.items ++ arrivals (contents d) batch)) part
  /-- If the new entries need no row, it succeeds, and holds back the rows of those that must
  survive. -/
  stored : Suits d (arrivals (contents d) batch) part →
    ((serve (.put batch bypass)).on d).1 = .ok .done ∧
      ((serve (.put batch bypass)).on d).2.queue.pending.Perm (d.queue.pending ++
        ((arrivals (contents d) batch).filter (·.persistent)).map Entry.id)
  /-- Otherwise it fails for want of the database. -/
  refused : ¬ Suits d (arrivals (contents d) batch) part →
    ∃ outage, ((serve (.put batch bypass)).on d).1 = .error (.unavailable .addEntries outage)

/-- How a request fares that takes out the entries that it names. -/
structure RemovalFares (d : Desk Cached) (request : Request) (named : List Entry) : Prop where
  /-- If none of them has a row, it succeeds. -/
  taken : (∀ e ∈ named, e ∉ rowEntries d) → ((serve request).on d).1 = .ok (request.reply named)
  /-- Otherwise it fails for want of the database. -/
  refused : (¬ ∀ e ∈ named, e ∉ rowEntries d) →
    ∃ task outage, ((serve request).on d).1 = .error (.unavailable task outage)

variable {d : Desk Cached} {l : List Held} {request : Request} {new new' batch part : List Entry}
  {bypass : Bool}

/-- Which entries have rows. -/
theorem mem_rowEntries_iff (h : Stocks d l) {x : Held} (hx : x ∈ l) :
    x.entry ∈ rowEntries d ↔ x.stored = true := by
  rw [rowEntries_eq h.rows.partition]
  constructor
  · intro hin
    obtain ⟨y, hy, he⟩ := List.mem_map.1 hin
    obtain ⟨hy, hstored⟩ := List.mem_filter.1 hy
    rwa [h.layout.order.eq_of_id hy hx (congrArg Entry.id he)] at hstored
  · exact fun hs => List.mem_map_of_mem (List.mem_filter.2 ⟨hx, hs⟩)

/-! ## Puts -/

/-- New entries that need no row are those that a put can store without one. -/
theorem rowFree_iff_suits (h : Stocks d l) (hn : (new.map Entry.id).Nodup)
    (hd : ∀ e ∈ new, ∀ x ∈ l, x.entry.id ≠ e.id) :
    RowFree (stays d.queue.bounds l new) l new ↔
      Suits d new (d.queue.bounds.fill 0 0 (sortByKey (inMemory l ++ new))).1 := by
  have hahead : ∀ e : Entry, liesAhead l e.key = true ↔
      ∀ first, d.queue.firstCold? = some first → e.key < first := fun e => by
    rw [← firstCold?_all h]
    cases d.queue.firstCold? <;> simp
  constructor
  · intro hr
    have ha : ∀ e ∈ new, liesAhead l e.key = true := fun e he =>
      (Bool.and_eq_true_iff.1 (hr.stays e he)).1
    refine ⟨fun e he => (hahead e).1 (ha e he), fun e he => ?_, fun e he hout => ?_⟩
    · exact (stays_iff_mem_fill h.layout hn hd ha (List.mem_append_right _ he)).1 (hr.stays e he)
    · rw [h.hot.items] at he
      rw [← stays_iff_mem_fill h.layout hn hd ha (List.mem_append_left _ he), Bool.not_eq_true]
        at hout
      obtain ⟨x, hx, rfl⟩ := List.mem_map.1 he
      obtain ⟨hx, hhot⟩ := List.mem_filter.1 hx
      exact (mem_rowEntries_iff h hx).2 (hr.stored x hx hhot hout)
  · intro hsuits
    have ha : ∀ e ∈ new, liesAhead l e.key = true := fun e he =>
      (hahead e).2 (hsuits.ahead e he)
    refine ⟨fun e he => ?_, fun x hx hhot hout => ?_⟩
    · exact (stays_iff_mem_fill h.layout hn hd ha (List.mem_append_right _ he)).2
        (hsuits.within e he)
    · have hin : x.entry ∈ inMemory l := List.mem_map_of_mem (List.mem_filter.2 ⟨hx, hhot⟩)
      have hstay := stays_iff_mem_fill h.layout hn hd ha (List.mem_append_left _ hin)
      rw [hout] at hstay
      refine (mem_rowEntries_iff h hx).1 (hsuits.displaced x.entry (h.hot.items ▸ hin) ?_)
      exact fun hfits => Bool.false_ne_true (hstay.2 hfits)

/-- Storing the new entries of a batch, if there are any. -/
def storeNew (new : List Entry) : Action (Desk Cached) Unit :=
  if !new.isEmpty then place new else pure ()

/-- Storing new entries that need no row succeeds, and holds back the rows of those that must
survive. -/
theorem storeNew_rowFree (h : Stocks d l) (hs : d.store.Silent) (hn : (new.map Entry.id).Nodup)
    (hd : ∀ e ∈ new, ∀ x ∈ l, x.entry.id ≠ e.id)
    (hr : RowFree (stays d.queue.bounds l new) l new) :
    ∃ d' m, (storeNew new).on d = (.ok (), d') ∧ Stocks d' m ∧
      (pendingIds m).Perm (pendingIds l ++ (new.filter (·.persistent)).map Entry.id) := by
  cases he : new.isEmpty with
  | true =>
    rw [List.isEmpty_iff.1 he]
    exact ⟨d, l, rfl, h, by simp⟩
  | false =>
    rw [storeNew, he]
    rcases place_on h hn hd with ⟨d', durable, ho, -, hstocks, -, hdurable⟩ | ⟨-, -, -, -, hno⟩
    · exact ⟨d', _, ho, hstocks, perm_pendingIds_placed hr (hdurable hs)⟩
    · exact absurd hr hno

/-- Storing others is refused. -/
theorem lacks_storeNew (h : Stocks d l) (hs : d.store.Silent)
    (hr : ¬ RowFree (stays d.queue.bounds l new) l new) : d.Lacks .addEntries (storeNew new) := by
  cases he : new.isEmpty with
  | true =>
    rw [List.isEmpty_iff.1 he] at hr
    exact absurd (rowFree_nil h.layout) hr
  | false =>
    rw [storeNew, he]
    exact lacks_place h hs hr

/-- A put that goes on, and finds room, comes to storing what is new. -/
theorem put_comes (ha : d.queue.phase = .active) (ht : ¬ d.queue.hooks.TakesOver batch bypass)
    (hroom : d.queue.index.tally.overflow? d.queue.bounds = none) :
    let stored := (storeNew (d.queue.fresh batch)).on
      (d.called (d.queue.hooks.heardBefore batch bypass))
    ((serve (.put batch bypass)).on d).1 = (stored.1.map fun _ => .done) ∧
      ((serve (.put batch bypass)).on d).2.queue = stored.2.queue := by
  intro stored
  let admitting : Action (Desk Cached) Unit := do
    requireRoom
    storeNew ((← theQueue).fresh batch)
  have hstoring : Storing batch (altering admitting) := storing batch
  have hadmitting : admitting.on (d.called ((Managed.hooks d.queue).heardBefore batch bypass)) =
      stored := by
    rw [Action.on_bind_of_ok (on_requireRoom_ok hroom), Action.on_bind_of_ok (on_theQueue _)]
    rfl
  rw [hstoring.between ha ht, altering_on (d := d.called _) ha, hadmitting]
  clear_value stored
  rcases stored with ⟨_ | _, d'⟩
  · exact ⟨rfl, rfl⟩
  · exact ⟨rfl, rfl⟩

/-- The new entries of a batch, in any order. -/
theorem perm_fresh (h : Stocks d l) (batch : List Entry) :
    (d.queue.fresh batch).Perm (arrivals (contents d) batch) := by
  obtain ⟨-, -, hentered⟩ := fresh_spec h batch
  have hperm := perm_foldl_enter (contents d) batch
  rw [contents_eq h, ← hentered] at hperm
  rw [contents_eq h]
  exact (List.perm_append_left_iff _).1 ((perm_sortOrdered servedBefore _).symm.trans hperm)

theorem Suits.congr (h : Suits d new part) (hp : ∀ e, e ∈ new ↔ e ∈ new') : Suits d new' part :=
  ⟨fun e he => h.ahead e ((hp e).2 he), fun e he => h.within e ((hp e).2 he), h.displaced⟩

/-- What is in memory and the new entries of a batch, in the order of service. -/
theorem sortByKey_arrivals (h : Stocks d l) (batch : List Entry) :
    sortByKey (d.queue.hot.roll.items ++ arrivals (contents d) batch) =
      sortByKey (inMemory l ++ d.queue.fresh batch) := by
  obtain ⟨hn, hd, -⟩ := fresh_spec h batch
  have hunique : ((inMemory l ++ d.queue.fresh batch).map idOf).Nodup := by
    refine nodup_ids_append (ordered_inMemory h.layout.order).unique hn fun e he f hf => ?_
    obtain ⟨x, hx, rfl⟩ := List.mem_map.1 hf
    exact hd e he x (List.mem_filter.1 hx).1
  have hall : (d.queue.hot.roll.items ++ arrivals (contents d) batch).Perm
      (inMemory l ++ d.queue.fresh batch) := by
    rw [h.hot.items]
    exact (perm_fresh h batch).symm.append_left _
  refine (ordered_sortByKey hunique).sortByKey_eq ((hall.map idOf).nodup_iff.2 hunique) fun e => ?_
  rw [mem_sortByKey, hall.mem_iff]

/-- There is room as long as the contents do not exceed the bounds. -/
theorem overflow?_eq_none (h : Stocks d l) (hx : ¬ d.queue.bounds.Exceeded (contents d)) :
    d.queue.index.tally.overflow? d.queue.bounds = none := by
  have htally : d.queue.index.tally = Tally.total (contents d) := by
    rw [contents_eq h]
    exact tally_of_lists h.index
  rw [htally]
  exact Tally.overflow?_total.2 hx

/-- Whether a put succeeds is told by the new entries of its batch and what fits of memory and them.
-/
theorem put_fares (h : Stocks d l) (ha : d.queue.phase = .active) (hs : d.store.Silent)
    (ht : ¬ d.queue.hooks.TakesOver batch bypass) (hx : ¬ d.queue.bounds.Exceeded (contents d)) :
    ∃ part, PutFares d batch bypass part := by
  obtain ⟨hn, hd, -⟩ := fresh_spec h batch
  have hp := perm_fresh h batch
  obtain ⟨houtcome, hqueue⟩ := put_comes ha ht (overflow?_eq_none h hx)
  have hiff := rowFree_iff_suits h hn hd
  rw [← sortByKey_arrivals h] at hiff
  have h₁ : Stocks (d.called (d.queue.hooks.heardBefore batch bypass)) l := h.called _
  refine ⟨_, d.queue.bounds.longest_fill _, fun hsuits => ?_, fun hsuits => ?_⟩
  · obtain ⟨d', m, ho, hstocks, hpending⟩ :=
      storeNew_rowFree h₁ hs hn hd (hiff.2 (hsuits.congr fun e => hp.mem_iff.symm))
    rw [houtcome, hqueue, ho]
    refine ⟨rfl, ?_⟩
    rw [show d'.queue.pending = pendingIds m from pending_eq hstocks,
      show d.queue.pending = pendingIds l from pending_eq h]
    exact hpending.trans (((hp.filter _).map _).append_left _)
  · obtain ⟨outage, ho⟩ :=
      lacks_storeNew h₁ hs fun hr => hsuits ((hiff.1 hr).congr fun e => hp.mem_iff)
    exact ⟨outage, by rw [houtcome, ho]; rfl⟩

/-! ## Removals -/

theorem Lacks.altering {α : Type} {task : Task} {act : Action (Desk Cached) α}
    (h : d.Lacks task act) (ha : d.queue.phase = .active) : d.Lacks task (altering act) := by
  rwa [Lacks, altering_on ha]

/-- Clearing is refused. -/
theorem lacks_clear (h : Stocks d l) (ha : d.queue.phase = .active) (hs : d.store.Silent) :
    d.Lacks .deleteAll clear := by
  refine Lacks.altering (lacks_bind_of_ok (on_theQueue d) ?_) ha
  exact (lacks_onCold (Durable.lacks_clear hs h.cold)).bind _

/-- What a request names has no rows exactly if nothing that it strikes has one. -/
theorem unstored_iff (h : Stocks d l) {keys : List Key} (hkeys : ∀ x ∈ l, x.entry.key ∈ keys ↔
      x.entry.key ∈ (request.named (l.map Held.entry)).map Entry.key) :
    (∀ x ∈ struck keys l, x.stored = false) ↔
      ∀ e ∈ request.named (l.map Held.entry), e ∉ rowEntries d := by
  rw [struck_congr hkeys]
  have hp := struck_named h.layout.order request
  constructor
  · intro hall e he
    obtain ⟨x, hx, rfl⟩ := List.mem_map.1 (hp.mem_iff.2 he)
    rw [mem_rowEntries_iff h (List.mem_filter.1 hx).1, hall x hx]
    nofun
  · intro hall x hx
    have hno := hall x.entry (hp.mem_iff.1 (List.mem_map_of_mem hx))
    rwa [mem_rowEntries_iff h (List.mem_filter.1 hx).1, Bool.not_eq_true] at hno

/-- Work that asks for the rows of what it strikes fares as these tell. -/
theorem RemovalFares.of_amounts {α : Type} {core : Action (Desk Cached) α} {view : α → Reply}
    {answer : α} {task : Task} {named : List Entry} {unstored : Prop}
    (hon : Amounts d (serve request) core view) (hview : view answer = request.reply named)
    (hiff : unstored ↔ ∀ e ∈ named, e ∉ rowEntries d)
    (htaken : unstored → (core.on d).1 = .ok answer) (hlacks : ¬ unstored → d.Lacks task core) :
    RemovalFares d request named := by
  refine ⟨fun hnone => ?_, fun hsome => ?_⟩
  · exact hon.ok_iff.2 ⟨answer, htaken (hiff.2 hnone), hview⟩
  · obtain ⟨outage, ho⟩ := hlacks (mt hiff.1 hsome)
    exact ⟨task, outage, hon.error_iff.2 ho⟩

/-- Whether a removal succeeds is told by the rows of what it names. -/
theorem removal_fares (h : Stocks d l) (ha : d.queue.phase = .active) (hs : d.store.Silent)
    (hr : request.removes = true) (hc : request ≠ .clear) :
    RemovalFares d request (request.named (contents d)) := by
  rw [contents_eq h]
  cases strikes h ha hr hc with
  | @takes keys view hon hkeys hview =>
    refine .of_amounts hon hview (unstored_iff h hkeys) (fun hnone => ?_) (lacks_takeKeys h hs)
    rcases takeKeys_on h keys with ⟨d', m, ho, -⟩ | ⟨-, -, -, -, hsome⟩
    · rw [ho]
    · exact absurd hnone hsome
  | @drops keys hon hkeys hview =>
    refine .of_amounts hon hview (unstored_iff h hkeys) (fun hnone => ?_) (lacks_dropKeys h hs)
    rcases dropKeys_on h keys with ⟨d', m, ho, -⟩ | ⟨-, -, -, -, hsome⟩
    · rw [ho]
    · exact absurd hnone hsome
  | idles hon hnone =>
    rw [hnone]
    exact ⟨fun _ => by rw [hon], fun hsome => absurd (List.forall_mem_nil _) hsome⟩

/-! ## All requests -/

/-- Whatever is asked of a queue with a list, its memory keeps within its cache bounds. -/
theorem fits_served (h : Holds d l) (request : Request) :
    d.queue.bounds.Fits ((serve request).on d).2.queue.hot.roll.items := by
  obtain ⟨m, hkept, hm, -⟩ := serve_follows h request
  rw [hm.shelved.hot.items, ← hkept.bounds]
  exact hm.shelved.layout.fits

/-- What an active queue refuses while no call to the table gets through. -/
structure Refuses (d : Desk Cached) : Prop where
  /-- Of the puts that go on and find room, those that need a row. -/
  puts : ∀ batch bypass, ¬ d.queue.hooks.TakesOver batch bypass →
    ¬ d.queue.bounds.Exceeded (contents d) → ∃ part, PutFares d batch bypass part
  /-- Of the removals, those of an entry that has a row. -/
  removals : ∀ request : Request, request.removes = true → request ≠ .clear →
    RemovalFares d request (request.named (contents d))
  /-- Clearing, in any case. -/
  clear : ∃ outage, ((serve .clear).on d).1 = .error (.unavailable .deleteAll outage)
  /-- Whatever it is asked, memory keeps within its cache bounds. -/
  memory : ∀ request : Request,
    d.queue.bounds.Fits ((serve request).on d).2.queue.hot.roll.items

/-- Whatever the history of an active queue, and however calls to its table fail: a put is refused
exactly if it needs a row, a removal exactly if it names an entry that has one, and clearing always;
memory keeps within its bounds, and the rows of what is put are held back. -/
theorem outage_refuses (h : Reachable d) (ha : d.queue.phase = .active) (hs : d.store.Silent) :
    Refuses d := by
  obtain ⟨l, hl⟩ := reachable_stocks h ha
  exact ⟨fun batch bypass => put_fares hl ha hs, fun request => removal_fares hl ha hs,
    (lacks_clear hl ha hs).bind _, fits_served (.serving ha hl)⟩

/-- A queue whose database is gone: an entry that comes before the one in memory is stored, because
that has its row, and its own row is held back; one that comes behind, and a removal, are refused.
-/
theorem outage_refuses_spilt : let d := spilt.relinked lostLink
    (Reachable d ∧ d.queue.phase = .active ∧ d.store.Silent) ∧ Refuses d ∧
      ((serve (.put [.blank 0 true] false)).on d).1 = .ok .done ∧
      ((serve (.put [.blank 0 true] false)).on d).2.queue.pending = [0] ∧
      ((serve (.put [.blank 3 true] false)).on d).1.isOk = false ∧
      ((serve (.removeFirst 1)).on d).1.isOk = false := by
  intro d
  have hr : Reachable d := reachable_spilt.relinked lostLink
  have ha : d.queue.phase = .active := active_spilt lostLink
  have hs : d.store.Silent := silent_lost spilt
  exact ⟨⟨hr, ha, hs⟩, outage_refuses hr ha hs, by decide +kernel, by decide +kernel,
    by decide +kernel, by decide +kernel⟩

end Spillway.Cached
