import Spillway.Proofs.Answers
import Spillway.Proofs.Writing

/-!
# How a cached queue serves

Every request for contents is answered as a queue in memory with the same entries would answer it,
as long as the link serves. Whatever the link does, the index, memory and the rows agree afterwards,
and only a request that takes entries out changes what is held.
-/

namespace Spillway.Cached

open Desk Held

variable {α : Type} {lenient : Prop} {d : Desk Cached} {l : List Held}

/-! ## Keys and what stands under them -/

/-- The entries under some keys, by their keys. -/
theorem entries_struck (keys : List Key) (l : List Held) :
    (struck keys l).map Held.entry = (l.map Held.entry).filter fun e => decide (e.key ∈ keys) := by
  rw [struck, List.filter_map]
  rfl

/-- The entries that do not stand under them, by their keys. -/
theorem entries_spared (keys : List Key) (l : List Held) :
    (spared keys l).map Held.entry = (l.map Held.entry).filter fun e => decide (e.key ∉ keys) := by
  rw [spared, List.filter_map]
  rfl

/-- Part of an ordered list is what stands under its keys. -/
theorem struck_of_sublist (h : Ordered l) {m : List Entry} (hm : m.Sublist (l.map Held.entry)) :
    (struck (m.map Entry.key) l).map Held.entry = m := by
  have ho := ordered_entries.2 h
  rw [entries_struck]
  refine (ho.filter _).ascending.ext (ho.sublist hm).ascending fun e => ?_
  rw [List.mem_filter, decide_eq_true_eq]
  constructor
  · rintro ⟨he, hk⟩
    obtain ⟨f, hf, hk⟩ := List.mem_map.1 hk
    rwa [← ho.eq_of_key (hm.subset hf) he hk]
  · exact fun he => ⟨hm.subset he, List.mem_map_of_mem he⟩

/-- What stands under keys depends on which of the list's keys these are. -/
theorem struck_congr {keys keys' : List Key}
    (h : ∀ x ∈ l, (x.entry.key ∈ keys ↔ x.entry.key ∈ keys')) : struck keys l = struck keys' l :=
  List.filter_congr fun x hx => decide_eq_decide.2 (h x hx)

/-- Only the keys of what is held make a difference. -/
theorem spared_congr {keys keys' : List Key}
    (h : ∀ x ∈ l, (x.entry.key ∈ keys ↔ x.entry.key ∈ keys')) : spared keys l = spared keys' l :=
  List.filter_congr fun x hx => decide_eq_decide.2 (not_congr (h x hx))

/-- The same for a part that runs backwards. -/
theorem reverse_struck (h : Ordered l) {m : List Entry}
    (hm : m.Sublist (l.map Held.entry).reverse) :
    ((struck (m.map Entry.key) l).map Held.entry).reverse = m := by
  have hr : m.reverse.Sublist (l.map Held.entry) := List.sublist_reverse_iff.1 hm
  have hk : struck (m.map Entry.key) l = struck (m.reverse.map Entry.key) l :=
    List.filter_congr fun x _ => by simp only [List.mem_map, List.mem_reverse]
  rw [hk, struck_of_sublist h hr, List.reverse_reverse]

/-- The index gives the keys of a head window on the entries. -/
theorem headKeys_eq (h : Stocks d l) (w : Window) (band : Band) :
    d.queue.headKeys w band = (w.head band (l.map Held.entry)).map Entry.key := by
  rw [headKeys, h.index.items, w.head_map (f := resident) fun _ => rfl,
    w.head_map (f := Held.entry) fun _ => rfl, List.map_map, List.map_map]
  rfl

/-- It gives those of a tail window. -/
theorem lowestKeys_eq (h : Stocks d l) (w : Window) (limit : Option Entry) (leaveOne : Bool) :
    d.queue.lowestKeys w limit leaveOne =
      (w.tail (limit.map Entry.key) leaveOne (l.map Held.entry).length
        (l.map Held.entry).reverse).map Entry.key := by
  rw [lowestKeys, h.index.items, ← List.map_reverse, ← List.map_reverse,
    w.tail_map (f := resident) fun _ => rfl, w.tail_map (f := Held.entry) fun _ => rfl,
    List.length_map, List.length_map, List.map_map, List.map_map]
  rfl

/-- The keys of what a condition on slots picks from the index. -/
theorem keys_filter (h : Stocks d l) (p : Slot → Bool) :
    (d.queue.index.items.filter fun r => p r.slot).map keyOf =
      ((l.map Held.entry).filter fun e => p e.slot).map Entry.key := by
  rw [h.index.items, List.filter_map, List.filter_map, List.map_map, List.map_map]
  rfl

/-- The keys of the first entries in the index. -/
theorem keys_take (h : Stocks d l) (count : Nat) :
    (d.queue.index.items.take count).map keyOf =
      ((l.map Held.entry).take count).map Entry.key := by
  rw [h.index.items, ← List.map_take, ← List.map_take, List.map_map, List.map_map]
  rfl

/-- It knows where each id stands. -/
theorem place?_eq (h : Stocks d l) (id : UInt64) :
    d.queue.index.place? id = placeIn (l.map Held.entry) id := by
  rw [h.index.places, placeIn, List.find?_map, List.find?_map, Option.map_map, Option.map_map]
  rfl

/-- The keys of what is in the index before a key. -/
theorem before_eq (h : Stocks d l) (key : Key) : (d.queue.index.before key).map keyOf =
    ((l.map Held.entry).filter (keyOf · < key)).map Entry.key :=
  keys_filter h fun slot => decide (slot.key < key)

/-- It gives the keys of what is served before a key, and of what stands there. -/
theorem upTo_eq (h : Stocks d l) (key : Key) : (d.queue.index.upTo key).map keyOf =
    ((l.map Held.entry).filter (keyOf · ≤ key)).map Entry.key :=
  keys_filter h fun slot => decide (slot.key ≤ key)

/-! ## Reading -/

/-- Hook calls leave a queue where it is in its life. -/
theorem Steady.called {d' : Desk Cached} (h : Steady d d') (calls : List Call) :
    Steady d { d' with calls } := ⟨h.storageId, h.bounds, h.phase, h.hooks, h.used, h.filled⟩

/-- They leave what is held. -/
theorem Stocks.called (h : Stocks d l) (calls : List Call) : Stocks { d with calls } l :=
  ⟨h.layout, h.index, h.hot, h.rows, h.named, h.warm, h.cold, h.fit⟩

/-- Work that a failure of the database may spoil, but that changes neither the queue nor its rows.
-/
structure Spoilt (d d' : Desk Cached) (l : List Held) : Prop where
  /-- The queue is as it was. -/
  queue : d'.queue = d.queue
  /-- The table is as it was. -/
  table : d'.store.table = d.store.table
  /-- The store was used. -/
  used : d.store.Used d'.store
  /-- What is held is held. -/
  stocks : Stocks d' l
  /-- The link did not serve. -/
  unserved : ¬ d.store.link.Serving

/-- Spoilt work leaves the queue where it is in its life. -/
theorem Spoilt.steady {d' : Desk Cached} (h : Spoilt d d' l) : Steady d d' :=
  ⟨congrArg Cached.storageId h.queue, congrArg Cached.bounds h.queue,
    congrArg Cached.phase h.queue, congrArg Cached.hooks h.queue, h.used,
    fun hs => absurd hs h.unserved⟩

/-- Hook calls make no difference to that. -/
theorem Spoilt.called {d' : Desk Cached} {before : List Call}
    (h : Spoilt { d with calls := before } d' l) (calls : List Call) :
    Spoilt d { d' with calls } l :=
  ⟨h.queue, h.table, h.used, h.stocks.called calls, h.unserved⟩

/-- A call that the database failed spoils work that has done nothing else. -/
theorem spoilt_missed (h : Stocks d l) {fault : Fault} {store : Store}
    (hm : d.store.Missed fault store) : Spoilt d { d with store } l :=
  ⟨rfl, hm.table, hm.used, h.missed hm, hm.unserved⟩

/-- Work on what is held gives an answer and leaves a list, wherever its entries are kept then; or
it is spoilt. Spoilt work fails, unless it is lenient and takes nothing out. -/
def Does (lenient : Prop) (d : Desk Cached) (l : List Held) (act : Action (Desk Cached) α)
    (answer : α) (rest : List Held) : Prop :=
  (∃ d' m, act.on d = (.ok answer, d') ∧ Steady d d' ∧ Stocks d' m ∧ SameRows rest m) ∨
    Spoilt d (act.on d).2 l ∧ (lenient ∧ rest = l ∨ ∃ fault, (act.on d).1 = .error fault)

/-- Changing an active queue announces what has become of it, even after a failure. -/
theorem altering_on (ha : d.queue.phase = .active) (act : Action (Desk Cached) α) :
    (altering act).on d = ((act.on d).1, { (act.on d).2 with
      calls := (act.on d).2.calls ++ announcement (act.on d).2.queue false }) := by
  have ha' : Managed.phase d.queue = .active := ha
  simp only [altering, Action.on_bind, on_requireActive, ha', Phase.requireActive, if_true,
    Action.on_attempt, on_announce, Action.on_require]

/-- Work comes to other work whose answer is seen differently; in the end more may be recorded. -/
def Amounts {β : Type} (d : Desk Cached) (act : Action (Desk Cached) β)
    (core : Action (Desk Cached) α) (view : α → β) : Prop :=
  ∃ calls, act.on d = ((core.on d).1.map view, { (core.on d).2 with calls })

section

variable {β γ : Type} {act : Action (Desk Cached) β} {core : Action (Desk Cached) α} {view : α → β}
  {answer : α} {rest : List Held}

/-- Work comes to itself. -/
theorem Amounts.refl (d : Desk Cached) (core : Action (Desk Cached) α) :
    Amounts d core core id := by
  refine ⟨(core.on d).2.calls, ?_⟩
  rcases core.on d with ⟨_ | _, _⟩
  · rfl
  · rfl

/-- Work that looks at the queue first. -/
theorem Amounts.of_theQueue {next : Cached → Action (Desk Cached) β}
    (h : Amounts d (next d.queue) core view) : Amounts d (theQueue >>= next) core view := by
  rwa [Amounts, Action.on_bind_of_ok (on_theQueue d)]

/-- The answer may be seen differently once more. -/
theorem Amounts.map (h : Amounts d act core view) (f : β → γ) :
    Amounts d (act >>= fun b => pure (f b)) core fun a => f (view a) := by
  obtain ⟨calls, ho⟩ := h
  refine ⟨calls, ?_⟩
  rw [Action.on_seen, ho]
  rcases core.on d with ⟨_ | _, _⟩
  · rfl
  · rfl

/-- Reading at an active queue comes to what is read. -/
theorem Amounts.reading (h : Amounts d act core view) (ha : d.queue.phase = .active) :
    Amounts d (reading act) core view := by
  rwa [Amounts, on_reading (show Managed.phase d.queue = .active from ha)]

/-- A change of an active queue comes to what is changed; then the watchers are told. -/
theorem Amounts.altering (h : Amounts d act core view) (ha : d.queue.phase = .active) :
    Amounts d (altering act) core view := by
  obtain ⟨calls, ho⟩ := h
  rw [Amounts, altering_on ha, ho]
  exact ⟨_, rfl⟩

/-- It gives a view of what the other work gives. -/
theorem Amounts.outcome (h : Amounts d act core view) :
    (act.on d).1 = (core.on d).1.map view := by
  obtain ⟨calls, ho⟩ := h
  rw [ho]

/-- It succeeds exactly if the other work does, with a view of its answer. -/
theorem Amounts.ok_iff (h : Amounts d act core view) {b : β} :
    (act.on d).1 = .ok b ↔ ∃ a, (core.on d).1 = .ok a ∧ view a = b := by
  rw [h.outcome]
  cases (core.on d).1 with
  | error fault => exact ⟨nofun, nofun⟩
  | ok a => simp [Except.map]

/-- It fails as the other work does. -/
theorem Amounts.error_iff (h : Amounts d act core view) {fault : Fault} :
    (act.on d).1 = .error fault ↔ (core.on d).1 = .error fault := by
  rw [h.outcome]
  cases (core.on d).1 with
  | error other => simp [Except.map]
  | ok a => exact ⟨nofun, nofun⟩

/-- It leaves the queue that the other work leaves. -/
theorem Amounts.queue (h : Amounts d act core view) :
    (act.on d).2.queue = (core.on d).2.queue := by
  obtain ⟨calls, ho⟩ := h
  rw [ho]

/-- It leaves the store that the other work leaves. -/
theorem Amounts.store (h : Amounts d act core view) :
    (act.on d).2.store = (core.on d).2.store := by
  obtain ⟨calls, ho⟩ := h
  rw [ho]

/-- What other work does is done by work that comes to it. -/
theorem Does.amounts (h : Does lenient d l core answer rest) (hamounts : Amounts d act core view) :
    Does lenient d l act (view answer) rest := by
  obtain ⟨calls, hon⟩ := hamounts
  rw [Does, hon]
  rcases h with ⟨d', m, ho, hst, hs, hsame⟩ | ⟨hspoilt, hclaim⟩
  · rw [ho]
    exact .inl ⟨_, m, rfl, hst.called _, hs.called _, hsame⟩
  · refine .inr ⟨⟨hspoilt.queue, hspoilt.table, hspoilt.used, hspoilt.stocks.called _,
      hspoilt.unserved⟩, hclaim.imp_right ?_⟩
    rintro ⟨fault, hf⟩
    exact ⟨fault, by rw [hf]; rfl⟩

/-- It may look at the queue first. -/
theorem Does.of_theQueue {next : Cached → Action (Desk Cached) α}
    (h : Does lenient d l (next d.queue) answer rest) :
    Does lenient d l (theQueue >>= next) answer rest :=
  h.amounts (Amounts.refl d _).of_theQueue

/-- It may give another view of its answer. -/
theorem Does.map (h : Does lenient d l core answer rest) (view : α → β) :
    Does lenient d l (core >>= fun a => pure (view a)) (view answer) rest :=
  h.amounts ((Amounts.refl d core).map view)

/-- It may be read by an active queue. -/
theorem Does.reading (h : Does lenient d l core answer rest) (ha : d.queue.phase = .active) :
    Does lenient d l (reading core) answer rest :=
  h.amounts ((Amounts.refl d core).reading ha)

/-- It may be a change of an active queue. -/
theorem Does.altering (h : Does lenient d l core answer rest) (ha : d.queue.phase = .active) :
    Does lenient d l (altering core) answer rest :=
  h.amounts ((Amounts.refl d core).altering ha)

end

/-- Work in the table that leaves the rows changes nothing that is held. -/
theorem Stocks.unchanged (h : Stocks d l) {tally : Tally} {store : Store} {calls : List Call}
    (hk : store.Keeps d.queue.cold.storageId.text (inTable l)) (hu : d.store.Used store) :
    Stocks (withTable d tally store calls) l :=
  ⟨h.layout, h.index, h.hot, h.named ▸ hk, h.named, h.warm, h.cold, hu.tableName ▸ h.fit⟩

/-- Different keys stand for different ids. -/
theorem nodup_idsAt (h : Stocks d l) {keys : List Key} (hu : keys.Nodup)
    (p : Resident → Bool) : (((d.queue.residentsAt keys).filter p).map idOf).Nodup := by
  have hres : (d.queue.residentsAt keys).Nodup := by
    refine hu.filterMap fun k k' r hk hk' => ?_
    rw [Option.mem_def, h.index.atKey?_eq_some_iff] at hk hk'
    exact hk.2.symm.trans hk'.2
  refine (hres.filter p).map_on fun r hr r' hr' he => ?_
  obtain ⟨x, hx, -, rfl⟩ := (mem_residentsAt h).1 (List.mem_filter.1 hr).1
  obtain ⟨y, hy, -, rfl⟩ := (mem_residentsAt h).1 (List.mem_filter.1 hr').1
  rw [h.layout.order.eq_of_id hx hy he]

/-- What is read under some keys, by what the table says of the cold entries there. -/
theorem fetch_eq (h : Stocks d l) {keys : List Key} (hu : keys.Nodup) : (fetch keys).on d =
    match (onCold (Durable.peekIds
      (((d.queue.residentsAt keys).filter Resident.isCold).map idOf))).on d with
    | (.ok rows, d') => (.ok (inMemory (struck keys l) ++ rows), d')
    | (.error fault, d') =>
      (if fault.isRetryable && !(inMemory (struck keys l)).isEmpty then
        .ok (inMemory (struck keys l)) else .error fault, d') := by
  have hwarm : d.queue.hot.roll.pick
      (((d.queue.residentsAt keys).filter Resident.isHot).map idOf) = inMemory (struck keys l) := by
    rw [h.hot.pick_eq (nodup_idsAt h hu _)]
    exact (filter_idsAt h keys Resident.isHot).1
  rw [fetch, Action.on_bind_of_ok (on_theQueue d)]
  simp only [hwarm, Action.on_bind, Action.on_attempt]
  rcases (onCold (Durable.peekIds _)).on d with ⟨fault | rows, d'⟩
  · dsimp only
    split <;> rfl
  · rfl

/-- What is in memory is read without the table. -/
theorem fetch_hot (h : Stocks d l) {keys : List Key} (hu : keys.Nodup)
    (hc : ∀ x ∈ struck keys l, x.isCold = false) :
    (fetch keys).on d = (.ok ((struck keys l).map Held.entry), d) := by
  have hall : (struck keys l).filter isHot = struck keys l := by
    refine List.filter_eq_self.2 fun x hx => ?_
    have := hc x hx
    rwa [isCold_eq, Bool.not_eq_false'] at this
  rw [fetch_eq h hu, (idsAt_eq_nil_iff h keys Resident.isCold).2 hc, inMemory, hall]
  exact congrArg (fun es => (Except.ok es, d)) (List.append_nil _)

/-- Reading by different keys gives what stands under them, in the order of service; or the table
does not answer, and what is in memory stands alone, if there is any. -/
theorem fetch_cases (h : Stocks d l) {keys : List Key} (hu : keys.Nodup) :
    (∃ tally store calls, (fetch keys).on d =
        (.ok ((struck keys l).map Held.entry), withTable d tally store calls) ∧
      store.Keeps d.queue.cold.storageId.text (inTable l) ∧ d.store.Used store) ∨
    ∃ fault store, (fetch keys).on d = (if (inMemory (struck keys l)).isEmpty then .error fault else
        .ok (inMemory (struck keys l)), { d with store }) ∧ d.store.Missed fault store := by
  have hcold : (inTable l).filter (fun e => decide
      (e.id ∈ ((d.queue.residentsAt keys).filter Resident.isCold).map idOf)) =
      ((struck keys l).filter isCold).map Held.entry := by
    have := filter_coldAt h keys (p := fun _ => true) fun _ _ => rfl
    rwa [List.filter_true] at this
  have hsplit : inMemory (struck keys l) ++ ((struck keys l).filter isCold).map Held.entry =
      (struck keys l).map Held.entry := by
    rw [inMemory, ← List.map_append]
    exact congrArg _ (h.layout.filter _).split
  rw [fetch_eq h hu]
  rcases onCold_cases (Durable.peekIds_works h.cold h.cold_rows (nodup_idsAt h hu Resident.isCold))
    with ⟨rest, tally, store, calls, hc, rfl, hk, hused⟩ | ⟨fault, store, hc, hm⟩
  · refine .inl ⟨tally, store, calls, ?_, hk, hused⟩
    rw [hc, hcold]
    exact congrArg (fun es => (Except.ok es, withTable d tally store calls)) hsplit
  · refine .inr ⟨fault, store, ?_, hm⟩
    rw [hc]
    simp only [hm.retryable, Bool.true_and]
    cases (inMemory (struck keys l)).isEmpty <;> rfl

/-- Over a silent store, what is in memory stands alone before what is cold. -/
theorem fetch_silent (h : Stocks d l) (hs : d.store.Silent) {keys : List Key} (hu : keys.Nodup)
    (hc : ¬ ∀ x ∈ struck keys l, x.isCold = false) : ∃ outage store, (fetch keys).on d =
      (if (inMemory (struck keys l)).isEmpty then .error (.unavailable .getByIds outage) else
        .ok (inMemory (struck keys l)), { d with store }) ∧ store.table = d.store.table := by
  have hi := mt (idsAt_eq_nil_iff h keys Resident.isCold).1 hc
  obtain ⟨outage, ho⟩ := lacks_onCold (Durable.lacks_peekIds hs h.cold hi)
  rw [fetch_eq h hu]
  rcases onCold_cases (Durable.peekIds_works h.cold h.cold_rows (nodup_idsAt h hu Resident.isCold))
    with ⟨rest, tally, store, calls, hon, -⟩ | ⟨fault, store, hon, hm⟩
  · rw [hon] at ho
    cases ho
  · rw [hon] at ho ⊢
    cases ho
    refine ⟨outage, store, ?_, hm.table⟩
    simp only [hm.retryable, Bool.true_and]
    cases (inMemory (struck keys l)).isEmpty <;> rfl

/-- Reading by keys gives what stands under them, or what is in memory of it, or fails. -/
theorem fetch_on (hl : lenient) (h : Stocks d l) {keys : List Key} (hu : keys.Nodup) :
    Does lenient d l (fetch keys) ((struck keys l).map Held.entry) l := by
  rcases fetch_cases h hu with ⟨tally, store, calls, ho, hk, hused⟩ | ⟨fault, store, ho, hm⟩
  · exact .inl ⟨_, l, ho, steady_withTable hused, h.unchanged hk hused, .refl l⟩
  · refine .inr ?_
    rw [ho]
    exact ⟨spoilt_missed h hm, .inl ⟨hl, rfl⟩⟩

/-- The part in memory is read where it is active. -/
theorem on_hotSelect (ha : d.queue.hot.phase = .active) {es : List Entry}
    (h : d.queue.hot.roll.Lists es) (admits : Entry → Bool) :
    (onHot (Ram.select admits)).on d = (.ok (es.filter admits), d) := by
  have ha' : Managed.phase d.queue.hot = .active := ha
  apply on_onHot (e := ⟨d.queue.hot, d.store, d.calls⟩)
  simp only [Ram.select, on_reading (d := ⟨d.queue.hot, d.store, d.calls⟩) ha',
    Action.on_bind, on_theQueue, Action.on_pure, h.items]

/-- The index knows what is cold. -/
theorem any_isCold (hi : d.queue.index.Lists (l.map resident)) {x : Held} (hx : x ∈ l) :
    (d.queue.index.get? x.entry.id).any Resident.isCold = x.isCold := by
  have hget : d.queue.index.get? x.entry.id = some x.resident :=
    hi.get?_eq_some_iff.2 ⟨List.mem_map_of_mem hx, rfl⟩
  rw [hget]
  rfl

/-- What a condition admits in memory and of the cold entries in the table is what it admits. -/
theorem select_value (hl : Layout d.queue.bounds l) (hi : d.queue.index.Lists (l.map resident))
    (admits : Entry → Bool) :
    (inMemory l).filter admits ++ ((inTable l).filter admits).filter (fun e =>
      (d.queue.index.get? e.id).any Resident.isCold) = (l.map Held.entry).filter admits := by
  have hsplit : ((l.filter fun x => admits x.entry).filter isHot) ++
      ((l.filter fun x => admits x.entry).filter isCold) = l.filter fun x => admits x.entry :=
    (hl.filter _).split
  rw [List.filter_map, show (admits ∘ Held.entry) = fun x => admits x.entry from rfl, ← hsplit,
    List.map_append]
  simp only [inMemory, inTable, List.filter_map, List.filter_filter]
  refine congrArg₂ _ (congrArg _ (List.filter_congr fun x _ => Bool.and_comm ..))
    (congrArg _ (List.filter_congr fun x hx => ?_))
  have hstored : x.isCold = true → x.stored = true := fun hc => by
    rw [isCold_eq] at hc
    exact hl.rows x hx (by simpa using hc)
  change ((d.queue.index.get? x.entry.id).any Resident.isCold && (admits x.entry && x.stored)) =
    (x.isCold && admits x.entry)
  rw [any_isCold hi hx]
  cases hc : x.isCold with
  | false => rfl
  | true => simp [hstored hc]

/-- Choosing among all entries gives those that a condition admits, in the order of service. -/
theorem select_on (h : Stocks d l) (ha : d.queue.phase = .active) (admits : Entry → Bool) :
    Does lenient d l (select admits) ((l.map Held.entry).filter admits) l := by
  refine Does.reading ?_ ha
  rw [Does, Action.on_bind_of_ok (on_hotSelect h.warm h.hot admits)]
  rcases onCold_cases (Durable.select_works h.cold h.cold_rows admits) with
    ⟨rows, tally, store, calls, hc, rfl, hk, hused⟩ | ⟨fault, store, hc, hm⟩
  · refine .inl ⟨withTable d tally store calls, l, ?_, steady_withTable hused,
      h.unchanged hk hused, .refl l⟩
    refine (Action.on_bind_of_ok hc).trans ?_
    rw [Action.on_bind_of_ok (on_theQueue _), Action.on_pure]
    exact congrArg (fun es => (Except.ok es, withTable d tally store calls))
      (select_value h.layout h.index admits)
  · rw [Action.on_bind_of_error hc]
    exact .inr ⟨spoilt_missed h hm, .inr ⟨fault, rfl⟩⟩

/-! ## Taking out -/

/-- Taking by keys gives what stands under them and leaves the rest. -/
theorem does_takeKeys (lenient : Prop) (h : Stocks d l) (keys : List Key) :
    Does lenient d l (takeKeys keys) ((struck keys l).map Held.entry) (spared keys l) := by
  rcases takeKeys_on h keys with ⟨d', m, ho, hst, hs, hsame⟩ | ⟨fault, store, ho, hm, -⟩
  · exact .inl ⟨d', m, ho, hst, hs, hsame⟩
  · exact .inr (by rw [ho]; exact ⟨spoilt_missed h hm, .inr ⟨fault, rfl⟩⟩)

/-- Removing by keys counts what stands under them and leaves the rest. -/
theorem does_dropKeys (lenient : Prop) (h : Stocks d l) (keys : List Key) :
    Does lenient d l (dropKeys keys) (struck keys l).length (spared keys l) := by
  rcases dropKeys_on h keys with ⟨d', m, ho, hst, hs, hsame⟩ | ⟨fault, store, ho, hm, -⟩
  · exact .inl ⟨d', m, ho, hst, hs, hsame⟩
  · exact .inr (by rw [ho]; exact ⟨spoilt_missed h hm, .inr ⟨fault, rfl⟩⟩)

/-- The part in memory forgets everything. -/
theorem on_hotClear (ha : d.queue.hot.phase = .active) : ∃ count calls,
    (onHot Ram.clear).on d =
      (.ok count, { withHot d { d.queue.hot with roll := {} } with calls }) := by
  have ha' : Managed.phase d.queue.hot = .active := ha
  have ho : ∃ count calls, (Ram.clear).on ⟨d.queue.hot, d.store, d.calls⟩ =
      (.ok count, ⟨{ d.queue.hot with roll := {} }, d.store, calls⟩) := by
    simp only [Ram.clear, on_changing (d := ⟨d.queue.hot, d.store, d.calls⟩) ha', Action.on_bind,
      on_theQueue, on_changeQueue, Action.on_pure]
    exact ⟨_, _, rfl⟩
  obtain ⟨count, calls, ho⟩ := ho
  exact ⟨count, calls, on_onHot ho⟩

/-- Clearing gives the number of entries and leaves none. -/
theorem clear_on (lenient : Prop) (h : Stocks d l) (ha : d.queue.phase = .active) :
    Does lenient d l clear l.length [] := by
  have hcount : d.queue.index.tally.entries = l.length := by
    rw [h.index.tally, Tally.total_entries, List.length_map]
  refine Does.altering (Does.of_theQueue ?_) ha
  rw [hcount]
  rcases onCold_cases (Durable.clear_works h.cold h.cold_rows) with
    ⟨count, tally, store, calls, hc, -, hk, hused⟩ | ⟨fault, store, hc, hm⟩
  · obtain ⟨cleared, calls', hclear⟩ :=
      on_hotClear (d := withTable d tally store calls) h.warm
    refine .inl ⟨_, [], (Action.on_bind_of_ok hc).trans ((Action.on_bind_of_ok hclear).trans
      (Action.on_bind_of_ok (on_reindex _ _))),
      ⟨rfl, rfl, rfl, rfl, hused, fun _ _ => rfl⟩, ?_, .refl []⟩
    exact ⟨.nil _, .empty, .empty, h.named ▸ hk, h.named, h.warm, h.cold, hused.tableName ▸ h.fit⟩
  · refine .inr ?_
    rw [Action.on_bind_of_error hc]
    exact ⟨spoilt_missed h hm, .inr ⟨fault, rfl⟩⟩

/-! ## Serving -/

/-- What a request leaves of what is held, as far as it takes something out. -/
def restOf (l : List Held) (request : Request) : List Held :=
  if request.removes then spared ((request.named (l.map Held.entry)).map Entry.key) l else l

/-- What a request leaves of what is held has the entries that it leaves. -/
theorem entries_restOf (l : List Held) (request : Request) :
    (restOf l request).map Held.entry = request.left (l.map Held.entry) := by
  unfold restOf Request.left
  split
  · exact entries_spared _ l
  · rfl

/-- No key is named twice. -/
theorem nodup_named (h : Ordered l) (request : Request) :
    ((request.named (l.map Held.entry)).map Entry.key).Nodup := by
  have ho := ordered_entries.2 h
  refine (Request.nodup_named ho request).map_on fun e he f hf hk => ?_
  exact ho.eq_of_key (Request.mem_of_mem_named he) (Request.mem_of_mem_named hf) hk

/-- Under the keys of what is read from the front stands what is read. -/
theorem struck_front (h : Ordered l) {request : Request} (hr : request.readsFront = true) :
    (struck ((request.named (l.map Held.entry)).map Entry.key) l).map Held.entry =
      request.named (l.map Held.entry) :=
  struck_of_sublist h (Request.named_sublist_of_readsFront _ hr)

/-- Under the keys of what is read from the back it stands the other way round. -/
theorem struck_lowest (h : Ordered l) (window : Window) (limit : Option Entry) (leaveOne : Bool) :
    ((struck (((Request.peekLowest window limit leaveOne).named (l.map Held.entry)).map Entry.key)
      l).map Held.entry).reverse = (Request.peekLowest window limit leaveOne).named
        (l.map Held.entry) :=
  reverse_struck h (Window.tail_sublist _ _ _ _ _)

/-- Under the keys of what a request names stands what it names. -/
theorem struck_named (h : Ordered l) (request : Request) :
    ((struck ((request.named (l.map Held.entry)).map Entry.key) l).map Held.entry).Perm
      (request.named (l.map Held.entry)) := by
  rcases request.named_sublist (l.map Held.entry) with hs | hs
  · rw [struck_of_sublist h hs]
  · exact (List.reverse_perm _).symm.trans (.of_eq (reverse_struck h hs))

/-- The keys that the index knows of some ids are those of the entries with these ids. -/
theorem mem_keysOf (h : Stocks d l) (entries : List Entry) {x : Held} (hx : x ∈ l) :
    x.entry.key ∈ entries.filterMap (fun e => d.queue.index.place? e.id) ↔
      x.entry.key ∈ ((l.map Held.entry).filter fun e =>
        decide (e.id ∈ entries.map Entry.id)).map Entry.key := by
  have ho := ordered_entries.2 h.layout.order
  rw [Request.key_mem_filter ho _ (List.mem_map_of_mem hx), decide_eq_true_eq, List.mem_filterMap,
    List.mem_map]
  refine exists_congr fun e => and_congr_right fun _ => ?_
  rw [h.index.place?_eq_some_iff]
  constructor
  · rintro ⟨r, -, hid, hk⟩
    exact hid.symm.trans (congrArg Key.id hk)
  · exact fun hid => ⟨x.resident, List.mem_map_of_mem hx, hid.symm, rfl⟩

/-! ## What requests come to -/

/-- A head window comes to reading under the keys of what it covers. -/
theorem peek_amounts (h : Stocks d l) (ha : d.queue.phase = .active) (window : Window)
    (band : Band) : Amounts d (peek window band)
      (fetch ((window.head band (l.map Held.entry)).map Entry.key)) id := by
  refine Amounts.reading (Amounts.of_theQueue ?_) ha
  rw [headKeys_eq h]
  exact .refl d _

/-- A request that reads from the front comes to reading under the keys of what it names. -/
theorem front_amounts (h : Stocks d l) (ha : d.queue.phase = .active) {request : Request}
    (hr : request.readsFront = true) : Amounts d (serve request)
      (fetch ((request.named (l.map Held.entry)).map Entry.key)) request.reply := by
  cases request with
  | peek window band => exact (peek_amounts h ha window band).map Reply.entries
  | peekFirst => exact (peek_amounts h ha _ _).map fun es => Reply.entry es.head?
  | peekBefore limit =>
    refine Amounts.map (?_ : Amounts d (peekBefore limit) _ id) Reply.entries
    refine Amounts.reading (Amounts.of_theQueue ?_) ha
    simp only [place?_eq h, Request.named]
    cases limit.bind fun e => placeIn (l.map Held.entry) e.id with
    | none =>
      have hstruck : struck [] l = [] := by simp [struck]
      have hnone : (fetch []).on d = (.ok ((struck [] l).map Held.entry), d) :=
        fetch_hot h List.nodup_nil (by simp [hstruck])
      rw [hstruck] at hnone
      exact ⟨d.calls, by rw [List.map_nil, hnone]; rfl⟩
    | some key =>
      dsimp only
      rw [before_eq h]
      exact .refl d _
  | _ => cases hr

/-- It gives what it names. -/
theorem front_does (hl : lenient) (h : Stocks d l) (ha : d.queue.phase = .active)
    {request : Request} (hr : request.readsFront = true) :
    Does lenient d l (serve request) (request.reply (request.named (l.map Held.entry))) l := by
  have hf := (fetch_on hl h (nodup_named h.layout.order request)).amounts (front_amounts h ha hr)
  rwa [struck_front h.layout.order hr] at hf

/-- One that reads from the back comes to reading there and turning the answer. -/
theorem peekLowest_amounts (h : Stocks d l) (ha : d.queue.phase = .active) (window : Window)
    (limit : Option Entry) (leaveOne : Bool) :
    Amounts d (serve (.peekLowest window limit leaveOne))
      (fetch (((Request.peekLowest window limit leaveOne).named (l.map Held.entry)).map Entry.key))
      fun es => .entries es.reverse := by
  refine Amounts.map (?_ : Amounts d (peekLowest window limit leaveOne) _ List.reverse)
    Reply.entries
  refine Amounts.reading (Amounts.of_theQueue ?_) ha
  rw [lowestKeys_eq h]
  exact (Amounts.refl d _).map List.reverse

/-- The references are read off the index. -/
theorem references_on (h : Stocks d l) (ha : d.queue.phase = .active) :
    (serve .references).on d = (.ok (.ids ((l.map Held.entry).map Entry.id)), d) := by
  have hactive : Managed.phase d.queue = .active := ha
  refine Action.on_bind_of_ok ((on_reading hactive _).trans ?_)
  rw [Action.on_bind_of_ok (on_theQueue d), Action.on_pure, Roll.ids, h.index.items, List.map_map,
    List.map_map]
  rfl

/-- What a request comes to that takes entries out: taking or dropping what stands under some keys.
-/
inductive Strikes (d : Desk Cached) (l : List Held) (request : Request) : Prop
  /-- It takes it. -/
  | takes {keys : List Key} {view : List Entry → Reply}
      (hon : Amounts d (serve request) (takeKeys keys) view)
      (hkeys : ∀ x ∈ l, x.entry.key ∈ keys ↔
        x.entry.key ∈ (request.named (l.map Held.entry)).map Entry.key)
      (hview : view ((struck keys l).map Held.entry) =
        request.reply (request.named (l.map Held.entry)))
  /-- It drops it. -/
  | drops {keys : List Key} (hon : Amounts d (serve request) (dropKeys keys) Reply.count)
      (hkeys : ∀ x ∈ l, x.entry.key ∈ keys ↔
        x.entry.key ∈ (request.named (l.map Held.entry)).map Entry.key)
      (hview : Reply.count (struck keys l).length =
        request.reply (request.named (l.map Held.entry)))
  /-- There is nothing to do. -/
  | idles (hon : (serve request).on d = (.ok (request.reply []), d))
      (hnone : request.named (l.map Held.entry) = [])

/-- A request drops what it names. -/
theorem strikes_of_dropped (h : Stocks d l) {request : Request} {keys : List Key}
    (hon : Amounts d (serve request) (dropKeys keys) Reply.count)
    (hreply : ∀ es, request.reply es = .count es.length)
    (hkeys : ∀ x ∈ l, x.entry.key ∈ keys ↔
      x.entry.key ∈ (request.named (l.map Held.entry)).map Entry.key) : Strikes d l request := by
  refine .drops hon hkeys ?_
  have hlength := (struck_named h.layout.order request).length_eq
  rw [List.length_map] at hlength
  rw [hreply, struck_congr hkeys, hlength]

/-- Every request that takes entries out, but clearing, comes to that. -/
theorem strikes (h : Stocks d l) (ha : d.queue.phase = .active) {request : Request}
    (hr : request.removes = true) (hc : request ≠ .clear) : Strikes d l request := by
  cases request with
  | takeLowest window limit leaveOne =>
    refine .takes (Amounts.map (?_ : Amounts d (takeLowest window limit leaveOne) _ List.reverse)
      Reply.entries) (fun _ _ => Iff.rfl) ?_
    · refine Amounts.altering (Amounts.of_theQueue ?_) ha
      rw [lowestKeys_eq h]
      exact (Amounts.refl d _).map List.reverse
    · exact congrArg Reply.entries
        (reverse_struck h.layout.order (Window.tail_sublist _ _ _ _ _))
  | take window low high =>
    refine .takes (Amounts.map (?_ : Amounts d (take window low high) _ id) Reply.entries)
      (fun _ _ => Iff.rfl) ?_
    · refine Amounts.altering (Amounts.of_theQueue ?_) ha
      rw [headKeys_eq h]
      exact .refl d _
    · exact congrArg Reply.entries (struck_of_sublist h.layout.order (window.head_sublist _ _))
  | removeFirst count =>
    refine strikes_of_dropped h (Amounts.map (?_ : Amounts d (removeFirst count) _ id) Reply.count)
      (fun _ => rfl) fun _ _ => Iff.rfl
    refine Amounts.altering (Amounts.of_theQueue ?_) ha
    rw [keys_take h]
    exact .refl d _
  | removeWindow window low high =>
    refine strikes_of_dropped h
      (Amounts.map (?_ : Amounts d (removeWindow window low high) _ id) Reply.count)
      (fun _ => rfl) fun _ _ => Iff.rfl
    refine Amounts.altering (Amounts.of_theQueue ?_) ha
    rw [headKeys_eq h]
    exact .refl d _
  | removeUpTo limit inclusive =>
    refine strikes_of_dropped h
      (Amounts.map (?_ : Amounts d (removeUpTo limit inclusive) _ id) Reply.count)
      (fun _ => rfl) fun _ _ => Iff.rfl
    refine Amounts.altering (Amounts.of_theQueue ?_) ha
    simp only [place?_eq h, Request.named]
    cases inclusive with
    | true =>
      rw [if_pos rfl, if_pos rfl, upTo_eq h]
      exact .refl d _
    | false =>
      rw [if_neg Bool.false_ne_true, if_neg Bool.false_ne_true, before_eq h]
      exact .refl d _
  | removeTransient =>
    refine strikes_of_dropped h (Amounts.map (?_ : Amounts d removeTransient _ id) Reply.count)
      (fun _ => rfl) fun _ _ => Iff.rfl
    refine Amounts.altering (Amounts.of_theQueue ?_) ha
    rw [keys_filter h fun slot => !slot.persistent]
    exact .refl d _
  | removeListed entries =>
    cases hn : entries.isEmpty with
    | true =>
      rw [List.isEmpty_iff.1 hn]
      refine .idles ?_ (by simp [Request.named])
      exact Action.on_bind_of_ok (on_reading (show Managed.phase d.queue = .active from ha) _)
    | false =>
      refine strikes_of_dropped h
        (Amounts.map (?_ : Amounts d (removeListed entries) _ id) Reply.count)
        (fun _ => rfl) fun x hx => mem_keysOf h entries hx
      rw [removeListed, if_neg (by rw [hn]; exact Bool.false_ne_true)]
      refine Amounts.altering (Amounts.of_theQueue ?_) ha
      exact .refl d _
  | clear => exact absurd rfl hc
  | _ => cases hr

/-- Taking entries out leaves the others. -/
theorem Strikes.does (h : Stocks d l) {request : Request} (hs : Strikes d l request) :
    Does lenient d l (serve request) (request.reply (request.named (l.map Held.entry)))
      (spared ((request.named (l.map Held.entry)).map Entry.key) l) := by
  cases hs with
  | @takes keys view hon hkeys hview =>
    rw [← hview, ← spared_congr hkeys]
    exact (does_takeKeys lenient h keys).amounts hon
  | @drops keys hon hkeys hview =>
    rw [← hview, ← spared_congr hkeys]
    exact (does_dropKeys lenient h keys).amounts hon
  | idles hon hnone =>
    rw [hnone]
    refine .inl ⟨d, l, hon, .refl d, h, ?_⟩
    rw [show spared _ l = l by simp [spared]]
    exact .refl l

/-- A cached queue answers every request for contents with a view of the entries that it names,
unless the link does not serve. -/
theorem serve_on (h : Stocks d l) (ha : d.queue.phase = .active) {request : Request}
    (hr : request.looksUp = true) :
    Does (request.removes = false) d l (serve request)
      (request.reply (request.named (l.map Held.entry)))
      (restOf l request) := by
  cases request with
  | start | shutdown | destroy | put => cases hr
  | peek | peekFirst | peekBefore => exact front_does rfl h ha rfl
  | peekLowest window limit leaveOne =>
    have hf : Does ((Request.peekLowest window limit leaveOne).removes = false) d l _ _ _ :=
      (fetch_on rfl h (nodup_named h.layout.order _)).amounts
        (peekLowest_amounts h ha window limit leaveOne)
    rwa [struck_lowest h.layout.order] at hf
  | references => exact .inl ⟨d, l, references_on h ha, .refl d, h, .refl l⟩
  | select admits => exact (select_on h ha admits).map Reply.entries
  | takeLowest | take | removeFirst | removeWindow | removeUpTo | removeTransient | removeListed =>
    exact Strikes.does h (strikes h ha rfl (by nofun))
  | clear =>
    have hrest : restOf l .clear = [] := by
      refine List.filter_eq_nil_iff.2 fun x hx hm => of_decide_eq_true hm ?_
      exact List.mem_map_of_mem (List.mem_map_of_mem hx)
    have hc := (clear_on (Request.clear.removes = false) h ha).map Reply.count
    rw [← List.length_map (f := Held.entry)] at hc
    rw [hrest]
    exact hc

end Spillway.Cached
