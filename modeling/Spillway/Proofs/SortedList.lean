import Mathlib.Data.List.Dedup
import Spillway.Proofs.Limits
import Spillway.Proofs.Reach
import Spillway.Proofs.Storing

/-!
# A queue in memory is a sorted list

A queue in memory keeps its entries, where each id stands, and the totals. Whatever it has been
through, the three say the same, and what it answers and what it has afterwards is what one would do
with a list of different entries that stands in the order of service. Nothing is ever taken off the
totals that they do not have.
-/

namespace Spillway

open Desk

/-! ## What a request finds in a list -/

/-- The entries of a list within a band of priorities. -/
def Band.of (l : List Entry) : Band → List Entry
  | .all => l
  | .between low high => l.filter fun e => decide (low ≤ e.priority ∧ e.priority ≤ high)
  | .ofFirst => l.filter fun e => l.head?.any fun first => decide (e.priority = first.priority)

/-- The entries of a list that are served after a limit, if there is one, from the back. -/
def servedAfter (limit : Option Entry) (l : List Entry) : List Entry :=
  (l.filter fun e => limit.all fun s => decide (s.key < e.key)).reverse

/-- What a request finds in a list that stands in the order of service, in the order in which it is
given. -/
def Request.Finds (l : List Entry) : Request → List Entry → Prop
  | .start, m | .shutdown, m | .destroy, m | .put _ _, m => m = []
  | .peek w band, m => w.IsHead (band.of l) m
  | .peekFirst, m => m = l.take 1
  | .peekBefore limit, m =>
    m = l.filter fun e => l.any fun s => limit.any (·.id = s.id) && decide (e.key < s.key)
  | .peekLowest w limit leaveOne, m | .takeLowest w limit leaveOne, m =>
    ∃ covered, w.IsTail (servedAfter limit l) covered ∧
      m = if leaveOne = true ∧ covered.length = l.length then covered.dropLast else covered
  | .take w low high, m | .removeWindow w low high, m =>
    w.IsHead ((Band.between low high).of l) m
  | .removeFirst count, m => m = l.take count
  | .removeListed entries, m => m = l.filter fun e => decide (e.id ∈ entries.map Entry.id)
  | .removeUpTo limit inclusive, m =>
    m = l.filter (((l.find? fun s => decide (s.id = limit.id)).getD limit).upTo inclusive)
  | .removeTransient, m => m = l.filter (!·.persistent)
  | .clear, m | .references, m => m = l
  | .select admits, m => m = l.filter admits

section
variable {l : List Entry}

/-- What a head window may cover is what is within its band. -/
theorem filter_within (l : List Entry) (band : Band) :
    l.filter (Window.within (Window.limitsOf band l).1 (Window.limitsOf band l).2) = band.of l := by
  rw [Window.filter_within_eq]
  cases band with
  | all => rfl
  | between => rfl
  | ofFirst => rfl

/-- The head window that a request names is the one on its band. -/
theorem isHead_head (h : Ordered l) (w : Window) (band : Band) :
    w.IsHead (band.of l) (w.head band l) := by
  rw [← filter_within]
  exact w.isHead_headFrom _ _ h.ascending

/-- The tail window that a request names is the one on what is served after its limit, except for
the entry that may be left. -/
theorem isTail_tail (h : Ordered l) (w : Window) (limit : Option Entry) (leaveOne : Bool) :
    ∃ covered, w.IsTail (servedAfter limit l) covered ∧
      w.tail (limit.map Entry.key) leaveOne l.length l.reverse =
        if leaveOne = true ∧ covered.length = l.length then covered.dropLast else covered := by
  have hbeyond : l.reverse.filter (Window.beyond (limit.map Entry.key)) = servedAfter limit l := by
    rw [List.filter_reverse, servedAfter]
    congr 1
    refine List.filter_congr fun e _ => ?_
    cases limit with
    | none => rfl
    | some s =>
      rw [Bool.eq_iff_iff, Window.beyond, Option.map_some, Option.any_some, Option.all_some,
        Bool.not_eq_true', decide_eq_false_iff_not, decide_eq_true_eq]
      exact not_not
  have htail := w.isTail_tailFrom (limit.map Entry.key) (List.pairwise_reverse.2 h.ascending)
  refine ⟨_, hbeyond ▸ htail, ?_⟩
  simp only [Window.tail, Bool.and_eq_true, beq_iff_eq]

/-- The entries that a request reads before its limit. -/
theorem named_peekBefore_eq (h : Ordered l) (limit : Option Entry) :
    (Request.peekBefore limit).named l =
      l.filter fun e => l.any fun s => limit.any (·.id = s.id) && decide (e.key < s.key) := by
  cases limit with
  | none => simp [Request.named]
  | some limit =>
    simp only [Option.any_some]
    cases hf : l.find? fun s => decide (s.id = limit.id) with
    | none =>
      have hgone : ∀ s ∈ l, limit.id ≠ s.id := fun s hs hid => by
        simpa [hid] using List.find?_eq_none.1 hf s hs
      have hnone : (Request.peekBefore (some limit)).named l = [] := by
        simp only [Request.named, Option.bind_some, placeIn, hf, Option.map_none]
      rw [hnone, eq_comm, List.filter_eq_nil_iff]
      intro e _ hany
      obtain ⟨s, hs, hboth⟩ := List.any_eq_true.1 hany
      exact hgone s hs (of_decide_eq_true (Bool.and_eq_true_iff.1 hboth).1)
    | some s =>
      have hs := List.mem_of_find?_eq_some hf
      have hid : s.id = limit.id := by simpa using List.find?_some hf
      rw [named_peekBefore h hs hid.symm]
      refine List.filter_congr fun e _ => ?_
      rw [Bool.eq_iff_iff, decide_eq_true_eq, List.any_eq_true]
      constructor
      · exact fun hlt => ⟨s, hs, by simp [hid, hlt]⟩
      · rintro ⟨s', hs', hboth⟩
        rw [Bool.and_eq_true, decide_eq_true_eq, decide_eq_true_eq] at hboth
        have : s' = s := h.eq_of_id hs' hs (hboth.1.symm.trans hid.symm)
        exact this ▸ hboth.2

/-- The entries that a request removes up to its limit. -/
theorem named_removeUpTo_eq (h : Ordered l) (limit : Entry) (inclusive : Bool) :
    (Request.removeUpTo limit inclusive).named l =
      l.filter (((l.find? fun s => decide (s.id = limit.id)).getD limit).upTo inclusive) := by
  cases hf : l.find? fun s => decide (s.id = limit.id) with
  | none =>
    simp only [Request.named, placeIn, hf, Option.map_none, Option.getD_none]
    cases inclusive with
    | false => rfl
    | true => rfl
  | some s =>
    have hid : s.id = limit.id := by simpa using List.find?_some hf
    exact named_removeUpTo h (List.mem_of_find?_eq_some hf) hid.symm inclusive

/-- The first entry is the head window of one entry. -/
theorem named_peekFirst (l : List Entry) : Request.peekFirst.named l = l.take 1 := by
  cases l with
  | nil => rfl
  | cons first l =>
    have hone : ∀ (w : Window) (count bytes : Nat), w.isFull count = true →
        w.headFrom .lowest .highest count bytes l = [] := fun w _ _ => Window.headFrom_of_full l
    simp only [Request.named, Window.head, Window.limitsOf]
    rw [Window.headFrom_cons (Window.within_all first), hone _ _ _ rfl]
    rfl

/-- What a request names in a list is what it finds there. -/
theorem finds_named (h : Ordered l) (request : Request) :
    request.Finds l (request.named l) := by
  cases request with
  | peek w band => exact isHead_head h w band
  | take w low high | removeWindow w low high => exact isHead_head h w (.between low high)
  | peekLowest w limit leaveOne | takeLowest w limit leaveOne =>
    exact isTail_tail h w limit leaveOne
  | peekFirst => exact named_peekFirst l
  | peekBefore limit => exact named_peekBefore_eq h limit
  | removeUpTo limit inclusive => exact named_removeUpTo_eq h limit inclusive
  | _ => rfl

/-- A request that removes leaves what it does not find. -/
theorem left_eq_unnamed (h : Ordered l) (request : Request) :
    request.left l =
      if request.removes then l.filter fun e => decide (e ∉ request.named l) else l := by
  unfold Request.left
  split
  · refine List.filter_congr fun e he => ?_
    rw [Bool.eq_iff_iff, decide_eq_true_eq, decide_eq_true_eq, List.mem_map]
    refine not_congr ⟨?_, fun hm => ⟨e, hm, rfl⟩⟩
    rintro ⟨f, hf, hk⟩
    exact h.eq_of_key (Request.mem_of_mem_named hf) he hk ▸ hf
  · rfl

end

/-! ## Single changes of a roll -/

namespace Roll

section
variable {α : Type} [Slotted α] {r : Roll α} {l : List α}

/-- Striking out that takes off the totals what was struck out, which they have, slot by slot. -/
def Booked (r : Roll α) (struck : List α × Roll α) : Prop :=
  r.tally.Covers (struck.1.map Slotted.slot) ∧ struck.2.tally = r.tally.subtractAll struck.1

/-- What was struck out after one more thing, which stood under a key. -/
theorem Lists.booked_cons (h : r.Lists l) {key : Key} {a : α} (ha : r.atKey? key = some a)
    {struck : List α × Roll α} (hs : (r.remove key).Booked struck) :
    r.Booked (a :: struck.1, struck.2) := by
  have hone : (r.remove key).tally = r.tally.subtract (Slotted.slot a) := by
    rw [Roll.remove, ha]
  obtain ⟨hmem, rfl⟩ := h.atKey?_eq_some_iff.1 ha
  have hback : (r.tally.subtract (Slotted.slot a)).add (Slotted.slot a) = r.tally := by
    rw [← hone, (h.remove (keyOf a)).tally, h.tally, ← Tally.total_cons,
      Tally.total_perm (h.order.perm_cons_without hmem)]
  obtain ⟨hcovers, htally⟩ := hs
  rw [hone] at hcovers htally
  exact ⟨⟨hback, hcovers⟩, htally⟩

theorem Lists.booked_take (h : r.Lists l) (keys : List Key) : r.Booked (r.take keys) := by
  induction keys generalizing r l with
  | nil => exact ⟨trivial, rfl⟩
  | cons key keys ih =>
    have hrest := ih (h.remove key)
    rw [take]
    cases ha : r.atKey? key with
    | none =>
      have hsame : r.remove key = r := by rw [Roll.remove, ha]
      rw [hsame] at hrest
      simpa only [ha, hsame] using hrest
    | some a => exact h.booked_cons ha hrest

theorem Lists.booked_takeIds (h : r.Lists l) (ids : List UInt64) : r.Booked (r.takeIds ids) := by
  induction ids generalizing r l with
  | nil => exact ⟨trivial, rfl⟩
  | cons id ids ih =>
    rw [takeIds]
    cases hp : r.place? id with
    | none => exact ih h
    | some key =>
      obtain ⟨a, ha, -, rfl⟩ := h.place?_eq_some_iff.1 hp
      have hat := h.atKey?_of_mem ha
      simp only [hat]
      exact h.booked_cons hat (ih (h.remove (keyOf a)))

/-- What has an id is what is found by it. -/
theorem Lists.get?_eq_find? (h : r.Lists l) (id : UInt64) :
    r.get? id = l.find? fun a => decide (idOf a = id) := by
  ext a
  rw [h.get?_eq_some_iff]
  constructor
  · rintro ⟨ha, rfl⟩
    exact h.order.find?_eq_some ha
  · intro hf
    exact ⟨List.mem_of_find?_eq_some hf, by simpa using List.find?_some hf⟩

/-- Entering never makes the bytes fewer. -/
theorem bytes_le_insertAll (r : Roll α) (m : List α) :
    r.tally.bytes ≤ (r.insertAll m).tally.bytes := by
  induction m generalizing r with
  | nil => exact le_rfl
  | cons a m ih =>
    refine le_trans ?_ (ih (r.insert a))
    unfold insert
    split
    · exact le_rfl
    · exact Nat.le_add_right _ _

end

end Roll

/-! ## Puts -/

/-- Entering a batch sorts its new entries in. -/
theorem foldl_enter_eq {l : List Entry} (h : Ordered l) (batch : List Entry) :
    batch.foldl enter l = sortByKey (l ++ arrivals l batch) := by
  have ho := h.foldl_enter batch
  have hp := perm_foldl_enter l batch
  exact (ho.sortByKey_eq ((hp.map idOf).nodup_iff.1 ho.unique) fun e => hp.mem_iff.symm).symm

namespace Ram

variable {d : Desk Ram} {l : List Entry}

/-! ## What a queue in memory comes to -/

/-- Work on a queue in memory has an outcome, and leaves the queue in a phase with a sorted list.
Nothing else about the queue changes. -/
structure Yields {α : Type} (d : Desk Ram) (act : Action (Desk Ram) α) (outcome : Except Fault α)
    (phase : Phase) (l : List Entry) : Prop where
  /-- The outcome. -/
  outcome : (act.on d).1 = outcome
  /-- The queue afterwards. -/
  queue : ∃ roll, (act.on d).2.queue = { d.queue with phase, roll } ∧ roll.Lists l

/-- A queue in memory is, and acts as, a sorted list. -/
structure ActsAs (d : Desk Ram) (l : List Entry) : Prop where
  /-- Its entries are the list, which stands in the order of service and has no id twice; each id
  stands where its entry does, and no other id stands anywhere. -/
  lists : d.queue.roll.Lists l
  /-- The totals are those of the list. -/
  sums : d.queue.roll.tally = ⟨l.length, bytesOf l, (l.filter (·.persistent)).length,
    bytesOf (l.filter (·.persistent))⟩
  /-- Whatever keys are struck out, one after the other, the totals have what is taken off them. -/
  byKeys : ∀ keys, d.queue.roll.Booked (d.queue.roll.take keys)
  /-- So it is with ids. -/
  byIds : ∀ ids, d.queue.roll.Booked (d.queue.roll.takeIds ids)
  /-- While entries are entered, the bytes are never more than in the end. -/
  entering : ∀ entries first, first <+: entries →
    (d.queue.roll.insertAll first).tally.bytes ≤ (d.queue.roll.insertAll entries).tally.bytes
  /-- It opens, unless it is destroyed. -/
  opens : d.queue.phase ≠ .destroyed → Yields d (serve .start) (.ok .done) .active l
  /-- Destroyed, it does not. -/
  refusesToOpen : d.queue.phase = .destroyed →
    Yields d (serve .start) (.error (.inactive d.queue.storageId.text)) .destroyed l
  /-- It closes with the list it has. -/
  closes : Yields d (serve .shutdown) (.ok .done) d.queue.phase.closed l
  /-- It is destroyed with all of it. -/
  destroys : Yields d (serve .destroy) (.ok .done) .destroyed []
  /-- Unless it is active it refuses all else. -/
  refuses : d.queue.phase ≠ .active → ∀ request : Request, request.needsActive = true →
    Yields d (serve request) (.error (.inactive d.queue.storageId.text)) d.queue.phase l
  /-- A put that its hook takes over stores nothing. -/
  passesOn : d.queue.phase = .active → ∀ batch bypass, d.queue.hooks.TakesOver batch bypass →
    Yields d (serve (.put batch bypass)) (.ok .done) .active l
  /-- A list over the bounds gets nothing more. -/
  overflows : d.queue.phase = .active → ∀ batch bypass, ¬ d.queue.hooks.TakesOver batch bypass →
    d.queue.bounds.Exceeded l → Yields d (serve (.put batch bypass))
      (.error (.overflow d.queue.storageId.text (d.queue.bounds.excess l))) .active l
  /-- Otherwise the entries of a batch that are new to it are sorted in, the first one of each
  id. -/
  stores : d.queue.phase = .active → ∀ batch bypass, ¬ d.queue.hooks.TakesOver batch bypass →
    ¬ d.queue.bounds.Exceeded l → Yields d (serve (.put batch bypass)) (.ok .done) .active
      (sortByKey (l ++ arrivals l batch))
  /-- Any other request is answered with what it finds, which goes if the request removes. -/
  finds : d.queue.phase = .active → ∀ request : Request, request.looksUp = true →
    ∃ found, request.Finds l found ∧ Yields d (serve request) (.ok (request.reply found)) .active
      (if request.removes then l.filter fun e => decide (e ∉ found) else l)
  /-- What is read, taken or removed in one head window is the same. -/
  heads : d.queue.phase = .active → ∀ w low high, ∃ found,
    w.IsHead ((Band.between low high).of l) found ∧
    Yields d (serve (.peek w (.between low high))) (.ok (.entries found)) .active l ∧
    Yields d (serve (.take w low high)) (.ok (.entries found)) .active
      (l.filter fun e => decide (e ∉ found)) ∧
    Yields d (serve (.removeWindow w low high)) (.ok (.count found.length)) .active
      (l.filter fun e => decide (e ∉ found))
  /-- What is read or taken in one tail window is the same. -/
  tails : d.queue.phase = .active → ∀ w limit leaveOne, ∃ found,
    (Request.peekLowest w limit leaveOne).Finds l found ∧
    Yields d (serve (.peekLowest w limit leaveOne)) (.ok (.entries found)) .active l ∧
    Yields d (serve (.takeLowest w limit leaveOne)) (.ok (.entries found)) .active
      (l.filter fun e => decide (e ∉ found))
  /-- The first entries go, as many as asked for or as there are. -/
  first : d.queue.phase = .active → ∀ count, Yields d (serve (.removeFirst count))
    (.ok (.count (min count l.length))) .active (l.drop count)
  /-- Of the ids asked for, those go that are there, and each counts once. -/
  listed : d.queue.phase = .active → ∀ entries, Yields d (serve (.removeListed entries))
    (.ok (.count ((entries.map Entry.id).dedup.filter fun id =>
      decide (id ∈ l.map Entry.id)).length)) .active
    (l.filter fun e => decide (e.id ∉ entries.map Entry.id))
  /-- Entries that a cached queue has it hold are sorted in whatever the bounds say. -/
  holds : ∀ entries, ∃ roll, d.queue.holding entries = { d.queue with roll } ∧
    roll.Lists (sortByKey (l ++ arrivals l entries))
  /-- Entries that a cached queue has it let go are given in the order of service. -/
  releases : ∀ ids, ∃ roll, d.queue.releasing ids =
      (l.filter fun e => decide (e.id ∈ ids), { d.queue with roll }) ∧
    roll.Lists (l.filter fun e => decide (e.id ∉ ids))
  /-- Entries that a cached queue looks for are found by their ids. -/
  picks : ∀ ids, d.queue.roll.pick ids =
    sortByKey (ids.filterMap fun id => l.find? fun e => decide (e.id = id))

theorem Yields.of_on {α : Type} {act : Action (Desk Ram) α} {outcome : Except Fault α}
    {d' : Desk Ram} {phase : Phase} {roll : Roll Entry} (ho : act.on d = (outcome, d'))
    (hq : d'.queue = { d.queue with phase, roll }) (hl : roll.Lists l) :
    Yields d act outcome phase l := by
  constructor
  · rw [ho]
  · rw [ho]
    exact ⟨roll, hq, hl⟩

/-- The same queue, said to be in the phase in which it is. -/
theorem with_phase {phase : Phase} (hp : d.queue.phase = phase) (roll : Roll Entry) :
    { d.queue with roll } = { d.queue with phase, roll } := by
  subst hp
  rfl

/-- A request for contents is answered with what it names. -/
theorem looks_yields (h : d.queue.roll.Lists l) (ha : d.queue.phase = .active) {request : Request}
    (hr : request.looksUp = true) :
    Yields d (serve request) (.ok (request.reply (request.named l))) .active
      (if request.removes then l.filter fun e => decide (e ∉ request.named l) else l) := by
  obtain ⟨roll, calls, ho, hl⟩ := serve_on ha h hr
  rw [left_eq_unnamed h.order] at hl
  exact .of_on ho (with_phase ha roll) hl

/-- A put comes to what it comes to on the list. -/
theorem put_yields (h : d.queue.roll.Lists l) (ha : d.queue.phase = .active) (batch : List Entry)
    (bypass : Bool) {outcome : Except Fault Reply} {m : List Entry}
    (hp : putOn d.queue.storageId.text d.queue.bounds d.queue.hooks batch bypass l = (outcome, m)) :
    Yields d (serve (.put batch bypass)) outcome .active m := by
  obtain ⟨roll, store, calls, ho, hl⟩ := put_on ha h batch bypass
  rw [hp] at ho hl
  exact .of_on ho (with_phase ha roll) hl

/-- Taking out the first entries leaves the others. -/
theorem filter_not_mem_take {l : List Entry} (h : l.Nodup) (count : Nat) :
    (l.filter fun e => decide (e ∉ l.take count)) = l.drop count := by
  have hapart := List.disjoint_take_drop h (Nat.le_refl count)
  have hgone : (l.take count).filter (fun e => decide (e ∉ l.take count)) = [] := by
    simp
  have hkept : (l.drop count).filter (fun e => decide (e ∉ l.take count)) = l.drop count :=
    List.filter_eq_self.2 fun e he => decide_eq_true fun hm => hapart hm he
  calc l.filter (fun e => decide (e ∉ l.take count))
      = (l.take count ++ l.drop count).filter fun e => decide (e ∉ l.take count) := by
        rw [List.take_append_drop]
    _ = l.drop count := by rw [List.filter_append, hgone, hkept, List.nil_append]

/-- Taking out what a condition picks leaves the rest. -/
theorem filter_not_mem_filter {l : List Entry} (p : Entry → Bool) :
    (l.filter fun e => decide (e ∉ l.filter p)) = l.filter (!p ·) := by
  refine List.filter_congr fun e he => ?_
  simp [List.mem_filter, he]

/-- As many entries have one of some ids as there are such ids. -/
theorem length_filter_ids (h : Ordered l) (ids : List UInt64) :
    (l.filter fun e => decide (e.id ∈ ids)).length =
      (ids.dedup.filter fun id => decide (id ∈ l.map Entry.id)).length := by
  have hp : ((l.filter fun e => decide (e.id ∈ ids)).map Entry.id).Perm
      (ids.dedup.filter fun id => decide (id ∈ l.map Entry.id)) := by
    have hu : (ids.dedup.filter fun id => decide (id ∈ l.map Entry.id)).Nodup :=
      (List.nodup_dedup ids).filter _
    refine (List.perm_ext_iff_of_nodup (h.filter _).unique hu).2 fun id => ?_
    simp only [List.mem_map, List.mem_filter, decide_eq_true_eq, List.mem_dedup, idOf_entry]
    constructor
    · rintro ⟨e, ⟨he, hid⟩, rfl⟩
      exact ⟨hid, e, he, rfl⟩
    · rintro ⟨hid, e, he, rfl⟩
      exact ⟨e, ⟨he, hid⟩, rfl⟩
  rw [← hp.length_eq, List.length_map]

/-- A queue in memory whose roll lists a list acts as that list. -/
theorem actsAs_of_lists (h : d.queue.roll.Lists l) : ActsAs d l where
  lists := h
  sums := h.tally.trans (Tally.total_eq l)
  byKeys := h.booked_take
  byIds := h.booked_takeIds
  entering := by
    rintro entries first ⟨rest, rfl⟩
    rw [Roll.insertAll, Roll.insertAll, List.foldl_append]
    exact Roll.bytes_le_insertAll _ rest
  opens hd := .of_on (serve_start hd) rfl h
  refusesToOpen hd := .of_on (serve_start_destroyed hd) (with_phase hd _) h
  closes := by
    obtain ⟨calls, ho⟩ := serve_shutdown d
    exact .of_on ho (closed_eq d.queue) h
  destroys := by
    obtain ⟨calls, ho⟩ := serve_destroy d
    exact .of_on ho rfl .empty
  refuses hn request hr := .of_on (serve_inactive hn hr) rfl h
  passesOn ha batch bypass ht := put_yields h ha batch bypass (putOn_takenOver ht)
  overflows ha batch bypass ht hx := put_yields h ha batch bypass (putOn_exceeded ht hx)
  stores ha batch bypass ht hx := by
    have hy := put_yields h ha batch bypass (putOn_room ht hx)
    rwa [foldl_enter_eq h.order] at hy
  finds ha request hr := ⟨_, finds_named h.order request, looks_yields h ha hr⟩
  heads ha w low high := ⟨_, isHead_head h.order w (.between low high), looks_yields h ha rfl,
    looks_yields h ha rfl, looks_yields h ha rfl⟩
  tails ha w limit leaveOne :=
    ⟨_, isTail_tail h.order w limit leaveOne, looks_yields h ha rfl, looks_yields h ha rfl⟩
  first ha count := by
    have hy : Yields d (serve (.removeFirst count)) (.ok (.count (l.take count).length)) .active
        (l.filter fun e => decide (e ∉ l.take count)) := looks_yields h ha rfl
    rwa [List.length_take, filter_not_mem_take h.order.nodup] at hy
  listed ha entries := by
    have hy : Yields d (serve (.removeListed entries))
        (.ok (.count (l.filter fun e => decide (e.id ∈ entries.map Entry.id)).length)) .active
        (l.filter fun e => decide (e ∉ l.filter fun e => decide (e.id ∈ entries.map Entry.id))) :=
      looks_yields h ha rfl
    rw [filter_not_mem_filter, length_filter_ids h.order] at hy
    simpa only [decide_not] using hy
  holds entries := ⟨_, rfl, foldl_enter_eq h.order entries ▸ h.insertAll entries⟩
  releases ids := by
    obtain ⟨htaken, hrest⟩ := Cached.releasing_lists h ids
    simp only [← decide_not] at hrest
    exact ⟨_, Prod.ext htaken rfl, hrest⟩
  picks ids := by rw [Roll.pick, funext h.get?_eq_find?]; rfl

/-! ## Histories -/

/-- A queue in memory with a history. Besides what everybody may ask, there is what a cached queue
does with the one that it keeps. -/
inductive Run : Desk Ram → Prop
  /-- It is made. -/
  | made {id : StorageId} {bounds : Bounds} {q : Ram} (hq : create id bounds = .ok q)
      (hooks : Hooks) (store : Store) (calls : List Call) :
      Run { queue := { q with hooks }, store, calls }
  /-- It is asked something. -/
  | asked {d : Desk Ram} (h : Run d) (request : Request) : Run ((serve request).on d).2
  /-- It is to hold entries. -/
  | held {d : Desk Ram} (h : Run d) (entries : List Entry) :
      Run { d with queue := d.queue.holding entries }
  /-- It is to let entries go. -/
  | released {d : Desk Ram} (h : Run d) (ids : List UInt64) :
      Run { d with queue := (d.queue.releasing ids).2 }
  /-- It gets other hooks. -/
  | hooked {d : Desk Ram} (h : Run d) (hooks : Hooks) :
      Run { d with queue := { d.queue with hooks } }
  /-- Others work. -/
  | meanwhile {d : Desk Ram} (h : Run d) (store : Store) (calls : List Call) :
      Run { queue := d.queue, store, calls }

/-- After any history the roll lists a list. -/
theorem Run.lists (h : Run d) : ∃ l, d.queue.roll.Lists l := by
  induction h with
  | made hq hooks store calls =>
    rw [create_eq hq]
    exact ⟨[], .empty⟩
  | asked _ request ih =>
    obtain ⟨l, hl⟩ := ih
    exact serve_lists hl request
  | held _ entries ih =>
    obtain ⟨l, hl⟩ := ih
    exact ⟨_, hl.insertAll entries⟩
  | released _ ids ih =>
    obtain ⟨l, hl⟩ := ih
    exact ⟨_, hl.takeIds_rest ids⟩
  | hooked _ _ ih => exact ih
  | meanwhile _ _ _ ih => exact ih

/-- Answering requests one after the other is a history. -/
theorem Run.serveAll (h : Run d) (requests : List Request) : Run (serveAll requests d).2 := by
  induction requests generalizing d with
  | nil => exact h
  | cons request requests ih => exact ih (h.asked request)

/-- After any history, a queue in memory is and acts as the list of its entries. -/
theorem sorted_list (h : Run d) : ActsAs d d.queue.roll.items := by
  obtain ⟨l, hl⟩ := h.lists
  rw [hl.items]
  exact actsAs_of_lists hl

/-- An entry that goes before others. -/
def urgent (id : UInt64) : Entry := ⟨id, .highest, 9, false, ⟨"", .empty⟩⟩

/-- A queue in memory that was given entries of two priorities, one of them twice, and let the last
one go. -/
def mixed : Desk Ram :=
  (serveAll [.start, .put [.blank 2 true, .blank 1 true, urgent 3, urgent 1] false,
    .takeLowest { entries := some 1 } none true]
      ⟨{ storageId := .mail, bounds := .tight }, {}, []⟩).2

/-- That queue, as the list of the two entries that it has. -/
theorem sorted_list_mixed : Run mixed ∧ ActsAs mixed [urgent 3, .blank 1 true] := by
  have hmade : Run ⟨{ storageId := .mail, bounds := .tight }, {}, []⟩ :=
    @Run.made .mail .tight _ rfl {} {} []
  have hrun : Run mixed := hmade.serveAll _
  have hitems : mixed.queue.roll.items = [urgent 3, .blank 1 true] := by decide +kernel
  exact ⟨hrun, hitems ▸ sorted_list hrun⟩

end Ram

end Spillway
