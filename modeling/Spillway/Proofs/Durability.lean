import Spillway.Proofs.Answers
import Spillway.Proofs.Puts
import Spillway.Proofs.Stores

/-!
# How a queue in the table serves

Every request for contents is answered with the same view of the rows as a queue in memory gives of
its entries, and leaves the same, or the database fails it and nothing changes. So it is with puts
of batches that have something in them. The totals that the queue keeps stay exact.
-/

namespace Spillway

open Desk

namespace Request

/-- What a request must keep to so that a queue in the table takes it as one in memory does: a batch
has something in it, and a limit that is stored is given with the priority that it has there. -/
def Fair (l : List Entry) : Request → Prop
  | .put batch _ => batch ≠ []
  | .removeUpTo limit _ => ∀ e ∈ l, e.id = limit.id → e.priority = limit.priority
  | _ => True

instance (l : List Entry) : (request : Request) → Decidable (request.Fair l)
  | .put batch _ => inferInstanceAs (Decidable (batch ≠ []))
  | .removeUpTo limit _ =>
    inferInstanceAs (Decidable (∀ e ∈ l, e.id = limit.id → e.priority = limit.priority))
  | .start | .shutdown | .destroy | .peek _ _ | .peekFirst | .peekBefore _ | .peekLowest _ _ _
  | .takeLowest _ _ _ | .take _ _ _ | .removeFirst _ | .removeListed _ | .removeWindow _ _ _
  | .removeTransient | .clear | .references | .select _ => .isTrue trivial

/-- Whether a request takes out what a window covers. -/
def takesWindow : Request → Bool
  | .takeLowest _ _ _ | .take _ _ _ | .removeWindow _ _ _ => true
  | _ => false

variable {l : List Entry} {request : Request}

/-- A fair limit stands where it says. -/
theorem place_of_fair {limit : Entry} {inclusive : Bool}
    (h : (Request.removeUpTo limit inclusive).Fair l) :
    (placeIn l limit.id).getD limit.key = limit.key := by
  rw [placeIn]
  cases hf : l.find? fun e => decide (e.id = limit.id) with
  | none => rfl
  | some e =>
    have hid : e.id = limit.id := by simpa using List.find?_some hf
    have hp := h e (List.mem_of_find?_eq_some hf) hid
    change Key.mk e.priority e.id = Key.mk limit.priority limit.id
    rw [hp, hid]

/-- What is left is what has other ids than the named entries. -/
theorem left_eq_ids (h : Ordered l) (hr : request.removes = true) :
    request.left l = l.filter fun e => !decide (e.id ∈ (request.named l).map Entry.id) := by
  rw [left, if_pos hr]
  refine List.filter_congr fun e he => ?_
  rw [← decide_not, decide_eq_decide]
  refine not_congr ⟨fun hk => ?_, fun hid => ?_⟩
  · obtain ⟨f, hf, hk⟩ := List.mem_map.1 hk
    exact List.mem_map.2 ⟨f, hf, congrArg Key.id hk⟩
  · obtain ⟨f, hf, hid⟩ := List.mem_map.1 hid
    have : f = e := h.eq_of_id (mem_of_mem_named hf) he hid
    exact List.mem_map.2 ⟨f, hf, congrArg Entry.key this⟩

/-- What is left by a request that names what a condition picks. -/
theorem left_eq_filter (h : Ordered l) (hr : request.removes = true) {p : Entry → Bool}
    (hn : request.named l = l.filter p) : request.left l = l.filter (!p ·) := by
  rw [left, if_pos hr, hn, filter_unnamed h]

end Request

namespace Durable

variable {d : Desk Durable} {l : List Entry} {request : Request}

/-- Taking what a statement takes out by ids. -/
theorem taking_works (ha : d.queue.phase = .active) (hk : d.store.Keeps d.queue.name l)
    (task : Task) {statement : String → Statement (List Entry)} {m : List Entry}
    (hm : m.Sublist l ∨ m.Sublist l.reverse)
    (hs : ∀ rows, Partition d.queue.name rows l → ∃ rows',
      statement d.queue.name rows = .ok (m, rows') ∧
        Partition d.queue.name rows' (l.filter fun e => !decide (e.id ∈ m.map Entry.id))) :
    Works d l ((deleting task statement).on d) (· = m)
      (l.filter fun e => !decide (e.id ∈ m.map Entry.id)) := by
  have hperm := hk.partition.order.perm_filter_ids hm
  refine deleting_works ha hk task fun rows hp => ?_
  obtain ⟨rows', hrun, hp'⟩ := hs rows hp
  exact ⟨m, rows', hrun, rfl, perm_split (hperm.map _), hp'⟩

/-- Deleting what a condition picks, of which the statement reports the slots. -/
theorem dropping_works (ha : d.queue.phase = .active) (hk : d.store.Keeps d.queue.name l)
    (task : Task) {statement : String → Statement (List Slot)} {p : Entry → Bool}
    (hs : ∀ rows, Partition d.queue.name rows l → ∃ slots rows',
      slots.Perm ((l.filter p).map Entry.slot) ∧
        statement d.queue.name rows = .ok (slots, rows') ∧
        Partition d.queue.name rows' (l.filter (!p ·))) :
    Works d l ((do return (← deleting task statement).length : Action (Desk Durable) Nat).on d)
      (· = (l.filter p).length) (l.filter (!p ·)) := by
  have hdel : Works d l ((deleting task statement).on d)
      (·.length = (l.filter p).length) (l.filter (!p ·)) := by
    refine deleting_works ha hk task fun rows hp => ?_
    obtain ⟨slots, rows', hslots, hrun, hp'⟩ := hs rows hp
    exact ⟨slots, rows', hrun, by rw [hslots.length_eq, List.length_map],
      perm_split (slots.map_id.symm ▸ hslots), hp'⟩
  exact hdel.map List.length fun _ => id

/-- Removing what is listed. -/
theorem removeListed_works (ha : d.queue.phase = .active)
    (hk : d.store.Keeps d.queue.name l) (entries : List Entry) :
    Works d l ((removeListed entries).on d)
      (· = (l.filter fun e => decide (e.id ∈ entries.map Entry.id)).length)
      (l.filter fun e => !decide (e.id ∈ entries.map Entry.id)) := by
  have hactive : Managed.phase d.queue = .active := ha
  unfold removeListed
  cases hn : entries.isEmpty with
  | true =>
    rw [List.isEmpty_iff.1 hn, if_pos rfl, on_reading hactive]
    simp only [List.map_nil, List.not_mem_nil, decide_false, Bool.not_false, List.filter_true,
      List.filter_false]
    exact works_idle hk rfl
  | false =>
    rw [if_neg Bool.false_ne_true]
    refine Works.map (deleteIds_works ha hk (entries.map Entry.id)) List.length fun slots hs => ?_
    rw [hs.length_eq, List.length_map]

/-- Removing what stands before a key, or up to it. -/
theorem removeUpTo_works (ha : d.queue.phase = .active) (hk : d.store.Keeps d.queue.name l)
    (limit : Entry) (inclusive : Bool) :
    let p : Entry → Bool := fun e =>
      if inclusive then decide (e.key ≤ limit.key) else decide (e.key < limit.key)
    Works d l ((serve (.removeUpTo limit inclusive)).on d) (· = .count (l.filter p).length)
      (l.filter (!p ·)) := by
  exact (dropping_works ha hk .deleteUpTo fun rows hp =>
    hp.deleteUpTo limit.key inclusive).seen Reply.count

/-- Reading what is served before a stored entry. -/
theorem peekBefore_works (ha : d.queue.phase = .active) (hk : d.store.Keeps d.queue.name l)
    (limit : Option Entry) :
    Works d l ((peekBefore limit).on d) (· = Request.named l (.peekBefore limit)) l := by
  cases limit with
  | none =>
    rw [peekBefore, on_reading (show Managed.phase d.queue = .active from ha)]
    exact works_idle hk rfl
  | some e => exact reading_works ha hk .getEntriesWithLimit fun rows hp => hp.getBefore e.id

/-- A request that takes nothing out reads the entries that it names. -/
theorem serve_reads (ha : d.queue.phase = .active) (hk : d.store.Keeps d.queue.name l)
    (hr : request.looksUp = true) (hn : request.removes = false) :
    Works d l ((serve request).on d) (· = request.reply (request.named l)) l := by
  cases request with
  | start | shutdown | destroy | put => cases hr
  | takeLowest | take | removeFirst | removeListed | removeWindow | removeUpTo | removeTransient
  | clear => cases hn
  | peek window band =>
    exact (reading_works ha hk .getEntries fun rows hp => hp.getEntries window band).seen
      Reply.entries
  | peekFirst =>
    exact (reading_works ha hk .getEntries fun rows hp => hp.getEntries _ _).seen
      fun es : List Entry => Reply.entry es.head?
  | peekBefore limit => exact (peekBefore_works ha hk limit).seen Reply.entries
  | peekLowest window limit leaveOne =>
    exact (reading_works ha hk .getLowest fun rows hp =>
      hp.getLowest window (limit.map Entry.key) leaveOne).seen Reply.entries
  | references =>
    refine Works.map ((slots_works ha hk).seen fun slots => slots.map idOf) Reply.ids ?_
    rintro _ rfl
    rw [List.map_map]
    rfl
  | select admits => exact (select_works ha hk admits).seen Reply.entries

/-- A request that takes out what a window covers takes the entries that it names by their ids. -/
theorem serve_windows (ha : d.queue.phase = .active) (hk : d.store.Keeps d.queue.name l)
    (hw : request.takesWindow = true) :
    Works d l ((serve request).on d) (· = request.reply (request.named l)) (request.left l) := by
  cases request with
  | takeLowest window limit leaveOne =>
    rw [show Request.left l (.takeLowest window limit leaveOne) = _ from
      Request.left_eq_ids hk.partition.order rfl]
    exact (taking_works ha hk .takeLowest
      (.inr (window.tail_sublist (limit.map Entry.key) leaveOne l.length l.reverse))
      fun rows hp => hp.takeLowest window (limit.map Entry.key) leaveOne).seen Reply.entries
  | take window low high =>
    rw [show Request.left l (.take window low high) = _ from
      Request.left_eq_ids hk.partition.order rfl]
    exact (taking_works ha hk .takeEntries (.inl (window.head_sublist _ l))
      fun rows hp => hp.takeEntries window (.between low high)).seen Reply.entries
  | removeWindow window low high =>
    rw [show Request.left l (.removeWindow window low high) = _ from
      Request.left_eq_ids hk.partition.order rfl]
    exact ((taking_works ha hk .takeEntries (.inl (window.head_sublist _ l))
      fun rows hp => hp.takeEntries window (.between low high)).seen List.length).seen Reply.count
  | _ => cases hw

/-- A request that takes out what a condition picks reports how much that was. -/
theorem serve_drops (ha : d.queue.phase = .active) (hk : d.store.Keeps d.queue.name l)
    (hr : request.removes = true) (hw : request.takesWindow = false) (hf : request.Fair l) :
    Works d l ((serve request).on d) (· = request.reply (request.named l)) (request.left l) := by
  have ho : Ordered l := hk.partition.order
  cases request with
  | removeFirst count =>
    have hfirst := ho.filter_ids (List.take_sublist count l)
    rw [show Request.left l (.removeFirst count) = _ from Request.left_eq_ids ho rfl]
    refine Works.map (dropping_works ha hk .deleteFirst fun rows hp => ?_) Reply.count ?_
    · obtain ⟨slots, rows', hslots, hrun, hp'⟩ := hp.deleteFirst count
      exact ⟨slots, rows', hfirst.symm ▸ hslots, hrun, hp'⟩
    · rintro _ rfl
      exact congrArg (fun es => Reply.count es.length) hfirst
  | removeUpTo limit inclusive =>
    have hnamed : Request.named l (.removeUpTo limit inclusive) = l.filter fun e =>
        if inclusive then decide (e.key ≤ limit.key) else decide (e.key < limit.key) := by
      simp only [Request.named, Request.place_of_fair hf]
      cases inclusive <;> rfl
    rw [Request.left_eq_filter ho rfl hnamed, hnamed]
    exact removeUpTo_works ha hk limit inclusive
  | removeTransient =>
    rw [show Request.left l .removeTransient = _ from Request.left_eq_filter ho rfl rfl]
    exact (dropping_works ha hk .deleteTransient fun rows hp => hp.deleteTransient).seen Reply.count
  | removeListed entries =>
    rw [show Request.left l (.removeListed entries) = _ from Request.left_eq_filter ho rfl rfl]
    exact (removeListed_works ha hk entries).seen Reply.count
  | clear =>
    have hnone : Request.left l .clear = [] := by
      rw [show Request.left l .clear = _ from
        Request.left_eq_filter ho rfl (List.filter_true l).symm]
      exact List.filter_false l
    rw [hnone]
    exact (clear_works ha hk).seen Reply.count
  | takeLowest | take | removeWindow => cases hw
  | _ => cases hr

/-- A queue in the table answers every request for contents with a view of the entries that it
names. -/
theorem serve_on (ha : d.queue.phase = .active) (hk : d.store.Keeps d.queue.name l)
    (hr : request.looksUp = true) (hf : request.Fair l) :
    Works d l ((serve request).on d) (· = request.reply (request.named l)) (request.left l) := by
  cases hn : request.removes with
  | false =>
    rw [Request.left, if_neg (Bool.eq_false_iff.1 hn)]
    exact serve_reads ha hk hr hn
  | true =>
    cases hw : request.takesWindow with
    | true => exact serve_windows ha hk hw
    | false => exact serve_drops ha hk hn hw hf

/-! ## Puts -/

/-- What comes of a put on the rows `l`: what comes of it on a list of entries, with exact totals,
or a fault for want of the database. -/
def PutsOn {α : Type} (d : Desk Durable) (outcome : Except Fault α × Desk Durable)
    (answer : Except Fault α) (rest : List Entry) : Prop :=
  (∃ tally store calls, outcome = (answer, turned d tally store calls) ∧
    tally = Tally.total rest ∧ store.Keeps d.queue.name rest ∧ d.store.Used store) ∨
  ∃ fault store calls, outcome = (.error fault, { d with store, calls }) ∧
    d.store.Missed fault store

/-- What a put does if its hook lets it pass and it has something in it. -/
def admitting (batch : List Entry) : Action (Desk Durable) Unit := changing do
  requireRoom
  let _ ← write batch

/-- A queue over its bounds refuses a batch. -/
theorem admitting_full (ha : d.queue.phase = .active) {excess : Overflow}
    (hov : d.queue.tally.overflow? d.queue.bounds = some excess) (batch : List Entry) :
    ∃ store, (admitting batch).on d =
        (.error (.overflow d.queue.storageId.text excess), { d with store }) ∧
      store.table = d.store.table ∧ d.store.Used store := by
  have hroom := on_requireRoom_error (d := d)
    (show (Managed.tally d.queue).overflow? (Managed.bounds d.queue) = some excess from hov)
  rw [admitting, on_changing (show Managed.phase d.queue = .active from ha),
    Action.on_bind_of_error hroom]
  exact ⟨_, rfl, rfl, rfl, .refl _⟩

/-- A queue within its bounds enters a batch. -/
theorem admitting_room (ha : d.queue.phase = .active) (hk : d.store.Keeps d.queue.name l)
    (hov : d.queue.tally.overflow? d.queue.bounds = none) (batch : List Entry) :
    Works d l ((admitting batch).on d) (fun _ => True) (batch.foldl enter l) := by
  have hroom := on_requireRoom_ok (d := d)
    (show (Managed.tally d.queue).overflow? (Managed.bounds d.queue) = none from hov)
  refine Works.changing ?_ ha
  rw [Action.on_bind_of_ok hroom]
  exact (write_works hk fun rows hp => hp.enterAll batch).map (fun _ => ()) fun _ _ => trivial

/-- A put within the bounds enters its batch, and one beyond them is refused. -/
theorem admitting_on (ha : d.queue.phase = .active) (hk : d.store.Keeps d.queue.name l)
    (ht : d.queue.tally = Tally.total l) (batch : List Entry) :
    PutsOn d ((admitting batch).on d) (admitOn d.queue.storageId.text d.queue.bounds batch l).1
      (admitOn d.queue.storageId.text d.queue.bounds batch l).2 := by
  unfold admitOn
  cases hov : (Tally.total l).overflow? d.queue.bounds with
  | some excess =>
    obtain ⟨store, ho, htable, hu⟩ := admitting_full ha (by rw [ht, hov]) batch
    obtain ⟨rows, hrows, hp⟩ := hk
    exact .inl ⟨d.queue.tally, store, d.calls, ho, ht, ⟨rows, htable.trans hrows, hp⟩, hu⟩
  | none =>
    rcases admitting_room ha hk (by rw [ht, hov]) batch with
      ⟨_, tally, store, calls, ho, -, htally, hk', hu⟩ | ⟨fault, store, ho, hm⟩
    · exact .inl ⟨tally, store, calls, ho, htally ht, hk', hu⟩
    · exact .inr ⟨fault, store, d.calls, ho, hm⟩

/-- A put that its hook takes over, or that has nothing in it, stores nothing. -/
theorem put_idle (ha : d.queue.phase = .active) {batch : List Entry} {bypass : Bool}
    (h : (d.queue.hooks.beforePut batch bypass).2 = false ∨ batch = []) :
    ∃ calls, (serve (.put batch bypass)).on d = (.ok .done, { d with calls }) := by
  have hactive : Managed.phase d.queue = .active := ha
  cases hv : (d.queue.hooks.beforePut batch bypass).2 with
  | false =>
    obtain ⟨calls, ho⟩ := on_framingPut_vetoed hactive hv _
    exact ⟨calls, Action.on_bind_of_ok ho⟩
  | true =>
    obtain rfl := h.resolve_left (by rw [hv]; nofun)
    obtain ⟨before, after, ho⟩ := on_framingPut hactive hv _
    exact ⟨_, Action.on_bind_of_ok ho⟩

/-- Any other put fares as its batch does. -/
theorem put_framed (ha : d.queue.phase = .active) {batch : List Entry} (hb : batch ≠ [])
    {bypass : Bool} (hv : (d.queue.hooks.beforePut batch bypass).2 = true) :
    ∃ before after, ∀ {outcome : Except Fault Unit} {d' : Desk Durable},
      (admitting batch).on { d with calls := before } = (outcome, d') →
      (serve (.put batch bypass)).on d =
        (outcome.map fun _ => .done, { d' with calls := d'.calls ++ after }) := by
  let store : Action (Desk Durable) Bool := do
    if batch.isEmpty then return false
    admitting batch
    return true
  have hstore : store = do admitting batch; return true := if_neg (by simp [hb])
  obtain ⟨before, after, ho⟩ :=
    on_framingPut (show Managed.phase d.queue = .active from ha) hv store
  refine ⟨before, after, fun {outcome d'} hrun => ?_⟩
  cases outcome with
  | ok u =>
    have hdone : store.on { d with calls := before } = (.ok true, d') := by
      rw [hstore, Action.on_bind_of_ok hrun, Action.on_pure]
    rw [hdone] at ho
    exact Action.on_bind_of_ok ho
  | error fault =>
    have hfailed : store.on { d with calls := before } = (.error fault, d') := by
      rw [hstore, Action.on_bind_of_error hrun]
    rw [hfailed] at ho
    exact Action.on_bind_of_error ho

/-- A queue in the table puts as on a list. -/
theorem put_on (ha : d.queue.phase = .active) (hk : d.store.Keeps d.queue.name l)
    (ht : d.queue.tally = Tally.total l) {batch : List Entry} (hb : batch ≠ []) (bypass : Bool) :
    PutsOn d ((serve (.put batch bypass)).on d)
      (putOn d.queue.storageId.text d.queue.bounds d.queue.hooks batch bypass l).1
      (putOn d.queue.storageId.text d.queue.bounds d.queue.hooks batch bypass l).2 := by
  unfold putOn
  cases hv : (d.queue.hooks.beforePut batch bypass).2 with
  | false =>
    obtain ⟨calls, ho⟩ := put_idle ha (.inl hv)
    exact .inl ⟨d.queue.tally, d.store, calls, ho, ht, hk, .refl _⟩
  | true =>
    obtain ⟨before, after, ho⟩ := put_framed ha hb hv
    rcases admitting_on (d := { d with calls := before }) ha hk ht batch with
      ⟨tally, s, calls, hrun, htally, hk', hu⟩ | ⟨fault, s, calls, hrun, hm⟩
    · exact .inl ⟨tally, s, _, ho hrun, htally, hk', hu⟩
    · exact .inr ⟨fault, s, _, ho hrun, hm⟩

end Durable

end Spillway
