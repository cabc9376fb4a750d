import Spillway.Proofs.Rolls
import Spillway.Proofs.Windows
import Spillway.Queue.Contract

/-!
# What a queue answers

A request for contents names a part of the ordered list of entries that a queue holds. The answer is
a view of that part, and the request either leaves the list or takes the part out of it. Which list
a queue holds is all that its answers depend on; the queue in memory shows that they are these.
-/

namespace Spillway

/-- The key under which an id stands in a list. -/
def placeIn (l : List Entry) (id : UInt64) : Option Key :=
  (l.find? fun e => decide (e.id = id)).map Entry.key

namespace Request

/-- The entries of a list that a request names, in the order in which they are given. -/
def named (l : List Entry) : Request → List Entry
  | .start | .shutdown | .destroy | .put _ _ => []
  | .peek window band => window.head band l
  | .peekFirst => ({ entries := some 1 } : Window).head .all l
  | .peekBefore limit =>
    match limit.bind fun e => placeIn l e.id with
    | some key => l.filter (keyOf · < key)
    | none => []
  | .peekLowest window limit leaveOne | .takeLowest window limit leaveOne =>
    window.tail (limit.map Entry.key) leaveOne l.length l.reverse
  | .take window low high | .removeWindow window low high => window.head (.between low high) l
  | .removeFirst count => l.take count
  | .removeListed entries => l.filter fun e => decide (e.id ∈ entries.map Entry.id)
  | .removeUpTo limit inclusive =>
    let key := (placeIn l limit.id).getD limit.key
    if inclusive then l.filter (keyOf · ≤ key) else l.filter (keyOf · < key)
  | .removeTransient => l.filter (!·.persistent)
  | .clear | .references => l
  | .select admits => l.filter admits

/-- The answer that gives the named entries. -/
def reply (named : List Entry) : Request → Reply
  | .start | .shutdown | .destroy | .put _ _ => .done
  | .peek _ _ | .peekBefore _ | .peekLowest _ _ _ | .takeLowest _ _ _ | .take _ _ _ | .select _ =>
    .entries named
  | .peekFirst => .entry named.head?
  | .removeFirst _ | .removeListed _ | .removeWindow _ _ _ | .removeUpTo _ _ | .removeTransient
  | .clear => .count named.length
  | .references => .ids (named.map Entry.id)

/-- Whether a request reads entries from the front. -/
def readsFront : Request → Bool
  | .peek _ _ | .peekFirst | .peekBefore _ => true
  | _ => false

/-- Whether a request chooses among all entries. -/
def selects : Request → Bool
  | .select _ => true
  | _ => false

/-- Whether a request takes the named entries out. -/
def removes : Request → Bool
  | .takeLowest _ _ _ | .take _ _ _ | .removeFirst _ | .removeListed _ | .removeWindow _ _ _
  | .removeUpTo _ _ | .removeTransient | .clear => true
  | _ => false

/-- Whether a request is about contents, and not a put. -/
def looksUp : Request → Bool
  | .start | .shutdown | .destroy | .put _ _ => false
  | _ => true

/-- What a request leaves of a list. -/
def left (l : List Entry) (request : Request) : List Entry :=
  if request.removes then l.filter fun e => decide (e.key ∉ (request.named l).map Entry.key) else l

/-- A request that reads from the front names entries in the order of the list. -/
theorem named_sublist_of_readsFront (l : List Entry) {request : Request}
    (h : request.readsFront = true) : (request.named l).Sublist l := by
  cases request with
  | peek window band => exact window.head_sublist band l
  | peekFirst => exact Window.head_sublist _ _ l
  | peekBefore limit =>
    simp only [named]
    split
    · exact List.filter_sublist
    · exact List.nil_sublist _
  | _ => cases h

/-- A request names entries in the order of the list, forwards or backwards. -/
theorem named_sublist (l : List Entry) (request : Request) :
    (request.named l).Sublist l ∨ (request.named l).Sublist l.reverse := by
  cases request with
  | peek | peekFirst | peekBefore => exact .inl (named_sublist_of_readsFront l rfl)
  | peekLowest window limit leaveOne => exact .inr (Window.tail_sublist _ _ _ _ _)
  | takeLowest window limit leaveOne => exact .inr (Window.tail_sublist _ _ _ _ _)
  | take window low high => exact .inl (window.head_sublist _ l)
  | removeWindow window low high => exact .inl (window.head_sublist _ l)
  | removeFirst count => exact .inl (List.take_sublist _ _)
  | removeListed entries => exact .inl List.filter_sublist
  | removeUpTo limit inclusive =>
    refine .inl ?_
    simp only [named]
    split
    · exact List.filter_sublist
    · exact List.filter_sublist
  | removeTransient => exact .inl List.filter_sublist
  | clear => exact .inl (List.Sublist.refl _)
  | references => exact .inl (List.Sublist.refl _)
  | select admits => exact .inl List.filter_sublist
  | start | shutdown | destroy | put => exact .inl (List.nil_sublist _)

theorem mem_of_mem_named {l : List Entry} {request : Request} {e : Entry}
    (h : e ∈ request.named l) : e ∈ l := by
  rcases request.named_sublist l with hs | hs
  · exact hs.subset h
  · exact List.mem_reverse.1 (hs.subset h)

/-- No entry is named twice. -/
theorem nodup_named {l : List Entry} (h : Ordered l) (request : Request) :
    (request.named l).Nodup := by
  rcases request.named_sublist l with hs | hs
  · exact h.nodup.sublist hs
  · exact (List.nodup_reverse.2 h.nodup).sublist hs

/-- A key is among those of what a condition picks if the condition picks the entry under it. -/
theorem key_mem_filter {l : List Entry} (h : Ordered l) (p : Entry → Bool) {e : Entry}
    (he : e ∈ l) : e.key ∈ (l.filter p).map Entry.key ↔ p e = true := by
  rw [List.mem_map]
  constructor
  · rintro ⟨f, hf, hk⟩
    rw [List.mem_filter] at hf
    rw [← h.eq_of_key hf.1 he hk]
    exact hf.2
  · exact fun hp => ⟨e, List.mem_filter.2 ⟨he, hp⟩, rfl⟩

/-- Taking out what a condition picks leaves the rest. -/
theorem filter_unnamed {l : List Entry} (h : Ordered l) (p : Entry → Bool) :
    (l.filter fun e => decide (e.key ∉ (l.filter p).map Entry.key)) = l.filter (!p ·) := by
  refine List.filter_congr fun e he => ?_
  rw [Bool.eq_iff_iff, decide_eq_true_eq, key_mem_filter h p he, Bool.not_eq_true,
    Bool.not_eq_true']

end Request

theorem Roll.Lists.placeIn {r : Roll Entry} {l : List Entry} (h : r.Lists l) (id : UInt64) :
    r.place? id = placeIn l id := h.places id

namespace Ram

open Desk

variable {d : Desk Ram} {l : List Entry}

/-- Striking out gives the entries that it strikes out and leaves the others. -/
theorem strike_on (ha : d.queue.phase = .active) (h : d.queue.roll.Lists l) {m : List Entry}
    (hm : ∀ e ∈ m, e ∈ l) (hu : m.Nodup) (pick : Ram → List Key)
    (hp : pick d.queue = m.map Entry.key) :
    ∃ roll calls, (strike pick).on d =
        (.ok m, { queue := { d.queue with roll }, store := d.store, calls }) ∧
      roll.Lists (l.filter fun e => decide (e.key ∉ m.map Entry.key)) := by
  have htake : (d.queue.roll.take (m.map Entry.key)).1 = m := h.take_members hm hu
  have hrest := h.take_rest (m.map Entry.key)
  rw [strike, on_changing (show Managed.phase d.queue = .active from ha)]
  simp only [Action.on_bind, on_theQueue, on_changeQueue, Action.on_pure, hp, htake]
  exact ⟨_, _, rfl, hrest⟩

/-- Reading gives what is seen of the queue. -/
theorem read_on {α : Type} (ha : d.queue.phase = .active) (view : Ram → α) :
    (reading do return view (← theQueue) : Action (Desk Ram) α).on d = (.ok (view d.queue), d) := by
  rw [on_reading (show Managed.phase d.queue = .active from ha)]
  rfl

/-- Reading before a limit goes by the place of its id. -/
theorem peekBefore_on (ha : d.queue.phase = .active) (h : d.queue.roll.Lists l)
    (limit : Option Entry) :
    (peekBefore limit).on d = (.ok ((Request.peekBefore limit).named l), d) := by
  rw [peekBefore, on_reading (show Managed.phase d.queue = .active from ha), Action.on_bind,
    on_theQueue]
  simp only [h.placeIn, Request.named]
  cases limit.bind fun e => placeIn l e.id with
  | none => rfl
  | some key => simp only [Action.on_pure, Roll.before, h.items]

/-- Removing by ids counts those that are there and leaves the others. -/
theorem removeListed_on (ha : d.queue.phase = .active) (h : d.queue.roll.Lists l)
    (entries : List Entry) :
    ∃ roll calls, (removeListed entries).on d =
        (.ok (l.filter fun e => decide (e.id ∈ entries.map Entry.id)).length,
          { queue := { d.queue with roll }, store := d.store, calls }) ∧
      roll.Lists (l.filter fun e => decide (e.id ∉ entries.map Entry.id)) := by
  have ha' : Managed.phase d.queue = .active := ha
  have hcount := (h.takeIds_taken (entries.map Entry.id)).length_eq
  have hrest := h.takeIds_rest (entries.map Entry.id)
  unfold removeListed
  cases entries with
  | nil =>
    rw [if_pos List.isEmpty_nil, on_reading ha']
    exact ⟨d.queue.roll, d.calls, by simp, by simpa using h⟩
  | cons first rest =>
    rw [if_neg (by simp), on_changing ha']
    simp only [Action.on_bind, on_theQueue, on_changeQueue, Action.on_pure, hcount]
    exact ⟨_, _, rfl, hrest⟩

/-- A queue in memory answers every request for contents with a view of the entries that it names.
-/
theorem serve_on (ha : d.queue.phase = .active) (h : d.queue.roll.Lists l) {request : Request}
    (hr : request.looksUp = true) :
    ∃ roll calls, (serve request).on d = (.ok (request.reply (request.named l)),
        { queue := { d.queue with roll }, store := d.store, calls }) ∧
      roll.Lists (request.left l) := by
  have hstrike := strike_on ha h (fun e => Request.mem_of_mem_named) (request.nodup_named h.order)
  obtain rfl := h.items
  cases request with
  | start | shutdown | destroy | put => cases hr
  | peek window band =>
    exact ⟨_, _, Action.on_bind_of_ok (read_on ha fun q => window.head band q.roll.items), h⟩
  | peekFirst =>
    exact ⟨_, _, Action.on_bind_of_ok (read_on ha fun q =>
      ({ entries := some 1 } : Window).head .all q.roll.items), h⟩
  | peekBefore limit => exact ⟨_, _, Action.on_bind_of_ok (peekBefore_on ha h limit), h⟩
  | peekLowest window limit leaveOne =>
    exact ⟨_, _, Action.on_bind_of_ok (read_on ha fun q => q.lowest window limit leaveOne), h⟩
  | references => exact ⟨_, _, Action.on_bind_of_ok (read_on ha fun q => q.roll.ids), h⟩
  | select admits =>
    exact ⟨_, _, Action.on_bind_of_ok (read_on ha fun q => q.roll.items.filter admits), h⟩
  | takeLowest window limit leaveOne =>
    obtain ⟨roll, calls, hs, hl⟩ := hstrike
      (fun q => (q.lowest window limit leaveOne).map Entry.key) rfl
    exact ⟨roll, calls, Action.on_bind_of_ok hs, hl⟩
  | take window low high =>
    obtain ⟨roll, calls, hs, hl⟩ := hstrike
      (fun q => (window.head (.between low high) q.roll.items).map Entry.key) rfl
    exact ⟨roll, calls, Action.on_bind_of_ok hs, hl⟩
  | removeFirst count =>
    obtain ⟨roll, calls, hs, hl⟩ := hstrike (fun q => (q.roll.items.take count).map Entry.key) rfl
    exact ⟨roll, calls, Action.on_bind_of_ok (Action.on_bind_of_ok hs), hl⟩
  | removeWindow window low high =>
    obtain ⟨roll, calls, hs, hl⟩ := hstrike
      (fun q => (window.head (.between low high) q.roll.items).map Entry.key) rfl
    exact ⟨roll, calls, Action.on_bind_of_ok (Action.on_bind_of_ok hs), hl⟩
  | removeUpTo limit inclusive =>
    obtain ⟨roll, calls, hs, hl⟩ := hstrike
      (fun q =>
        let key := (q.roll.place? limit.id).getD limit.key
        (if inclusive then q.roll.upTo key else q.roll.before key).map Entry.key)
      (by simp only [Roll.upTo, Roll.before, h.placeIn]; rfl)
    exact ⟨roll, calls, Action.on_bind_of_ok (Action.on_bind_of_ok hs), hl⟩
  | removeTransient =>
    obtain ⟨roll, calls, hs, hl⟩ := hstrike
      (fun q => (q.roll.items.filter (!·.persistent)).map Entry.key) rfl
    exact ⟨roll, calls, Action.on_bind_of_ok (Action.on_bind_of_ok hs), hl⟩
  | removeListed entries =>
    have hleft : Request.left d.queue.roll.items (.removeListed entries) =
        d.queue.roll.items.filter fun e => decide (e.id ∉ entries.map Entry.id) := by
      refine (Request.filter_unnamed h.order _).trans (List.filter_congr fun e _ => ?_)
      rw [← decide_not]
    obtain ⟨roll, calls, ho, hl⟩ := removeListed_on ha h entries
    exact ⟨roll, calls, Action.on_bind_of_ok ho, hleft.symm ▸ hl⟩
  | clear =>
    have hleft : Request.left d.queue.roll.items .clear = [] := by
      have := Request.filter_unnamed h.order fun _ => true
      rw [List.filter_true] at this
      exact this.trans (by simp)
    have ho : (clear : Action (Desk Ram) Nat).on d = _ :=
      on_changing (show Managed.phase d.queue = .active from ha) _
    exact ⟨{}, _, Action.on_bind_of_ok ho, hleft.symm ▸ .empty⟩

end Ram

end Spillway
