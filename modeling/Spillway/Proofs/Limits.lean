import Spillway.Proofs.AnyKind

/-!
# Limits

Some requests are given an entry as a limit. Reading and removing what is served before it go by the
id of the limit alone: where an entry of that id stands is looked up, whatever priority the limit is
given with. Tail windows are not about an entry: they cover what is served after the key of the
limit, as it is given, whether or not an entry stands under that key. All kinds of queue agree on
this.
-/

namespace Spillway

open Request

/-- The limit that a request is given. -/
def Request.limit? : Request → Option Entry
  | .peekBefore limit | .peekLowest _ limit _ | .takeLowest _ limit _ => limit
  | .removeUpTo limit _ => some limit
  | _ => none

/-- Whether an entry is served before `s`, or is `s` if that is asked for. -/
def Entry.upTo (s : Entry) (inclusive : Bool) (e : Entry) : Bool :=
  if inclusive then decide (e.key ≤ s.key) else decide (e.key < s.key)

theorem Entry.upTo_self (s : Entry) (inclusive : Bool) : s.upTo inclusive s = inclusive := by
  cases inclusive with
  | false => exact decide_eq_false (Key.lt_irrefl s.key)
  | true => exact decide_eq_true (Key.lt_irrefl s.key)

section

variable {l : List Entry} {s limit : Entry}

/-- An id stands where its entry does. -/
theorem placeIn_of_mem (h : Ordered l) (hs : s ∈ l) (hid : limit.id = s.id) :
    placeIn l limit.id = some s.key := by
  rw [placeIn, hid]
  exact congrArg (Option.map Entry.key) (h.find?_eq_some hs)

/-- The entries before a limit are those before the stored entry of its id. -/
theorem named_peekBefore (h : Ordered l) (hs : s ∈ l) (hid : limit.id = s.id) :
    (Request.peekBefore (some limit)).named l = l.filter fun e => decide (e.key < s.key) := by
  simp only [named, Option.bind_some, placeIn_of_mem h hs hid]
  rfl

/-- The entries up to a limit are those up to the stored entry of its id. -/
theorem named_removeUpTo (h : Ordered l) (hs : s ∈ l) (hid : limit.id = s.id) (inclusive : Bool) :
    (Request.removeUpTo limit inclusive).named l = l.filter (s.upTo inclusive) := by
  simp only [named, placeIn_of_mem h hs hid, Option.getD_some]
  cases inclusive with
  | false => rfl
  | true => rfl

/-- The entries of a tail window with a limit. -/
def tailAfter (l : List Entry) (w : Window) (limit : Key) (leaveOne : Bool) : List Entry :=
  w.tail none leaveOne l.length (l.filter fun e => decide (limit < e.key)).reverse

/-- They are served after the limit, and given in the reverse order of service. -/
theorem tailAfter_sublist (l : List Entry) (w : Window) (limit : Key) (leaveOne : Bool) :
    (tailAfter l w limit leaveOne).Sublist (l.filter fun e => decide (limit < e.key)).reverse :=
  w.tail_sublist none leaveOne l.length _

/-- Both requests for a tail window name them. -/
theorem tail_eq_tailAfter (h : Ordered l) (w : Window) (limit : Key) (leaveOne : Bool) :
    w.tail (some limit) leaveOne l.length l.reverse = tailAfter l w limit leaveOne := by
  rw [w.tail_some limit leaveOne l.length (List.pairwise_reverse.2 h.ascending),
    List.filter_reverse]
  rfl

/-- A tail window covers the entry of its limit's id only if the limit is given with a higher
priority than that entry has. -/
theorem priority_lt_of_mem_tailAfter {w : Window} {leaveOne : Bool} (hid : limit.id = s.id)
    (hs : s ∈ tailAfter l w limit.key leaveOne) : s.priority < limit.priority := by
  have hafter := (tailAfter_sublist l w limit.key leaveOne).subset hs
  rw [List.mem_reverse, List.mem_filter, decide_eq_true_eq] at hafter
  rcases hafter.2 with hlt | ⟨-, hlt⟩
  · exact hlt
  · have hlt : limit.id < s.id := hlt
    rw [hid] at hlt
    exact absurd hlt (UInt64.lt_irrefl s.id)

/-- A limit with the priority of the stored entry of its id is fair to a queue in the table. -/
theorem fair_removeUpTo (h : Ordered l) (hs : s ∈ l) (hid : limit.id = s.id)
    (hp : limit.priority = s.priority) (inclusive : Bool) :
    (Request.removeUpTo limit inclusive).Fair l := fun e he heid => by
  have : e = s := h.eq_of_id he hs (heid.trans hid)
  rw [this, hp]

end

namespace Queue

variable {d : Desk Queue} {l : List Entry}

/-- A queue gives a list of entries when it is asked for all. -/
def Shows (d : Desk Queue) (l : List Entry) : Prop :=
  ((ask (.select fun _ => true)).on d).1 = .ok (.entries l)

/-- A queue answers a request, and shows a list afterwards. -/
def Gives (d : Desk Queue) (request : Request) (reply : Reply) (rest : List Entry) : Prop :=
  ((ask request).on d).1 = .ok reply ∧ Shows ((ask request).on d).2 rest

/-- A queue at work shows what it has. -/
theorem Has.shows (h : Has d l) (ho : Open d) : Shows d l := by
  have hr : (Request.select fun _ => true).looksUp = true := rfl
  obtain ⟨d', hon, -⟩ := h.lookup ho hr fun _ => trivial
  rw [Shows, hon]
  exact congrArg (fun es => Except.ok (Reply.entries es)) (List.filter_true l)

/-- It shows nothing else. -/
theorem Shows.unique {m : List Entry} (h : Shows d l) (h' : Shows d m) : l = m := by
  have := h.symm.trans h'
  injection this with this
  injection this

/-- What a queue at work gives. -/
theorem Has.gives (h : Has d l) (ho : Open d) {request : Request} (hr : request.looksUp = true)
    (hf : d.queue.kind = .durable → request.Fair l) :
    Gives d request (request.reply (request.named l)) (request.left l) := by
  obtain ⟨d', hon, -, ho', hl⟩ := h.lookup ho hr hf
  rw [Gives, hon]
  exact ⟨rfl, hl.shows ho'⟩

/-- What a queue that shows `l` makes of a limit that has the id of an entry `s` of it. -/
structure Heeds (d : Desk Queue) (l : List Entry) (s limit : Entry) : Prop where
  /-- It reads what is served before `s`. -/
  before : Gives d (.peekBefore (some limit))
    (.entries (l.filter fun e => decide (e.key < s.key))) l
  /-- It removes what is served before `s`, and `s` itself exactly if that is asked for. -/
  upTo : (d.queue.kind = .durable → limit.priority = s.priority) → ∀ inclusive,
    Gives d (.removeUpTo limit inclusive) (.count (l.filter (s.upTo inclusive)).length)
        (l.filter fun e => !s.upTo inclusive e) ∧
      (s ∈ l.filter (fun e => !s.upTo inclusive e) ↔ inclusive = false)
  /-- It reads and takes tail windows of what is served after the key of the limit; `s` is not among
  it unless the limit is given with a higher priority than `s` has. -/
  tail : ∀ w leaveOne,
    Gives d (.peekLowest w (some limit) leaveOne) (.entries (tailAfter l w limit.key leaveOne)) l ∧
      Gives d (.takeLowest w (some limit) leaveOne) (.entries (tailAfter l w limit.key leaveOne))
        (l.filter fun e => !decide (e.id ∈ (tailAfter l w limit.key leaveOne).map Entry.id)) ∧
      (s ∈ tailAfter l w limit.key leaveOne → s.priority < limit.priority)

/-- What limits are to a queue that shows `l`. -/
structure Limits (d : Desk Queue) (l : List Entry) : Prop where
  /-- The list stands in the order of service. -/
  order : Ordered l
  /-- It is what the queue shows. -/
  shown : Shows d l
  /-- Limits that have the id of an entry of it. -/
  heeds : ∀ s ∈ l, ∀ limit : Entry, limit.id = s.id → Heeds d l s limit
  /-- Every other queue that shows it answers a request with a limit alike, and shows the same
  afterwards. -/
  agree : ∀ e, Reachable e → Open e → Shows e l → ∀ request : Request, request.limit?.isSome →
    (d.queue.kind = .durable ∨ e.queue.kind = .durable → request.Fair l) →
    ∃ reply rest, Gives d request reply rest ∧ Gives e request reply rest

theorem Has.heeds (h : Has d l) (ho : Open d) {s limit : Entry} (hs : s ∈ l)
    (hid : limit.id = s.id) : Heeds d l s limit where
  before := by
    have hgives : Gives d (.peekBefore (some limit)) _ _ := h.gives ho rfl fun _ => trivial
    rwa [named_peekBefore h.ordered hs hid] at hgives
  upTo := fun hp inclusive => by
    have hnamed := named_removeUpTo h.ordered hs hid inclusive
    have hgives : Gives d (.removeUpTo limit inclusive) _ _ :=
      h.gives ho rfl fun hk => fair_removeUpTo h.ordered hs hid (hp hk) inclusive
    rw [left_eq_filter h.ordered rfl hnamed, hnamed] at hgives
    refine ⟨hgives, ?_⟩
    rw [List.mem_filter, s.upTo_self, Bool.not_eq_true']
    exact and_iff_right hs
  tail := fun w leaveOne => by
    have hpeek : Gives d (.peekLowest w (some limit) leaveOne) _ _ :=
      h.gives ho rfl fun _ => trivial
    have htake : Gives d (.takeLowest w (some limit) leaveOne) _ _ :=
      h.gives ho rfl fun _ => trivial
    rw [left_eq_ids h.ordered rfl] at htake
    simp only [named, Option.map_some, tail_eq_tailAfter h.ordered] at hpeek htake
    exact ⟨hpeek, htake, priority_lt_of_mem_tailAfter hid⟩

/-- Requests with a limit are for contents. -/
theorem looksUp_of_limit {request : Request} (h : request.limit?.isSome) :
    request.looksUp = true := by
  cases request with
  | peekBefore | peekLowest | takeLowest | removeUpTo => rfl
  | _ => cases h

/-- In a queue of any kind, whatever its history, that is active and can use what it needs, a limit
stands for the stored entry of its id where something before it is read or removed, and for its own
key in tail windows. -/
theorem limits_stand (h : Reachable d) (ho : Open d) : ∃ l, Limits d l := by
  obtain ⟨l, hl⟩ := reachable_has h
  refine ⟨l, hl.ordered, hl.shows ho, fun s hs limit hid => hl.heeds ho hs hid, ?_⟩
  intro e he hoe hshows request hlimit hfair
  obtain ⟨m, hm⟩ := reachable_has he
  obtain rfl := hshows.unique (hm.shows hoe)
  have hr := looksUp_of_limit hlimit
  exact ⟨_, _, hl.gives ho hr fun hk => hfair (.inl hk), hm.gives hoe hr fun hk => hfair (.inr hk)⟩

/-- A new queue of a kind, over a store without a table. -/
def newborn : Kind → Queue
  | .ram => .ram { storageId := .mail, bounds := .tight }
  | .durable => .durable Durable.newborn.queue
  | .cached => .cached Cached.newborn.queue

/-- It is what the program makes. -/
theorem create_newborn (kind : Kind) : create kind .mail .tight = .ok (newborn kind) := by
  cases kind <;> rfl

/-- It calls nothing. -/
theorem withHooks_newborn (kind : Kind) : (newborn kind).withHooks {} = newborn kind := by
  cases kind <;> rfl

/-- A queue that was just made has a history. -/
theorem reachable_newborn (kind : Kind) : Reachable { queue := newborn kind, store := {} } := by
  rw [← withHooks_newborn kind]
  exact .made (create_newborn kind) (.of_rowsOf_nil rfl) {} []

/-- A queue of a kind with two entries of one priority. If it is cached, memory has room for one. -/
def stocked (kind : Kind) : Desk Queue :=
  [.start, .put [.blank 1 true, .blank 2 false] false].foldl
    (fun d request => ((ask request).on d).2) { queue := newborn kind, store := {} }

theorem reachable_stocked (kind : Kind) : Reachable (stocked kind) :=
  (reachable_newborn kind).askAll _

theorem open_stocked (kind : Kind) : Open (stocked kind) := by
  cases kind with
  | ram => exact ⟨by decide +kernel, .inl rfl⟩
  | durable => exact ⟨by decide +kernel, .inr (by decide +kernel)⟩
  | cached => exact ⟨by decide +kernel, .inr (by decide +kernel)⟩

theorem shows_stocked (kind : Kind) : Shows (stocked kind) [.blank 1 true, .blank 2 false] := by
  unfold Shows
  cases kind <;> decide +kernel

/-- Limits in queues of all kinds with two entries. -/
theorem limits_stand_stocked :
    (∀ kind, Reachable (stocked kind) ∧ Open (stocked kind)) ∧
      ∀ kind, Limits (stocked kind) [.blank 1 true, .blank 2 false] := by
  refine ⟨fun kind => ⟨reachable_stocked kind, open_stocked kind⟩, fun kind => ?_⟩
  obtain ⟨l, hl⟩ := limits_stand (reachable_stocked kind) (open_stocked kind)
  rwa [hl.shown.unique (shows_stocked kind)] at hl

/-- In no kind of queue does a tail window go by the id of its limit: with the first entry as a
limit it covers that entry if the limit is given with a higher priority, and not if it is given with
its own. -/
theorem limits_not_by_id : ¬ ∃ kind : Kind, ∀ {d : Desk Queue} {l : List Entry} {s a b : Entry},
    d.queue.kind = kind → Reachable d → Open d → Shows d l → s ∈ l → a.id = s.id → b.id = s.id →
    ∀ w leaveOne, ((ask (.takeLowest w (some a) leaveOne)).on d).1 =
      ((ask (.takeLowest w (some b) leaveOne)).on d).1 := by
  rintro ⟨kind, hall⟩
  let own := Entry.blank 1 true
  let raised := { own with priority := .highest }
  have hkind : (stocked kind).queue.kind = kind := by
    cases kind <;> decide +kernel
  have hdiffer : ((ask (.takeLowest {} (some raised) false)).on (stocked kind)).1 ≠
      ((ask (.takeLowest {} (some own) false)).on (stocked kind)).1 := by
    cases kind <;> decide +kernel
  exact hdiffer (hall hkind (reachable_stocked kind) (open_stocked kind) (shows_stocked kind)
    (List.mem_cons_self ..) (rfl : raised.id = own.id) rfl {} false)

end Queue

end Spillway
