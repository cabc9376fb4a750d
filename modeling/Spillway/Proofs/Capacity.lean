import Spillway.Proofs.Limits
import Spillway.Proofs.Storing

/-!
# Capacity

A queue of any kind accepts a batch as long as it is within its bounds, and then holds the whole
batch, so that it can be over its bounds by what one put has brought, and by no more. While it is
over them it refuses whatever it is given, whether or not the database can be used, until something
is removed.
-/

namespace Spillway

open Desk

/-- A list gets longer by what it has newly after a batch was entered. -/
theorem length_entered (l batch : List Entry) : (batch.foldl enter l).length =
    l.length + (newcomers l (batch.foldl enter l)).length := by
  rw [(perm_foldl_enter l batch).length_eq, List.length_append, (perm_newcomers l batch).length_eq]

/-- So do its bytes. -/
theorem bytesOf_entered (l batch : List Entry) : bytesOf (batch.foldl enter l) =
    bytesOf l + bytesOf (newcomers l (batch.foldl enter l)) := by
  unfold bytesOf
  rw [((perm_foldl_enter l batch).map _).sum_nat, List.map_append, List.sum_append_nat,
    ((perm_newcomers l batch).map _).sum_nat]

/-- What a request may do to the entries that a queue has: nothing, unless it removes some, destroys
the queue, or is a put that a queue within its bounds accepts. -/
inductive Passes (b : Bounds) (l : List Entry) : Request → Except Fault Reply → List Entry → Prop
  | same (request : Request) (outcome : Except Fault Reply) : Passes b l request outcome l
  | removed {request : Request} {m : List Entry} (hr : request.removes = true)
      (outcome : Except Fault Reply) (hs : m.Sublist l) : Passes b l request outcome m
  | emptied (outcome : Except Fault Reply) : Passes b l .destroy outcome []
  | taken (batch : List Entry) (bypass : Bool) (hx : ¬ b.Exceeded l) :
      Passes b l (.put batch bypass) (.ok .done) (batch.foldl enter l)

/-- So it is of what a request for contents leaves. -/
theorem Passes.left {b : Bounds} {l : List Entry} (request : Request)
    (outcome : Except Fault Reply) : Passes b l request outcome (request.left l) := by
  cases hr : request.removes with
  | true =>
    refine .removed hr outcome ?_
    rw [Request.left, hr]
    exact List.filter_sublist
  | false =>
    rw [Request.left, hr]
    exact .same request outcome

/-- What a put makes of a list is what it may do. -/
theorem Passes.put {name : String} {b : Bounds} {hooks : Hooks} (batch : List Entry) (bypass : Bool)
    (l : List Entry) : Passes b l (.put batch bypass) (putOn name b hooks batch bypass l).1
      (putOn name b hooks batch bypass l).2 := by
  by_cases ht : hooks.TakesOver batch bypass
  · rw [putOn_takenOver ht]
    exact .same _ _
  by_cases hx : b.Exceeded l
  · rw [putOn_exceeded ht hx]
    exact .same _ _
  · rw [putOn_room ht hx]
    exact .taken batch bypass hx

namespace Ram

variable {d : Desk Ram} {l : List Entry}

/-- What a request does to a queue in memory. -/
theorem serve_passes (h : d.queue.roll.Lists l) (request : Request) :
    ((serve request).on d).2.queue.bounds = d.queue.bounds ∧
      ∃ m, ((serve request).on d).2.queue.roll.Lists m ∧
        Passes d.queue.bounds l request ((serve request).on d).1 m := by
  cases request using Request.casesByNeed with
  | contents request hr =>
    by_cases ha : d.queue.phase = .active
    · obtain ⟨batch, bypass, rfl⟩ | hlooks := Request.put_or_looksUp hr
      · obtain ⟨roll, store, calls, ho, hl⟩ := put_on ha h batch bypass
        rw [ho]
        exact ⟨rfl, _, hl, .put batch bypass l⟩
      · obtain ⟨roll, calls, ho, hl⟩ := serve_on ha h hlooks
        rw [ho]
        exact ⟨rfl, _, hl, .left _ _⟩
    · rw [serve_inactive ha hr]
      exact ⟨rfl, l, h, .same _ _⟩
  | start =>
    by_cases hd : d.queue.phase = .destroyed
    · rw [serve_start_destroyed hd]
      exact ⟨rfl, l, h, .same _ _⟩
    · rw [serve_start hd]
      exact ⟨rfl, l, h, .same _ _⟩
  | shutdown =>
    obtain ⟨calls, ho⟩ := serve_shutdown d
    rw [ho, closed_eq]
    exact ⟨rfl, l, h, .same _ _⟩
  | destroy =>
    obtain ⟨calls, ho⟩ := serve_destroy d
    rw [ho]
    exact ⟨rfl, [], .empty, .emptied _⟩

end Ram

namespace Durable

variable {d d' : Desk Durable} {l m : List Entry}

/-- A queue in the table that has a list, and whose totals are those of the list, whatever its
phase. -/
structure Counts (d : Desk Durable) (l : List Entry) : Prop where
  rests : Rests d l
  tally : d.queue.tally = Tally.total l

/-- What leaves totals and rows leaves a queue that counts them. -/
theorem Counts.unmoved (h : Counts d l) (hu : Unmoved d d') : Counts d' l := by
  refine ⟨h.rests.unmoved hu, ?_⟩
  rw [hu.queue]
  exact h.tally

/-- What a request does to a queue in the table. -/
structure Goes (d : Desk Durable) (l : List Entry) (request : Request) : Prop where
  bounds : ((serve request).on d).2.queue.bounds = d.queue.bounds
  passes : ∃ m, Counts ((serve request).on d).2 m ∧
    Passes d.queue.bounds l request ((serve request).on d).1 m

/-- Work on the rows passes if what it leaves may be left. -/
theorem Works.goes {result : Reply → Prop} {request : Request} (h : Counts d l)
    (ha : d.queue.phase = .active)
    (hw : Works d l ((serve request).on d) result m)
    (hp : ∀ outcome, Passes d.queue.bounds l request outcome m) : Goes d l request := by
  have hd : d.queue.phase ≠ .destroyed := by rw [ha]; nofun
  rcases hw with ⟨a, tally, store, calls, ho, -, htally, hk, -⟩ | ⟨fault, store, ho, hm⟩
  · exact ⟨by rw [ho]; rfl, m, by rw [ho]; exact ⟨rests_of_keeps hk hd, htally h.tally⟩, hp _⟩
  · exact ⟨by rw [ho], l, by rw [ho]; exact h.unmoved (.of_table rfl hm.table), .same _ _⟩

/-- An active queue answers requests for contents. -/
theorem lookup_goes (h : Counts d l) (ha : d.queue.phase = .active) {request : Request}
    (hr : request.looksUp = true) : Goes d l request := by
  have hk := h.rests.keeps ha
  cases request with
  | removeUpTo limit inclusive =>
    exact (removeUpTo_works ha hk limit inclusive).goes h ha
      fun outcome => .removed rfl outcome List.filter_sublist
  | start | shutdown | destroy | put => cases hr
  | _ => exact (serve_on ha hk hr trivial).goes h ha (.left _)

/-- It puts as on its list, if it can. -/
theorem put_goes (h : Counts d l) (ha : d.queue.phase = .active) (batch : List Entry)
    (bypass : Bool) : Goes d l (.put batch bypass) := by
  have hd : d.queue.phase ≠ .destroyed := by rw [ha]; nofun
  by_cases hb : batch = []
  · have hidle : (d.queue.hooks.beforePut batch bypass).2 = false ∨ batch = [] := .inr hb
    obtain ⟨calls, ho⟩ := put_idle ha hidle
    exact ⟨by rw [ho], l, by rw [ho]; exact h.unmoved ⟨rfl, rfl, id⟩, .same _ _⟩
  rcases put_on ha (h.rests.keeps ha) h.tally hb bypass with
    ⟨tally, store, calls, ho, htally, hk, -⟩ | ⟨fault, store, calls, ho, hm⟩
  · refine ⟨by rw [ho]; rfl, _, by rw [ho]; exact ⟨rests_of_keeps hk hd, htally⟩, ?_⟩
    rw [ho]
    exact .put batch bypass l
  · exact ⟨by rw [ho], l, by rw [ho]; exact h.unmoved (.of_table rfl hm.table), .same _ _⟩

/-- Opening, over bytes that are a word, finds the same again. -/
theorem start_goes (h : Counts d l) (hb : (Tally.total l).bytes < 2 ^ 64) : Goes d l .start := by
  by_cases hd : d.queue.phase = .destroyed
  · have ho : (serve .start).on d = _ := on_done (start_destroyed hd)
    exact ⟨by rw [ho], l, by rw [ho]; exact h, .same _ _⟩
  rcases start_cases hd h.rests.rows with
    ⟨tally, store, ho, hk, -, -, htally⟩ | ⟨fault, store, ho, hrows, -, ht, -⟩
  · have ho : (serve .start).on d = _ := on_done ho
    refine ⟨by rw [ho], l, ?_, .same _ _⟩
    rw [ho]
    exact ⟨rests_of_keeps hk nofun, (htally hb).2⟩
  · have ho : (serve .start).on d = _ := on_done ho
    refine ⟨by rw [ho], l, ?_, .same _ _⟩
    rw [ho]
    exact h.unmoved ⟨rfl, hrows, fun hmade => ht hmade ▸ hmade⟩

/-- Closing leaves what a queue in the table counts. -/
theorem shutdown_goes (h : Counts d l) : Goes d l .shutdown := by
  obtain ⟨calls, ho⟩ := shutdown_on d
  have ho : (serve .shutdown).on d = _ := on_done ho
  refine ⟨by rw [ho], l, ?_, .same _ _⟩
  rw [ho]
  refine ⟨⟨h.rests.rows, fun ha => ?_, fun hd => ?_⟩, h.tally⟩
  · exact absurd ha d.queue.phase.closed_ne_active
  · exact h.rests.gone (Phase.closed_eq_destroyed_iff.1 hd)

/-- Destroying leaves nothing to be counted, or all. -/
theorem destroy_goes (h : Counts d l) : Goes d l .destroy := by
  by_cases hd : d.queue.phase = .destroyed
  · have ho : (serve .destroy).on d = _ := on_done (destroy_destroyed hd)
    exact ⟨by rw [ho], l, by rw [ho]; exact h, .same _ _⟩
  rcases destroy_cases hd h.rests.rows with ⟨store, calls, ho, hk, -⟩ | ⟨fault, store, ho, ht, -⟩
  · have ho : (serve .destroy).on d = _ := on_done ho
    refine ⟨by rw [ho], [], ?_, .emptied _⟩
    rw [ho]
    exact ⟨⟨hk.partition, nofun, fun _ => rfl⟩, rfl⟩
  · have ho : (serve .destroy).on d = _ := on_done ho
    refine ⟨by rw [ho], l, ?_, .same _ _⟩
    rw [ho]
    exact h.unmoved (.of_table rfl ht)

/-- Whatever a queue in the table is asked, it counts what is left then. -/
theorem serve_goes (h : Counts d l) (request : Request)
    (hb : request = .start → (Tally.total l).bytes < 2 ^ 64) : Goes d l request := by
  cases request using Request.casesByNeed with
  | contents request hr =>
    by_cases ha : d.queue.phase = .active
    · obtain ⟨batch, bypass, rfl⟩ | hlooks := Request.put_or_looksUp hr
      · exact put_goes h ha batch bypass
      · exact lookup_goes h ha hlooks
    · have ho := serve_inactive ha hr
      exact ⟨by rw [ho], l, by rw [ho]; exact h, .same _ _⟩
  | start => exact start_goes h (hb rfl)
  | shutdown => exact shutdown_goes h
  | destroy => exact destroy_goes h

end Durable

namespace Cached

variable {d : Desk Cached} {l : List Entry}

/-- A cached queue that has what some queue in memory has; or one that is destroyed and knows
nothing, though rows of it may be left. -/
inductive Counts (d : Desk Cached) : List Entry → Prop
  | paired {r : Desk Ram} {l : List Held} (h : Paired d r l) : Counts d (l.map Held.entry)
  | gone (hd : d.queue.phase = .destroyed) (hi : d.queue.index = {})
      (hh : d.queue.hot.roll.items = []) : Counts d []

/-- What a request does to a cached queue. -/
structure Goes (d : Desk Cached) (l : List Entry) (request : Request) : Prop where
  bounds : ((serve request).on d).2.queue.bounds = d.queue.bounds
  passes : ∃ m, Counts ((serve request).on d).2 m ∧
    Passes d.queue.bounds l request ((serve request).on d).1 m

/-- What a cached queue answers as a queue in memory does, it does as that. -/
theorem goes_of_answers {r : Desk Ram} {l : List Held} {request : Request} (h : Paired d r l)
    (ha : Paired.Answers d r request) : Goes d (l.map Held.entry) request := by
  obtain ⟨m, hm⟩ := ha.paired
  obtain ⟨-, n, hn, hp⟩ := Ram.serve_passes h.roll request
  obtain rfl : n = m.map Held.entry := hn.items.symm.trans hm.roll.items
  rw [← ha.same, h.bounds] at hp
  exact ⟨ha.kept.bounds, _, .paired hm, hp⟩

/-- Work that changes neither a cached queue nor its table passes. -/
theorem goes_of_unaltered {r : Desk Ram} {l : List Held} {request : Request}
    (h : Paired ((serve request).on d).2 r l)
    (hb : ((serve request).on d).2.queue.bounds = d.queue.bounds) :
    Goes d (l.map Held.entry) request :=
  ⟨hb, _, .paired h, .same _ _⟩

/-- Destroying a cached queue leaves its index empty. -/
theorem destroy_goes (h : Counts d l) : Goes d l .destroy := by
  by_cases hd : d.queue.phase = .destroyed
  · have ho : (serve .destroy).on d = _ := on_done (destroy_destroyed hd)
    exact ⟨by rw [ho], l, by rw [ho]; exact h, .same _ _⟩
  cases h with
  | gone hgone => exact absurd hgone hd
  | @paired r l h =>
    obtain ⟨outcome, d', m, ho, hk, hm, hdone, hphase, hindex, -⟩ := destroy_on h.holds hd
    have ho : (serve .destroy).on d = _ := on_done ho
    have hcold : inMemory m = [] := by
      rcases hdone with ⟨-, rfl⟩ | ⟨fault, -, rfl, -⟩
      · rfl
      · exact inMemory_of_cold (cold_row _)
    have hhot := hm.shelved.hot.items
    rw [hcold] at hhot
    refine ⟨by rw [ho]; exact hk.bounds, [], ?_, .emptied _⟩
    rw [ho]
    exact .gone hphase hindex hhot

/-- Whatever a cached queue is asked, it counts what is left then. -/
theorem serve_goes (h : Counts d l) (request : Request) : Goes d l request := by
  by_cases hdestroy : request = .destroy
  · subst hdestroy
    exact destroy_goes h
  cases h with
  | gone hd hi hh =>
    have hsame := serve_destroyed hd request
    exact ⟨by rw [hsame], [], by rw [hsame]; exact .gone hd hi hh, .same _ _⟩
  | @paired r l h =>
    rcases h.asked request with ha | hf | hg
    · exact goes_of_answers h ha
    · have hr := hf.remains.resolve_left fun hd => hdestroy hd.1
      exact goes_of_unaltered hr (hr.bounds.symm.trans h.bounds)
    · exact goes_of_unaltered hg.paired hg.spoilt.steady.bounds

end Cached

namespace Queue

variable {d d' : Desk Queue} {l m : List Entry}

/-! ## What a queue has and counts -/

/-- The entries that a queue has, in memory or in rows that it knows. -/
def contents (d : Desk Queue) : List Entry :=
  match d.queue with
  | .ram q => q.roll.items
  | .durable q => Durable.contents ⟨q, d.store, d.calls⟩
  | .cached q => Cached.contents ⟨q, d.store, d.calls⟩

/-- A queue of any kind that has a list and counts it. -/
inductive Counts : Desk Queue → List Entry → Prop
  | ram {d : Desk Ram} {l : List Entry} (h : d.queue.roll.Lists l) : Counts (d.seat .ram) l
  | durable {d : Desk Durable} {l : List Entry} (h : Durable.Counts d l) :
      Counts (d.seat .durable) l
  | cached {d : Desk Cached} {l : List Entry} (h : Cached.Counts d l) : Counts (d.seat .cached) l

/-- What a queue counts is what it contains. -/
theorem Counts.contents_eq (h : Counts d l) : contents d = l := by
  cases h with
  | ram h => exact h.items
  | durable h => exact h.rests.contents
  | @cached d l h =>
    cases h with
    | paired h =>
      have hs := h.holds.shelved
      exact Cached.contents_of_known hs.layout h.index hs.hot hs.rows
    | gone hd hi hh =>
      change Cached.contents d = []
      rw [Cached.contents, hh, hi, List.nil_append, List.filter_eq_nil_iff]
      exact fun _ _ => Bool.false_ne_true

/-- Its totals are those of what it counts. -/
theorem Counts.tally (h : Counts d l) : Managed.tally d.queue = Tally.total l := by
  cases h with
  | ram h => exact h.tally
  | durable h => exact h.tally
  | @cached d l h =>
    cases h with
    | paired h => exact Cached.tally_of_lists h.index
    | gone hd hi hh =>
      change d.queue.index.tally = _
      rw [hi]
      rfl

/-- What a request does to a queue that counts its list. -/
theorem Counts.asked (h : Counts d l) (request : Request)
    (hb : request = .start → d.queue.kind = .durable → (Tally.total l).bytes < 2 ^ 64) :
    Managed.bounds ((ask request).on d).2.queue = Managed.bounds d.queue ∧
      ∃ m, Counts ((ask request).on d).2 m ∧
        Passes (Managed.bounds d.queue) l request ((ask request).on d).1 m := by
  cases h with
  | @ram d l h =>
    obtain ⟨hbounds, m, hm, hp⟩ := Ram.serve_passes h request
    exact ⟨hbounds, m, .ram (d := ((serve request).on d).2) hm, hp⟩
  | durable h =>
    obtain ⟨hbounds, m, hm, hp⟩ := Durable.serve_goes h request fun hs => hb hs rfl
    exact ⟨hbounds, m, .durable hm, hp⟩
  | cached h =>
    obtain ⟨hbounds, m, hm, hp⟩ := Cached.serve_goes h request
    exact ⟨hbounds, m, .cached hm, hp⟩

/-- A queue that is told that the database is there again has and counts what it did. -/
theorem Counts.notified (h : Counts d l) :
    Managed.bounds (catchUp.on d).2.queue = Managed.bounds d.queue ∧ Counts (catchUp.on d).2 l := by
  cases h with
  | ram h => exact ⟨rfl, .ram h⟩
  | durable h => exact ⟨rfl, .durable h⟩
  | @cached d l h =>
    cases h with
    | paired h =>
      obtain ⟨hk, -, m, hm⟩ := h.notified
      exact ⟨hk.bounds, .cached (h.roll.items.symm.trans hm.roll.items ▸ .paired hm)⟩
    | gone hd hi hh =>
      have hsame : (Cached.catchUp.on d).2 = d := by
        rw [Cached.catchUp_inactive (by rw [hd]; nofun)]
      have hseat : (catchUp.on (d.seat .cached)).2 = (Cached.catchUp.on d).2.seat .cached := rfl
      rw [hseat, hsame]
      exact ⟨rfl, .cached (.gone hd hi hh)⟩

/-- Others leave what it counts. -/
theorem Counts.spared (h : Counts d l) {s : Store}
    (hs : d.store.Spares (Managed.storageId d.queue).text s) : Counts { d with store := s } l := by
  cases h with
  | @ram d l h => exact .ram (d := { d with store := s }) h
  | durable h => exact .durable ⟨h.rests.spared hs, h.tally⟩
  | @cached d l h =>
    cases h with
    | @paired r l h => exact .cached (.paired (h.spared hs r.store))
    | gone hd hi hh => exact .cached (d := { d with store := s }) (.gone hd hi hh)

/-- So do other hooks. -/
theorem Counts.hooked (h : Counts d l) (hooks : Hooks) :
    Counts { d with queue := d.queue.withHooks hooks } l := by
  cases h with
  | @ram d l h => exact .ram (d := { d with queue := { d.queue with hooks } }) h
  | @durable d l h =>
    exact .durable (d := { d with queue := { d.queue with hooks } })
      ⟨⟨h.rests.rows, h.rests.made, h.rests.gone⟩, h.tally⟩
  | @cached d l h =>
    cases h with
    | paired h => exact .cached (.paired (h.hooked hooks))
    | gone hd hi hh =>
      exact .cached (d := { d with queue := { d.queue with hooks } }) (.gone hd hi hh)

/-- A new queue over a table without rows of its name has nothing and counts that. -/
theorem made_counts {kind : Kind} {id : StorageId} {bounds : Bounds} {q : Queue} {s : Store}
    (hq : create kind id bounds = .ok q) (hr : Statement.rowsOf id.text s.rows = [])
    (hooks : Hooks) : Counts { queue := q.withHooks hooks, store := s } [] ∧
      Managed.bounds q = bounds := by
  cases kind with
  | ram =>
    obtain rfl := create_eq hq
    exact ⟨.ram (d := ⟨{ storageId := id, bounds, hooks }, s, []⟩) .empty, rfl⟩
  | durable =>
    obtain ⟨r, hnew, rfl⟩ := exists_of_map_eq_ok hq
    have hrests := Durable.made_rests hnew (.of_rowsOf_nil hr) hooks []
    cases Durable.create_eq hnew
    exact ⟨.durable ⟨hrests, rfl⟩, rfl⟩
  | cached =>
    obtain ⟨r, hnew, rfl⟩ := exists_of_map_eq_ok hq
    obtain ⟨shadow, hshadow⟩ : ∃ shadow, Ram.create id bounds = .ok shadow := by
      cases hv : bounds.validate with
      | ok u => exact ⟨_, by rw [Ram.create, hv]; rfl⟩
      | error fault =>
        rw [Cached.create, hv] at hnew
        cases hnew
    have hpaired := Paired.of_made hnew hshadow hr hooks s
    cases Cached.create_eq hnew
    exact ⟨.cached (.paired hpaired), rfl⟩

/-! ## Runs -/

/-- What happens around a queue. -/
inductive Event
  /-- It is asked something. -/
  | ask (request : Request)
  /-- It is told that the database is there again. -/
  | notified
  /-- The link changes, others use the store. -/
  | meanwhile (store : Store)
  /-- It gets other hooks. -/
  | hooked (hooks : Hooks)

/-- Whether an event may take entries out of a queue. -/
def Event.frees : Event → Bool
  | .ask .destroy => true
  | .ask request => request.removes
  | .notified | .meanwhile _ | .hooked _ => false

/-- One event. The bytes of what a queue in the table has are a word whenever it is opened. -/
inductive Step : Desk Queue → Event → Desk Queue → Prop
  | ask (d : Desk Queue) (request : Request)
      (hb : request = .start → d.queue.kind = .durable → bytesOf (contents d) < 2 ^ 64) :
      Step d (.ask request) ((Queue.ask request).on d).2
  | notified (d : Desk Queue) : Step d .notified (catchUp.on d).2
  | meanwhile (d : Desk Queue) {s : Store}
      (hs : d.store.Spares (Managed.storageId d.queue).text s) :
      Step d (.meanwhile s) { d with store := s }
  | hooked (d : Desk Queue) (hooks : Hooks) :
      Step d (.hooked hooks) { d with queue := d.queue.withHooks hooks }

/-- Events, one after the other. -/
inductive Steps : Desk Queue → List Event → Desk Queue → Prop
  | nil (d : Desk Queue) : Steps d [] d
  | snoc {d d' d'' : Desk Queue} {events : List Event} {event : Event} (h : Steps d events d')
      (hs : Step d' event d'') : Steps d (events ++ [event]) d''

/-- A put that was accepted. -/
structure Accepted where
  /-- What was to be stored. -/
  batch : List Entry
  /-- What the queue had then and had not before. -/
  new : List Entry
  deriving DecidableEq

/-- The put that an event is, if it is one and is accepted. -/
def accepted (d : Desk Queue) : Event → List Accepted
  | .ask (.put batch bypass) =>
    let outcome := (ask (.put batch bypass)).on d
    if outcome.1.isOk then [⟨batch, newcomers (contents d) (contents outcome.2)⟩] else []
  | _ => []

/-- A run of a queue of any kind that begins with nothing, with the puts accepted in it. -/
inductive Run : Desk Queue → List Accepted → Prop
  /-- It is made, over a table without rows of its name. -/
  | made {kind : Kind} {id : StorageId} {bounds : Bounds} {q : Queue} {s : Store}
      (hq : create kind id bounds = .ok q) (hr : Statement.rowsOf id.text s.rows = [])
      (hooks : Hooks) : Run { queue := q.withHooks hooks, store := s } []
  /-- Something happens. -/
  | step {d d' : Desk Queue} {puts : List Accepted} {event : Event} (h : Run d puts)
      (hs : Step d event d') : Run d' (puts ++ accepted d event)

/-- What an event makes of the list of a queue. -/
inductive Makes (d : Desk Queue) (l : List Entry) : Event → List Entry → Prop
  | same (event : Event) : Makes d l event l
  | freed {event : Event} {m : List Entry} (hf : event.frees = true) (hs : m.Sublist l) :
      Makes d l event m
  | taken (batch : List Entry) (bypass : Bool)
      (ho : ((ask (.put batch bypass)).on d).1 = .ok .done)
      (hx : ¬ (Managed.bounds d.queue).Exceeded l) :
      Makes d l (.ask (.put batch bypass)) (batch.foldl enter l)

/-- What an event does to a queue that counts its list. -/
theorem Counts.step {event : Event} (h : Counts d l) (hs : Step d event d') :
    Managed.bounds d'.queue = Managed.bounds d.queue ∧ ∃ m, Counts d' m ∧ Makes d l event m := by
  cases hs with
  | ask request hb =>
    obtain ⟨hbounds, m, hm, hp⟩ := h.asked request fun hstart hk => by
      rw [Tally.bytes_total, ← h.contents_eq]
      exact hb hstart hk
    refine ⟨hbounds, m, hm, ?_⟩
    generalize hout : ((Queue.ask request).on d).1 = outcome at hp
    cases hp with
    | same => exact .same _
    | removed hr _ hs =>
      refine .freed ?_ hs
      cases request with
      | destroy => rfl
      | _ => exact hr
    | emptied => exact .freed rfl (List.nil_sublist l)
    | taken batch bypass hx => exact .taken batch bypass hout hx
  | notified =>
    obtain ⟨hbounds, hl⟩ := h.notified
    exact ⟨hbounds, l, hl, .same _⟩
  | meanwhile hs => exact ⟨rfl, l, h.spared hs, .same _⟩
  | hooked hooks =>
    refine ⟨?_, l, h.hooked hooks, .same _⟩
    cases d.queue <;> rfl

/-- A put brings no more than its batch. -/
theorem Makes.newcomers_le {batch : List Entry} {bypass : Bool}
    (h : Makes d l (.ask (.put batch bypass)) m) : (newcomers l m).length ≤ batch.length := by
  cases h with
  | same =>
    rw [newcomers_self]
    exact Nat.zero_le _
  | freed hf => cases hf
  | taken => exact (perm_newcomers l batch).length_eq ▸ (arrivals_sublist l batch).length_le

/-- A list that is over its bounds by no more than what one of the accepted puts has brought, where
none has brought more than there was in its batch. -/
structure Bounded (b : Bounds) (puts : List Accepted) (l : List Entry) : Prop where
  entries : l.length ≤ b.entries ∨ ∃ p ∈ puts, l.length ≤ b.entries + p.new.length
  bytes : bytesOf l ≤ b.bytes ∨ ∃ p ∈ puts, bytesOf l ≤ b.bytes + bytesOf p.new
  batches : ∀ p ∈ puts, p.new.length ≤ p.batch.length

/-- Further puts, and fewer entries, make no difference to that. -/
theorem Bounded.mono {b : Bounds} {puts more : List Accepted} (h : Bounded b puts l)
    (hm : m.length ≤ l.length) (hb : bytesOf m ≤ bytesOf l)
    (hmore : ∀ p ∈ more, p.new.length ≤ p.batch.length) : Bounded b (puts ++ more) m := by
  refine ⟨?_, ?_, fun p hp => (List.mem_append.1 hp).elim (h.batches p) (hmore p)⟩
  · refine h.entries.imp hm.trans ?_
    rintro ⟨p, hp, hle⟩
    exact ⟨p, List.mem_append_left _ hp, hm.trans hle⟩
  · refine h.bytes.imp hb.trans ?_
    rintro ⟨p, hp, hle⟩
    exact ⟨p, List.mem_append_left _ hp, hb.trans hle⟩

section
variable {puts : List Accepted} {event : Event} {p : Accepted}

/-- What is new since an accepted put is what the list has newly. -/
theorem mem_accepted (h : Counts d l) (h' : Counts d' m) (hs : Step d event d') :
    p ∈ accepted d event ↔ (∃ bypass, event = .ask (.put p.batch bypass) ∧
      ((ask (.put p.batch bypass)).on d).1.isOk = true) ∧ p.new = newcomers l m := by
  cases hs with
  | notified | meanwhile | hooked => exact ⟨nofun, by rintro ⟨⟨_, ⟨⟩, -⟩, -⟩⟩
  | ask request hb =>
    cases request with
    | put batch bypass =>
      rw [← h.contents_eq, ← h'.contents_eq]
      unfold accepted
      dsimp only
      split
      · next hok =>
        rw [List.mem_singleton]
        constructor
        · rintro rfl
          exact ⟨⟨bypass, rfl, hok⟩, rfl⟩
        · rintro ⟨⟨_, he, -⟩, hnew⟩
          obtain ⟨batch', new⟩ := p
          cases he
          exact congrArg (Accepted.mk batch') hnew
      · next hfailed =>
        refine ⟨nofun, ?_⟩
        rintro ⟨⟨_, he, hok⟩, -⟩
        cases he
        exact absurd hok hfailed
    | _ => exact ⟨nofun, by rintro ⟨⟨_, ⟨⟩, -⟩, -⟩⟩

/-- An event keeps a list within its bounds, except for what one put has brought. -/
theorem Bounded.step (hb : Bounded (Managed.bounds d.queue) puts l) (h : Counts d l)
    (h' : Counts d' m) (hs : Step d event d') (hmakes : Makes d l event m) :
    Bounded (Managed.bounds d.queue) (puts ++ accepted d event) m := by
  have hbatches : ∀ p ∈ accepted d event, p.new.length ≤ p.batch.length := fun p hp => by
    obtain ⟨⟨bypass, rfl, -⟩, hnew⟩ := (mem_accepted h h' hs).1 hp
    exact hnew ▸ hmakes.newcomers_le
  cases hmakes with
  | same => exact hb.mono le_rfl le_rfl hbatches
  | freed _ hsub => exact hb.mono hsub.length_le (sum_charge_le hsub) hbatches
  | taken batch bypass ho hx =>
    let put : Accepted := ⟨batch, newcomers l (batch.foldl enter l)⟩
    have hput : put ∈ puts ++ accepted d (.ask (.put batch bypass)) :=
      List.mem_append_right _ ((mem_accepted h h' hs).2 ⟨⟨bypass, rfl, by rw [ho]; rfl⟩, rfl⟩)
    obtain ⟨hentries, hbytes⟩ := not_or.1 hx
    refine ⟨.inr ⟨put, hput, ?_⟩, .inr ⟨put, hput, ?_⟩, fun p hp =>
      (List.mem_append.1 hp).elim (hb.batches p) (hbatches p)⟩
    · rw [length_entered]
      exact Nat.add_le_add_right (Nat.not_lt.1 hentries) _
    · rw [bytesOf_entered]
      exact Nat.add_le_add_right (Nat.not_lt.1 hbytes) _

/-- In a run a queue counts its list, which is over its bounds by no more than what one put has
brought. -/
theorem Run.bounded (h : Run d puts) :
    ∃ l, Counts d l ∧ Bounded (Managed.bounds d.queue) puts l := by
  induction h with
  | made hq hr hooks =>
    exact ⟨[], (made_counts hq hr hooks).1, .inl (Nat.zero_le _), .inl (Nat.zero_le _), nofun⟩
  | step _ hs ih =>
    obtain ⟨l, hl, hb⟩ := ih
    obtain ⟨hbounds, m, hm, hmakes⟩ := hl.step hs
    exact ⟨m, hm, hbounds ▸ hb.step hl hm hs hmakes⟩

end

/-! ## Over the bounds -/

/-- A queue is over its bounds, by its totals. -/
def Overfull (q : Queue) : Prop :=
  (Managed.bounds q).entries < (Managed.tally q).entries ∨
    (Managed.bounds q).bytes < (Managed.tally q).bytes

/-- A queue refuses whatever it is given, unless its put hook takes that over, and nothing changes
but that the refusal is counted. -/
def Refuses (d : Desk Queue) : Prop :=
  Managed.phase d.queue = .active → ∀ batch ≠ [], ∀ bypass,
    ¬ (Managed.hooks d.queue).TakesOver batch bypass →
    ∃ excess told, (∀ call ∈ told, call.ofPutHook = false) ∧
      (ask (.put batch bypass)).on d = (.error (.overflow (Managed.storageId d.queue).text excess),
        d.rejecting.called ((Managed.hooks d.queue).heardBefore batch bypass ++ told))

/-- A queue is over its bounds if what it counts exceeds them. -/
theorem Counts.overfull_iff (h : Counts d l) :
    Overfull d.queue ↔ (Managed.bounds d.queue).Exceeded l := by
  rw [Overfull, h.tally, Tally.total_entries, Tally.bytes_total, Bounds.Exceeded]

/-- A queue over its bounds refuses whatever it is given, whatever its history and the link. -/
theorem Overfull.refuses (h : Overfull d.queue) : Refuses d := by
  intro ha batch hb bypass ht
  have hov : (Managed.tally d.queue).overflow? (Managed.bounds d.queue) ≠ none := by
    rw [Ne, Tally.overflow?_eq_none_iff]
    rcases h with h | h
    · exact fun hle => absurd h (Nat.not_lt.2 hle.1)
    · exact fun hle => absurd h (Nat.not_lt.2 hle.2)
  obtain ⟨excess, hov⟩ := Option.ne_none_iff_exists'.1 hov
  obtain ⟨told, htold, ho⟩ := (handles ha ht fun _ => hb).refused excess hov
  exact ⟨excess, told, htold, ho⟩

/-- A queue over its bounds stays so until something may be taken out. -/
theorem Counts.overfull_step {event : Event} (h : Counts d l) (hs : Step d event d')
    (hf : event.frees = false) (ho : Overfull d.queue) : Counts d' l ∧ Overfull d'.queue := by
  obtain ⟨hbounds, m, hm, hmakes⟩ := h.step hs
  cases hmakes with
  | same =>
    refine ⟨hm, hm.overfull_iff.2 ?_⟩
    rw [hbounds]
    exact h.overfull_iff.1 ho
  | freed hfrees =>
    rw [hf] at hfrees
    cases hfrees
  | taken batch bypass _ hx => exact absurd (h.overfull_iff.1 ho) hx

/-- It stays so as long as nothing is removed, and takes nothing in. -/
theorem Counts.overfull_steps {events : List Event} (h : Counts d l) (hs : Steps d events d')
    (hf : ∀ event ∈ events, event.frees = false) (ho : Overfull d.queue) :
    Counts d' l ∧ Overfull d'.queue := by
  induction hs with
  | nil => exact ⟨h, ho⟩
  | @snoc _ _ _ event _ hstep ih =>
    obtain ⟨h', ho'⟩ := ih fun event he => hf event (List.mem_append_left _ he)
    exact h'.overfull_step hstep (hf event (by simp)) ho'

/-- A queue within its bounds takes what it is given, unless the database fails it. -/
theorem Counts.room (h : Counts d l) (hx : ¬ Overfull d.queue)
    (ha : Managed.phase d.queue = .active) {batch : List Entry} {bypass : Bool}
    (ht : ¬ (Managed.hooks d.queue).TakesOver batch bypass) :
    ((ask (.put batch bypass)).on d).1 = .ok .done ∨
      ∃ fault, ((ask (.put batch bypass)).on d).1 = .error fault ∧ fault.isRetryable = true := by
  have hroom := mt h.overfull_iff.2 hx
  cases h with
  | @ram d l h =>
    obtain ⟨roll, store, calls, ho, -⟩ := Ram.put_on ha h batch bypass
    exact .inl ((congrArg Prod.fst ho).trans (congrArg Prod.fst (putOn_room ht hroom)))
  | @durable d l h =>
    by_cases hb : batch = []
    · have hidle : (d.queue.hooks.beforePut batch bypass).2 = false ∨ batch = [] := .inr hb
      obtain ⟨calls, ho⟩ := Durable.put_idle ha hidle
      exact .inl (congrArg Prod.fst ho)
    rcases Durable.put_on ha (h.rests.keeps ha) h.tally hb bypass with
      ⟨tally, store, calls, ho, -⟩ | ⟨fault, store, calls, ho, hm⟩
    · exact .inl ((congrArg Prod.fst ho).trans (congrArg Prod.fst (putOn_room ht hroom)))
    · exact .inr ⟨fault, congrArg Prod.fst ho, hm.retryable⟩
  | @cached d l h =>
    cases h with
    | gone hd =>
      rw [show d.queue.phase = .active from ha] at hd
      cases hd
    | paired h =>
      rcases Cached.put_on (h.holds.stocks ha) ha batch bypass with ⟨d', m, ho, -⟩ | ⟨-, hfault⟩
      · exact .inl ((congrArg Prod.fst ho).trans (congrArg Prod.fst (putOn_room ht hroom)))
      · exact .inr hfault

/-- A queue keeps to its bounds, after the given puts were accepted. -/
structure Capped (d : Desk Queue) (puts : List Accepted) : Prop where
  /-- It counts what it has. -/
  exact : Managed.tally d.queue = Tally.total (contents d)
  /-- It has no more entries than its bounds allow and one put has brought. -/
  entries : ∀ k, (∀ p ∈ puts, p.new.length ≤ k) →
    (Managed.tally d.queue).entries ≤ (Managed.bounds d.queue).entries + k
  /-- So it is with bytes. -/
  bytes : ∀ s, (∀ p ∈ puts, bytesOf p.new ≤ s) →
    (Managed.tally d.queue).bytes ≤ (Managed.bounds d.queue).bytes + s
  /-- If entries are put one by one, there is one too many at most. -/
  singles : (∀ p ∈ puts, p.batch.length ≤ 1) →
    (Managed.tally d.queue).entries ≤ (Managed.bounds d.queue).entries + 1
  /-- Over its bounds, it is so and refuses whatever it is given until something is taken out. -/
  full : Overfull d.queue → ∀ events d', Steps d events d' →
    (∀ event ∈ events, event.frees = false) → Overfull d'.queue ∧ Refuses d'
  /-- Within its bounds, it refuses nothing; only the database may fail it. -/
  room : ¬ Overfull d.queue → Managed.phase d.queue = .active → ∀ batch bypass,
    ¬ (Managed.hooks d.queue).TakesOver batch bypass →
    ((ask (.put batch bypass)).on d).1 = .ok .done ∨
      ∃ fault, ((ask (.put batch bypass)).on d).1 = .error fault ∧ fault.isRetryable = true

/-- A queue of any kind, whatever happens to it, is over its bounds by no more than what one put has
brought, and then refuses everything until something is taken out. -/
theorem capacity_one_shot {puts : List Accepted} (h : Run d puts) : Capped d puts := by
  obtain ⟨l, hl, hb⟩ := h.bounded
  have hentries : ∀ k, (∀ p ∈ puts, p.new.length ≤ k) →
      (Managed.tally d.queue).entries ≤ (Managed.bounds d.queue).entries + k := by
    intro k hk
    rw [hl.tally, Tally.total_entries]
    rcases hb.entries with hle | ⟨p, hp, hle⟩
    · exact hle.trans (Nat.le_add_right _ _)
    · exact hle.trans (Nat.add_le_add_left (hk p hp) _)
  refine ⟨?_, hentries, fun s hs => ?_, fun hone => ?_, fun ho events d' hsteps hf => ?_,
    fun hx ha batch bypass ht => hl.room hx ha ht⟩
  · rw [hl.contents_eq]
    exact hl.tally
  · rw [hl.tally, Tally.bytes_total]
    rcases hb.bytes with hle | ⟨p, hp, hle⟩
    · exact hle.trans (Nat.le_add_right _ _)
    · exact hle.trans (Nat.add_le_add_left (hs p hp) _)
  · exact hentries 1 fun p hp => (hb.batches p hp).trans (hone p hp)
  · obtain ⟨-, ho'⟩ := hl.overfull_steps hsteps hf ho
    exact ⟨ho', ho'.refuses⟩

/-- A queue of a kind that was opened, and then given an entry of more bytes than it is to hold. -/
def brimming (kind : Kind) : Desk Queue :=
  [.start, .put [.sized 1 101] false].foldl (fun d request => ((ask request).on d).2)
    { queue := newborn kind, store := {} }

/-- The brimming queue was given one batch. -/
theorem run_brimming (kind : Kind) : Run (brimming kind) [⟨[.sized 1 101], [.sized 1 101]⟩] := by
  have hmade : Run { queue := newborn kind, store := {} } [] := by
    rw [← withHooks_newborn kind]
    exact .made (create_newborn kind) rfl {}
  have hopened := hmade.step (.ask _ .start fun _ _ => by cases kind <;> decide +kernel)
  have hput := hopened.step (.ask _ (.put [.sized 1 101] false) nofun)
  have hnew : accepted ((ask .start).on { queue := newborn kind, store := {} }).2
      (.ask (.put [.sized 1 101] false)) = [⟨[.sized 1 101], [.sized 1 101]⟩] := by
    cases kind <;> decide +kernel
  rwa [hnew] at hput

/-- Queues of all kinds that are over their bounds by one entry. -/
theorem capacity_one_shot_brimming :
    (∀ kind, Run (brimming kind) [⟨[.sized 1 101], [.sized 1 101]⟩]) ∧
      (∀ kind, Overfull (brimming kind).queue) ∧
      ∀ kind, Capped (brimming kind) [⟨[.sized 1 101], [.sized 1 101]⟩] := by
  refine ⟨run_brimming, fun kind => .inr ?_, fun kind => capacity_one_shot (run_brimming kind)⟩
  cases kind <;> decide +kernel

end Queue

end Spillway
