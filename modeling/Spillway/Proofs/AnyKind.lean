import Spillway.Proofs.DurableHistories
import Spillway.Proofs.Pairs
import Spillway.Proofs.Revisions
import Spillway.Queue.Basic

/-!
# Histories of queues of any kind

Whatever its kind, a queue with a history has one list of entries, in the order of service. In
memory these are all it knows, in the table they are its rows, and a cached queue lays them out over
both. While it is active and can use what it needs, it answers every request for contents from that
list, and goes on with what the request leaves of it.
-/

namespace Spillway

/-- The desk of a queue of one kind, as that of a queue of any kind. -/
def Desk.seat {Q : Type} (wrap : Q → Queue) (d : Desk Q) : Desk Queue :=
  { queue := wrap d.queue, store := d.store, calls := d.calls }

namespace Ram

variable {d : Desk Ram} {l : List Entry}

/-- A queue in memory knows one list, whatever it is asked. -/
theorem serve_lists (h : d.queue.roll.Lists l) (request : Request) :
    ∃ m, ((serve request).on d).2.queue.roll.Lists m := by
  cases request using Request.casesByNeed with
  | contents request hr =>
    by_cases ha : d.queue.phase = .active
    · obtain ⟨batch, bypass, rfl⟩ | hlooks := Request.put_or_looksUp hr
      · obtain ⟨roll, store, calls, ho, hl⟩ := put_on ha h batch bypass
        exact ⟨_, by rw [ho]; exact hl⟩
      · obtain ⟨roll, calls, ho, hl⟩ := serve_on ha h hlooks
        exact ⟨_, by rw [ho]; exact hl⟩
    · exact ⟨l, by rw [serve_inactive ha hr]; exact h⟩
  | start =>
    by_cases hd : d.queue.phase = .destroyed
    · exact ⟨l, by rw [serve_start_destroyed hd]; exact h⟩
    · exact ⟨l, by rw [serve_start hd]; exact h⟩
  | shutdown =>
    obtain ⟨calls, ho⟩ := serve_shutdown d
    exact ⟨l, by rw [ho, closed_eq]; exact h⟩
  | destroy =>
    obtain ⟨calls, ho⟩ := serve_destroy d
    exact ⟨[], by rw [ho]; exact .empty⟩

end Ram

namespace Durable

variable {d : Desk Durable} {l : List Entry}

/-- A queue that is not active refuses to change an entry. -/
theorem modifyEntry_inactive (hn : d.queue.phase ≠ .active) (e : Entry) :
    (modifyEntry e).on d = (.error (.inactive d.queue.storageId.text), d) :=
  Desk.on_changing_inactive (show Managed.phase d.queue ≠ .active from hn) _

/-- After an entry was to be changed in place, a queue in the table has its list with that entry
changed, or its list as it was. -/
theorem modifyEntry_rests (h : Rests d l) (e : Entry) :
    ∃ m, Rests ((modifyEntry e).on d).2 m := by
  by_cases ha : d.queue.phase = .active
  · have hd : d.queue.phase ≠ .destroyed := by rw [ha]; nofun
    rcases modifyEntry_works ha (h.keeps ha) e with
      ⟨found, tally, store, calls, ho, -, -, hk, -⟩ | ⟨fault, store, ho, hm⟩
    · exact ⟨_, by rw [ho]; exact rests_of_keeps hk hd⟩
    · exact ⟨l, by rw [ho]; exact rests_of_keeps ((h.keeps ha).missed hm) hd⟩
  · exact ⟨l, by rw [modifyEntry_inactive ha]; exact h⟩

end Durable

namespace Queue

variable {d : Desk Queue} {l : List Entry} {request : Request}

/-! ## What a queue has -/

/-- The entries that a queue has, in the order of service. -/
inductive Has : Desk Queue → List Entry → Prop
  | ram {d : Desk Ram} {l : List Entry} (h : d.queue.roll.Lists l) : Has (d.seat .ram) l
  | durable {d : Desk Durable} {l : List Entry} (h : Durable.Rests d l) : Has (d.seat .durable) l
  | cached {d : Desk Cached} {l : List Held} (h : Cached.Holds d l) :
      Has (d.seat .cached) (l.map Held.entry)

theorem Has.ordered (h : Has d l) : Ordered l := by
  cases h with
  | ram h => exact h.order
  | durable h => exact h.rows.order
  | cached h => exact ordered_entries.2 h.shelved.layout.order

theorem exists_of_map_eq_ok {α β : Type} {f : α → β} {x : Except Fault α} {b : β}
    (h : f <$> x = .ok b) : ∃ a, x = .ok a ∧ f a = b := by
  cases x with
  | error fault => cases h
  | ok a => exact ⟨a, rfl, Except.ok.inj h⟩

/-- A queue to which nothing has happened: it has nothing but its name and its bounds. -/
def pristine (id : StorageId) (bounds : Bounds) : Kind → Queue
  | .ram => .ram { storageId := id, bounds }
  | .durable => .durable { storageId := id, bounds }
  | .cached => .cached
      { storageId := id, bounds, hot := { storageId := id, bounds := bounds.hot }
        cold := { storageId := id, bounds } }

/-- A queue that is made is one, whatever its kind. -/
theorem create_eq {kind : Kind} {id : StorageId} {bounds : Bounds} {q : Queue}
    (h : create kind id bounds = .ok q) : q = pristine id bounds kind := by
  cases kind with
  | ram =>
    obtain ⟨r, hr, rfl⟩ := exists_of_map_eq_ok h
    exact congrArg Queue.ram (Ram.create_eq hr)
  | durable =>
    obtain ⟨r, hr, rfl⟩ := exists_of_map_eq_ok h
    exact congrArg Queue.durable (Durable.create_eq hr)
  | cached =>
    obtain ⟨r, hr, rfl⟩ := exists_of_map_eq_ok h
    exact congrArg Queue.cached (Cached.create_eq hr)

/-- A queue that is made has what an earlier one of its name has left, if it uses the table. -/
theorem made_has {kind : Kind} {id : StorageId} {bounds : Bounds} {q : Queue} {s : Store}
    (hq : create kind id bounds = .ok q) (hp : Partition id.text s.rows l) (hooks : Hooks)
    (calls : List Call) : ∃ m, Has { queue := q.withHooks hooks, store := s, calls } m := by
  cases kind with
  | ram =>
    obtain rfl := create_eq hq
    exact ⟨[], .ram (d := ⟨{ storageId := id, bounds, hooks }, s, calls⟩) .empty⟩
  | durable =>
    obtain ⟨r, hr, rfl⟩ := exists_of_map_eq_ok hq
    exact ⟨l, .durable (Durable.made_rests hr hp hooks calls)⟩
  | cached =>
    obtain ⟨r, hr, rfl⟩ := exists_of_map_eq_ok hq
    exact ⟨_, .cached (Cached.made_holds hr hp hooks calls)⟩

/-- Whatever it is asked, a queue has a list. -/
theorem Has.asked (h : Has d l) (request : Request) : ∃ m, Has ((ask request).on d).2 m := by
  cases h with
  | @ram d l h =>
    obtain ⟨m, hm⟩ := Ram.serve_lists h request
    exact ⟨m, .ram (d := ((serve request).on d).2) hm⟩
  | @durable d l h =>
    obtain ⟨-, m, hm, -⟩ := Durable.serve_follows h request
    exact ⟨m, .durable hm⟩
  | @cached d l h =>
    obtain ⟨m, -, hm, -⟩ := Cached.serve_follows h request
    exact ⟨_, .cached hm⟩

/-- A queue that is told that the database is there again has what it had. -/
theorem Has.notified (h : Has d l) : Has (catchUp.on d).2 l := by
  cases h with
  | ram h => exact .ram h
  | durable h => exact .durable h
  | @cached d l h =>
    obtain ⟨m, -, hm, hsame⟩ := Cached.catchUp_holds h
    exact hsame ▸ Has.cached hm

/-- Changing an entry in place is for the queue in the table. -/
theorem modifyEntry_seat (e : Entry) (d : Desk Durable) :
    ((modifyEntry e).on (d.seat .durable)).2 = ((Durable.modifyEntry e).on d).2.seat .durable := by
  change ((some <$> Durable.modifyEntry e).on d).2.seat .durable = _
  rw [map_eq_pure_bind, Action.on_bind]
  rcases (Durable.modifyEntry e).on d with ⟨fault | found, d'⟩
  · rfl
  · rfl

/-- So it is if an entry is to be changed in place. -/
theorem Has.modified (h : Has d l) (e : Entry) : ∃ m, Has ((modifyEntry e).on d).2 m := by
  cases h with
  | ram h => exact ⟨_, .ram h⟩
  | @durable d l h =>
    obtain ⟨m, hm⟩ := Durable.modifyEntry_rests h e
    exact ⟨m, (modifyEntry_seat e d).symm ▸ .durable hm⟩
  | cached h => exact ⟨_, .cached h⟩

/-- What others do to the store does not change what a queue has. -/
theorem Has.spared (h : Has d l) {s : Store}
    (hs : d.store.Spares (Managed.storageId d.queue).text s) : Has { d with store := s } l := by
  cases h with
  | @ram d l h => exact .ram (d := { d with store := s }) h
  | durable h => exact .durable (h.spared hs)
  | cached h => exact .cached (h.spared hs)

theorem Has.hooked (h : Has d l) (hooks : Hooks) :
    Has { d with queue := d.queue.withHooks hooks } l := by
  cases h with
  | @ram d l h => exact .ram (d := { d with queue := { d.queue with hooks } }) h
  | @durable d l h =>
    exact .durable (d := { d with queue := { d.queue with hooks } }) ⟨h.rows, h.made, h.gone⟩
  | cached h => exact .cached (h.hooked hooks)

/-! ## Histories -/

/-- A queue of any kind with a history. It is made over whatever rows of its name there are, so the
history may be one of many lives. -/
inductive Reachable : Desk Queue → Prop
  /-- It is made. -/
  | made {kind : Kind} {id : StorageId} {bounds : Bounds} {q : Queue} {es : List Entry} {s : Store}
      (hq : create kind id bounds = .ok q) (hp : Partition id.text s.rows es) (hooks : Hooks)
      (calls : List Call) : Reachable { queue := q.withHooks hooks, store := s, calls }
  /-- It is asked something. -/
  | asked {d : Desk Queue} (h : Reachable d) (request : Request) : Reachable ((ask request).on d).2
  /-- It is told that the database is there again. -/
  | notified {d : Desk Queue} (h : Reachable d) : Reachable (catchUp.on d).2
  /-- It is to change an entry in place. -/
  | modified {d : Desk Queue} (h : Reachable d) (e : Entry) : Reachable ((modifyEntry e).on d).2
  /-- The link changes, others use the store. -/
  | meanwhile {d : Desk Queue} (h : Reachable d) {s : Store}
      (hs : d.store.Spares (Managed.storageId d.queue).text s) : Reachable { d with store := s }
  /-- It gets other hooks. -/
  | hooked {d : Desk Queue} (h : Reachable d) (hooks : Hooks) :
      Reachable { d with queue := d.queue.withHooks hooks }

/-- A queue with a history has a list. -/
theorem reachable_has (h : Reachable d) : ∃ l, Has d l := by
  induction h with
  | made hq hp hooks calls => exact made_has hq hp hooks calls
  | asked _ request ih =>
    obtain ⟨l, hl⟩ := ih
    exact hl.asked request
  | notified _ ih =>
    obtain ⟨l, hl⟩ := ih
    exact ⟨l, hl.notified⟩
  | modified _ e ih =>
    obtain ⟨l, hl⟩ := ih
    exact hl.modified e
  | meanwhile _ hs ih =>
    obtain ⟨l, hl⟩ := ih
    exact ⟨l, hl.spared hs⟩
  | hooked _ hooks ih =>
    obtain ⟨l, hl⟩ := ih
    exact ⟨l, hl.hooked hooks⟩

/-- Answering requests one after the other is a history. -/
theorem Reachable.askAll (h : Reachable d) (requests : List Request) :
    Reachable (requests.foldl (fun d request => ((ask request).on d).2) d) := by
  induction requests generalizing d with
  | nil => exact h
  | cons request requests ih => exact ih (h.asked request)

/-! ## Queues at work -/

/-- A queue that is active and can use what it needs. -/
structure Open (d : Desk Queue) : Prop where
  /-- It is active. -/
  active : Managed.phase d.queue = .active
  /-- The link serves, if the queue uses it. -/
  serving : d.queue.kind = .ram ∨ d.store.link.Serving

/-- An open queue answers a request for contents with a view of the entries that it names, and goes
on with those that it leaves. -/
theorem Has.lookup (h : Has d l) (ho : Open d) (hr : request.looksUp = true)
    (hf : d.queue.kind = .durable → request.Fair l) :
    ∃ d', (ask request).on d = (.ok (request.reply (request.named l)), d') ∧
      d'.queue.kind = d.queue.kind ∧ Open d' ∧ Has d' (request.left l) := by
  obtain ⟨ha, hs⟩ := ho
  cases h with
  | @ram d l h =>
    obtain ⟨roll, calls, hon, hl⟩ := Ram.serve_on ha h hr
    exact ⟨Desk.seat .ram ⟨{ d.queue with roll }, d.store, calls⟩,
      congrArg (fun p => (p.1, p.2.seat .ram)) hon, rfl, ⟨ha, .inl rfl⟩, .ram hl⟩
  | @durable d l h =>
    have hserving := hs.resolve_left nofun
    rcases Durable.serve_on ha (h.keeps ha) hr (hf rfl) with
      ⟨_, tally, store, calls, hon, rfl, -, hk, hu⟩ | ⟨fault, store, hon, hm⟩
    · have hd : d.queue.phase ≠ .destroyed := by
        rw [show d.queue.phase = .active from ha]
        nofun
      exact ⟨(Durable.turned d tally store calls).seat .durable,
        congrArg (fun p => (p.1, p.2.seat .durable)) hon, rfl,
        ⟨ha, .inr (hu.link.serving hserving)⟩, .durable (Durable.rests_of_keeps hk hd)⟩
    · exact absurd hserving hm.unserved
  | @cached d l h =>
    have hserving := hs.resolve_left nofun
    rcases Cached.serve_on (h.stocks ha) ha hr with
      ⟨d', m, hon, hst, hm, hsame⟩ | ⟨hspoilt, -⟩
    · refine ⟨d'.seat .cached, congrArg (fun p => (p.1, p.2.seat .cached)) hon, rfl,
        ⟨hst.phase.trans ha, .inr (hst.used.link.serving hserving)⟩, ?_⟩
      rw [← Cached.entries_restOf, ← hsame.entries]
      exact .cached (.serving (hst.phase.trans ha) hm)
    · exact absurd hserving hspoilt.unserved

end Queue

end Spillway
