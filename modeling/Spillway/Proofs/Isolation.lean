import Spillway.Proofs.Announcing
import Spillway.Proofs.Guards
import Spillway.Proofs.Sharing

/-!
# Queues of one table are isolated

Two queues of different names share a store whose database stays reachable. Whatever the one of them
does, the other has the same rows, knows the same and answers the same as if the first one had done
nothing. Only that there is a table at all, which the first one may have made, can be noticed, and
only by destroying a queue that was never opened.
-/

namespace Spillway

open Desk

variable {α β : Type}

/-! ## Deeds -/

/-- What a queue can be told to do. -/
inductive Deed
  /-- To answer a request. -/
  | asked (request : Request)
  /-- To catch up, now that the database is there again. -/
  | told
  /-- To change an entry in place. -/
  | modified (e : Entry)
  /-- To use other hooks. -/
  | hooked (hooks : Hooks)

/-- What a queue answers. -/
inductive Answer
  /-- A reply to a request. -/
  | reply (reply : Reply)
  /-- Whether an entry was there to be changed. -/
  | found (found : Option Bool)
  /-- Nothing. -/
  | nothing
  deriving DecidableEq

/-- The manner of work that is for one part of the table, whatever else it does. -/
def Desk.keeping {Q : Type} (part : Q → String) : Manner Q where
  part
  asks := True
  turns q q' := part q' = part q
  stays _ := rfl
  awake _ := False
  fits _ := True

namespace Desk

variable {Q : Type} [Managed Q] {part : Q → String} {act : Action (Desk Q) α} {d e : Desk Q}

/-- Two desks with the same queue, over stores that are alike to it; the queue is not active as long
as there is no table. -/
structure InStep (part : Q → String) (d e : Desk Q) : Prop extends Beside part d e where
  ready : e.store.Founded ∨ Managed.phase d.queue ≠ .active

/-- Work that comes to the same on alike stores, even if the queue is not active and there may be no
table. -/
def Steps (part : Q → String) (act : Action (Desk Q) α) : Prop :=
  ∀ d e : Desk Q, Beside part d e → Managed.phase d.queue ≠ .active →
    (act.on d).1 = (act.on e).1 ∧ InStep part (act.on d).2 (act.on e).2

/-- It comes to the same however its answer is seen. -/
theorem Steps.returning (h : Steps part act) (view : α → β) :
    Steps part (do return view (← act)) := by
  intro d e hb hn
  obtain ⟨ho, hs⟩ := h d e hb hn
  rw [Action.on_returning, Action.on_returning, ho]
  exact ⟨rfl, hs⟩

/-- Work that does nothing but to refuse, or to answer from what the queue is. -/
theorem steps_of_same (result : Q → Except Fault α) (h : ∀ d : Desk Q,
    Managed.phase d.queue ≠ .active → act.on d = (result d.queue, d)) : Steps part act := by
  intro d e hb hn
  have hn' : Managed.phase e.queue ≠ .active := by rwa [hb.queue]
  rw [h d hn, h e hn', hb.queue]
  exact ⟨rfl, { hb with ready := .inr hn }⟩

/-- Work that does not use the store and does not make the queue active. -/
theorem Proper.steps {m : Manner Q} (h : Proper m act) (hfits : ∀ fault, m.fits fault)
    (ha : ¬ m.asks) (hpart : ∀ d : Desk Q, part (act.on d).2.queue = part d.queue)
    (hphase : ∀ d : Desk Q, Managed.phase d.queue ≠ .active →
      Managed.phase (act.on d).2.queue ≠ .active) : Steps part act := by
  intro d e hb hn
  obtain ⟨queue, t, calls⟩ := e
  obtain ⟨rfl, rfl, hstore⟩ := hb
  obtain ⟨hsame, ho⟩ := h.storeless hfits ha d t
  rw [show act.on ⟨d.queue, t, d.calls⟩ = _ from ho]
  refine ⟨rfl, ⟨rfl, rfl, ?_⟩, .inr (hphase d hn)⟩
  rw [hsame, hpart]
  exact hstore

/-- Two desks stay in step whatever their queues are told. Only if they are to destroy themselves,
and are not yet destroyed, there must be a table. -/
theorem InStep.told {does : Deed → Action (Desk Q) Answer} (hs : InStep part d e) {deed : Deed}
    (hd : deed = .asked .destroy → Managed.phase d.queue = .destroyed ∨ e.store.Founded)
    (hproper : Proper (keeping part) (does deed))
    (hsteps : deed ≠ .asked .destroy → Steps part (does deed))
    (hgone : ∀ {d : Desk Q}, Managed.phase d.queue = .destroyed →
      (does (.asked .destroy)).on d = (.ok (.reply .done), d)) :
    ((does deed).on d).1 = ((does deed).on e).1 ∧
      InStep part ((does deed).on d).2 ((does deed).on e).2 := by
  by_cases ht : e.store.Founded
  · obtain ⟨ho, hafter, ht'⟩ := hproper.beside (fun _ => trivial) id hs.toBeside ht
    exact ⟨ho, hafter, .inl ht'⟩
  by_cases hdeed : deed = .asked .destroy
  · subst hdeed
    have hphase : Managed.phase d.queue = .destroyed := (hd rfl).resolve_right ht
    rw [hgone hphase, hgone (by rwa [hs.queue])]
    exact ⟨rfl, hs⟩
  · exact hsteps hdeed d e hs.toBeside (hs.ready.resolve_left ht)

end Desk

/-! ## Queues in the table -/

namespace Durable

variable {d e : Desk Durable}

/-- What a queue in the table does. -/
def does : Deed → Action (Desk Durable) Answer
  | .asked request => return .reply (← serve request)
  | .told => return .nothing
  | .modified e => return .found (some (← modifyEntry e))
  | .hooked hooks => do
    changeQueue (Contract.withHooks hooks)
    return .nothing

/-- Whatever a queue in the table does is for its part of the table. -/
theorem proper_keeping {act : Action (Desk Durable) α} (h : Proper (living True) act) :
    Proper (keeping name) act :=
  h.mono (fun _ => rfl) id (fun hq => congrArg StorageId.text hq.storageId) id .rfl

/-- So is whatever it is told to do. -/
theorem proper_does (deed : Deed) : Proper (keeping name) (does deed) := by
  cases deed with
  | asked request => exact .bind (proper_keeping (proper_request request)) fun _ => proper_pure _
  | told => exact proper_pure _
  | modified e =>
    have hproper : Proper (serving False) (modifyEntry e) := proper_modifyEntry e
    exact .bind (proper_keeping hproper.living) fun _ => proper_pure _
  | hooked hooks => exact .bind (proper_changeQueue fun _ => rfl) fun _ => proper_pure _

/-- Opening a queue comes to the same on alike stores. If it succeeds, both have the table, and if
not, the queue is as it was. -/
theorem beside_start (hb : Beside name d e) : (start.on d).1 = (start.on e).1 ∧
    Beside name (start.on d).2 (start.on e).2 ∧
    ((start.on d).1 = .ok () → (start.on e).2.store.Founded) ∧
    (∀ fault, (start.on d).1 = .error fault → (start.on d).2.queue = d.queue) := by
  by_cases hd : d.queue.phase = .destroyed
  · rw [start_destroyed hd, start_destroyed (show e.queue.phase = .destroyed by rwa [hb.queue]),
      hb.queue]
    refine ⟨rfl, hb, fun h => ?_, fun _ _ => rfl⟩
    cases h
  have hd' : e.queue.phase ≠ .destroyed := by rwa [hb.queue]
  obtain ⟨hsame, hstore, -, hfounded⟩ := hb.store.createTable
  rw [start, Action.on_bind_of_ok (on_requireAlive_alive hd),
    Action.on_bind_of_ok (on_requireAlive_alive hd')]
  have hon : ∀ d : Desk Durable, (onStore Store.createTable : Action (Desk Durable) Unit).on d =
      ((Store.createTable.on d.store).1, { d with store := (Store.createTable.on d.store).2 }) :=
    fun _ => rfl
  have hrest : Proper (living True) reckoning := proper_reckoning
  rcases ho : Store.createTable.on d.store with ⟨fault | u, s⟩
  · rcases ho' : Store.createTable.on e.store with ⟨fault' | u', t⟩
    · rw [ho, ho'] at hsame hstore
      cases hsame
      rw [Action.on_bind_of_error ((hon d).trans (by rw [ho])),
        Action.on_bind_of_error ((hon e).trans (by rw [ho']))]
      refine ⟨rfl, ⟨hb.queue, hb.calls, hstore⟩, fun h => ?_, fun _ _ => rfl⟩
      cases h
    · rw [ho, ho'] at hsame
      cases hsame
  · rcases ho' : Store.createTable.on e.store with ⟨fault' | u', t⟩
    · rw [ho, ho'] at hsame
      cases hsame
    · rw [ho, ho'] at hstore
      rw [ho'] at hfounded
      have hboth : Beside name { d with store := s } { e with store := t } :=
        ⟨hb.queue, hb.calls, hstore⟩
      rw [Action.on_bind_of_ok ((hon d).trans (by rw [ho])),
        Action.on_bind_of_ok ((hon e).trans (by rw [ho']))]
      obtain ⟨hend, hafter, ht⟩ := (proper_keeping hrest).beside (fun _ => trivial) id hboth
        (hfounded u' rfl)
      refine ⟨hend, hafter, fun _ => ht, fun fault hfault => ?_⟩
      exact measured_reckoning.failed _ fault hfault

/-- Opening comes to the same on alike stores, whether or not they have the table. -/
theorem steps_start : Steps name start := by
  intro d e hb hn
  obtain ⟨hsame, hafter, hok, herror⟩ := beside_start hb
  refine ⟨hsame, hafter, ?_⟩
  cases ho : (start.on d).1 with
  | ok u => exact .inl (hok ho)
  | error fault =>
    rw [herror fault ho]
    exact .inr hn

/-- A queue that is not active does what it is told, unless that is to destroy itself, the same on
alike stores, whether or not there is a table. -/
theorem steps_does {deed : Deed} (hd : deed ≠ .asked .destroy) : Steps name (does deed) := by
  cases deed with
  | asked request =>
    refine Steps.returning ?_ Answer.reply
    cases request using Request.casesByNeed with
    | contents request hr =>
      exact steps_of_same (fun q => .error (.inactive q.storageId.text)) fun d hn =>
        serve_inactive hn hr
    | start => exact steps_start.returning fun _ => Reply.done
    | shutdown =>
      have hproper : Proper (living False) shutdown := proper_shutdown
      refine Steps.returning (hproper.steps (fun _ => trivial) id (fun d => ?_) fun d _ => ?_)
        fun _ => Reply.done
      · obtain ⟨calls, ho⟩ := shutdown_on d
        rw [ho]
        rfl
      · obtain ⟨calls, ho⟩ := shutdown_on d
        rw [ho]
        exact d.queue.phase.closed_ne_active
    | destroy => exact absurd rfl hd
  | told => exact steps_of_same (fun _ => .ok Answer.nothing) fun _ _ => rfl
  | modified e =>
    have hrefused : Steps name (modifyEntry e) :=
      steps_of_same (fun q => .error (.inactive q.storageId.text)) fun d hn =>
        modifyEntry_inactive hn e
    exact hrefused.returning fun found => Answer.found (some found)
  | hooked hooks =>
    intro d e hb hn
    refine ⟨rfl, ⟨?_, hb.calls, hb.store⟩, .inr hn⟩
    change Contract.withHooks hooks e.queue = Contract.withHooks hooks d.queue
    rw [hb.queue]

/-- A destroyed queue has nothing left to destroy. -/
theorem does_destroyed {d : Desk Durable} (hd : d.queue.phase = .destroyed) :
    (does (.asked .destroy)).on d = (.ok (.reply .done), d) :=
  Action.on_bind_of_ok (on_done (destroy_destroyed hd))

end Durable

/-! ## Cached queues -/

namespace Cached

variable {d e : Desk Cached}

/-- What a cached queue does. -/
def does : Deed → Action (Desk Cached) Answer
  | .asked request => return .reply (← serve request)
  | .told => do
    catchUp
    return .nothing
  | .modified _ => return .found none
  | .hooked hooks => do
    changeQueue (Contract.withHooks hooks)
    return .nothing

/-- Name of the part of the table that a cached queue uses. -/
def coldName (q : Cached) : String := q.cold.name

/-- Whatever a cached queue does is for the part of the table that it uses. -/
theorem proper_keeping {act : Action (Desk Cached) α} (h : Proper (living True) act) :
    Proper (keeping coldName) act :=
  h.mono (fun _ => rfl) id (fun hq => congrArg StorageId.text hq.2.2.storageId) id .rfl

/-- So is whatever it is told to do. -/
theorem proper_does (deed : Deed) : Proper (keeping coldName) (does deed) := by
  cases deed with
  | asked request => exact .bind (proper_keeping (proper_request request)) fun _ => proper_pure _
  | told => exact .bind (proper_keeping (Proper.living proper_catchUp)) fun _ => proper_pure _
  | modified e => exact proper_pure _
  | hooked hooks => exact .bind (proper_changeQueue fun _ => rfl) fun _ => proper_pure _

/-- Opening comes to the same on alike stores: the part in the table makes the table before anything
else is asked. -/
theorem steps_start : Steps coldName start := by
  intro d e hb hn
  by_cases hd : d.queue.phase = .destroyed
  · rw [start_destroyed hd, start_destroyed (show e.queue.phase = .destroyed by rwa [hb.queue]),
      hb.queue]
    exact ⟨rfl, hb, .inr hn⟩
  obtain ⟨queue, t, calls⟩ := e
  obtain ⟨rfl, rfl, hstore⟩ := hb
  obtain ⟨hsame, hafter, hok, herror⟩ :=
    Durable.beside_start (d := ⟨d.queue.cold, d.store, d.calls⟩)
      (e := ⟨d.queue.cold, t, d.calls⟩) ⟨rfl, rfl, hstore⟩
  have hopening : ∀ s : Store, start.on ⟨d.queue, s, d.calls⟩ =
      (onCold Durable.start >>= fun _ => reopening d.queue.phase).on ⟨d.queue, s, d.calls⟩ :=
    fun s => start_eq (d := ⟨d.queue, s, d.calls⟩) hn hd
  have hon : ∀ s : Store, (onCold Durable.start).on ⟨d.queue, s, d.calls⟩ =
      ((Durable.start.on ⟨d.queue.cold, s, d.calls⟩).1,
        withCold ⟨d.queue, (Durable.start.on ⟨d.queue.cold, s, d.calls⟩).2.store,
          (Durable.start.on ⟨d.queue.cold, s, d.calls⟩).2.calls⟩
          (Durable.start.on ⟨d.queue.cold, s, d.calls⟩).2.queue) := fun _ => rfl
  rw [show start.on d = _ from hopening d.store, hopening t]
  rcases ho : Durable.start.on ⟨d.queue.cold, d.store, d.calls⟩ with ⟨fault | u, c⟩
  · rcases ho' : Durable.start.on ⟨d.queue.cold, t, d.calls⟩ with ⟨fault' | u', c'⟩
    · rw [ho, ho'] at hsame hafter
      cases hsame
      rw [Action.on_bind_of_error ((hon d.store).trans (by rw [ho])),
        Action.on_bind_of_error ((hon t).trans (by rw [ho']))]
      refine ⟨rfl, ⟨?_, hafter.calls, hafter.store⟩, .inr hn⟩
      exact congrArg (fun cold => { d.queue with cold }) hafter.queue
    · rw [ho, ho'] at hsame
      cases hsame
  · rcases ho' : Durable.start.on ⟨d.queue.cold, t, d.calls⟩ with ⟨fault' | u', c'⟩
    · rw [ho, ho'] at hsame
      cases hsame
    · rw [ho, ho'] at hafter
      rw [ho, ho'] at hok
      rw [Action.on_bind_of_ok ((hon d.store).trans (by rw [ho])),
        Action.on_bind_of_ok ((hon t).trans (by rw [ho']))]
      have hcold : Beside coldName (withCold ⟨d.queue, c.store, c.calls⟩ c.queue)
          (withCold ⟨d.queue, c'.store, c'.calls⟩ c'.queue) :=
        ⟨congrArg (fun cold => { d.queue with cold }) hafter.queue, hafter.calls, hafter.store⟩
      obtain ⟨hend, hlast, ht⟩ := (proper_keeping (proper_reopening d.queue.phase)).beside
        (fun _ => trivial) id hcold (hok rfl)
      exact ⟨hend, hlast, .inl ht⟩

/-- So does closing a queue that is not active, which asks nothing. -/
theorem steps_shutdown : Steps coldName shutdown := by
  intro d e hb hn
  have hrest : ∀ d : Desk Cached, d.queue.phase ≠ .active → d.queue.phase.isClosed = false →
      shutdown.on d = closing.on d := by
    intro d hn hc
    rw [shutdown, Action.on_bind_of_ok (on_theQueue d)]
    dsimp only
    rw [hc, if_neg Bool.false_ne_true, if_neg hn]
    rfl
  have hdone : ∀ d : Desk Cached, d.queue.phase.isClosed = true → shutdown.on d = (.ok (), d) := by
    intro d hc
    rw [shutdown, Action.on_bind_of_ok (on_theQueue d)]
    dsimp only
    rw [hc, if_pos rfl, Action.on_pure]
  have hq : e.queue.phase = d.queue.phase := by rw [hb.queue]
  have hn' : d.queue.phase ≠ .active := hn
  cases hc : d.queue.phase.isClosed with
  | true =>
    rw [hdone d hc, hdone e (by rwa [hq])]
    exact ⟨rfl, hb, .inr hn⟩
  | false =>
    have hproper : Proper (living False) closing := proper_closing
    have hsteps : Steps coldName closing := by
      refine hproper.steps (fun _ => trivial) id (fun d => ?_) fun d _ => ?_
      · have hkept := (proper_keeping proper_closing).keeps (fun _ => trivial)
          (fun d d' : Desk Cached => coldName d'.queue = coldName d.queue)
          (fun h h' => h'.trans h) (fun _ _ _ h => h) (fun _ _ _ _ => rfl) d
        exact hkept
      · have hleft := left_iff.1 (leads_closing d trivial)
        rw [show Managed.phase (closing.on d).2.queue = .shutdown from hleft]
        decide
    rw [hrest d hn' hc, hrest e (by rwa [hq]) (by rwa [hq])]
    exact hsteps d e hb hn

/-- A cached queue that is not active does what it is told, unless that is to destroy itself, the
same on alike stores, whether or not there is a table. -/
theorem steps_does {deed : Deed} (hd : deed ≠ .asked .destroy) : Steps coldName (does deed) := by
  cases deed with
  | asked request =>
    refine Steps.returning ?_ Answer.reply
    cases request using Request.casesByNeed with
    | contents request hr =>
      exact steps_of_same (fun q => .error (.inactive q.storageId.text)) fun d hn =>
        serve_inactive hn hr
    | start => exact steps_start.returning fun _ => Reply.done
    | shutdown => exact steps_shutdown.returning fun _ => Reply.done
    | destroy => exact absurd rfl hd
  | told =>
    have hidle : Steps coldName catchUp :=
      steps_of_same (fun _ => .ok ()) fun d hn => catchUp_inactive hn
    exact hidle.returning fun _ => Answer.nothing
  | modified e => exact steps_of_same (fun _ => .ok (Answer.found none)) fun _ _ => rfl
  | hooked hooks =>
    intro d e hb hn
    refine ⟨rfl, ⟨?_, hb.calls, hb.store⟩, .inr hn⟩
    change Contract.withHooks hooks e.queue = Contract.withHooks hooks d.queue
    rw [hb.queue]

/-- A destroyed queue has nothing left to destroy. -/
theorem does_destroyed {d : Desk Cached} (hd : d.queue.phase = .destroyed) :
    (does (.asked .destroy)).on d = (.ok (.reply .done), d) :=
  Action.on_bind_of_ok (on_done (destroy_destroyed hd))

end Cached

/-! ## Queues in memory -/

namespace Ram

/-- What a queue in memory does. -/
def does : Deed → Action (Desk Ram) Answer
  | .asked request => return .reply (← serve request)
  | .told => return .nothing
  | .modified _ => return .found none
  | .hooked hooks => do
    changeQueue (Contract.withHooks hooks)
    return .nothing

/-- The part of the table that it would use. -/
def name (q : Ram) : String := q.storageId.text

/-- What a queue in memory is told to do asks nothing but to count. -/
theorem proper_does (deed : Deed) : Proper (keeping name) (does deed) := by
  have hliving : ∀ {β : Type} {act : Action (Desk Ram) β}, Proper (living True) act →
      Proper (keeping name) act := fun h =>
    h.mono (fun _ => rfl) id (fun hq => congrArg StorageId.text hq.storageId) id .rfl
  cases deed with
  | asked request => exact .bind (hliving (proper_request request)) fun _ => proper_pure _
  | told | modified => exact proper_pure _
  | hooked hooks => exact .bind (proper_changeQueue fun _ => rfl) fun _ => proper_pure _

end Ram

/-! ## Queues of any kind -/

namespace Queue

/-- Do what is told. -/
def does : Deed → Action (Desk Queue) Answer
  | .asked request => return .reply (← ask request)
  | .told => do
    catchUp
    return .nothing
  | .modified e => return .found (← modifyEntry e)
  | .hooked hooks => do
    changeQueue (·.withHooks hooks)
    return .nothing

/-- Name of the part of the table that is used. -/
def part : Queue → String
  | .ram q => q.name
  | .durable q => q.name
  | .cached q => q.coldName

/-- What is made of an answer is the same for a queue of one kind and of any kind. -/
theorem seat_returning {Q : Type} {wrap : Q → Queue} {act : Action (Desk Q) α}
    {act' : Action (Desk Queue) α} {d : Desk Q}
    (h : act'.on (d.seat wrap) = ((act.on d).1, (act.on d).2.seat wrap)) (view : α → β) :
    (do return view (← act') : Action (Desk Queue) β).on (d.seat wrap) =
      (((do return view (← act) : Action (Desk Q) β).on d).1,
        ((do return view (← act) : Action (Desk Q) β).on d).2.seat wrap) := by
  rw [Action.on_returning, h, Action.on_returning]

/-- A queue in memory does what it is told as a queue of any kind. -/
theorem does_ram (deed : Deed) (d : Desk Ram) : (does deed).on (d.seat .ram) =
    (((Ram.does deed).on d).1, ((Ram.does deed).on d).2.seat .ram) := by
  cases deed with
  | asked request => exact seat_returning (wraps_ram.asked request d) Answer.reply
  | told | modified | hooked => rfl

/-- So does a queue in the table. -/
theorem does_durable (deed : Deed) (d : Desk Durable) : (does deed).on (d.seat .durable) =
    (((Durable.does deed).on d).1, ((Durable.does deed).on d).2.seat .durable) := by
  cases deed with
  | asked request => exact seat_returning (wraps_durable.asked request d) Answer.reply
  | modified e =>
    have hseat : (modifyEntry e).on (d.seat .durable) =
        (((do return some (← Durable.modifyEntry e) : Action (Desk Durable) _).on d).1,
          ((do return some (← Durable.modifyEntry e) : Action (Desk Durable) _).on d).2.seat
            .durable) := by
      rw [modifyEntry, Action.on_of]
      refine (atDesk_seat .durable (some <$> Durable.modifyEntry e) d).trans ?_
      rw [map_eq_pure_bind]
    refine (seat_returning hseat Answer.found).trans ?_
    rw [Durable.does, Action.on_returning, Action.on_returning, Action.on_returning]
    cases ((Durable.modifyEntry e).on d).1 <;> rfl
  | told | hooked => rfl

/-- So does a cached queue. -/
theorem does_cached (deed : Deed) (d : Desk Cached) : (does deed).on (d.seat .cached) =
    (((Cached.does deed).on d).1, ((Cached.does deed).on d).2.seat .cached) := by
  cases deed with
  | asked request => exact seat_returning (wraps_cached.asked request d) Answer.reply
  | told =>
    have hseat : catchUp.on (d.seat .cached) =
        ((Cached.catchUp.on d).1, (Cached.catchUp.on d).2.seat .cached) := by
      rw [catchUp, Action.on_of]
      exact atDesk_seat .cached Cached.catchUp d
    exact seat_returning hseat fun _ => Answer.nothing
  | modified | hooked => rfl

/-- What one queue does over a link to a database that stays reachable is nothing to the others, and
it keeps to its part of the table. -/
theorem does_passed (deed : Deed) {d : Desk Queue} {other : String} (hne : other ≠ d.queue.part)
    (hl : d.store.link.Even d.store.link) : ((does deed).on d).2.queue.part = d.queue.part ∧
      d.store.Passed other ((does deed).on d).2.store := by
  obtain ⟨queue, store, calls⟩ := d
  cases queue with
  | ram q =>
    rw [show (does deed).on ⟨.ram q, store, calls⟩ = _ from does_ram deed ⟨q, store, calls⟩]
    exact (Ram.proper_does deed).passed (fun _ => trivial) id hne hl
  | durable q =>
    rw [show (does deed).on ⟨.durable q, store, calls⟩ = _ from
      does_durable deed ⟨q, store, calls⟩]
    exact (Durable.proper_does deed).passed (fun _ => trivial) id hne hl
  | cached q =>
    rw [show (does deed).on ⟨.cached q, store, calls⟩ = _ from
      does_cached deed ⟨q, store, calls⟩]
    exact (Cached.proper_does deed).passed (fun _ => trivial) id hne hl

/-- A queue that uses the table does the same over stores that are alike to it. Only if it is to
destroy itself, and is not yet destroyed, there must be a table. -/
theorem does_inStep (deed : Deed) {d e : Desk Queue} (hk : d.queue.kind ≠ .ram)
    (h : InStep part d e)
    (hd : deed = .asked .destroy → Managed.phase d.queue = .destroyed ∨ e.store.Founded) :
    ((does deed).on d).1 = ((does deed).on e).1 ∧
      InStep part ((does deed).on d).2 ((does deed).on e).2 := by
  obtain ⟨queue, store, calls⟩ := d
  obtain ⟨queue', t, calls'⟩ := e
  obtain ⟨⟨hq, hc, hstore⟩, hready⟩ := h
  cases hq
  cases hc
  cases queue with
  | ram q => exact absurd rfl hk
  | durable q =>
    rw [show (does deed).on ⟨.durable q, store, calls⟩ = _ from
        does_durable deed ⟨q, store, calls⟩,
      show (does deed).on ⟨.durable q, t, calls⟩ = _ from does_durable deed ⟨q, t, calls⟩]
    have hb : InStep Durable.name ⟨q, store, calls⟩ ⟨q, t, calls⟩ := ⟨⟨rfl, rfl, hstore⟩, hready⟩
    obtain ⟨ho, hs⟩ := hb.told hd (Durable.proper_does deed) Durable.steps_does
      Durable.does_destroyed
    exact ⟨ho, ⟨congrArg Queue.durable hs.queue, hs.calls, hs.store⟩, hs.ready⟩
  | cached q =>
    rw [show (does deed).on ⟨.cached q, store, calls⟩ = _ from
        does_cached deed ⟨q, store, calls⟩,
      show (does deed).on ⟨.cached q, t, calls⟩ = _ from does_cached deed ⟨q, t, calls⟩]
    have hb : InStep Cached.coldName ⟨q, store, calls⟩ ⟨q, t, calls⟩ :=
      ⟨⟨rfl, rfl, hstore⟩, hready⟩
    obtain ⟨ho, hs⟩ := hb.told hd (Cached.proper_does deed) Cached.steps_does
      Cached.does_destroyed
    exact ⟨ho, ⟨congrArg Queue.cached hs.queue, hs.calls, hs.store⟩, hs.ready⟩

/-- Whatever it does, it stays of its kind. -/
theorem does_kind (deed : Deed) (d : Desk Queue) :
    ((does deed).on d).2.queue.kind = d.queue.kind := by
  obtain ⟨queue, store, calls⟩ := d
  cases queue with
  | ram q => exact congrArg (fun r => r.2.queue.kind) (does_ram deed ⟨q, store, calls⟩)
  | durable q => exact congrArg (fun r => r.2.queue.kind) (does_durable deed ⟨q, store, calls⟩)
  | cached q => exact congrArg (fun r => r.2.queue.kind) (does_cached deed ⟨q, store, calls⟩)

/-- A new queue uses the part of the table that its id names, and is not active. -/
theorem part_of_create {kind : Kind} {id : StorageId} {bounds : Bounds} {q : Queue}
    (hq : create kind id bounds = .ok q) :
    q.part = id.text ∧ q.kind = kind ∧ Managed.phase q ≠ .active := by
  obtain rfl := create_eq hq
  cases kind with
  | ram | durable | cached => exact ⟨rfl, rfl, nofun⟩

end Queue

/-! ## Neighbours -/

/-- A name like `mail`, but for its detail. -/
def StorageId.box : StorageId := { StorageId.mail with detail := "box", detail_trim := by decide }

/-- Two queues that share a store. -/
structure Neighbours where
  left : Queue
  right : Queue
  store : Store

/-- One of two neighbours is told what to do. -/
inductive Move
  | left (deed : Deed)
  | right (deed : Deed)

/-- It is the right one. -/
def Move.isRight : Move → Bool
  | .left _ => false
  | .right _ => true

namespace Neighbours

variable {n m : Neighbours} {moves : List Move}

/-- The desk of the left queue, where nobody has been called yet. -/
def leftDesk (n : Neighbours) : Desk Queue := { queue := n.left, store := n.store }

/-- The desk of the right queue. -/
def rightDesk (n : Neighbours) : Desk Queue := { queue := n.right, store := n.store }

/-- The neighbours after a move. -/
def move (n : Neighbours) : Move → Neighbours
  | .left deed =>
    let d := ((Queue.does deed).on n.leftDesk).2
    { n with left := d.queue, store := d.store }
  | .right deed =>
    let d := ((Queue.does deed).on n.rightDesk).2
    { n with right := d.queue, store := d.store }

/-- The neighbours after several moves. -/
def run (n : Neighbours) (moves : List Move) : Neighbours := moves.foldl move n

/-- What the right queue answers, in the course of several moves, and whom it calls. -/
def seen (n : Neighbours) : List Move → List (Except Fault Answer × List Call)
  | [] => []
  | .left deed :: moves => seen (n.move (.left deed)) moves
  | .right deed :: moves =>
    let (answer, d) := (Queue.does deed).on n.rightDesk
    (answer, d.calls) :: seen (n.move (.right deed)) moves

/-- Whenever the right queue is to destroy itself, and is not yet destroyed, there is a table. -/
def Built (n : Neighbours) : List Move → Prop
  | [] => True
  | .left deed :: moves => Built (n.move (.left deed)) moves
  | .right deed :: moves =>
    (deed = .asked .destroy → Managed.phase n.right = .destroyed ∨ n.store.Founded) ∧
      Built (n.move (.right deed)) moves

/-- What the left queue does is nothing to the right one, whose part of the table is `part`. -/
structure Isolated (part : String) (n : Neighbours) (moves : List Move) : Prop where
  /-- The right queue gives the same answers and calls the same watchers. -/
  seen : n.seen moves = n.seen (moves.filter Move.isRight)
  /-- It knows the same. -/
  right : (n.run moves).right = (n.run (moves.filter Move.isRight)).right
  /-- It has the same rows. -/
  rows : Statement.rowsOf part (n.run moves).store.rows =
    Statement.rowsOf part (n.run (moves.filter Move.isRight)).store.rows

/-- Two neighbours, of which the right one has a part of the table to itself, and the right one of
them where the left one has done nothing. -/
structure Apart (part : String) (n m : Neighbours) : Prop where
  left : n.left.part ≠ part
  right : n.right.part = part
  kind : n.right.kind ≠ .ram
  link : n.store.link.Even n.store.link
  inStep : InStep Queue.part n.rightDesk m.rightDesk

variable {part : String}

/-- What the left one does keeps that so. -/
theorem Apart.turnLeft (h : Apart part n m) (deed : Deed) :
    Apart part (n.move (.left deed)) m := by
  have hne : n.right.part ≠ n.left.part := by
    rw [h.right]
    exact h.left.symm
  obtain ⟨hpart, hp⟩ := Queue.does_passed deed (d := n.leftDesk) hne h.link
  refine ⟨fun he => h.left (hpart.symm.trans he), h.right, h.kind, hp.even h.link, ?_⟩
  exact ⟨⟨h.inStep.queue, h.inStep.calls, h.inStep.store.passed hp⟩, h.inStep.ready⟩

/-- So does what the right one does, and it answers the same. -/
theorem Apart.turnRight (h : Apart part n m) {deed : Deed}
    (hd : deed = .asked .destroy → Managed.phase m.right = .destroyed ∨ m.store.Founded) :
    ((Queue.does deed).on n.rightDesk).1 = ((Queue.does deed).on m.rightDesk).1 ∧
      ((Queue.does deed).on n.rightDesk).2.calls = ((Queue.does deed).on m.rightDesk).2.calls ∧
      Apart part (n.move (.right deed)) (m.move (.right deed)) := by
  have hqueue : m.right = n.right := h.inStep.queue
  rw [hqueue] at hd
  obtain ⟨ho, hs⟩ := Queue.does_inStep deed h.kind h.inStep hd
  have hne : n.left.part ≠ n.right.part := by
    rw [h.right]
    exact h.left
  obtain ⟨hpart, hp⟩ := Queue.does_passed deed (d := n.rightDesk) hne h.link
  refine ⟨ho, hs.calls.symm, h.left, hpart.trans h.right, ?_, hp.even h.link, ?_⟩
  · rw [show (n.move (.right deed)).right.kind = n.right.kind from
      Queue.does_kind deed n.rightDesk]
    exact h.kind
  · exact ⟨⟨hs.queue, rfl, hs.store⟩, hs.ready⟩

/-- In the course of any moves the right one answers as if the left one had done nothing. -/
theorem Apart.run (h : Apart part n m) (hb : Built m (moves.filter Move.isRight)) :
    n.seen moves = m.seen (moves.filter Move.isRight) ∧
      Apart part (n.run moves) (m.run (moves.filter Move.isRight)) := by
  induction moves generalizing n m with
  | nil => exact ⟨rfl, h⟩
  | cons first moves ih =>
    cases first with
    | left deed => exact ih (h.turnLeft deed) hb
    | right deed =>
      obtain ⟨hd, hb⟩ := hb
      obtain ⟨ho, hcalls, hnext⟩ := h.turnRight hd
      obtain ⟨hseen, hlast⟩ := ih hnext hb
      exact ⟨congrArg₂ List.cons (Prod.ext ho hcalls) hseen, hlast⟩

/-- The right one has the same rows then. -/
theorem Apart.rows (h : Apart part n m) :
    Statement.rowsOf part n.store.rows = Statement.rowsOf part m.store.rows := by
  have hrows := h.inStep.store.rows
  rw [show n.rightDesk.queue.part = part from h.right] at hrows
  exact hrows.symm

/-- Two queues of different names, of which the right one uses the table, do not notice each other
as long as the database stays reachable; but the right one must not be destroyed where there would
be no table without the left one. -/
theorem isolated {a b : StorageId} (hab : a ≠ b) {kind kind' : Kind} (hk : kind' ≠ .ram)
    {bounds bounds' : Bounds} {left right : Queue} (ha : Queue.create kind a bounds = .ok left)
    (hb : Queue.create kind' b bounds' = .ok right) {store : Store}
    (hr : store.link.reachable = true) (hf : store.link.forecast = []) (moves : List Move)
    (hbuilt : Built ⟨left, right, store⟩ (moves.filter Move.isRight)) :
    a.text ≠ b.text ∧ Isolated b.text ⟨left, right, store⟩ moves := by
  have hnames : a.text ≠ b.text := fun he => hab (StorageId.text_injective he)
  obtain ⟨hleft, -, -⟩ := Queue.part_of_create ha
  obtain ⟨hright, hkind, hidle⟩ := Queue.part_of_create hb
  have heven : store.link.Even store.link := Link.even_self hr hf
  have hapart : Apart b.text ⟨left, right, store⟩ ⟨left, right, store⟩ := by
    refine ⟨by rwa [hleft], hright, by rwa [hkind], heven, ⟨rfl, rfl, ?_⟩, .inr hidle⟩
    exact ⟨rfl, rfl, heven, id⟩
  obtain ⟨hseen, hlast⟩ := hapart.run hbuilt
  exact ⟨hnames, hseen, hlast.inStep.queue.symm, hlast.rows⟩

/-- A cached queue and one in the table, of similar names, over a store without a table. -/
def newborn : Neighbours where
  left := Queue.newborn .cached
  right := .durable { storageId := .box, bounds := .tight }
  store := {}

/-- Both are opened and store entries of the same ids; then the left one is cleared and destroyed,
and the right one asked what it has. -/
def movesOfBoth : List Move :=
  let both (request : Request) : List Move := [.left (.asked request), .right (.asked request)]
  both .start ++ both (.put [.blank 1 true, .blank 2 false] false) ++
    [.left (.asked .clear), .left (.asked .destroy), .right (.asked .references)]

/-- The right one has both entries, and would have them without the left one. -/
theorem isolated_newborn :
    (newborn.run movesOfBoth).store.rows.length = 2 ∧
      Managed.phase (newborn.run movesOfBoth).left = .destroyed ∧
      StorageId.mail.text ≠ StorageId.box.text ∧
      Isolated StorageId.box.text newborn movesOfBoth := by
  refine ⟨by decide +kernel, by decide +kernel, ?_⟩
  have hbuilt : Built newborn (movesOfBoth.filter Move.isRight) := ⟨nofun, nofun, nofun, trivial⟩
  exact @isolated .mail .box (by decide) .cached .durable nofun .tight .tight _ _ rfl rfl _ rfl rfl
    movesOfBoth hbuilt

/-- Whether the left one has been opened shows when the right one is destroyed that never was. -/
theorem not_isolated : ¬ ∀ {a b : StorageId}, a ≠ b → ∀ {kind kind' : Kind}, kind ≠ .ram →
    kind' ≠ .ram → ∀ {bounds bounds' : Bounds} {left right : Queue},
    Queue.create kind a bounds = .ok left → Queue.create kind' b bounds' = .ok right →
    ∀ {store : Store}, store.link.reachable = true → store.link.forecast = [] →
    ∀ moves : List Move, Isolated b.text ⟨left, right, store⟩ moves := by
  intro hall
  let moves : List Move := [.left (.asked .start), .right (.asked .destroy)]
  have hsame : Isolated StorageId.box.text newborn moves :=
    @hall .mail .box (by decide) .cached .durable nofun nofun .tight .tight _ _ rfl rfl _ rfl rfl
      moves
  have hdiffer : newborn.seen moves ≠ newborn.seen (moves.filter Move.isRight) := by
    decide +kernel
  exact hdiffer hsame.seen

end Neighbours

end Spillway
