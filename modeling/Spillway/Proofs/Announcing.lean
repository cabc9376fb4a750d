import Spillway.Proofs.Conduct
import Spillway.Proofs.Telling

/-!
# What size watchers are told

Whatever changes the totals of a queue tells its size watchers afterwards. Queues in memory and in
the table change nothing they do not finish, and a cached queue tells its watchers even of work that
fails half-way. Its parts have no watchers of their own, so that it alone is heard. Only the opening
of a queue in the table finds totals without telling them.
-/

namespace Spillway

open Desk

variable {α : Type} {w : String}

/-! ## Queues in memory -/

namespace Ram

variable {request : Request}

/-- A change of what the queue holds. -/
theorem measured_hold (change : Ram → Roll Entry) :
    Measured (changeQueue fun q : Ram => { q with roll := change q }) :=
  measured_changeQueue fun _ => rfl

/-- A removal by keys changes what the queue holds in one step and tells the totals after it. -/
theorem telling_strike (pick : Ram → List Key) : Telling w (strike pick) :=
  Measured.telling (idle_theQueue.bind_measured fun q =>
    (measured_hold fun _ => (q.roll.take (pick q)).2).returning fun _ => (q.roll.take (pick q)).1)

/-- A removal of listed entries does so too, and an empty list changes nothing. -/
theorem telling_removeListed (entries : List Entry) : Telling w (removeListed entries) := by
  unfold removeListed
  split
  · exact (idle_pure 0).reading.telling
  · refine Measured.telling (idle_theQueue.bind_measured fun q => ?_)
    exact (measured_hold fun _ => (q.roll.takeIds (entries.map Entry.id)).2).returning fun _ =>
      (q.roll.takeIds (entries.map Entry.id)).1.length

/-- Clearing tells the totals of an empty queue. -/
theorem telling_clear : Telling w clear :=
  Measured.telling (idle_theQueue.bind_measured fun q =>
    (measured_hold fun _ => {}).returning fun _ => q.roll.items.length)

/-- A put tells the totals between the two calls of the put hook; a refusal changes nothing. -/
theorem telling_put (batch : List Entry) (bypass : Bool) : Telling w (put batch bypass) := by
  refine Telling.framingPut ?_ batch bypass
  refine Telling.bind (Measured.telling ?_) fun _ => telling_pure true
  exact idle_requireRoom.bind_measured fun _ => measured_hold fun q => q.roll.insertAll batch

/-- Reading what is served before an entry leaves the totals and calls nobody. -/
theorem idle_peekBefore (limit : Option Entry) : Idle (peekBefore limit) := by
  refine Idle.reading (idle_theQueue.bind fun q => ?_)
  dsimp only
  split
  · exact idle_pure _
  · exact idle_pure _

/-- So does every look at the queue. -/
theorem idle_view (view : Ram → α) : Idle (reading do return view (← theQueue)) :=
  Idle.reading (idle_theQueue.bind fun _ => idle_pure _)

/-- Whatever a queue in memory is asked, its watchers are told. -/
theorem telling_serve (request : Request) :
    Telling w (serve request : Action (Desk Ram) Reply) := by
  cases request with
  | start =>
    refine Telling.bind ?_ fun _ => telling_pure _
    exact idle_requireAlive.telling.bind fun _ d _ => tells_of_calls rfl rfl rfl
  | shutdown =>
    refine Telling.bind (idle_theQueue.telling.bind fun q => ?_) fun _ => telling_pure _
    split
    · exact telling_pure ()
    · refine telling_ending fun q => ?_
      rw [closed_eq]
      rfl
  | destroy =>
    refine Telling.bind ?_ fun _ => telling_pure _
    exact telling_ending fun _ => rfl
  | put batch bypass => exact (telling_put batch bypass).bind fun _ => telling_pure _
  | peek | peekFirst | peekLowest | references | select =>
    exact (idle_view _).telling.bind fun _ => telling_pure _
  | peekBefore limit => exact (idle_peekBefore limit).telling.bind fun _ => telling_pure _
  | takeLowest | take => exact (telling_strike _).bind fun _ => telling_pure _
  | removeFirst | removeWindow | removeUpTo | removeTransient =>
    exact ((telling_strike _).bind fun _ => telling_pure _).bind fun _ => telling_pure _
  | removeListed entries => exact (telling_removeListed entries).bind fun _ => telling_pure _
  | clear => exact telling_clear.bind fun _ => telling_pure _

end Ram

/-! ## Queues in the table -/

namespace Durable

variable {request : Request}

/-- A statement by itself changes no totals: the queue follows what it reports in a step of its own.
-/
theorem idle_ask (task : Task) (statement : String → Statement α) : Idle (ask task statement) :=
  idle_theQueue.bind fun _ => idle_onStore _

/-- That step keeps the hooks and calls nobody. -/
theorem measured_retally (change : Tally → Tally) : Measured (retally change) :=
  measured_changeQueue fun _ => rfl

/-- A deletion tells the totals once they have followed the rows. -/
theorem telling_deleting [Slotted α] (task : Task) (statement : String → Statement (List α)) :
    Telling w (deleting task statement) :=
  Measured.telling
    ((idle_ask task statement).bind_measured fun _ => (measured_retally _).returning _)

/-- Writing rows calls nobody, and leaves the totals unless it succeeds. -/
theorem measured_write (entries : List Entry) : Measured (write entries) :=
  (idle_ask _ _).bind_measured fun _ => (measured_retally _).returning _

/-- A change in place tells the totals, which follow the size of the entry. -/
theorem telling_modifyEntry (e : Entry) : Telling w (modifyEntry e) := by
  refine Measured.telling ((idle_ask _ _).bind_measured fun former => ?_)
  cases former with
  | none => exact (idle_pure false).measured
  | some former => exact (measured_retally _).returning fun _ => true

/-- Clearing tells that the totals are zero. -/
theorem telling_clear : Telling w clear :=
  Measured.telling ((idle_ask _ _).bind_measured fun _ => (measured_retally _).returning _)

/-- A put tells the totals once the rows are written; a refusal or a failure changes none. -/
theorem telling_put (batch : List Entry) (bypass : Bool) : Telling w (put batch bypass) := by
  refine Telling.framingPut ?_ batch bypass
  split
  · exact telling_pure false
  · refine Telling.bind (Measured.telling ?_) fun _ => telling_pure true
    refine idle_requireRoom.bind_measured fun _ => ?_
    exact (measured_write batch).returning fun _ => ()

/-- Reading rows changes no totals. -/
theorem idle_reading (task : Task) (statement : String → Statement α) :
    Idle (reading (ask task statement)) :=
  (idle_ask task statement).reading

/-- A removal of listed entries is told as the deletion that it is. -/
theorem telling_removeListed (entries : List Entry) : Telling w (removeListed entries) := by
  unfold removeListed
  split
  · exact (idle_pure 0).reading.telling
  · refine Telling.bind ?_ fun _ => telling_pure _
    unfold deleteIds
    split
    · exact telling_pure []
    · exact telling_deleting _ _

/-- Reading what is served before an entry leaves the totals and calls nobody. -/
theorem idle_peekBefore (limit : Option Entry) : Idle (peekBefore limit) := by
  refine Idle.reading ?_
  cases limit with
  | none => exact idle_pure []
  | some e => exact idle_ask _ _

/-- Choosing among the rows does so too. -/
theorem idle_select (admits : Entry → Bool) : Idle (select admits) :=
  Idle.reading ((idle_ask _ _).bind fun es => idle_pure (es.filter admits))

/-- Closing tells the totals, which stay as they are. -/
theorem telling_shutdown : Telling w shutdown := by
  refine idle_theQueue.telling.bind fun q => ?_
  split
  · exact telling_pure ()
  · exact telling_ending fun _ => rfl

/-- Destroying tells that the totals are zero, unless the rows could not be deleted. -/
theorem telling_destroy : Telling w destroy := by
  refine idle_theQueue.telling.bind fun q => ?_
  split
  · exact telling_pure ()
  · exact (idle_ask _ _).telling.bind fun _ => telling_ending fun _ => rfl

/-- Whatever a queue in the table is asked, its watchers are told, unless it is opened. -/
theorem telling_serve (hr : request ≠ .start) :
    Telling w (serve request : Action (Desk Durable) Reply) := by
  cases request with
  | start => exact absurd rfl hr
  | shutdown => exact telling_shutdown.bind fun _ => telling_pure _
  | destroy => exact telling_destroy.bind fun _ => telling_pure _
  | put batch bypass => exact (telling_put batch bypass).bind fun _ => telling_pure _
  | peek | peekFirst | peekLowest => exact (idle_reading _ _).telling.bind fun _ => telling_pure _
  | peekBefore limit => exact (idle_peekBefore limit).telling.bind fun _ => telling_pure _
  | takeLowest | take => exact (telling_deleting _ _).bind fun _ => telling_pure _
  | removeFirst | removeWindow | removeUpTo | removeTransient =>
    exact ((telling_deleting _ _).bind fun _ => telling_pure _).bind fun _ => telling_pure _
  | removeListed entries => exact (telling_removeListed entries).bind fun _ => telling_pure _
  | clear => exact telling_clear.bind fun _ => telling_pure _
  | references =>
    exact ((idle_reading _ _).telling.bind fun _ => telling_pure _).bind fun _ => telling_pure _
  | select admits => exact (idle_select admits).telling.bind fun _ => telling_pure _

/-- To count the rows on opening calls nobody. -/
theorem measured_reckoning : Measured reckoning :=
  (idle_ask _ _).bind_measured fun _ => measured_changeQueue fun _ => rfl

/-- Opening tells the watchers nothing. -/
theorem measured_start : Measured start := by
  have hmake := (idle_onStore Store.createTable).bind_measured fun _ => measured_reckoning
  exact idle_requireAlive.bind_measured fun _ => hmake

end Durable

/-! ## Cached queues -/

namespace Cached

variable {request : Request} {d : Desk Cached}

/-- Whatever work a cached queue does, it keeps its hooks and takes no call back. -/
theorem continues_of_serving {act : Action (Desk Cached) α} (h : Proper (serving False) act)
    (d : Desk Cached) : Continues d (act.on d).2 :=
  h.continues (fun _ => False.elim) (fun hq => hq.1.hooks) d

/-- So it does when it is opened, closed or destroyed. -/
theorem continues_of_living {act : Action (Desk Cached) α} (h : Proper (living True) act)
    (d : Desk Cached) : Continues d (act.on d).2 :=
  h.continues (fun _ => trivial) (fun hq => hq.1.hooks) d

/-- A change is told even if it fails half-way. -/
theorem telling_altering {act : Action (Desk Cached) α} (h : Proper (serving False) act) :
    Telling w (altering act) := by
  refine idle_requireActive.telling.bind fun _ d hw => ?_
  have hgoes := continues_of_serving h d
  rcases ho : act.on d with ⟨outcome, d'⟩
  rw [ho] at hgoes
  have hend : ∀ d₁,
      (announce false >>= fun _ => Action.require outcome : Action (Desk Cached) α).on d₁ =
        (outcome, { d₁ with calls := d₁.calls ++ announcement d₁.queue false }) := fun _ => rfl
  cases outcome with
  | ok a =>
    rw [Action.on_bind_of_ok (Action.on_attempt_of ho), hend]
    exact (hgoes.announced hw false).tells
  | error fault =>
    rw [Action.on_bind_of_ok (Action.on_attempt_of ho), hend]
    exact (hgoes.announced hw false).tells

/-- Reading rows by ids leaves the queue with both its parts. -/
theorem idle_peekIds (ids : List UInt64) : Idle (onCold (Durable.peekIds ids)) := by
  refine Idle.work coldHalf ?_
  unfold Durable.peekIds
  split
  · exact idle_pure []
  · exact Durable.idle_reading _ _

/-- So does reading by keys, whether or not the rows can be read. -/
theorem idle_fetch (keys : List Key) : Idle (fetch keys) := by
  refine idle_theQueue.bind fun q => ?_
  refine (idle_peekIds _).attempt.bind fun outcome => ?_
  cases outcome with
  | ok rest => exact idle_pure _
  | error fault =>
    dsimp only
    split
    · exact idle_pure _
    · exact idle_throw fault

/-- And reading what is served before an entry. -/
theorem idle_peekBefore (limit : Option Entry) : Idle (peekBefore limit) := by
  refine Idle.reading (idle_theQueue.bind fun q => ?_)
  dsimp only
  split
  · exact idle_fetch _
  · exact idle_pure []

/-- And choosing among memory and rows. -/
theorem idle_select (admits : Entry → Bool) : Idle (select admits) := by
  refine Idle.reading ?_
  refine ((Ram.idle_view _).work hotHalf).bind fun warm => ?_
  refine ((Durable.idle_select admits).work coldHalf).bind fun rows => ?_
  exact idle_theQueue.bind fun _ => idle_pure _

/-- A put is a change between the two calls of the put hook. -/
theorem telling_put (batch : List Entry) (bypass : Bool) : Telling w (put batch bypass) := by
  refine Telling.framingPut (Telling.bind (telling_altering ?_) fun _ => telling_pure true) batch
    bypass
  refine .bind (proper_requireRoom (attentive_serving False)) fun _ => ?_
  refine .bind proper_theQueue fun q => ?_
  dsimp only
  split
  · exact proper_place _
  · exact proper_pure ()

/-- A removal by keys is a change. -/
theorem telling_drop (pick : Cached → List Key) : Telling w (altering do
    dropKeys (pick (← theQueue))) :=
  telling_altering (.bind proper_theQueue fun _ => proper_dropKeys _)

/-- So is a removal of listed entries, of which an empty list makes none. -/
theorem telling_removeListed (entries : List Entry) : Telling w (removeListed entries) := by
  unfold removeListed
  split
  · exact (idle_pure 0).reading.telling
  · exact telling_drop _

/-- Clearing is a change. -/
theorem telling_clear : Telling w clear := by
  refine telling_altering (.bind proper_theQueue fun q => ?_)
  refine .bind (cold_serving Durable.proper_clear) fun _ => ?_
  refine .bind (hot_serving Ram.proper_clear) fun _ => ?_
  exact .bind (proper_reindex _) fun _ => proper_pure _

/-- Whatever contents a cached queue is asked for, its watchers are told. -/
theorem telling_serve (hr : request.needsActive = true) :
    Telling w (serve request : Action (Desk Cached) Reply) := by
  cases request with
  | start | shutdown | destroy => cases hr
  | put batch bypass => exact (telling_put batch bypass).bind fun _ => telling_pure _
  | peek | peekFirst =>
    exact (Idle.reading (idle_theQueue.bind fun _ => idle_fetch _)).telling.bind fun _ =>
      telling_pure _
  | peekBefore limit => exact (idle_peekBefore limit).telling.bind fun _ => telling_pure _
  | peekLowest =>
    have hread : ∀ keys, Idle (do return (← fetch keys).reverse) := fun keys =>
      (idle_fetch keys).bind fun _ => idle_pure _
    exact (Idle.reading (idle_theQueue.bind fun _ => hread _)).telling.bind fun _ => telling_pure _
  | takeLowest =>
    refine Telling.bind (telling_altering (.bind proper_theQueue fun _ => ?_)) fun _ =>
      telling_pure _
    exact .bind (proper_takeKeys _) fun _ => proper_pure _
  | take =>
    refine Telling.bind (telling_altering (.bind proper_theQueue fun _ => ?_)) fun _ =>
      telling_pure _
    exact proper_takeKeys _
  | removeFirst | removeWindow | removeUpTo | removeTransient =>
    exact (telling_drop _).bind fun _ => telling_pure _
  | removeListed entries => exact (telling_removeListed entries).bind fun _ => telling_pure _
  | clear => exact telling_clear.bind fun _ => telling_pure _
  | references =>
    exact (Idle.reading (idle_theQueue.bind fun _ => idle_pure _)).telling.bind fun _ =>
      telling_pure _
  | select admits => exact (idle_select admits).telling.bind fun _ => telling_pure _

/-! ### Closing and destroying -/

/-- The end of what closes or destroys a queue: something is tried, the queue changes, and the
watchers are told whatever came of it. -/
def settling (act : Action (Desk Cached) Unit) (change : Cached → Cached) :
    Action (Desk Cached) Unit := do
  let outcome ← act.attempt
  changeQueue change
  announce true
  Action.require outcome

/-- Whatever came of what was tried, the watchers are told the totals of the changed queue. -/
theorem informs_settling {act : Action (Desk Cached) Unit} (change : Cached → Cached)
    (h : ∀ d, Continues d (act.on d).2) (hc : ∀ q, (change q).hooks = q.hooks) {d : Desk Cached}
    (hw : w ∈ (Managed.hooks d.queue).watchers) : Informs w d ((settling act change).on d).2 := by
  have hgoes := h d
  rcases ho : act.on d with ⟨outcome, d'⟩
  rw [ho] at hgoes
  have hchanged : Continues d { d' with queue := change d'.queue } :=
    hgoes.trans ⟨hc d'.queue, [], (List.append_nil _).symm⟩
  have hend : (settling act change).on d = (outcome, { d' with
      queue := change d'.queue, calls := d'.calls ++ announcement (change d'.queue) true }) := by
    cases outcome with
    | ok a =>
      rw [settling, Action.on_bind_of_ok (Action.on_attempt_of ho)]
      rfl
    | error fault =>
      rw [settling, Action.on_bind_of_ok (Action.on_attempt_of ho)]
      rfl
  rw [hend]
  exact hchanged.announced hw true

/-- Closing tells them after both parts are closed. -/
theorem informs_closing {d : Desk Cached} (hw : w ∈ (Managed.hooks d.queue).watchers) :
    Informs w d (closing.on d).2 := by
  have hgoes := continues_of_living (hot_living Ram.proper_shutdown) d
  obtain ⟨d', ho⟩ := hotShutdown_ok d
  rw [ho] at hgoes
  rw [closing, Action.on_bind_of_ok ho]
  refine hgoes.informs ?_
  exact informs_settling (fun q => { q with phase := .shutdown })
    (continues_of_living (cold_living Durable.proper_shutdown)) (fun _ => rfl) (hgoes.watchers hw)

/-- Closing tells the watchers whether or not rows could be written first. -/
theorem telling_shutdown : Telling w shutdown := by
  refine idle_theQueue.telling.bind fun q => ?_
  dsimp only
  split
  · exact telling_pure ()
  · split
    · intro d hw
      have hgoes := continues_of_serving proper_flush d
      change Tells w d (closing.on (flush.on d).2).2
      exact (hgoes.informs (informs_closing (hgoes.watchers hw))).tells
    · exact fun d hw => (informs_closing hw).tells

/-- Destroying tells them even if the rows could not be deleted. -/
theorem telling_destroy : Telling w destroy := by
  refine idle_theQueue.telling.bind fun q => ?_
  split
  · exact telling_pure ()
  · intro d hw
    have hgoes := continues_of_living (hot_living Ram.proper_destroy) d
    obtain ⟨calls, ho⟩ := on_hotDestroy d
    rw [ho] at hgoes
    rw [Action.on_bind_of_ok ho]
    refine (hgoes.informs ?_).tells
    exact informs_settling (fun q => { q with index := {}, phase := .destroyed })
      (continues_of_living (cold_living Durable.proper_destroy)) (fun _ => rfl) (hgoes.watchers hw)

/-! ### Opening and catching up -/

/-- The parts of a cached queue have nobody to tell. -/
def Alone (q : Cached) : Prop := Unheard q.hot ∧ Unheard q.cold

/-- What the part in the table does calls nobody for the queue. -/
theorem hushed_onCold {act : Action (Desk Durable) α} (h : Hushed Unheard act) :
    Hushed Alone (onCold act) := h.work coldHalf (fun _ hq => hq.2) fun _ _ hp hq => ⟨hq.1, hp⟩

/-- Nor does what the part in memory does. -/
theorem hushed_onHot {act : Action (Desk Ram) α} (h : Hushed Unheard act) :
    Hushed Alone (onHot act) := h.work hotHalf (fun _ hq => hq.1) fun _ _ hp hq => ⟨hp, hq.2⟩

/-- The parts are not concerned when the index changes. -/
theorem hushed_reindex (change : Roll Resident → Roll Resident) : Hushed Alone (reindex change) :=
  hushed_changeQueue fun _ hq => hq

/-- Keeping entries in memory calls nobody. -/
theorem hushed_heat (entries : List Entry) : Hushed Alone (heat entries) :=
  hushed_changeQueue fun _ hq => hq

/-- Nor does letting them go. -/
theorem hushed_cool (ids : List UInt64) : Hushed Alone (cool ids) :=
  ⟨fun _ _ => rfl, fun _ hq => hq⟩

/-- The part in the table writes rows without anybody to tell of its totals. -/
theorem hushed_hold (entries : List Entry) : Hushed Alone (onCold (Durable.hold entries)) := by
  refine hushed_onCold ?_
  unfold Durable.hold
  split
  · exact (idle_pure ()).hushed
  · exact (Durable.measured_write entries).hushed.changing.bind fun _ => (idle_pure ()).hushed

/-- Writing rows that were held back calls nobody. -/
theorem hushed_flush : Hushed Alone flush := by
  refine idle_theQueue.hushed.bind fun q => ?_
  dsimp only
  split
  · exact (idle_pure ()).hushed
  · exact (hushed_hold _).bind fun _ => hushed_reindex _

/-- Refilling memory calls nobody, whether or not the rows can be read. -/
theorem hushed_promote : Hushed Alone promote := by
  refine idle_theQueue.hushed.bind fun q => ?_
  dsimp only
  split
  · exact (idle_pure ()).hushed
  · refine (idle_peekIds _).attempt.hushed.bind fun outcome => ?_
    cases outcome with
    | error fault => exact (idle_pure ()).hushed
    | ok entries =>
      refine (hushed_heat entries).bind fun _ => ?_
      exact (hushed_reindex _).bind fun _ => (idle_count _).hushed

/-- Nor does restoring the prefix. -/
theorem hushed_restorePrefix : Hushed Alone restorePrefix := by
  refine idle_theQueue.hushed.bind fun q => ?_
  dsimp only
  split
  · exact hushed_promote
  · split
    · refine (hushed_hold _).bind fun _ => ?_
      refine (hushed_cool _).bind fun _ => ?_
      exact (hushed_reindex _).bind fun _ => hushed_promote
    · exact hushed_promote

/-- A notification calls nobody at all. -/
theorem hushed_catchUp : Hushed Alone catchUp := by
  refine idle_theQueue.hushed.bind fun q => ?_
  split
  · refine hushed_flush.attempt.bind fun outcome => ?_
    cases outcome with
    | error fault => exact (idle_pure ()).hushed
    | ok u => exact hushed_promote
  · exact (idle_pure ()).hushed

/-- Work that tells the watchers at its end, and calls nobody if it does not come so far. -/
structure Heralds (w : String) (act : Action (Desk Cached) Unit) : Prop where
  done : ∀ d, Alone d.queue → w ∈ (Managed.hooks d.queue).watchers →
    (act.on d).1 = .ok () → Informs w d (act.on d).2
  failed : ∀ d, Alone d.queue → ∀ fault, (act.on d).1 = .error fault → (act.on d).2.calls = d.calls

/-- The announcement itself is such an end. -/
theorem heralds_announce (closed : Bool) : Heralds w (announce closed) :=
  ⟨fun d _ hw _ => (Continues.refl d).announced hw closed, fun _ _ _ => nofun⟩

/-- Work that calls nobody may go before: if it fails, the end is not reached. -/
theorem Heralds.after {act : Action (Desk Cached) α} {next : α → Action (Desk Cached) Unit}
    (hn : ∀ a, Heralds w (next a)) (h : Hushed Alone act) (hp : Proper (living True) act) :
    Heralds w (act >>= next) := by
  refine ⟨fun d hq hw hok => ?_, fun d hq fault hf => ?_⟩
  · have hs := h.stays d hq
    have hgoes := continues_of_living hp d
    rw [Action.on_bind] at hok ⊢
    rcases ho : act.on d with ⟨fault | a, d'⟩
    · rw [ho] at hok
      cases hok
    · rw [ho] at hs hgoes hok
      exact hgoes.informs ((hn a).done d' hs (hgoes.watchers hw) hok)
  · have hc := h.calls d hq
    have hs := h.stays d hq
    rw [Action.on_bind] at hf ⊢
    rcases ho : act.on d with ⟨fault | a, d'⟩
    · rw [ho] at hc
      exact hc
    · rw [ho] at hc hs hf
      exact ((hn a).failed d' hs fault hf).trans hc

/-- Opening both parts ends with an announcement, and everything before it calls nobody. -/
theorem heralds_resume : Heralds w resume := by
  have hopen : Hushed Alone (onHot Ram.start) := by
    refine hushed_onHot (idle_requireAlive.bind_measured fun _ => ?_).hushed
    exact measured_changeQueue fun _ => rfl
  refine Heralds.after (fun _ => ?_) hopen (hot_living Ram.proper_start)
  refine Heralds.after (fun slots => ?_) ((Durable.idle_reading _ _).work coldHalf).hushed
    (Proper.living (cold_serving Durable.proper_slots))
  refine Heralds.after (fun entries => ?_) ((Ram.idle_view _).work hotHalf).hushed
    (Proper.living (hot_serving (Ram.proper_select _)))
  refine Heralds.after (fun _ => ?_) (hushed_reindex _) (Proper.living (proper_reindex _))
  refine Heralds.after (fun _ => ?_) hushed_restorePrefix (Proper.living proper_restorePrefix)
  exact Heralds.after (fun _ => heralds_announce false) (hushed_changeQueue fun _ hq => hq)
    (proper_phase .active)

/-- That is so where the rows that need not survive are deleted first. -/
theorem heralds_reopening (phase : Phase) : Heralds w (reopening phase) := by
  unfold reopening
  split
  · refine Heralds.after (fun _ => heralds_resume) (hushed_onCold ?_)
      (Proper.living (cold_serving Durable.proper_removeTransient))
    have hdelete : Hushed Unheard (Durable.deleting .deleteTransient Statement.deleteTransient) :=
      ((Durable.idle_ask _ _).bind_measured fun _ =>
        (Durable.measured_retally _).returning _).hushed.changing
    exact hdelete.bind fun _ => (idle_pure _).hushed
  · exact heralds_resume

/-- And where the part in the table is opened before. -/
theorem heralds_opening (phase : Phase) :
    Heralds w (onCold Durable.start >>= fun _ => reopening phase) :=
  Heralds.after (fun _ => heralds_reopening phase) (hushed_onCold Durable.measured_start.hushed)
    (cold_living Durable.proper_start)

variable {l : List Held}

/-- An opening that succeeds is told, and one that fails changes nothing that counts. -/
theorem tells_start (h : Holds d l) (hq : Alone d.queue)
    (hw : w ∈ (Managed.hooks d.queue).watchers) : Tells w d (start.on d).2 := by
  by_cases hd : d.queue.phase = .destroyed
  · rw [start_destroyed hd]
    exact .refl d
  by_cases ha : d.queue.phase = .active
  · rw [start_active ha]
    exact .refl d
  have hopening := start_eq ha hd
  have hheralds : Heralds w _ := heralds_opening d.queue.phase
  rcases start_on h.shelved ha hd with ⟨d', m, ho, -⟩ | ⟨fault, d', m, ho, hk, -, hi, -⟩
  · have hdone := hheralds.done d hq hw
    rw [← hopening, ho] at hdone
    rw [ho]
    exact (hdone rfl).tells
  · have hfailed := hheralds.failed d hq fault
    rw [← hopening, ho] at hfailed
    rw [ho]
    exact tells_of_calls hk.hooks (hfailed rfl) (congrArg Roll.tally hi)

/-- Whatever a cached queue that has a list is asked, its watchers are told. -/
theorem tells_serve (h : Holds d l) (hq : Alone d.queue)
    (hw : w ∈ (Managed.hooks d.queue).watchers) (request : Request) :
    Tells w d ((serve request).on d).2 := by
  cases request with
  | start =>
    have htells := tells_start h hq hw
    rcases ho : start.on d with ⟨outcome, d'⟩
    rw [ho] at htells
    rwa [show (serve .start).on d = _ from on_done ho]
  | shutdown => exact (telling_shutdown.bind fun _ => telling_pure _) d hw
  | destroy => exact (telling_destroy.bind fun _ => telling_pure _) d hw
  | _ => exact telling_serve rfl d hw

/-- A queue that catches up has what it had, and calls nobody. -/
theorem tells_catchUp (h : Holds d l) (hq : Alone d.queue) : Tells w d (catchUp.on d).2 := by
  have hgoes := continues_of_serving proper_catchUp d
  refine tells_of_calls hgoes.hooks (hushed_catchUp.calls d hq) ?_
  by_cases ha : d.queue.phase = .active
  · obtain ⟨d', m, ho, hst, hs, hentries, -⟩ := catchUp_on (h.stocks ha) ha
    rw [ho]
    refine (tally_of_lists hs.index).trans ?_
    rw [hentries]
    exact (tally_of_lists (h.stocks ha).index).symm
  · rw [catchUp_inactive ha]

end Cached

end Spillway
