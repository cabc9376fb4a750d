import Spillway.Proofs.Conduct
import Spillway.Proofs.Limits
import Spillway.Proofs.Storing

/-!
# Only an active queue serves

A queue that is not active refuses everything but to be opened, closed or destroyed, and nothing
comes of the refusal. A destroyed queue stays destroyed, counts nothing and writes nothing. A cached
queue is active only with both of its parts, so that it never refuses on their account. All this
holds whatever has happened to the queue, and whatever others have done to the store.
-/

namespace Spillway

open Desk

variable {α β : Type} {request : Request}

namespace Desk

variable {Q : Type} {pre mid post fails : Q → Prop} {act : Action (Desk Q) α}

/-! ## Where work leads -/

/-- A queue of one sort is left where work succeeded, and one of another sort where it failed. -/
def Left (post fails : Q → Prop) : Except Fault α × Desk Q → Prop
  | (.ok _, d) => post d.queue
  | (.error _, d) => fails d.queue

/-- Work that begins with a queue of one sort leaves one of another sort if it succeeds, and one of
a third sort if it fails. -/
def Leads (pre : Q → Prop) (act : Action (Desk Q) α) (post fails : Q → Prop) : Prop :=
  ∀ d : Desk Q, pre d.queue → Left post fails (act.on d)

/-- A sort may be taken for a looser one. -/
theorem Left.mono {post' fails' : Q → Prop} {outcome : Except Fault α × Desk Q}
    (h : Left post fails outcome) (hpost : ∀ q, post q → post' q)
    (hfails : ∀ q, fails q → fails' q) : Left post' fails' outcome := by
  obtain ⟨_ | a, d⟩ := outcome
  · exact hfails _ h
  · exact hpost _ h

/-- If both sorts are the same, it does not matter whether work has succeeded. -/
theorem left_iff {outcome : Except Fault α × Desk Q} :
    Left post post outcome ↔ post outcome.2.queue := by
  obtain ⟨_ | a, d⟩ := outcome
  · exact .rfl
  · exact .rfl

/-- Work leads to looser sorts too. -/
theorem Leads.mono {post' fails' : Q → Prop} (h : Leads pre act post fails)
    (hpost : ∀ q, post q → post' q) (hfails : ∀ q, fails q → fails' q) :
    Leads pre act post' fails' := fun d hd => (h d hd).mono hpost hfails

/-- Work leads on from where the work before it has led. -/
theorem Leads.bind {next : α → Action (Desk Q) β} (h : Leads pre act mid fails)
    (hn : ∀ a, Leads mid (next a) post fails) : Leads pre (act >>= next) post fails := by
  intro d hd
  have hact := h d hd
  rw [Action.on_bind]
  rcases ho : act.on d with ⟨_ | a, d'⟩
  · rwa [ho] at hact
  · rw [ho] at hact
    exact hn a d' hact

/-- What is tried does not fail, whatever comes of it. -/
theorem leads_attempt (act : Action (Desk Q) α) :
    Leads (fun _ => True) act.attempt (fun _ => True) fails :=
  fun _ _ => trivial

/-- Work that turns queues of a sort into queues of that sort only leaves one. -/
theorem Leads.of_proper {m : Manner Q} (h : Proper m act) (hfits : ∀ fault, m.fits fault)
    (hturns : ∀ {q q'}, m.turns q q' → pre q → pre q') : Leads pre act pre pre := by
  intro d hd
  have hkept := h.keeps hfits (fun d d' => pre d.queue → pre d'.queue)
    (fun h h' => h' ∘ h) (fun _ _ _ hq => hturns hq) (fun _ _ _ _ => id) d hd
  exact left_iff.2 hkept

/-- To give a result leads nowhere else. -/
theorem leads_pure (a : α) : Leads pre (pure a) pre fails := fun _ hd => hd

/-- A check leads nowhere else, even if it fails. -/
theorem leads_require (check : Except Fault α) : Leads pre (Action.require check) pre pre :=
  fun _ hd => left_iff.2 hd

/-- A change leads where it takes the queue. -/
theorem leads_changeQueue {change : Q → Q} (h : ∀ q, pre q → post (change q)) :
    Leads pre (changeQueue change) post fails := fun d hd => h d.queue hd

/-- To tell the watchers leads nowhere else. -/
theorem leads_announce [Managed Q] (closed : Bool) : Leads pre (announce closed) pre fails :=
  fun _ hd => hd

/-- The manner of work that leaves the queue as it is. -/
def still (part : Q → String) : Manner Q where
  part
  asks := True
  turns q q' := q' = q
  stays _ := rfl
  awake _ := False
  fits _ := True

/-- Work that leaves the queue as it is leads nowhere else. -/
theorem Leads.of_still (part : Q → String) (h : Proper (still part) act) :
    Leads pre act pre pre :=
  .of_proper h (fun _ => trivial) fun {q q'} hq => by
    rw [show q' = q from hq]
    exact id

end Desk

/-! ## Queues in memory -/

namespace Ram

/-- A queue that is destroyed has nothing. -/
def Spent (q : Ram) : Prop := q.phase = .destroyed → q.roll.tally = .zero

/-- Whatever it is asked, a destroyed queue has nothing. -/
theorem leads_serve (request : Request) :
    Leads Spent (serve request : Action (Desk Ram) Reply) Spent Spent := by
  intro d hd
  cases request using Request.casesByNeed with
  | contents request hr =>
    by_cases ha : d.queue.phase = .active
    · have hproper : Proper (serving True False) (serve request : Action (Desk Ram) Reply) :=
        proper_serve hr
      have hserve : Leads (fun q : Ram => q.phase = .active) (serve request) _ _ :=
        .of_proper hproper (fun _ => False.elim) fun hq hphase => hq.phase.trans hphase
      have hspent : ∀ q : Ram, q.phase = .active → Spent q := fun q hq hgone => by
        rw [hq] at hgone
        cases hgone
      exact hserve.mono hspent hspent d ha
    · rw [serve_inactive ha hr]
      exact hd
  | start =>
    by_cases hgone : d.queue.phase = .destroyed
    · rw [serve_start_destroyed hgone]
      exact hd
    · rw [serve_start hgone]
      exact nofun
  | shutdown =>
    obtain ⟨calls, ho⟩ := serve_shutdown d
    rw [ho]
    intro hgone
    rw [closed_eq] at hgone ⊢
    exact hd (Phase.closed_eq_destroyed_iff.1 hgone)
  | destroy =>
    obtain ⟨calls, ho⟩ := serve_destroy d
    rw [ho]
    exact fun _ => rfl

/-- A destroyed queue stays destroyed and does not use the store. -/
theorem serve_destroyed {d : Desk Ram} (hd : d.queue.phase = .destroyed) (request : Request) :
    ((serve request).on d).2.queue.phase = .destroyed ∧
      ((serve request).on d).2.store = d.store := by
  cases request using Request.casesByNeed with
  | contents request hr =>
    rw [serve_inactive (by rw [hd]; nofun) hr]
    exact ⟨hd, rfl⟩
  | start =>
    rw [serve_start_destroyed hd]
    exact ⟨hd, rfl⟩
  | shutdown =>
    obtain ⟨calls, ho⟩ := serve_shutdown d
    rw [ho, closed_eq]
    exact ⟨Phase.closed_eq_destroyed_iff.2 hd, rfl⟩
  | destroy =>
    obtain ⟨calls, ho⟩ := serve_destroy d
    rw [ho]
    exact ⟨rfl, rfl⟩

end Ram

/-! ## Queues in the table -/

namespace Durable

/-- A queue that is destroyed counts nothing. -/
def Spent (q : Durable) : Prop := q.phase = .destroyed → q.tally = .zero

/-- An active queue is not a destroyed one. -/
theorem spent_of_active {q : Durable} (h : q.phase = .active) : Spent q := fun hgone => by
  rw [h] at hgone
  cases hgone

/-- A statement leaves the queue where it is. -/
theorem leads_ask {pre : Durable → Prop} (task : Task) {statement : String → Statement α}
    (hs : ∀ part, Statement.Local part (statement part)) :
    Leads pre (ask task statement) pre pre :=
  .of_still Durable.name (proper_ask trivial rfl task hs)

/-- Opening makes a queue active, or leaves it as it is. -/
theorem leads_start {pre : Durable → Prop} :
    Leads pre start (fun q => q.phase = .active) pre := by
  have halive : Leads pre requireAlive pre pre :=
    .of_still Durable.name (proper_check _ fun _ => False.elim)
  have hmake : Leads pre (onStore Store.createTable) pre pre :=
    .of_still Durable.name (proper_createTable trivial)
  refine halive.bind fun _ => hmake.bind fun _ => ?_
  refine (leads_ask _ fun _ => Statement.local_count).bind fun tally => ?_
  exact leads_changeQueue fun q _ => rfl

/-- Destroying leaves a queue that counts nothing, or one that is not destroyed. -/
theorem leads_destroy : Leads Spent destroy Spent Spent := by
  have hsame : Leads Spent (theQueue : Action (Desk Durable) Durable) Spent Spent :=
    .of_still Durable.name proper_theQueue
  refine hsame.bind fun q => ?_
  split
  · exact leads_pure ()
  · refine (leads_ask _ fun _ => Statement.local_deleteAll).bind fun _ => ?_
    exact (leads_changeQueue fun q _ _ => rfl).bind fun _ => leads_announce true

/-- Whatever it is asked, a destroyed queue counts nothing. -/
theorem leads_serve (request : Request) :
    Leads Spent (serve request : Action (Desk Durable) Reply) Spent Spent := by
  intro d hd
  cases request using Request.casesByNeed with
  | contents request hr =>
    by_cases ha : d.queue.phase = .active
    · have hproper : Proper (serving False) (serve request : Action (Desk Durable) Reply) :=
        proper_serve hr
      have hserve : Leads (fun q : Durable => q.phase = .active) (serve request) _ _ :=
        .of_proper hproper (fun _ => False.elim) fun hq hphase => hq.phase.trans hphase
      exact hserve.mono (fun _ => spent_of_active) (fun _ => spent_of_active) d ha
    · rw [serve_inactive ha hr]
      exact hd
  | start =>
    have hstart : Leads Spent start Spent Spent :=
      leads_start.mono (fun _ => spent_of_active) fun _ h => h
    exact (hstart.bind fun _ => leads_pure Reply.done) d hd
  | shutdown =>
    obtain ⟨calls, ho⟩ := shutdown_on d
    rw [show (serve .shutdown).on d = _ from on_done ho]
    exact fun hgone => hd (Phase.closed_eq_destroyed_iff.1 hgone)
  | destroy => exact (leads_destroy.bind fun _ => leads_pure Reply.done) d hd

/-- A destroyed queue stays as it is. -/
theorem serve_destroyed {d : Desk Durable} (hd : d.queue.phase = .destroyed) (request : Request) :
    ((serve request).on d).2 = d := by
  cases request using Request.casesByNeed with
  | contents request hr => rw [serve_inactive (by rw [hd]; nofun) hr]
  | start => rw [show (serve .start).on d = _ from on_done (start_destroyed hd)]
  | shutdown =>
    have ho : shutdown.on d = (.ok (), d) := by
      rw [shutdown, Action.on_bind_of_ok (on_theQueue d), if_pos hd, Action.on_pure]
    rw [show (serve .shutdown).on d = _ from on_done ho]
  | destroy => rw [show (serve .destroy).on d = _ from on_done (destroy_destroyed hd)]

end Durable

/-! ## Cached queues -/

namespace Cached

/-- A queue that is destroyed counts nothing, and one that is active has both parts active. -/
structure Sound (q : Cached) : Prop where
  /-- It counts nothing once destroyed. -/
  spent : q.phase = .destroyed → q.index.tally = .zero
  /-- It is active with both parts only. -/
  whole : q.phase = .active → q.hot.phase = .active ∧ q.cold.phase = .active

/-- The queue and both parts are active. -/
def Whole (q : Cached) : Prop :=
  q.phase = .active ∧ q.hot.phase = .active ∧ q.cold.phase = .active

/-- A queue that is active with both parts is sound. -/
theorem Whole.sound {q : Cached} (h : Whole q) : Sound q := by
  refine ⟨fun hgone => ?_, fun _ => h.2⟩
  rw [h.1] at hgone
  cases hgone

/-- What a queue that is asked for contents does keeps where it and its parts are. -/
theorem leads_serving {act : Action (Desk Cached) α} (h : Proper (serving False) act)
    (known : Phase → Phase → Phase → Prop) :
    Leads (fun q : Cached => known q.phase q.hot.phase q.cold.phase) act
      (fun q => known q.phase q.hot.phase q.cold.phase)
      (fun q => known q.phase q.hot.phase q.cold.phase) :=
  .of_proper h (fun _ => False.elim) fun {q q'} ⟨hq, hhot, hcold⟩ hk => by
    have hphase : q'.phase = q.phase := hq.phase
    have hwarm : q'.hot.phase = q.hot.phase := hhot.phase
    have hchill : q'.cold.phase = q.cold.phase := hcold.phase
    rwa [hphase, hwarm, hchill]

/-- Building the index anew makes a queue active whose part in the table is active, or leaves it
where it was. -/
theorem leads_resume (p : Phase) :
    Leads (fun q => q.phase = p ∧ q.cold.phase = .active) resume Whole (fun q => q.phase = p) := by
  have hopen : Leads (fun q : Cached => q.phase = p ∧ q.cold.phase = .active) (onHot Ram.start)
      (fun q => q.phase = p ∧ q.hot.phase = .active ∧ q.cold.phase = .active)
      (fun q => q.phase = p) := by
    intro d hd
    by_cases hgone : d.queue.hot.phase = .destroyed
    · rw [onHot, Action.on_focus, Ram.start,
        Action.on_bind_of_error (on_requireAlive_destroyed hgone)]
      exact hd.1
    · rw [onHot, Action.on_focus, Ram.start, Action.on_bind_of_ok (on_requireAlive_alive hgone)]
      exact ⟨hd.1, rfl, hd.2⟩
  have hstay : ∀ {γ : Type} {act : Action (Desk Cached) γ}, Proper (serving False) act →
      Leads (fun q : Cached => q.phase = p ∧ q.hot.phase = .active ∧ q.cold.phase = .active) act
        (fun q => q.phase = p ∧ q.hot.phase = .active ∧ q.cold.phase = .active)
        (fun q => q.phase = p) := by
    intro γ act h
    have hkept := leads_serving h fun phase hot cold => phase = p ∧ hot = .active ∧ cold = .active
    exact hkept.mono (fun _ h => h) fun _ h => h.1
  refine hopen.bind fun _ => ?_
  refine (hstay (cold_serving Durable.proper_slots)).bind fun slots => ?_
  refine (hstay (hot_serving (Ram.proper_select _))).bind fun entries => ?_
  refine (hstay (proper_reindex _)).bind fun _ => ?_
  refine (hstay proper_restorePrefix).bind fun _ => ?_
  have hend : Leads (fun q : Cached => q.phase = p ∧ q.hot.phase = .active ∧ q.cold.phase = .active)
      (changeQueue fun q : Cached => { q with phase := .active }) Whole (fun q => q.phase = p) :=
    leads_changeQueue fun q hq => ⟨rfl, hq.2⟩
  exact hend.bind fun _ => leads_announce false

/-- Opening makes a queue active with both parts, or leaves it where it was. -/
theorem leads_start {p : Phase} (hn : p ≠ .active) (hd : p ≠ .destroyed) :
    Leads (fun q => q.phase = p) start Whole (fun q => q.phase = p) := by
  have hopen : Leads (fun q : Cached => q.phase = p) (onCold Durable.start)
      (fun q => q.phase = p ∧ q.cold.phase = .active) (fun q => q.phase = p) := by
    intro d hd
    have hstart : Leads (fun _ : Durable => True) Durable.start (fun q => q.phase = .active) _ :=
      Durable.leads_start
    have hcold := hstart { queue := d.queue.cold, store := d.store, calls := d.calls } trivial
    rw [onCold, Action.on_focus]
    rcases ho : Durable.start.on { queue := d.queue.cold, store := d.store, calls := d.calls }
      with ⟨_ | _, e⟩
    · exact hd
    · rw [ho] at hcold
      exact ⟨hd, hcold⟩
  intro d hp
  have hp : d.queue.phase = p := hp
  rw [start_eq (by rwa [hp]) (by rwa [hp])]
  refine (hopen.bind fun _ => ?_) d hp
  unfold reopening
  split
  · have hpurge := leads_serving (cold_serving Durable.proper_removeTransient)
      fun phase _ cold => phase = p ∧ cold = .active
    exact (hpurge.mono (fun _ h => h) fun _ h => h.1).bind fun _ => leads_resume p
  · exact leads_resume p

/-- Closing both parts closes a queue. -/
theorem leads_closing :
    Leads (fun _ => True) closing (fun q => q.phase = .shutdown)
      (fun q => q.phase = .shutdown) := by
  intro d _
  obtain ⟨d', hhot⟩ := hotShutdown_ok d
  rw [closing, Action.on_bind_of_ok hhot]
  have hclose : Leads (fun _ => True) (changeQueue fun q : Cached => { q with phase := .shutdown })
      (fun q => q.phase = .shutdown) (fun q => q.phase = .shutdown) :=
    leads_changeQueue fun _ _ => rfl
  refine ((leads_attempt (onCold Durable.shutdown)).bind fun outcome => ?_) d' trivial
  exact hclose.bind fun _ => (leads_announce true).bind fun _ => leads_require outcome

/-- Closing a queue closes it, unless it is closed already. -/
theorem leads_shutdown {p : Phase} (hp : p.isClosed = false) :
    Leads (fun q => q.phase = p) shutdown (fun q => q.phase = .shutdown)
      (fun q => q.phase = .shutdown) := by
  intro d hd
  have hd : d.queue.phase = p := hd
  rw [shutdown, Action.on_bind_of_ok (on_theQueue d)]
  dsimp only
  rw [hd, hp, if_neg Bool.false_ne_true]
  split
  · exact ((leads_attempt flush).bind fun _ => leads_closing) d trivial
  · exact leads_closing d trivial

/-- Destroying a queue destroys it and leaves nothing to count, even if that fails. -/
theorem leads_destroy {p : Phase} (hp : p ≠ .destroyed) :
    Leads (fun q => q.phase = p) destroy
      (fun q => q.phase = .destroyed ∧ q.index.tally = .zero)
      (fun q => q.phase = .destroyed ∧ q.index.tally = .zero) := by
  intro d hd
  have hd : d.queue.phase = p := hd
  obtain ⟨calls, hhot⟩ := on_hotDestroy d
  rw [destroy, Action.on_bind_of_ok (on_theQueue d), if_neg (by rwa [hd]),
    Action.on_bind_of_ok hhot]
  have hend : Leads (fun _ => True)
      (changeQueue fun q : Cached => { q with index := {}, phase := .destroyed })
      (fun q => q.phase = .destroyed ∧ q.index.tally = .zero)
      (fun q => q.phase = .destroyed ∧ q.index.tally = .zero) :=
    leads_changeQueue fun _ _ => ⟨rfl, rfl⟩
  refine ((leads_attempt (onCold Durable.destroy)).bind fun outcome => ?_) _ trivial
  exact hend.bind fun _ => (leads_announce true).bind fun _ => leads_require outcome

/-- So is one that is neither active nor destroyed. -/
theorem sound_of_phase {q : Cached} (hn : q.phase ≠ .active) (hd : q.phase ≠ .destroyed) :
    Sound q :=
  ⟨fun hgone => absurd hgone hd, fun ha => absurd ha hn⟩

/-- Whatever it is asked, a destroyed queue counts nothing, and an active one has both parts
active. -/
theorem leads_serve (request : Request) :
    Leads Sound (serve request : Action (Desk Cached) Reply) Sound Sound := by
  intro d hd
  by_cases hgone : d.queue.phase = .destroyed
  · rw [left_iff, serve_destroyed hgone request]
    exact hd
  cases request using Request.casesByNeed with
  | contents request hr =>
    by_cases ha : d.queue.phase = .active
    · have hserve := leads_serving (proper_serve hr)
        fun phase hot cold => phase = .active ∧ hot = .active ∧ cold = .active
      exact hserve.mono (fun _ h => Whole.sound h) (fun _ h => Whole.sound h) d ⟨ha, hd.whole ha⟩
    · rw [serve_inactive ha hr]
      exact hd
  | start =>
    by_cases ha : d.queue.phase = .active
    · rw [show (serve .start).on d = _ from on_done (start_active ha)]
      exact hd
    · have hstart := leads_start ha hgone
      refine ((hstart.mono (fun _ => Whole.sound) fun q hq => ?_).bind fun _ =>
        leads_pure Reply.done) d rfl
      exact sound_of_phase (by rwa [hq]) (by rwa [hq])
  | shutdown =>
    cases hc : d.queue.phase.isClosed with
    | true =>
      have ho : shutdown.on d = (.ok (), d) := by
        rw [shutdown, Action.on_bind_of_ok (on_theQueue d)]
        dsimp only
        rw [hc, if_pos rfl, Action.on_pure]
      rw [show (serve .shutdown).on d = _ from on_done ho]
      exact hd
    | false =>
      have hsound : ∀ q : Cached, q.phase = .shutdown → Sound q := fun q hq =>
        sound_of_phase (by rw [hq]; decide) (by rw [hq]; decide)
      exact ((leads_shutdown hc).mono hsound hsound |>.bind fun _ => leads_pure Reply.done) d rfl
  | destroy =>
    have hsound : ∀ q : Cached, q.phase = .destroyed ∧ q.index.tally = .zero → Sound q :=
      fun q hq => ⟨fun _ => hq.2, fun ha => by rw [hq.1] at ha; cases ha⟩
    exact ((leads_destroy hgone).mono hsound hsound |>.bind fun _ => leads_pure Reply.done) d rfl

/-- Being told that the database is there again changes nothing about where a queue is. -/
theorem sound_catchUp {d : Desk Cached} (h : Sound d.queue) : Sound (catchUp.on d).2.queue := by
  by_cases ha : d.queue.phase = .active
  · have hkept := leads_serving proper_catchUp
      (fun phase hot cold => phase = .active ∧ hot = .active ∧ cold = .active) d ⟨ha, h.whole ha⟩
    exact Whole.sound (left_iff.1 hkept)
  · rw [catchUp_inactive ha]
    exact h

/-- A queue that is active with both parts never refuses for not being active. -/
theorem fault_of_whole {d : Desk Cached} (h : Whole d.queue) (hr : request.needsActive = true)
    {fault : Fault} (hf : ((serve request).on d).1 = .error fault) : fault.kind ≠ .shutdown := by
  have hproper : Proper (serving True) (serve request : Action (Desk Cached) Reply) :=
    proper_serve hr
  refine (hproper.fault ?_ (fun _ h _ => h) h).2 fault hf trivial
  intro q q' hq ⟨hturn, hhot, hcold⟩
  exact ⟨hturn.phase.trans hq.1, hhot.phase.trans hq.2.1, hcold.phase.trans hq.2.2⟩

end Cached

/-! ## Queues of any kind -/

namespace Queue

variable {d : Desk Queue}

/-- What can happen around a queue, where others may do to the store what they like. -/
inductive Turn
  /-- It is asked something. -/
  | asked (request : Request)
  /-- It is told that the database is there again. -/
  | told
  /-- It is to change an entry in place. -/
  | modified (e : Entry)
  /-- The link changes, or others change the table. -/
  | elsewhere (store : Store)
  /-- It gets other hooks. -/
  | hooked (hooks : Hooks)

/-- The desk after a turn. -/
def turn (d : Desk Queue) : Turn → Desk Queue
  | .asked request => ((ask request).on d).2
  | .told => (catchUp.on d).2
  | .modified e => ((modifyEntry e).on d).2
  | .elsewhere store => { d with store }
  | .hooked hooks => { d with queue := d.queue.withHooks hooks }

/-- The desk after several turns. -/
def after (d : Desk Queue) (turns : List Turn) : Desk Queue := turns.foldl turn d

/-- A store after several turns in which the queue did nothing to it. -/
def untouched (s : Store) (turns : List Turn) : Store :=
  turns.foldl (fun s t => match t with
    | .elsewhere store => store
    | _ => s) s

/-- A queue of any kind with any past, among others who may have done to the store what they
liked. -/
inductive Lived : Desk Queue → Prop
  /-- It is made. -/
  | made {kind : Kind} {id : StorageId} {bounds : Bounds} {q : Queue}
      (hq : create kind id bounds = .ok q) (hooks : Hooks) (store : Store) (calls : List Call) :
      Lived { queue := q.withHooks hooks, store, calls }
  /-- Something happens. -/
  | turned {d : Desk Queue} (h : Lived d) (t : Turn) : Lived (turn d t)

/-- What has lived goes on living. -/
theorem Lived.after (h : Lived d) (turns : List Turn) : Lived (after d turns) := by
  induction turns generalizing d with
  | nil => exact h
  | cons t turns ih => exact ih (h.turned t)

/-- A destroyed queue counts nothing, and an active cached queue has both parts active. -/
def Sound : Queue → Prop
  | .ram q => q.Spent
  | .durable q => q.Spent
  | .cached q => q.Sound

/-- Whatever happens leaves a sound queue sound. -/
theorem sound_turn (h : Sound d.queue) (t : Turn) : Sound (turn d t).queue := by
  obtain ⟨queue, store, calls⟩ := d
  cases queue with
  | ram q =>
    cases t with
    | asked request =>
      have hleft := left_iff.1 (Ram.leads_serve request ⟨q, store, calls⟩ h)
      exact hleft
    | told | modified | elsewhere | hooked => exact h
  | durable q =>
    cases t with
    | asked request =>
      have hleft := left_iff.1 (Durable.leads_serve request ⟨q, store, calls⟩ h)
      exact hleft
    | modified e =>
      rw [turn, show (⟨.durable q, store, calls⟩ : Desk Queue) =
        Desk.seat .durable ⟨q, store, calls⟩ from rfl, modifyEntry_seat]
      change Durable.Spent ((Durable.modifyEntry e).on ⟨q, store, calls⟩).2.queue
      by_cases ha : q.phase = .active
      · have hproper : Proper (Durable.serving False) (Durable.modifyEntry e) :=
          Durable.proper_modifyEntry e
        have hkept : Leads (fun q : Durable => q.phase = .active) (Durable.modifyEntry e) _ _ :=
          .of_proper hproper (fun _ => False.elim) fun hq hphase => hq.phase.trans hphase
        exact Durable.spent_of_active (left_iff.1 (hkept ⟨q, store, calls⟩ ha))
      · rw [Durable.modifyEntry_inactive ha]
        exact h
    | told | elsewhere | hooked => exact h
  | cached q =>
    cases t with
    | asked request =>
      have hleft := left_iff.1 (Cached.leads_serve request ⟨q, store, calls⟩ h)
      exact hleft
    | told => exact Cached.sound_catchUp (d := ⟨q, store, calls⟩) h
    | modified | elsewhere => exact h
    | hooked hooks => exact ⟨h.spent, h.whole⟩

/-- So a queue with any past is sound. -/
theorem Lived.sound (h : Lived d) : Sound d.queue := by
  induction h with
  | @made kind id bounds q hq hooks store calls =>
    obtain rfl := create_eq hq
    cases kind with
    | ram | durable => exact nofun
    | cached => exact ⟨nofun, nofun⟩
  | turned _ t ih => exact sound_turn ih t

/-- A queue that is not active refuses every request for contents. -/
theorem ask_inactive (hn : Managed.phase d.queue ≠ .active) {request : Request}
    (hr : request.needsActive = true) :
    (ask request).on d = (.error (.inactive (Managed.storageId d.queue).text), d) := by
  obtain ⟨queue, store, calls⟩ := d
  cases queue with
  | ram q =>
    have ho := Ram.serve_inactive (r := ⟨q, store, calls⟩) hn hr
    refine (wraps_ram.asked request ⟨q, store, calls⟩).trans ?_
    rw [ho]
    rfl
  | durable q =>
    have ho := Durable.serve_inactive (d := ⟨q, store, calls⟩) hn hr
    refine (wraps_durable.asked request ⟨q, store, calls⟩).trans ?_
    rw [ho]
    rfl
  | cached q =>
    have ho := Cached.serve_inactive (d := ⟨q, store, calls⟩) hn hr
    refine (wraps_cached.asked request ⟨q, store, calls⟩).trans ?_
    rw [ho]
    rfl

/-- So does a queue in the table that is to change an entry in place. -/
theorem modifyEntry_inactive (hk : d.queue.kind = .durable)
    (hn : Managed.phase d.queue ≠ .active) (e : Entry) :
    (modifyEntry e).on d = (.error (.inactive (Managed.storageId d.queue).text), d) := by
  obtain ⟨queue, store, calls⟩ := d
  cases queue with
  | ram | cached => cases hk
  | durable q =>
    have ho : (some <$> Durable.modifyEntry e).on ⟨q, store, calls⟩ =
        (.error (.inactive q.storageId.text), ⟨q, store, calls⟩) := by
      rw [map_eq_pure_bind]
      exact Action.on_bind_of_error (Durable.modifyEntry_inactive hn e)
    rw [modifyEntry, Action.on_of]
    refine (atDesk_seat .durable (some <$> Durable.modifyEntry e) ⟨q, store, calls⟩).trans ?_
    rw [ho]
    rfl

/-- What happens around a destroyed queue leaves it destroyed, and the store to others. -/
theorem turn_destroyed (hd : Managed.phase d.queue = .destroyed) (t : Turn) :
    Managed.phase (turn d t).queue = .destroyed ∧
      (turn d t).store = untouched d.store [t] := by
  have hn : Managed.phase d.queue ≠ .active := by rw [hd]; nofun
  obtain ⟨queue, store, calls⟩ := d
  cases t with
  | asked request =>
    cases queue with
    | ram q => exact Ram.serve_destroyed (d := ⟨q, store, calls⟩) hd request
    | durable q =>
      have hsame := Durable.serve_destroyed (d := ⟨q, store, calls⟩) hd request
      exact ⟨(congrArg (fun e : Desk Durable => e.queue.phase) hsame).trans hd,
        congrArg (fun e : Desk Durable => e.store) hsame⟩
    | cached q =>
      have hsame := Cached.serve_destroyed (d := ⟨q, store, calls⟩) hd request
      exact ⟨(congrArg (fun e : Desk Cached => e.queue.phase) hsame).trans hd,
        congrArg (fun e : Desk Cached => e.store) hsame⟩
  | told =>
    cases queue with
    | ram | durable => exact ⟨hd, rfl⟩
    | cached q =>
      have hsame : (Cached.catchUp.on ⟨q, store, calls⟩).2 = ⟨q, store, calls⟩ := by
        rw [Cached.catchUp_inactive hn]
      exact ⟨(congrArg (fun e : Desk Cached => e.queue.phase) hsame).trans hd,
        congrArg (fun e : Desk Cached => e.store) hsame⟩
  | modified e =>
    cases queue with
    | ram | cached => exact ⟨hd, rfl⟩
    | durable q =>
      rw [turn, modifyEntry_inactive rfl hn]
      exact ⟨hd, rfl⟩
  | elsewhere store => exact ⟨hd, rfl⟩
  | hooked hooks => cases queue <;> exact ⟨hd, rfl⟩

/-- That goes on for as long as anything happens. -/
theorem after_destroyed (hd : Managed.phase d.queue = .destroyed) (turns : List Turn) :
    Managed.phase (after d turns).queue = .destroyed ∧
      (after d turns).store = untouched d.store turns := by
  induction turns generalizing d with
  | nil => exact ⟨hd, rfl⟩
  | cons t turns ih =>
    obtain ⟨hphase, hstore⟩ := turn_destroyed hd t
    obtain ⟨hphase', hstore'⟩ := ih hphase
    rw [hstore] at hstore'
    exact ⟨hphase', hstore'⟩

/-- The totals of a destroyed queue are zero. -/
theorem Sound.tally {q : Queue} (h : Sound q) (hd : Managed.phase q = .destroyed) :
    Managed.tally q = .zero := by
  cases q with
  | ram q => exact h hd
  | durable q => exact h hd
  | cached q => exact h.spent hd

/-- When a queue serves and when it does not. -/
structure Guarded (d : Desk Queue) : Prop where
  /-- Unless it is active it refuses every request for contents, and nothing changes. -/
  refuses : Managed.phase d.queue ≠ .active →
    (∀ request : Request, request.needsActive = true →
      (ask request).on d = (.error (.inactive (Managed.storageId d.queue).text), d)) ∧
    (d.queue.kind = .durable → ∀ e : Entry,
      (modifyEntry e).on d = (.error (.inactive (Managed.storageId d.queue).text), d))
  /-- Once destroyed it stays destroyed, counts nothing, and leaves the store to others. -/
  final : Managed.phase d.queue = .destroyed → ∀ turns : List Turn,
    Managed.phase (after d turns).queue = .destroyed ∧
      Managed.tally (after d turns).queue = .zero ∧
      (after d turns).store = untouched d.store turns
  /-- A cached queue is active with both of its parts, and does not refuse then. -/
  whole : ∀ q : Cached, d.queue = .cached q → q.phase = .active →
    q.hot.phase = .active ∧ q.cold.phase = .active ∧
      ∀ request : Request, request.needsActive = true →
        ∀ fault, ((ask request).on d).1 = .error fault → fault.kind ≠ .shutdown

/-- Only an active queue serves, and a destroyed one stays destroyed, whatever has happened to the
queue and to the store: the link may fail in any call, and others may change any rows. -/
theorem guarded (h : Lived d) : Guarded d := by
  refine ⟨fun hn => ⟨fun request hr => ask_inactive hn hr, fun hk e => ?_⟩, fun hd turns => ?_, ?_⟩
  · exact modifyEntry_inactive hk hn e
  · obtain ⟨hphase, hstore⟩ := after_destroyed hd turns
    exact ⟨hphase, (h.after turns).sound.tally hphase, hstore⟩
  · intro q hq ha
    obtain ⟨queue, store, calls⟩ := d
    cases hq
    have hsound : q.Sound := h.sound
    obtain ⟨hhot, hcold⟩ := hsound.whole ha
    refine ⟨hhot, hcold, fun request hr fault hf => ?_⟩
    exact Cached.fault_of_whole (d := ⟨q, store, calls⟩) ⟨ha, hhot, hcold⟩ hr hf

/-- A queue of a kind with an entry, which is then destroyed over a database that is away. -/
def forsaken (kind : Kind) : Desk Queue :=
  after (stocked kind)
    [.elsewhere { (stocked kind).store with link := { reachable := false } }, .asked .destroy]

/-- The queue with two entries has a past. -/
theorem lived_stocked (kind : Kind) : Lived (stocked kind) := by
  have hnew : Lived { queue := newborn kind, store := {} } := by
    rw [← withHooks_newborn kind]
    exact .made (create_newborn kind) {} {} []
  exact hnew.after [.asked .start, .asked (.put [.blank 1 true, .blank 2 false] false)]

/-- A cached queue that is active, and the same queue destroyed while its rows could not be
deleted. -/
theorem guarded_forsaken :
    (Managed.phase (stocked .cached).queue = .active ∧ Guarded (stocked .cached)) ∧
      Managed.phase (forsaken .cached).queue = .destroyed ∧
      ((forsaken .cached).store.rows.length = 2) ∧ Guarded (forsaken .cached) := by
  have hlived : Lived (forsaken .cached) := (lived_stocked .cached).after _
  refine ⟨⟨by decide +kernel, guarded (lived_stocked .cached)⟩, by decide +kernel,
    by decide +kernel, guarded hlived⟩

end Queue

end Spillway
