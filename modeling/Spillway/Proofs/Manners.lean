import Spillway.Proofs.Calls
import Spillway.Proofs.Locality
import Spillway.Queue.Desk

/-!
# Manners

Work of a queue is put together from little: what the queue does by itself, and errands to the
store. How a queue may change, which part of the table it may ask, and which faults its work may end
in are its manner. Work in that manner is known by its parts. Whatever each part keeps, the whole
keeps, and while nothing in the life of the queue stops it, the whole fails only with a fault of its
manner.
-/

namespace Spillway

namespace Action

variable {σ τ α β : Type}

/-- Actions that do the same are the same. -/
theorem ext {act act' : Action σ α} (h : ∀ s, act.on s = act'.on s) : act = act' := funext h

/-- To make something else of the result of an action does not change what it does. -/
theorem on_returning (act : Action σ α) (view : α → β) (s : σ) :
    (do return view (← act) : Action σ β).on s = ((act.on s).1.map view, (act.on s).2) := by
  rw [on_bind]
  rcases act.on s with ⟨_ | _, _⟩ <;> rfl

/-- One thing after the other, done to a part of the state, is done to the part one after the
other. -/
theorem focus_bind {view : σ → τ} {back : τ → σ → σ} (hview : ∀ t s, view (back t s) = t)
    (hback : ∀ t t' s, back t' (back t s) = back t' s) (act : Action τ α)
    (next : α → Action τ β) : (act >>= next).focus view back =
      act.focus view back >>= fun a => (next a).focus view back := by
  refine ext fun s => ?_
  rw [on_focus, on_bind, on_bind, on_focus]
  rcases act.on (view s) with ⟨_ | a, t⟩
  · rfl
  · simp only [on_focus, hview, hback]

end Action

/-- What the work of a queue may want of the store: to count an event, to make the table, or to run
a statement that keeps to one part of it. -/
inductive Store.Errand (part : String) : {α : Type} → Action Store α → Prop
  /-- Losses and reconnections are not for queues to count. -/
  | count {change : Totals → Totals}
      (h : ∀ t, (change t).lost = t.lost ∧ (change t).reconnected = t.reconnected) :
      Errand part (modify fun s => { s with totals := change s.totals })
  | create : Errand part createTable
  | call {α : Type} (task : Task) {statement : Statement α} (h : Statement.Local part statement) :
      Errand part (call task statement)

/-- How the work of a queue is to be done. -/
structure Manner (Q : Type) where
  /-- Name of the part of the table that may be asked. -/
  part : Q → String
  /-- Whether the store is used at all. -/
  asks : Prop
  /-- How the queue may change. -/
  turns : Q → Q → Prop
  /-- It may stay as it is. -/
  stays : ∀ q, turns q q
  /-- Nothing in the life of the queue stops it. -/
  awake : Q → Prop
  /-- The faults that work may end in as long as nothing stops the queue. -/
  fits : Fault → Prop

/-- Work in a manner. -/
inductive Desk.Proper {Q : Type} (m : Manner Q) : {α : Type} → Action (Desk Q) α → Prop
  /-- The queue does it by itself: the store stays as it is and has no say in it. -/
  | own {α : Type} {act : Action (Desk Q) α} (result : Q → Except Fault α) (next : Q → Q)
      (said : Q → List Call)
      (ho : ∀ d, act.on d = (result d.queue,
        { queue := next d.queue, store := d.store, calls := d.calls ++ said d.queue }))
      (ht : ∀ q, m.turns q (next q))
      (hf : ∀ q, m.awake q → ∀ fault, result q = .error fault → m.fits fault) : Proper m act
  /-- It is an errand to the store. -/
  | errand {α : Type} {act : Action (Desk Q) α} (ha : m.asks) (work : String → Action Store α)
      (hw : ∀ part, Store.Errand part (work part))
      (ho : ∀ d, act.on d = (((work (m.part d.queue)).on d.store).1,
        { d with store := ((work (m.part d.queue)).on d.store).2 })) : Proper m act
  /-- One thing is done after the other. -/
  | bind {α β : Type} {act : Action (Desk Q) α} {next : α → Action (Desk Q) β} (h : Proper m act)
      (hn : ∀ a, Proper m (next a)) : Proper m (act >>= next)
  /-- Something is tried, and what is done then depends on what came of it. -/
  | handle {α β : Type} {act : Action (Desk Q) α} {next : Except Fault α → Action (Desk Q) β}
      (h : Proper m act) (hok : ∀ a, Proper m (next (.ok a)))
      (herror : ∀ fault, m.fits fault → Proper m (next (.error fault))) :
      Proper m (act.attempt >>= next)

namespace Store

variable {α β : Type} {s : Store}

/-- What fails for want of the database says that it is not available. -/
theorem Missed.kind {s' : Store} {fault : Fault} (h : s.Missed fault s') :
    fault.kind = .resourceUnavailable := of_decide_eq_true h.retryable

/-- A call fails only for what the database refused, or for want of the database. -/
theorem kind_of_run {task : Task}
    {work : Option (List Row) → Except Refusal (α × Option (List Row))} {fault : Fault}
    (h : ((run task work).on s).1 = .error fault) : fault.kind ≠ .shutdown := by
  rcases run_cases task work s with ⟨link, -, ho⟩ | ⟨fault', s', ho, hm⟩
  · rw [ho] at h
    split at h
    · cases h
    · simp only [refuse, Action.on_of] at h
      split at h
      · cases h
        intro hk
        cases hk
      · cases h
        intro hk
        cases hk
  · rw [ho] at h
    cases h
    rw [hm.kind]
    decide

/-- No errand fails because a queue is not active. -/
theorem Errand.kind {part : String} {work : Action Store α} (h : Errand part work) {fault : Fault}
    (hf : (work.on s).1 = .error fault) : fault.kind ≠ .shutdown := by
  cases h with
  | count => cases hf
  | create =>
    simp only [createTable, Action.on_bind, Action.on_get] at hf
    exact kind_of_run hf
  | call task h =>
    unfold Store.call at hf
    exact kind_of_run hf

end Store

namespace Desk

variable {Q α β : Type} {m m' : Manner Q} {act : Action (Desk Q) α}

/-! ## What is known of work by its parts -/

/-- What is kept by all that the queue does by itself and by all errands is kept by the work. -/
theorem Proper.keeps (h : Proper m act) (hfits : ∀ fault, m.fits fault)
    (kept : Desk Q → Desk Q → Prop)
    (trans : ∀ {d d' d''}, kept d d' → kept d' d'' → kept d d'')
    (own : ∀ (d : Desk Q) {queue : Q} (calls : List Call), m.turns d.queue queue →
      kept d { queue, store := d.store, calls := d.calls ++ calls })
    (errand : ∀ (d : Desk Q) {β : Type} {work : Action Store β},
      Store.Errand (m.part d.queue) work → kept d { d with store := (work.on d.store).2 })
    (d : Desk Q) : kept d (act.on d).2 := by
  induction h generalizing d with
  | own result next said ho ht hf =>
    rw [ho]
    exact own d (said d.queue) (ht d.queue)
  | errand ha work hw ho =>
    rw [ho]
    exact errand d (hw _)
  | @bind α β act next h hn ih ihn =>
    have hfirst := ih d
    rw [Action.on_bind]
    rcases ho : act.on d with ⟨_ | a, d'⟩
    · rwa [ho] at hfirst
    · rw [ho] at hfirst
      exact trans hfirst (ihn a d')
  | @handle α β act next h hok herror ih ihok iherror =>
    have hfirst := ih d
    rcases ho : act.on d with ⟨fault | a, d'⟩
    · rw [ho] at hfirst
      rw [Action.on_bind_of_ok (Action.on_attempt_of ho)]
      exact trans hfirst (iherror fault (hfits fault) d')
    · rw [ho] at hfirst
      rw [Action.on_bind_of_ok (Action.on_attempt_of ho)]
      exact trans hfirst (ihok a d')

/-- As long as nothing in its life stops a queue, its work ends in no other fault than fits. -/
theorem Proper.fault (h : Proper m act) (hturns : ∀ {q q'}, m.awake q → m.turns q q' → m.awake q')
    (hfits : ∀ fault : Fault, fault.kind ≠ .shutdown → m.fits fault) {d : Desk Q}
    (hw : m.awake d.queue) : m.awake (act.on d).2.queue ∧
      ∀ fault, (act.on d).1 = .error fault → m.fits fault := by
  induction h generalizing d with
  | own result next said ho ht hf =>
    rw [ho]
    exact ⟨hturns hw (ht d.queue), hf d.queue hw⟩
  | errand ha work hwork ho =>
    rw [ho]
    exact ⟨hw, fun fault hfault => hfits fault ((hwork _).kind hfault)⟩
  | @bind α β act next h hn ih ihn =>
    have hfirst := ih hw
    rw [Action.on_bind]
    rcases ho : act.on d with ⟨fault | a, d'⟩
    · rw [ho] at hfirst
      refine ⟨hfirst.1, fun fault' hfault => ?_⟩
      cases hfault
      exact hfirst.2 fault rfl
    · rw [ho] at hfirst
      exact ihn a hfirst.1
  | @handle α β act next h hok herror ih ihok iherror =>
    have hfirst := ih hw
    rcases ho : act.on d with ⟨fault | a, d'⟩
    · rw [ho] at hfirst
      rw [Action.on_bind_of_ok (Action.on_attempt_of ho)]
      exact iherror fault (hfirst.2 fault rfl) hfirst.1
    · rw [ho] at hfirst
      rw [Action.on_bind_of_ok (Action.on_attempt_of ho)]
      exact ihok a hfirst.1

/-- Work in a manner is work in a looser one. -/
theorem Proper.mono (h : Proper m act) (hpart : ∀ q, m'.part q = m.part q)
    (hasks : m.asks → m'.asks) (hturns : ∀ {q q'}, m.turns q q' → m'.turns q q')
    (hawake : ∀ {q}, m'.awake q → m.awake q)
    (hfits : ∀ {fault}, m.fits fault ↔ m'.fits fault) : Proper m' act := by
  induction h with
  | own result next said ho ht hf =>
    refine .own result next said ho (fun q => hturns (ht q)) fun q hq fault hr => ?_
    exact hfits.1 (hf q (hawake hq) fault hr)
  | errand ha work hw ho =>
    refine .errand (hasks ha) work hw fun d => ?_
    rw [hpart]
    exact ho d
  | bind h hn ih ihn => exact .bind ih ihn
  | handle h hok herror ih ihok iherror =>
    exact .handle ih ihok fun fault hfault => iherror fault (hfits.2 hfault)

/-! ## Queues that are made of others -/

/-- One of the queues that a queue is made of. -/
structure Half (Q P : Type) where
  /-- The half as it is. -/
  view : Q → P
  /-- The queue with another one in its place. -/
  back : P → Q → Q
  /-- What was put in place is there. -/
  view_back : ∀ p q, view (back p q) = p
  /-- What was in place before is forgotten. -/
  back_back : ∀ p p' q, back p' (back p q) = back p' q
  /-- To put in place what is there changes nothing. -/
  back_view : ∀ q, back (view q) q = q

section

variable {P : Type} (half : Half Q P)

/-- Work of a half, done for the whole. -/
def Half.work (act : Action (Desk P) α) : Action (Desk Q) α :=
  act.focus (fun d => { queue := half.view d.queue, store := d.store, calls := d.calls })
    fun p d => { queue := half.back p.queue d.queue, store := p.store, calls := p.calls }

/-- What a half does one after the other is done so for the whole. -/
theorem Half.work_bind (act : Action (Desk P) α) (next : α → Action (Desk P) β) :
    half.work (act >>= next) = half.work act >>= fun a => half.work (next a) := by
  apply Action.focus_bind
  · intro p d
    dsimp only
    rw [half.view_back]
  · intro p p' d
    dsimp only
    rw [half.back_back]

/-- Work of a half is work of the whole, in a manner that allows the whole what the half may. -/
theorem Proper.work {m : Manner P} {m' : Manner Q} {act : Action (Desk P) α} (h : Proper m act)
    (hasks : m.asks → m'.asks ∧ ∀ q, m'.part q = m.part (half.view q))
    (hturns : ∀ {q p}, m.turns (half.view q) p → m'.turns q (half.back p q))
    (hawake : ∀ {q}, m'.awake q → m.awake (half.view q))
    (hfits : ∀ {fault}, m.fits fault ↔ m'.fits fault) : Proper m' (half.work act) := by
  induction h with
  | own result next said ho ht hf =>
    refine .own (fun q => result (half.view q)) (fun q => half.back (next (half.view q)) q)
      (fun q => said (half.view q)) (fun d => ?_) (fun q => hturns (ht _)) fun q hq fault hr => ?_
    · rw [Half.work, Action.on_focus, ho]
    · exact hfits.1 (hf _ (hawake hq) fault hr)
  | errand ha work hw ho =>
    refine .errand (hasks ha).1 work hw fun d => ?_
    rw [Half.work, Action.on_focus, ho, (hasks ha).2]
    dsimp only
    rw [half.back_view]
  | bind h hn ih ihn =>
    rw [half.work_bind]
    exact .bind ih ihn
  | handle h hok herror ih ihok iherror =>
    rw [half.work_bind]
    exact .handle ih ihok fun fault hfault => iherror fault (hfits.2 hfault)

end

/-! ## What all kinds of queue do -/

/-- A desk stays as it is where nobody is called. -/
theorem called_nothing (d : Desk Q) : d = { d with calls := d.calls ++ [] } := by
  rw [List.append_nil]

/-- To give a result is proper in every manner. -/
theorem proper_pure (a : α) : Proper m (pure a) :=
  .own (fun _ => .ok a) id (fun _ => []) (fun d => congrArg _ (called_nothing d)) m.stays nofun

/-- So is to fail with a fault of the manner. -/
theorem proper_throw {fault : Fault} (hf : m.fits fault) :
    Proper m (throw fault : Action (Desk Q) α) := by
  refine .own (fun _ => .error fault) id (fun _ => []) (fun d => congrArg _ (called_nothing d))
    m.stays fun q _ fault' h => ?_
  cases h
  exact hf

/-- So is to look at the queue. -/
theorem proper_theQueue : Proper m theQueue :=
  .own .ok id (fun _ => []) (fun d => congrArg _ (called_nothing d)) m.stays nofun

/-- So is a change that the queue may make. -/
theorem proper_changeQueue {change : Q → Q} (h : ∀ q, m.turns q (change q)) :
    Proper m (changeQueue change) :=
  .own (fun _ => .ok ()) change (fun _ => []) (fun _ => congrArg _ (called_nothing _)) h nofun

/-- So are calls. -/
theorem proper_record (calls : List Call) : Proper m (record calls) :=
  .own (fun _ => .ok ()) id (fun _ => calls) (fun _ => rfl) m.stays nofun

/-- A check of the queue alone. -/
theorem proper_check (test : Q → Except Fault Unit)
    (hf : ∀ q, m.awake q → ∀ fault, test q = .error fault → m.fits fault) :
    Proper m (do Action.require (test (← theQueue))) :=
  .own test id (fun _ => []) (fun d => congrArg _ (called_nothing d)) m.stays hf

/-- Counting an event is an errand, which no fault comes of. -/
theorem proper_count (ha : m.asks) {change : Totals → Totals}
    (h : ∀ t, (change t).lost = t.lost ∧ (change t).reconnected = t.reconnected) :
    Proper m (count change) :=
  .errand ha (fun _ => modify fun s => { s with totals := change s.totals })
    (fun _ => .count h) fun _ => rfl

variable [Managed Q]

/-- So is to tell the watchers. -/
theorem proper_announce (closed : Bool) : Proper m (announce closed) :=
  .bind proper_theQueue fun _ => proper_record _

/-! ## Work that leaves a queue where it is in its life -/

/-- Two states of a queue that differ in what it holds only. -/
structure SameFrame (q q' : Q) : Prop where
  /-- The name. -/
  storageId : Managed.storageId q' = Managed.storageId q
  /-- The bounds. -/
  bounds : Managed.bounds q' = Managed.bounds q
  /-- Where it is in its life. -/
  phase : Managed.phase q' = Managed.phase q
  /-- What it calls. -/
  hooks : Managed.hooks q' = Managed.hooks q

/-- Two states of a queue that differ in what it holds and in its phase only. -/
structure SameOutline (q q' : Q) : Prop where
  /-- The name. -/
  storageId : Managed.storageId q' = Managed.storageId q
  /-- The bounds. -/
  bounds : Managed.bounds q' = Managed.bounds q
  /-- What it calls. -/
  hooks : Managed.hooks q' = Managed.hooks q

/-- A queue has its own frame. -/
theorem SameFrame.refl (q : Q) : SameFrame q q := ⟨rfl, rfl, rfl, rfl⟩

/-- The frame includes the outline. -/
theorem SameFrame.outline {q q' : Q} (h : SameFrame q q') : SameOutline q q' :=
  ⟨h.storageId, h.bounds, h.hooks⟩

/-- A queue has its own outline. -/
theorem SameOutline.refl (q : Q) : SameOutline q q := ⟨rfl, rfl, rfl⟩

/-- A manner in which an active queue can be asked for contents. -/
structure Attentive (m : Manner Q) : Prop where
  /-- The store is used. -/
  asks : m.asks
  /-- A queue that nothing stops is active. -/
  active : ∀ {q}, m.awake q → Managed.phase q = .active
  /-- Any fault will do but that the queue is not active. -/
  fits : ∀ {fault : Fault}, fault.kind ≠ .shutdown → m.fits fault

/-- To ask whether a queue is active fails only where something has stopped it. -/
theorem proper_requireActive (ha : ∀ {q}, m.awake q → Managed.phase q = .active) :
    Proper m requireActive := by
  refine proper_check _ fun q hq fault hr => ?_
  rw [ha hq] at hr
  cases hr

/-- Proper work is so at an active queue. -/
theorem Proper.reading (h : Proper m act) (ha : ∀ {q}, m.awake q → Managed.phase q = .active) :
    Proper m (Desk.reading act) :=
  .bind (proper_requireActive ha) fun _ => h

/-- So is proper work that the watchers are told of. -/
theorem Proper.changing (h : Proper m act) (ha : ∀ {q}, m.awake q → Managed.phase q = .active) :
    Proper m (Desk.changing act) := by
  refine .bind (proper_requireActive ha) fun _ => ?_
  exact .bind h fun a => .bind (proper_announce false) fun _ => proper_pure a

/-- A full queue refuses with a fault of the manner, and counts that. -/
theorem proper_requireRoom (hm : Attentive m) : Proper m requireRoom := by
  refine .bind proper_theQueue fun q => ?_
  split
  · exact proper_pure ()
  · refine .bind (proper_count hm.asks fun _ => ⟨rfl, rfl⟩) fun _ => ?_
    exact proper_throw (hm.fits nofun)

/-- Proper work is so between the calls of the put hook. -/
theorem Proper.framingPut {store : Action (Desk Q) Bool} (h : Proper m store) (hm : Attentive m)
    (batch : List Entry) (bypass : Bool) : Proper m (Desk.framingPut batch bypass store) := by
  have hrest : ∀ (hooks : Hooks) (answer : List Call × Bool), Proper m (do
      record answer.1
      if answer.2 then
        if ← store then record (hooks.afterPut batch bypass)) := by
    intro hooks ⟨calls, proceed⟩
    refine .bind (proper_record calls) fun _ => ?_
    cases proceed with
    | false => exact proper_pure ()
    | true =>
      refine .bind h fun stored => ?_
      cases stored with
      | false => exact proper_pure ()
      | true => exact proper_record _
  refine .bind (proper_requireActive hm.active) fun _ => ?_
  exact .bind proper_theQueue fun q => hrest (Managed.hooks q) _

/-- The manner of a queue that is asked for contents: it changes only what it holds. If it is to be
`strict`, an active queue never fails for not being active. -/
def serving (part : Q → String) (asks strict : Prop) : Manner Q where
  part
  asks
  turns := SameFrame
  stays := SameFrame.refl
  awake q := Managed.phase q = .active
  fits fault := strict → fault.kind ≠ .shutdown

/-- The manner of a queue that is opened, closed or destroyed. -/
def living (part : Q → String) (asks : Prop) : Manner Q where
  part
  asks
  turns := SameOutline
  stays := SameOutline.refl
  awake _ := False
  fits _ := True

/-- A queue that is asked for contents is attentive, if it may use the store. -/
theorem attentive_serving (part : Q → String) (strict : Prop) :
    Attentive (serving part True strict) :=
  ⟨trivial, id, fun h _ => h⟩

/-- What a queue may do in being asked for contents it may also do otherwise. -/
theorem Proper.living {part : Q → String} {asks : Prop} (h : Proper (serving part asks False) act) :
    Proper (Desk.living part asks) act :=
  h.mono (fun _ => rfl) id SameFrame.outline False.elim ⟨fun _ => trivial, fun _ => False.elim⟩

end Desk

end Spillway
