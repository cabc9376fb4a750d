import Spillway.Proofs.Manners
import Spillway.Proofs.Storing

/-!
# Telling size watchers

A queue tells its size watchers its totals by calling them. Work is told if it leaves every watcher
with the totals that the queue has then: either the last call was about these, or nobody was called
and they are what they were. What is told one after the other is told.
-/

namespace Spillway

open Desk

variable {α β : Type} {w : String}

/-! ## What a watcher hears -/

/-- The totals that a call tells a size watcher. -/
def Call.tells? (w : String) : Call → Option Tally
  | .sizeChanged watcher _ tally _ => if watcher = w then some tally else none
  | .beforePut .. | .afterPut .. => none

/-- The totals that a size watcher was told last. -/
def told (w : String) (calls : List Call) : Option Tally :=
  (calls.filterMap (Call.tells? w)).getLast?

/-- What was told later counts. -/
theorem told_append (calls new : List Call) :
    told w (calls ++ new) = (told w new).or (told w calls) := by
  rw [told, List.filterMap_append, List.getLast?_append]
  rfl

/-- The put hook is told nothing of totals. -/
theorem told_of_ofPutHook {calls : List Call} (h : ∀ call ∈ calls, call.ofPutHook = true) :
    told w calls = none := by
  have hnone : calls.filterMap (Call.tells? w) = [] := by
    rw [List.filterMap_eq_nil_iff]
    intro call hcall
    cases call with
    | beforePut | afterPut => rfl
    | sizeChanged => cases h _ hcall
  rw [told, hnone]
  rfl

namespace Desk

variable {Q : Type} {d d' d'' : Desk Q} {act : Action (Desk Q) α}

/-! ### Idle work -/

/-- Work that leaves the queue as it is and calls nobody. -/
def Idle (act : Action (Desk Q) α) : Prop :=
  ∀ d : Desk Q, (act.on d).2.queue = d.queue ∧ (act.on d).2.calls = d.calls

/-- To give a result is idle. -/
theorem idle_pure (a : α) : Idle (pure a : Action (Desk Q) α) := fun _ => ⟨rfl, rfl⟩

/-- So is to fail. -/
theorem idle_throw (fault : Fault) : Idle (throw fault : Action (Desk Q) α) := fun _ => ⟨rfl, rfl⟩

/-- So is to look at the queue. -/
theorem idle_theQueue : Idle (theQueue : Action (Desk Q) Q) := fun _ => ⟨rfl, rfl⟩

/-- What is done to the store leaves the queue. -/
theorem idle_onStore (work : Action Store α) : Idle (onStore work : Action (Desk Q) α) :=
  fun _ => ⟨rfl, rfl⟩

/-- So does counting an event. -/
theorem idle_count (change : Totals → Totals) : Idle (count change : Action (Desk Q) Unit) :=
  idle_onStore _

/-- What is idle is so when it is only tried. -/
theorem Idle.attempt (h : Idle act) : Idle act.attempt := h

/-- One idle thing after the other is idle. -/
theorem Idle.bind {next : α → Action (Desk Q) β} (h : Idle act) (hn : ∀ a, Idle (next a)) :
    Idle (act >>= next) := by
  intro d
  have hfirst := h d
  rw [Action.on_bind]
  rcases ho : act.on d with ⟨fault | a, d'⟩
  · rwa [ho] at hfirst
  · rw [ho] at hfirst
    exact ⟨(hn a d').1.trans hfirst.1, (hn a d').2.trans hfirst.2⟩

/-- What a half does without changing it or calling anybody is idle for the whole. -/
theorem Idle.work {P : Type} {act : Action (Desk P) α} (half : Half Q P) (h : Idle act) :
    Idle (half.work act) := by
  intro d
  obtain ⟨hq, hc⟩ := h ⟨half.view d.queue, d.store, d.calls⟩
  refine ⟨?_, hc⟩
  change half.back (act.on ⟨half.view d.queue, d.store, d.calls⟩).2.queue d.queue = d.queue
  rw [hq, half.back_view]

/-! ### Work that calls nobody -/

/-- Work that calls nobody as long as the queue is of some sort, and leaves it so. -/
structure Hushed (quiet : Q → Prop) (act : Action (Desk Q) α) : Prop where
  calls : ∀ d : Desk Q, quiet d.queue → (act.on d).2.calls = d.calls
  stays : ∀ d : Desk Q, quiet d.queue → quiet (act.on d).2.queue

variable {quiet : Q → Prop}

/-- Idle work leaves a queue of whatever sort it is. -/
theorem Idle.hushed (h : Idle act) : Hushed quiet act :=
  ⟨fun d _ => (h d).2, fun d hq => (h d).1.symm ▸ hq⟩

/-- Work that calls nobody does not do so when it is only tried. -/
theorem Hushed.attempt (h : Hushed quiet act) : Hushed quiet act.attempt := ⟨h.calls, h.stays⟩

/-- A change of the queue calls nobody; it must leave it of its sort. -/
theorem hushed_changeQueue {change : Q → Q} (h : ∀ q, quiet q → quiet (change q)) :
    Hushed quiet (changeQueue change) :=
  ⟨fun _ _ => rfl, fun d hq => h d.queue hq⟩

/-- The sort of the queue is handed from one thing to the next. -/
theorem Hushed.bind {next : α → Action (Desk Q) β} (h : Hushed quiet act)
    (hn : ∀ a, Hushed quiet (next a)) : Hushed quiet (act >>= next) := by
  have hboth : ∀ d : Desk Q, quiet d.queue →
      ((act >>= next).on d).2.calls = d.calls ∧ quiet ((act >>= next).on d).2.queue := by
    intro d hq
    have hc := h.calls d hq
    have hs := h.stays d hq
    rw [Action.on_bind]
    rcases ho : act.on d with ⟨fault | a, d'⟩
    · rw [ho] at hc hs
      exact ⟨hc, hs⟩
    · rw [ho] at hc hs
      exact ⟨((hn a).calls d' hs).trans hc, (hn a).stays d' hs⟩
  exact ⟨fun d hq => (hboth d hq).1, fun d hq => (hboth d hq).2⟩

/-- What a half does without calling anybody calls nobody for the whole. -/
theorem Hushed.work {P : Type} {hushed : P → Prop} {act : Action (Desk P) α} (half : Half Q P)
    (h : Hushed hushed act) (hview : ∀ q, quiet q → hushed (half.view q))
    (hback : ∀ p q, hushed p → quiet q → quiet (half.back p q)) : Hushed quiet (half.work act) :=
  ⟨fun _ hq => h.calls _ (hview _ hq), fun _ hq => hback _ _ (h.stays _ (hview _ hq)) hq⟩

variable [Managed Q]

/-! ### Announcements -/

/-- An announcement tells every watcher the totals. -/
theorem told_announcement {q : Q} (hw : w ∈ (Managed.hooks q).watchers) (closed : Bool) :
    told w (announcement q closed) = some (Managed.tally q) := by
  have hall : ∀ t ∈ (announcement q closed).filterMap (Call.tells? w), t = Managed.tally q := by
    intro t ht
    obtain ⟨call, hcall, ht⟩ := List.mem_filterMap.1 ht
    obtain ⟨watcher, -, rfl⟩ := List.mem_map.1 hcall
    have ht : (if watcher = w then some (Managed.tally q) else none) = some t := ht
    split at ht
    · exact (Option.some.inj ht).symm
    · cases ht
  have hself : Managed.tally q ∈ (announcement q closed).filterMap (Call.tells? w) :=
    List.mem_filterMap.2 ⟨_, List.mem_map.2 ⟨w, hw, rfl⟩, if_pos rfl⟩
  rw [told, List.getLast?_eq_some_getLast (List.ne_nil_of_mem hself)]
  exact congrArg some (hall _ (List.getLast_mem _))

/-- Work goes on: the hooks are the same, and no call is taken back. -/
structure Continues (d d' : Desk Q) : Prop where
  hooks : Managed.hooks d'.queue = Managed.hooks d.queue
  calls : ∃ new, d'.calls = d.calls ++ new

/-- A size watcher was told the totals that the queue has now. -/
structure Informs (w : String) (d d' : Desk Q) : Prop where
  hooks : Managed.hooks d'.queue = Managed.hooks d.queue
  news : ∃ new, d'.calls = d.calls ++ new ∧ told w new = some (Managed.tally d'.queue)

/-- A size watcher was told the totals that the queue has now, or was told nothing and the totals
are what they were. -/
structure Tells (w : String) (d d' : Desk Q) : Prop where
  hooks : Managed.hooks d'.queue = Managed.hooks d.queue
  news : ∃ new, d'.calls = d.calls ++ new ∧
    (told w new).getD (Managed.tally d.queue) = Managed.tally d'.queue

/-- Where nothing happens work goes on. -/
theorem Continues.refl (d : Desk Q) : Continues d d := ⟨rfl, [], (List.append_nil _).symm⟩

/-- What is called later stands after what was called before. -/
theorem Continues.trans (h : Continues d d') (h' : Continues d' d'') : Continues d d'' := by
  obtain ⟨new, ho⟩ := h.calls
  obtain ⟨new', ho'⟩ := h'.calls
  exact ⟨h'.hooks.trans h.hooks, new ++ new', by rw [ho', ho, List.append_assoc]⟩

/-- A watcher stays one. -/
theorem Continues.watchers (h : Continues d d') (hw : w ∈ (Managed.hooks d.queue).watchers) :
    w ∈ (Managed.hooks d'.queue).watchers := by
  rw [h.hooks]
  exact hw

/-- Telling the watchers after anything else tells them the totals. -/
theorem Continues.announced (h : Continues d d') (hw : w ∈ (Managed.hooks d.queue).watchers)
    (closed : Bool) :
    Informs w d { d' with calls := d'.calls ++ announcement d'.queue closed } := by
  obtain ⟨new, ho⟩ := h.calls
  refine ⟨h.hooks, new ++ announcement d'.queue closed, ?_, ?_⟩
  · rw [ho, List.append_assoc]
  · rw [told_append, told_announcement (h.watchers hw)]
    rfl

/-- A watcher that was told the totals knows them. -/
theorem Informs.tells (h : Informs w d d') : Tells w d d' := by
  obtain ⟨new, ho, ht⟩ := h.news
  exact ⟨h.hooks, new, ho, by rw [ht]; rfl⟩

/-- Whatever goes before, a watcher that is told the totals knows them. -/
theorem Continues.informs (h : Continues d d') (h' : Informs w d' d'') : Informs w d d'' := by
  obtain ⟨new, ho⟩ := h.calls
  obtain ⟨new', ho', ht⟩ := h'.news
  refine ⟨h'.hooks.trans h.hooks, new ++ new', by rw [ho', ho, List.append_assoc], ?_⟩
  rw [told_append, ht]
  rfl

/-- Nothing was told and nothing is to be told. -/
theorem tells_of_calls (hh : Managed.hooks d'.queue = Managed.hooks d.queue)
    (hc : d'.calls = d.calls) (ht : Managed.tally d'.queue = Managed.tally d.queue) :
    Tells w d d' :=
  ⟨hh, [], by rw [hc, List.append_nil], ht.symm⟩

/-- Where nothing happens nothing is to be told. -/
theorem Tells.refl (d : Desk Q) : Tells w d d := tells_of_calls rfl rfl rfl

/-- What is told one after the other is told: a watcher that was told nothing later knows what it
was told before, and that is still so. -/
theorem Tells.trans (h : Tells w d d') (h' : Tells w d' d'') : Tells w d d'' := by
  obtain ⟨new, ho, ht⟩ := h.news
  obtain ⟨new', ho', ht'⟩ := h'.news
  refine ⟨h'.hooks.trans h.hooks, new ++ new', by rw [ho', ho, List.append_assoc], ?_⟩
  rw [told_append, ← ht', ← ht]
  cases told w new' <;> rfl

/-- Work in a manner that keeps the hooks goes on. -/
theorem Proper.continues {m : Manner Q} (h : Proper m act) (hfits : ∀ fault, m.fits fault)
    (hturns : ∀ {q q'}, m.turns q q' → Managed.hooks q' = Managed.hooks q) (d : Desk Q) :
    Continues d (act.on d).2 :=
  h.keeps hfits Continues Continues.trans (fun _ _ calls hq => ⟨hturns hq, calls, rfl⟩)
    (fun _ _ _ _ => ⟨rfl, [], (List.append_nil _).symm⟩) d

/-! ### Work that is told -/

/-- Whatever work does to the totals is told. -/
def Telling (w : String) (act : Action (Desk Q) α) : Prop :=
  ∀ d : Desk Q, w ∈ (Managed.hooks d.queue).watchers → Tells w d (act.on d).2

/-- Work that calls nobody, keeps the hooks, and leaves the queue as it is unless it succeeds. -/
structure Measured (act : Action (Desk Q) α) : Prop where
  calls : ∀ d : Desk Q, (act.on d).2.calls = d.calls
  hooks : ∀ d : Desk Q, Managed.hooks (act.on d).2.queue = Managed.hooks d.queue
  failed : ∀ (d : Desk Q) (fault : Fault), (act.on d).1 = .error fault →
    (act.on d).2.queue = d.queue

/-- Idle work has nothing to tell. -/
theorem Idle.telling (h : Idle act) : Telling w act := fun d _ =>
  tells_of_calls (congrArg Managed.hooks (h d).1) (h d).2 (congrArg Managed.tally (h d).1)

/-- Idle work is measured. -/
theorem Idle.measured (h : Idle act) : Measured act :=
  ⟨fun d => (h d).2, fun d => congrArg Managed.hooks (h d).1, fun d _ _ => (h d).1⟩

/-- To ask whether the queue is active is idle. -/
theorem idle_requireActive : Idle (requireActive : Action (Desk Q) Unit) := fun _ => ⟨rfl, rfl⟩

/-- So is to ask whether it is destroyed. -/
theorem idle_requireAlive : Idle (requireAlive : Action (Desk Q) Unit) := fun _ => ⟨rfl, rfl⟩

/-- So is to ask whether it is full, although a refusal is counted. -/
theorem idle_requireRoom : Idle (requireRoom : Action (Desk Q) Unit) := by
  refine idle_theQueue.bind fun q => ?_
  split
  · exact idle_pure ()
  · exact (idle_count _).bind fun _ => idle_throw _

/-- What goes before measured work must not change the queue. -/
theorem Idle.bind_measured {next : α → Action (Desk Q) β} (h : Idle act)
    (hn : ∀ a, Measured (next a)) : Measured (act >>= next) := by
  have hcases : ∀ d, (∃ fault d', (act >>= next).on d = (.error fault, d') ∧
      d'.queue = d.queue ∧ d'.calls = d.calls) ∨
      ∃ a d', (act >>= next).on d = (next a).on d' ∧ d'.queue = d.queue ∧ d'.calls = d.calls := by
    intro d
    have hfirst := h d
    rcases ho : act.on d with ⟨fault | a, d'⟩
    · rw [ho] at hfirst
      exact .inl ⟨fault, d', Action.on_bind_of_error ho, hfirst⟩
    · rw [ho] at hfirst
      exact .inr ⟨a, d', Action.on_bind_of_ok ho, hfirst⟩
  refine ⟨fun d => ?_, fun d => ?_, fun d fault hf => ?_⟩
  · rcases hcases d with ⟨fault, d', ho, -, hc⟩ | ⟨a, d', ho, -, hc⟩
    · rw [ho]
      exact hc
    · rw [ho]
      exact ((hn a).calls d').trans hc
  · rcases hcases d with ⟨fault, d', ho, hq, -⟩ | ⟨a, d', ho, hq, -⟩
    · rw [ho]
      exact congrArg Managed.hooks hq
    · rw [ho]
      exact ((hn a).hooks d').trans (congrArg Managed.hooks hq)
  · rcases hcases d with ⟨fault', d', ho, hq, -⟩ | ⟨a, d', ho, hq, -⟩
    · rw [ho]
      exact hq
    · rw [ho] at hf ⊢
      exact ((hn a).failed d' fault hf).trans hq

/-- A change of the queue that keeps its hooks is measured: it cannot fail. -/
theorem measured_changeQueue {change : Q → Q}
    (h : ∀ q, Managed.hooks (change q) = Managed.hooks q) : Measured (changeQueue change) :=
  ⟨fun _ => rfl, fun d => h d.queue, fun _ _ => nofun⟩

/-- So is measured work of which something else is reported. -/
theorem Measured.returning (h : Measured act) (view : α → β) :
    Measured (do return view (← act)) := by
  refine ⟨fun d => ?_, fun d => ?_, fun d fault hf => ?_⟩
  · rw [Action.on_returning]
    exact h.calls d
  · rw [Action.on_returning]
    exact h.hooks d
  · rw [Action.on_returning] at hf ⊢
    refine h.failed d fault ?_
    cases ho : (act.on d).1 with
    | error fault' =>
      rw [ho] at hf
      cases hf
      rfl
    | ok a =>
      rw [ho] at hf
      cases hf

/-- What is told one after the other is told. -/
theorem Telling.bind {next : α → Action (Desk Q) β} (h : Telling w act)
    (hn : ∀ a, Telling w (next a)) : Telling w (act >>= next) := by
  intro d hw
  have hfirst := h d hw
  rw [Action.on_bind]
  rcases ho : act.on d with ⟨fault | a, d'⟩
  · rwa [ho] at hfirst
  · rw [ho] at hfirst
    exact hfirst.trans (hn a d' (hfirst.hooks ▸ hw))

/-- To give a result has nothing to tell. -/
theorem telling_pure (a : α) : Telling w (pure a : Action (Desk Q) α) := (idle_pure a).telling

/-- Calls of the put hook are no news about totals. -/
theorem telling_record {calls : List Call} (h : ∀ call ∈ calls, call.ofPutHook = true) :
    Telling w (record calls : Action (Desk Q) Unit) := fun _ _ =>
  ⟨rfl, calls, rfl, by rw [told_of_ofPutHook h]; rfl⟩

/-- A queue that changes for good, but for its hooks, tells its watchers what it counts then. -/
theorem telling_ending {change : Q → Q}
    (h : ∀ q, Managed.hooks (change q) = Managed.hooks q) :
    Telling w (do changeQueue change; announce true : Action (Desk Q) Unit) := by
  intro d hw
  have hgoes : Continues d { d with queue := change d.queue } :=
    ⟨h d.queue, [], (List.append_nil _).symm⟩
  exact (hgoes.announced hw true).tells

/-- What is idle is so at an active queue. -/
theorem Idle.reading (h : Idle act) : Idle (Desk.reading act) := idle_requireActive.bind fun _ => h

/-- A change that succeeds is told, and one that fails changes nothing. -/
theorem Measured.telling (h : Measured act) : Telling w (changing act) := by
  refine idle_requireActive.telling.bind fun _ d hw => ?_
  have hc := h.calls d
  have hh := h.hooks d
  have hf := h.failed d
  rw [Action.on_bind]
  rcases ho : act.on d with ⟨fault | a, d'⟩
  · rw [ho] at hc hf
    have hq := hf fault rfl
    exact tells_of_calls (congrArg Managed.hooks hq) hc (congrArg Managed.tally hq)
  · rw [ho] at hc hh
    have hgoes : Continues d d' := ⟨hh, [], by rw [List.append_nil]; exact hc⟩
    exact (hgoes.announced hw false).tells

/-- What is stored between the two calls of the put hook is told, and the hook is no watcher. -/
theorem Telling.framingPut {store : Action (Desk Q) Bool} (h : Telling w store)
    (batch : List Entry) (bypass : Bool) : Telling w (Desk.framingPut batch bypass store) := by
  have hrest : ∀ hooks : Hooks, Telling w (do
      record (hooks.beforePut batch bypass).1
      if (hooks.beforePut batch bypass).2 then
        if ← store then record (hooks.afterPut batch bypass) : Action (Desk Q) Unit) := by
    intro hooks
    refine (telling_record ?_).bind fun _ => ?_
    · rw [hooks.beforePut_calls]
      exact hooks.ofPutHook_heardBefore batch bypass
    · split
      · refine h.bind fun stored => ?_
        split
        · refine telling_record ?_
          rw [hooks.afterPut_calls]
          exact hooks.ofPutHook_heardAfter batch bypass
        · exact telling_pure ()
      · exact telling_pure ()
  exact idle_requireActive.telling.bind fun _ => idle_theQueue.telling.bind fun q =>
    hrest (Managed.hooks q)

/-- A queue without hooks has nobody to tell. -/
def Unheard (q : Q) : Prop := Managed.hooks q = {}

/-- Measured work calls nobody, and its queue stays without hooks. -/
theorem Measured.hushed (h : Measured act) : Hushed Unheard act :=
  ⟨fun d _ => h.calls d, fun d hq => (h.hooks d).trans hq⟩

/-- A queue without hooks makes its announcements to nobody. -/
theorem Hushed.changing (h : Hushed Unheard act) : Hushed Unheard (Desk.changing act) := by
  refine idle_requireActive.hushed.bind fun _ => h.bind fun a => ?_
  refine Hushed.bind ⟨fun d hq => ?_, fun d hq => hq⟩ fun _ => (idle_pure a).hushed
  have hnobody : announcement d.queue false = [] := by
    rw [announcement, show Managed.hooks d.queue = {} from hq]
    rfl
  rw [on_announce, hnobody, List.append_nil]

end Desk

end Spillway
