import Spillway.Proofs.Arrivals
import Spillway.Proofs.Jobs

/-!
# Around a put

Around a put, the hook of the queue is called with the whole batch. What a queue does about the
batch in between does not concern the hook, and begins by looking for room. All that the three kinds
of queue have in common about puts follows from that.
-/

namespace Spillway

open Desk

/-! ## Calls of the put hook -/

namespace Hooks

variable (h : Hooks) (batch : List Entry) (bypass : Bool)

/-- What the put hook hears of a batch before it is stored. -/
def heardBefore : List Call :=
  if bypass then [] else h.put.toList.map fun hook => .beforePut hook.name batch

/-- What it hears of it afterwards. -/
def heardAfter : List Call :=
  if bypass then [] else h.put.toList.map fun hook => .afterPut hook.name batch

/-- The put hook takes a batch over. -/
def TakesOver : Prop := bypass = false ∧ ∃ hook ∈ h.put, hook.accepts batch = false

/-- The calls before a put are those that the put hook hears. -/
theorem beforePut_calls : (h.beforePut batch bypass).1 = h.heardBefore batch bypass := by
  unfold beforePut heardBefore
  cases h.put <;> cases bypass <;> rfl

/-- The put goes on unless the hook takes its batch over. -/
theorem beforePut_goesOn :
    (h.beforePut batch bypass).2 = false ↔ h.TakesOver batch bypass := by
  unfold beforePut TakesOver
  cases h.put <;> cases bypass <;> simp

/-- The calls after a put are those that the put hook hears. -/
theorem afterPut_calls : h.afterPut batch bypass = h.heardAfter batch bypass := by
  unfold afterPut heardAfter
  cases h.put <;> cases bypass <;> rfl

/-- What is called for the put hook, unless it is bypassed, is called for nobody else. -/
theorem ofPutHook_heard {f : PutHook → Call} (hf : ∀ hook, (f hook).ofPutHook = true) :
    ∀ call ∈ if bypass then [] else h.put.toList.map f, call.ofPutHook = true := by
  intro call hcall
  split at hcall
  · cases hcall
  · obtain ⟨hook, -, rfl⟩ := List.mem_map.1 hcall
    exact hf hook

/-- Nobody but the put hook is called before a put. -/
theorem ofPutHook_heardBefore : ∀ call ∈ h.heardBefore batch bypass, call.ofPutHook = true :=
  h.ofPutHook_heard bypass fun _ => rfl

/-- Nor by the put itself after it. -/
theorem ofPutHook_heardAfter : ∀ call ∈ h.heardAfter batch bypass, call.ofPutHook = true :=
  h.ofPutHook_heard bypass fun _ => rfl

/-- A put that bypasses the hook is not announced to it. -/
@[simp] theorem heardBefore_bypassed : h.heardBefore batch true = [] := rfl

/-- Nor is it reported to it. -/
@[simp] theorem heardAfter_bypassed : h.heardAfter batch true = [] := rfl

/-- A hook that is bypassed takes nothing over. -/
theorem not_takesOver_bypassed : ¬ h.TakesOver batch true := fun ht => by cases ht.1

end Hooks

/-- The charged bytes of entries. -/
def bytesOf (l : List Entry) : Nat := (l.map fun e => e.size.toNat).sum

/-- A list of entries is over the bounds of a queue. -/
def Bounds.Exceeded (b : Bounds) (l : List Entry) : Prop :=
  b.entries < l.length ∨ b.bytes < bytesOf l

/-- The charged bytes of a list are those of its totals. -/
theorem Tally.bytes_total (l : List Entry) : (Tally.total l).bytes = bytesOf l := total_bytes l

/-- Exact totals exceed no bound exactly if the list does not. -/
theorem Tally.overflow?_total {l : List Entry} {b : Bounds} :
    (Tally.total l).overflow? b = none ↔ ¬ b.Exceeded l := by
  rw [overflow?_eq_none_iff, total_entries, bytes_total, Bounds.Exceeded, not_or, Nat.not_lt,
    Nat.not_lt]

/-- How a list exceeds the bounds of a queue; entries are looked at first. -/
def Bounds.excess (b : Bounds) (l : List Entry) : Overflow :=
  if b.entries < l.length then .entries b.entries l.length else .bytes b.bytes (bytesOf l)

/-- They name the bound that the list exceeds. -/
theorem Tally.overflow?_total_eq_some {l : List Entry} {b : Bounds} (h : b.Exceeded l) :
    (Tally.total l).overflow? b = some (b.excess l) := by
  unfold overflow? Bounds.excess
  rw [total_entries, bytes_total]
  split
  · rfl
  · next hentries => rw [if_pos (h.resolve_left hentries)]

/-! ## A put on a list -/

section
variable {name : String} {b : Bounds} {hooks : Hooks} {batch l : List Entry} {bypass : Bool}

/-- A put whose batch the hook takes over succeeds and changes nothing. -/
theorem putOn_takenOver (ht : hooks.TakesOver batch bypass) :
    putOn name b hooks batch bypass l = (.ok .done, l) := by
  rw [putOn, (hooks.beforePut_goesOn batch bypass).2 ht]
  rfl

/-- Unless its hook takes it over, a put comes to what comes of entering its batch. -/
theorem putOn_goesOn (ht : ¬ hooks.TakesOver batch bypass) : putOn name b hooks batch bypass l =
    ((admitOn name b batch l).1.map fun _ => .done, (admitOn name b batch l).2) := by
  have hgo := mt (hooks.beforePut_goesOn batch bypass).1 ht
  rw [Bool.not_eq_false] at hgo
  rw [putOn, if_pos hgo]

/-- A put at a queue over its bounds is refused with the bound that is exceeded. -/
theorem putOn_exceeded (ht : ¬ hooks.TakesOver batch bypass) (hx : b.Exceeded l) :
    putOn name b hooks batch bypass l = (.error (.overflow name (b.excess l)), l) := by
  rw [putOn_goesOn ht, admitOn, Tally.overflow?_total_eq_some hx]
  rfl

/-- A put at any other queue enters its batch. -/
theorem putOn_room (ht : ¬ hooks.TakesOver batch bypass) (hx : ¬ b.Exceeded l) :
    putOn name b hooks batch bypass l = (.ok .done, batch.foldl enter l) := by
  rw [putOn_goesOn ht, admitOn, Tally.overflow?_total.2 hx]
  rfl

end

namespace Desk

variable {Q α β : Type} {d : Desk Q}

/-- A desk after further hook calls. -/
def called (d : Desk Q) (calls : List Call) : Desk Q := { d with calls := d.calls ++ calls }

/-- No further calls leave the desk as it is. -/
@[simp] theorem called_nil (d : Desk Q) : d.called [] = d := by
  rw [called, List.append_nil]

/-- Calls leave the queue. -/
@[simp] theorem called_queue (d : Desk Q) (calls : List Call) : (d.called calls).queue = d.queue :=
  rfl

/-- Calls after calls are all of them, in their order. -/
@[simp] theorem called_called (d : Desk Q) (calls calls' : List Call) :
    (d.called calls).called calls' = d.called (calls ++ calls') := by
  rw [called, called, called, List.append_assoc]

/-- A desk after a put was refused. -/
def rejecting (d : Desk Q) : Desk Q :=
  { d with store := { d.store with totals := { d.store.totals with
      rejected := d.store.totals.rejected + 1 } } }

/-- Further hook calls after a success. -/
def confirmed (after : List Call) : Except Fault α × Desk Q → Except Fault α × Desk Q
  | (.ok a, d) => (.ok a, d.called after)
  | (.error fault, d) => (.error fault, d)

/-- If nobody is to be called after a success, the outcome is what it is. -/
@[simp] theorem confirmed_nil (outcome : Except Fault α × Desk Q) :
    confirmed [] outcome = outcome := by
  rcases outcome with ⟨_ | _, d⟩
  · rfl
  · rw [confirmed, called_nil]

/-- Work that does not call the put hook, whatever else it calls. -/
def Discreet (act : Action (Desk Q) α) : Prop := ∀ d : Desk Q,
  ∃ told, (act.on d).2.calls = d.calls ++ told ∧ ∀ call ∈ told, call.ofPutHook = false

/-- Work that calls nobody does not call the put hook. -/
theorem Discreet.of_calls {act : Action (Desk Q) α} (h : ∀ d, (act.on d).2.calls = d.calls) :
    Discreet act := fun d => ⟨[], by rw [h, List.append_nil], List.forall_mem_nil _⟩

/-- To give a result is discreet. -/
theorem discreet_pure (a : α) : Discreet (pure a : Action (Desk Q) α) := .of_calls fun _ => rfl

/-- So is to fail. -/
theorem discreet_throw (fault : Fault) : Discreet (throw fault : Action (Desk Q) α) :=
  .of_calls fun _ => rfl

/-- So is to look at the queue. -/
theorem discreet_theQueue : Discreet (theQueue : Action (Desk Q) Q) := .of_calls fun _ => rfl

/-- So is to change it. -/
theorem discreet_changeQueue (change : Q → Q) : Discreet (changeQueue change) :=
  .of_calls fun _ => rfl

/-- So is work on the store. -/
theorem discreet_onStore (act : Action Store α) : Discreet (onStore act : Action (Desk Q) α) :=
  .of_calls fun _ => rfl

/-- So is a check. -/
theorem discreet_require (check : Except Fault α) :
    Discreet (Action.require check : Action (Desk Q) α) := .of_calls fun _ => rfl

/-- One discreet thing after the other is discreet. -/
theorem Discreet.bind {act : Action (Desk Q) α} {next : α → Action (Desk Q) β} (h : Discreet act)
    (hn : ∀ a, Discreet (next a)) : Discreet (act >>= next) := by
  intro d
  obtain ⟨told, hcalls, htold⟩ := h d
  rw [Action.on_bind]
  rcases ho : act.on d with ⟨_ | a, d'⟩
  · rw [ho] at hcalls
    exact ⟨told, hcalls, htold⟩
  · rw [ho] at hcalls
    obtain ⟨told', hcalls', htold'⟩ := hn a d'
    refine ⟨told ++ told', ?_, fun call hcall => ?_⟩
    · rw [hcalls', show d'.calls = _ from hcalls, List.append_assoc]
    · exact (List.mem_append.1 hcall).elim (htold call) (htold' call)

/-- What is discreet is so when it is only tried. -/
theorem Discreet.attempt {act : Action (Desk Q) α} (h : Discreet act) : Discreet act.attempt :=
  fun d => h d

section
variable [Managed Q]

/-- Size watchers are not the put hook. -/
theorem discreet_announce (closed : Bool) : Discreet (announce closed : Action (Desk Q) Unit) :=
  fun _ => ⟨_, rfl, fun _ => ofPutHook_announcement⟩

/-- A refusal is counted, but not told to anybody. -/
theorem discreet_requireRoom : Discreet (requireRoom : Action (Desk Q) Unit) := by
  refine discreet_theQueue.bind fun q => ?_
  split
  · exact discreet_pure _
  · exact (discreet_onStore _).bind fun _ => discreet_throw _

/-- A change tells size watchers only. -/
theorem Discreet.changing {act : Action (Desk Q) α} (h : Discreet act) :
    Discreet (Desk.changing act) := by
  refine (discreet_theQueue.bind fun _ => discreet_require _).bind fun _ => ?_
  refine h.bind fun a => ?_
  exact (discreet_announce false).bind fun _ => discreet_pure a

end

end Desk

/-! ## What is done between the calls -/

section
variable {Q : Type} [Contract Q] {d : Desk Q} {batch : List Entry} {bypass : Bool}
  {work : Action (Desk Q) Unit}

/-- What a queue does about a batch between the calls of its put hook. The hook hears nothing of it,
and a queue over its bounds does not do it. -/
structure Storing (batch : List Entry) (work : Action (Desk Q) Unit) : Prop where
  put : ∀ bypass, Contract.put batch bypass = framingPut batch bypass do work; return true
  discreet : Discreet work
  full : ∀ d : Desk Q, Managed.phase d.queue = .active → ∀ excess,
    (Managed.tally d.queue).overflow? (Managed.bounds d.queue) = some excess →
    ∃ told, (∀ call ∈ told, call.ofPutHook = false) ∧
      work.on d = (.error (.overflow (Managed.storageId d.queue).text excess),
        d.rejecting.called told)

/-- A put is what the contract says. -/
theorem serve_put (batch : List Entry) (bypass : Bool) (d : Desk Q) :
    (serve (.put batch bypass)).on d =
      (((Contract.put batch bypass).on d).1.map fun _ => .done,
        ((Contract.put batch bypass).on d).2) :=
  on_done rfl

/-- A put that the hook takes over does nothing. -/
theorem put_takenOver {store : Action (Desk Q) Bool}
    (hput : Contract.put batch bypass = framingPut batch bypass store)
    (ha : Managed.phase d.queue = .active)
    (ht : (Managed.hooks d.queue).TakesOver batch bypass) :
    (serve (.put batch bypass)).on d =
      (.ok .done, d.called ((Managed.hooks d.queue).heardBefore batch bypass)) := by
  have hv := ((Managed.hooks d.queue).beforePut_goesOn batch bypass).2 ht
  rw [serve_put, hput, on_framingPut_eq ha]
  simp only [hv, Bool.false_eq_true, if_false, Hooks.beforePut_calls]
  rfl

/-- Any other comes to what is done between the calls. -/
theorem Storing.between (h : Storing batch work) (ha : Managed.phase d.queue = .active)
    (ht : ¬ (Managed.hooks d.queue).TakesOver batch bypass) :
    (serve (.put batch bypass)).on d =
      let worked := work.on (d.called ((Managed.hooks d.queue).heardBefore batch bypass))
      confirmed ((Managed.hooks d.queue).heardAfter batch bypass)
        (worked.1.map fun _ => .done, worked.2) := by
  have hgo : ((Managed.hooks d.queue).beforePut batch bypass).2 = true := by
    rw [← Bool.not_eq_false, Hooks.beforePut_goesOn]
    exact ht
  rw [serve_put, h.put, on_framingPut_eq ha]
  simp only [hgo, Hooks.beforePut_calls, Hooks.afterPut_calls, if_true, Action.on_seen]
  rw [show ({ d with calls := d.calls ++ _ } : Desk Q) = d.called _ from rfl]
  rcases work.on (d.called _) with ⟨_ | _, d'⟩
  · rfl
  · rfl

/-- It is put, once the hook was called, as if there were none, and the hook is called again if that
succeeds. -/
theorem Storing.framed (h : Storing batch work) (ha : Managed.phase d.queue = .active)
    (ht : ¬ (Managed.hooks d.queue).TakesOver batch bypass) :
    (serve (.put batch bypass)).on d =
      confirmed ((Managed.hooks d.queue).heardAfter batch bypass)
        ((serve (.put batch true)).on
          (d.called ((Managed.hooks d.queue).heardBefore batch bypass))) := by
  have hbypassed := (Managed.hooks d.queue).not_takesOver_bypassed batch
  rw [h.between ha ht, h.between (d := d.called _) ha hbypassed]
  simp only [called_queue, Hooks.heardBefore_bypassed, Hooks.heardAfter_bypassed, called_nil,
    confirmed_nil]

/-- A queue over its bounds refuses it, and nothing is changed. -/
theorem Storing.refused (h : Storing batch work) (ha : Managed.phase d.queue = .active)
    (ht : ¬ (Managed.hooks d.queue).TakesOver batch bypass) {excess : Overflow}
    (hov : (Managed.tally d.queue).overflow? (Managed.bounds d.queue) = some excess) :
    ∃ told, (∀ call ∈ told, call.ofPutHook = false) ∧
      (serve (.put batch bypass)).on d =
        (.error (.overflow (Managed.storageId d.queue).text excess),
          d.rejecting.called ((Managed.hooks d.queue).heardBefore batch bypass ++ told)) := by
  obtain ⟨told, htold, ho⟩ :=
    h.full (d.called ((Managed.hooks d.queue).heardBefore batch bypass)) ha excess hov
  refine ⟨told, htold, ?_⟩
  rw [h.between ha ht, ho, ← called_called]
  rfl

/-- The hook hears of it before and, if it succeeds, afterwards, once each time. -/
theorem Storing.calls (h : Storing batch work) (ha : Managed.phase d.queue = .active)
    (ht : ¬ (Managed.hooks d.queue).TakesOver batch bypass) {reply : Reply} {d' : Desk Q}
    (ho : (serve (.put batch bypass)).on d = (.ok reply, d')) :
    ∃ told, (∀ call ∈ told, call.ofPutHook = false) ∧
      d'.calls = d.calls ++ (Managed.hooks d.queue).heardBefore batch bypass ++ told ++
        (Managed.hooks d.queue).heardAfter batch bypass := by
  obtain ⟨told, hcalls, htold⟩ :=
    h.discreet (d.called ((Managed.hooks d.queue).heardBefore batch bypass))
  refine ⟨told, htold, ?_⟩
  rw [h.between ha ht] at ho
  rcases hw : work.on (d.called _) with ⟨fault | _, d''⟩
  · rw [hw] at ho
    cases ho
  · rw [hw] at ho hcalls
    cases ho
    rw [called, show d''.calls = _ from hcalls]
    rfl

end

/-! ## Storing in each kind of queue -/

/-- A change that begins by looking for room is not made where there is none. -/
theorem changing_full {Q : Type} [Managed Q] {d : Desk Q} (ha : Managed.phase d.queue = .active)
    {excess : Overflow}
    (hov : (Managed.tally d.queue).overflow? (Managed.bounds d.queue) = some excess)
    (rest : Action (Desk Q) Unit) :
    (changing do requireRoom; rest).on d =
      (.error (.overflow (Managed.storageId d.queue).text excess), d.rejecting.called []) := by
  rw [on_changing ha, Action.on_bind_of_error (on_requireRoom_error hov), called_nil]
  rfl

/-- A queue in memory enters the batch between the calls of its hook, whatever is in it. -/
theorem Ram.storing (batch : List Entry) :
    Storing (Q := Ram) batch (changing do requireRoom; changeQueue (·.holding batch)) where
  put := fun _ => rfl
  discreet := Discreet.changing (discreet_requireRoom.bind fun _ => discreet_changeQueue _)
  full := fun _ ha _ hov => ⟨[], List.forall_mem_nil _, changing_full ha hov _⟩

namespace Durable

/-- Writing rows calls nobody. -/
theorem discreet_write (entries : List Entry) : Discreet (write entries) := by
  refine Discreet.bind ?_ fun added => ?_
  · exact discreet_theQueue.bind fun _ => discreet_onStore _
  · exact (discreet_changeQueue _).bind fun _ => discreet_pure _

/-- Holding entries tells the size watchers of the part in the table, if it has any. -/
theorem discreet_hold (entries : List Entry) : Discreet (hold entries) := by
  unfold hold
  split
  · exact discreet_pure ()
  · exact (discreet_write entries).changing.bind fun _ => discreet_pure ()

/-- A queue in the table writes the batch between the calls of its hook, if there is something in
it. -/
theorem storing {batch : List Entry} (hb : batch ≠ []) : Storing batch (admitting batch) where
  put := fun bypass => by
    have hsome : batch.isEmpty = false := Bool.eq_false_iff.2 fun he => hb (List.isEmpty_iff.1 he)
    change Durable.put batch bypass = _
    rw [Durable.put, hsome]
    rfl
  discreet :=
    Discreet.changing <|
      discreet_requireRoom.bind fun _ => (discreet_write batch).bind fun _ => discreet_pure ()
  full := fun _ ha _ hov => ⟨[], List.forall_mem_nil _, changing_full ha hov _⟩

end Durable

namespace Cached

/-- What is discreet at the part in the table is so at the queue. -/
theorem discreet_onCold {α : Type} {act : Action (Desk Durable) α} (h : Discreet act) :
    Discreet (onCold act) :=
  fun d => h { queue := d.queue.cold, store := d.store, calls := d.calls }

/-- Writing the rows of a put does not call the hook again, whether or not they are held back. -/
theorem discreet_writeRows (needed wanted : List Entry) : Discreet (writeRows needed wanted) := by
  unfold writeRows
  split
  · exact (discreet_onCold (Durable.discreet_hold _)).bind fun _ => discreet_pure true
  · refine (discreet_onCold (Durable.discreet_hold wanted)).attempt.bind fun outcome => ?_
    cases outcome with
    | ok => exact discreet_pure true
    | error fault =>
      dsimp only
      split
      · exact Discreet.bind (discreet_onStore _) fun _ => discreet_pure false
      · exact discreet_throw fault

/-- Nor does placing what is new. -/
theorem discreet_place (new : List Entry) : Discreet (place new) := by
  refine discreet_theQueue.bind fun q => ?_
  refine (discreet_writeRows _ _).bind fun durable => ?_
  refine Discreet.bind ?_ fun taken => ?_
  · exact discreet_theQueue.bind fun _ => (discreet_changeQueue _).bind fun _ => discreet_pure _
  refine (discreet_changeQueue _).bind fun _ => ?_
  exact Discreet.bind (discreet_changeQueue _) fun _ => discreet_onStore _

/-- A change tells size watchers only, even if it fails. -/
theorem Discreet.altering {α : Type} {act : Action (Desk Cached) α} (h : Discreet act) :
    Discreet (altering act) := by
  refine (discreet_theQueue.bind fun _ => discreet_require _).bind fun _ => ?_
  refine h.attempt.bind fun outcome => ?_
  exact (discreet_announce false).bind fun _ => discreet_require outcome

/-- A cached queue places what is new between the calls of its hook, whatever is in the batch. -/
theorem storing (batch : List Entry) : Storing (Q := Cached) batch (altering do
    requireRoom
    let new := (← theQueue).fresh batch
    if !new.isEmpty then place new) where
  put := fun _ => rfl
  discreet := by
    refine Discreet.altering (discreet_requireRoom.bind fun _ => ?_)
    refine discreet_theQueue.bind fun q => ?_
    dsimp only
    split
    · exact discreet_place _
    · exact discreet_pure ()
  full := fun d ha excess hov => by
    refine ⟨announcement d.queue false, fun _ => ofPutHook_announcement, ?_⟩
    rw [altering_on ha, Action.on_bind_of_error (on_requireRoom_error hov)]
    rfl

end Cached

/-! ## Queues of any kind -/

/-- A queue of one kind is a queue of any kind, in everything that they have in common. -/
structure Wraps {Q : Type} [Contract Q] (wrap : Q → Queue) : Prop where
  storageId : ∀ q, Managed.storageId (wrap q) = Managed.storageId q
  bounds : ∀ q, Managed.bounds (wrap q) = Managed.bounds q
  phase : ∀ q, Managed.phase (wrap q) = Managed.phase q
  tally : ∀ q, Managed.tally (wrap q) = Managed.tally q
  hooks : ∀ q, Managed.hooks (wrap q) = Managed.hooks q
  asked : ∀ (request : Request) (d : Desk Q), (Queue.ask request).on (d.seat wrap) =
    (((serve request).on d).1, ((serve request).on d).2.seat wrap)

/-- A queue of one kind that works at the desk of a queue of any kind works at its own. -/
theorem atDesk_seat {Q α : Type} (wrap : Q → Queue) (act : Action (Desk Q) α) (d : Desk Q) :
    Queue.atDesk wrap d.queue act (d.seat wrap) = ((act.on d).1, (act.on d).2.seat wrap) := rfl

/-- Queues in memory are queues. -/
theorem wraps_ram : Wraps Queue.ram where
  storageId _ := rfl
  bounds _ := rfl
  phase _ := rfl
  tally _ := rfl
  hooks _ := rfl
  asked request d := by rw [Queue.ask, Action.on_of]; exact atDesk_seat .ram (serve request) d

/-- Queues in the table are queues. -/
theorem wraps_durable : Wraps Queue.durable where
  storageId _ := rfl
  bounds _ := rfl
  phase _ := rfl
  tally _ := rfl
  hooks _ := rfl
  asked request d := by rw [Queue.ask, Action.on_of]; exact atDesk_seat .durable (serve request) d

/-- Cached queues are queues. -/
theorem wraps_cached : Wraps Queue.cached where
  storageId _ := rfl
  bounds _ := rfl
  phase _ := rfl
  tally _ := rfl
  hooks _ := rfl
  asked request d := by rw [Queue.ask, Action.on_of]; exact atDesk_seat .cached (serve request) d

namespace Queue

variable {d : Desk Queue} {l batch : List Entry} {bypass : Bool}

/-- How an active queue goes about a batch that its put hook does not take over. -/
structure Handles (d : Desk Queue) (batch : List Entry) (bypass : Bool) : Prop where
  /-- The hook is called, the batch is put as if there were none, and if that succeeds the hook is
  called again. -/
  framed : (ask (.put batch bypass)).on d =
    confirmed ((Managed.hooks d.queue).heardAfter batch bypass)
      ((ask (.put batch true)).on (d.called ((Managed.hooks d.queue).heardBefore batch bypass)))
  /-- A queue over its bounds refuses the batch, and nothing is changed. -/
  refused : ∀ excess,
    (Managed.tally d.queue).overflow? (Managed.bounds d.queue) = some excess →
    ∃ told, (∀ call ∈ told, call.ofPutHook = false) ∧
      (ask (.put batch bypass)).on d =
        (.error (.overflow (Managed.storageId d.queue).text excess),
          d.rejecting.called ((Managed.hooks d.queue).heardBefore batch bypass ++ told))
  /-- If the put succeeds, the hook hears of it twice, and no more than that. -/
  calls : ∀ reply d', (ask (.put batch bypass)).on d = (.ok reply, d') →
    ∃ told, (∀ call ∈ told, call.ofPutHook = false) ∧
      d'.calls = d.calls ++ (Managed.hooks d.queue).heardBefore batch bypass ++ told ++
        (Managed.hooks d.queue).heardAfter batch bypass

/-- What stores a batch at a queue of one kind handles it there as at a queue of any kind. -/
theorem handles_of_storing {Q : Type} [Contract Q] {wrap : Q → Queue} (hw : Wraps wrap)
    {work : Action (Desk Q) Unit} (h : Storing batch work) {d : Desk Q}
    (ha : Managed.phase d.queue = .active)
    (ht : ¬ (Managed.hooks d.queue).TakesOver batch bypass) :
    Handles (d.seat wrap) batch bypass := by
  have hhooks : Managed.hooks (d.seat wrap).queue = Managed.hooks d.queue := hw.hooks d.queue
  constructor
  · rw [hw.asked, h.framed ha ht, hhooks]
    change _ = confirmed _ ((ask (.put batch true)).on (Desk.seat wrap (d.called _)))
    rw [hw.asked]
    rcases (serve (.put batch true)).on (d.called _) with ⟨_ | _, d'⟩
    · rfl
    · rfl
  · intro excess hov
    have htally : Managed.tally (d.seat wrap).queue = Managed.tally d.queue := hw.tally d.queue
    have hbounds : Managed.bounds (d.seat wrap).queue = Managed.bounds d.queue := hw.bounds d.queue
    have hname : Managed.storageId (d.seat wrap).queue = Managed.storageId d.queue :=
      hw.storageId d.queue
    rw [htally, hbounds] at hov
    obtain ⟨told, htold, ho⟩ := h.refused ha ht hov
    refine ⟨told, htold, ?_⟩
    rw [hw.asked, ho, hhooks, hname]
    rfl
  · intro reply d' ho
    rw [hw.asked] at ho
    obtain ⟨hreply, rfl⟩ := Prod.mk.inj ho
    rw [hhooks]
    exact h.calls ha ht (Prod.ext hreply rfl)

/-- An active queue handles a batch, unless that is empty and the queue in the table. -/
theorem handles (ha : Managed.phase d.queue = .active)
    (ht : ¬ (Managed.hooks d.queue).TakesOver batch bypass)
    (hb : d.queue.kind = .durable → batch ≠ []) : Handles d batch bypass := by
  obtain ⟨q, s, calls⟩ := d
  cases q with
  | ram q => exact handles_of_storing wraps_ram (Ram.storing batch) (d := ⟨q, s, calls⟩) ha ht
  | durable q =>
    exact handles_of_storing wraps_durable (Durable.storing (hb rfl)) (d := ⟨q, s, calls⟩) ha ht
  | cached q =>
    exact handles_of_storing wraps_cached (Cached.storing batch) (d := ⟨q, s, calls⟩) ha ht

/-- A batch that the put hook takes over is not stored. -/
theorem put_takenOver (ha : Managed.phase d.queue = .active)
    (ht : (Managed.hooks d.queue).TakesOver batch bypass) :
    (ask (.put batch bypass)).on d =
      (.ok .done, d.called ((Managed.hooks d.queue).heardBefore batch bypass)) := by
  obtain ⟨q, s, calls⟩ := d
  have hseat : ∀ {Q : Type} [Contract Q] {wrap : Q → Queue} {d : Desk Q}
      {store : Action (Desk Q) Bool}, Wraps wrap →
      Contract.put batch bypass = framingPut batch bypass store →
      Managed.phase d.queue = .active → (Managed.hooks d.queue).TakesOver batch bypass →
      (ask (.put batch bypass)).on (d.seat wrap) = (.ok .done,
        (d.called ((Managed.hooks d.queue).heardBefore batch bypass)).seat wrap) :=
    fun hw hput ha ht => by rw [hw.asked, Spillway.put_takenOver hput ha ht]
  cases q with
  | ram q => exact hseat wraps_ram rfl (d := ⟨q, s, calls⟩) ha ht
  | durable q => exact hseat wraps_durable rfl (d := ⟨q, s, calls⟩) ha ht
  | cached q => exact hseat wraps_cached rfl (d := ⟨q, s, calls⟩) ha ht

/-- A queue in the table does nothing about an empty batch but to call its hook before it. -/
theorem put_empty (hk : d.queue.kind = .durable) (ha : Managed.phase d.queue = .active) :
    (ask (.put [] bypass)).on d =
      (.ok .done, d.called ((Managed.hooks d.queue).heardBefore [] bypass)) := by
  obtain ⟨q, s, calls⟩ := d
  cases q with
  | ram q => cases hk
  | cached q => cases hk
  | durable q =>
    have hstore : Contract.put [] bypass =
        framingPut (Q := Durable) [] bypass (pure false) := rfl
    have hcalled : (framingPut (Q := Durable) [] bypass (pure false)).on ⟨q, s, calls⟩ =
        (.ok (), Desk.called ⟨q, s, calls⟩ (q.hooks.heardBefore [] bypass)) := by
      rw [on_framingPut_eq (d := ⟨q, s, calls⟩) ha]
      simp only [Hooks.beforePut_calls, Action.on_pure]
      split
      · rfl
      · rfl
    have hask := wraps_durable.asked (.put [] bypass) ⟨q, s, calls⟩
    rw [serve_put, hstore, hcalled] at hask
    exact hask

end Queue

end Spillway
