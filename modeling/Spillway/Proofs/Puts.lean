import Spillway.Proofs.Service

/-!
# Puts

A put is taken over by its hook, refused because the queue is over its bounds, or adds the entries
of its batch whose ids are new. The queue in memory does so by entering one after the other; the
cached queue finds the new entries first. Both come to the same list.
-/

namespace Spillway

open Desk

/-- What comes of entering a batch into a list of entries that is or is not within its bounds. -/
def admitOn (name : String) (bounds : Bounds) (batch l : List Entry) :
    Except Fault Unit × List Entry :=
  match (Tally.total l).overflow? bounds with
  | some excess => (.error (.overflow name excess), l)
  | none => (.ok (), batch.foldl enter l)

/-- What a put on a list of entries answers, and the list it leaves. -/
def putOn (name : String) (bounds : Bounds) (hooks : Hooks) (batch : List Entry) (bypass : Bool)
    (l : List Entry) : Except Fault Reply × List Entry :=
  if (hooks.beforePut batch bypass).2 then
    ((admitOn name bounds batch l).1.map fun _ => .done, (admitOn name bounds batch l).2)
  else (.ok .done, l)

namespace Desk

variable {Q : Type} [Managed Q] {d : Desk Q}

/-- An active queue calls its put hook before it does anything, and after it has stored a batch. -/
theorem on_framingPut_eq (ha : Managed.phase d.queue = .active) (batch : List Entry)
    (bypass : Bool) (store : Action (Desk Q) Bool) :
    (framingPut batch bypass store).on d =
      let called :=
        { d with calls := d.calls ++ ((Managed.hooks d.queue).beforePut batch bypass).1 }
      if ((Managed.hooks d.queue).beforePut batch bypass).2 then
        match store.on called with
        | (.ok true, d') =>
          (.ok (), { d' with calls := d'.calls ++ (Managed.hooks d.queue).afterPut batch bypass })
        | (.ok false, d') => (.ok (), d')
        | (.error fault, d') => (.error fault, d')
      else (.ok (), called) := by
  simp only [framingPut, Action.on_bind, on_requireActive, ha, Phase.requireActive, if_true,
    on_theQueue, on_record]
  cases hv : ((Managed.hooks d.queue).beforePut batch bypass).2 with
  | false => rfl
  | true =>
    rw [if_pos rfl, if_pos rfl, Action.on_bind]
    rcases store.on _ with ⟨_ | done, d'⟩
    · rfl
    · cases done with
      | true => rfl
      | false => rfl

/-- A put whose hook takes it over stores nothing. -/
theorem on_framingPut_vetoed (ha : Managed.phase d.queue = .active) {batch : List Entry}
    {bypass : Bool} (hv : ((Managed.hooks d.queue).beforePut batch bypass).2 = false)
    (store : Action (Desk Q) Bool) : ∃ calls,
    (framingPut batch bypass store).on d = (.ok (), { d with calls }) := by
  rw [on_framingPut_eq ha, hv]
  exact ⟨_, rfl⟩

/-- A put that goes on fares as its storing does. -/
theorem on_framingPut (ha : Managed.phase d.queue = .active) {batch : List Entry}
    {bypass : Bool} (hv : ((Managed.hooks d.queue).beforePut batch bypass).2 = true)
    (store : Action (Desk Q) Bool) : ∃ before after : List Call,
    (framingPut batch bypass store).on d =
      ((store.on { d with calls := before }).1.map fun _ => (),
        { (store.on { d with calls := before }).2 with
          calls := (store.on { d with calls := before }).2.calls ++ after }) := by
  simp only [on_framingPut_eq ha, hv, if_true]
  refine ⟨d.calls ++ ((Managed.hooks d.queue).beforePut batch bypass).1, ?_⟩
  rcases store.on { d with calls := d.calls ++ ((Managed.hooks d.queue).beforePut batch bypass).1 }
    with ⟨_ | done, d'⟩
  · exact ⟨[], by simp [Except.map]⟩
  · cases done with
    | true => exact ⟨(Managed.hooks d.queue).afterPut batch bypass, rfl⟩
    | false => exact ⟨[], by simp [Except.map]⟩

/-- A queue within its bounds takes puts. -/
theorem on_requireRoom_ok (h : (Managed.tally d.queue).overflow? (Managed.bounds d.queue) = none) :
    (requireRoom : Action (Desk Q) Unit).on d = (.ok (), d) := by
  simp only [requireRoom, Action.on_bind, on_theQueue, h, Action.on_pure]

/-- A queue over its bounds refuses them, and counts that. -/
theorem on_requireRoom_error {excess : Overflow}
    (h : (Managed.tally d.queue).overflow? (Managed.bounds d.queue) = some excess) :
    (requireRoom : Action (Desk Q) Unit).on d =
      (.error (.overflow (Managed.storageId d.queue).text excess),
        { d with store := { d.store with totals :=
          { d.store.totals with rejected := d.store.totals.rejected + 1 } } }) := by
  simp only [requireRoom, Action.on_bind, on_theQueue, h, on_count, Action.on_throw]

end Desk

namespace Ram

variable {d : Desk Ram} {l : List Entry}

/-- A queue in memory puts as on a list. -/
theorem put_on (ha : d.queue.phase = .active) (h : d.queue.roll.Lists l) (batch : List Entry)
    (bypass : Bool) :
    ∃ roll store calls, (serve (.put batch bypass)).on d =
        ((putOn d.queue.storageId.text d.queue.bounds d.queue.hooks batch bypass l).1,
          { queue := { d.queue with roll }, store, calls }) ∧
      roll.Lists (putOn d.queue.storageId.text d.queue.bounds d.queue.hooks batch bypass l).2 := by
  have ha' : Managed.phase d.queue = .active := ha
  have hserve : ∀ {outcome : Except Fault Unit} {d' : Desk Ram},
      (put batch bypass).on d = (outcome, d') →
      (serve (.put batch bypass) : Action (Desk Ram) Reply).on d =
        (outcome.map fun _ => Reply.done, d') := fun {outcome d'} ho => by
    cases outcome with
    | ok u => exact Action.on_bind_of_ok ho
    | error fault => exact Action.on_bind_of_error ho
  unfold putOn
  cases hv : (d.queue.hooks.beforePut batch bypass).2 with
  | false =>
    obtain ⟨calls, ho⟩ := on_framingPut_vetoed ha' hv (do
      changing do
        requireRoom
        changeQueue (·.holding batch)
      return true)
    exact ⟨d.queue.roll, d.store, calls, hserve ho, h⟩
  | true =>
    obtain ⟨before, after, ho⟩ := on_framingPut ha' hv (do
      changing do
        requireRoom
        changeQueue (·.holding batch)
      return true)
    have hput := hserve ho
    have htally : Managed.tally d.queue = Tally.total l := h.tally
    rw [if_pos rfl]
    unfold admitOn
    cases hov : (Tally.total l).overflow? d.queue.bounds with
    | some excess =>
      have hroom := on_requireRoom_error (d := { d with calls := before })
        (show (Managed.tally d.queue).overflow? d.queue.bounds = some excess by rw [htally, hov])
      rw [Action.on_bind, on_changing (d := { d with calls := before }) ha',
        Action.on_bind_of_error hroom] at hput
      exact ⟨d.queue.roll, _, _, hput, h⟩
    | none =>
      have hroom := on_requireRoom_ok (d := { d with calls := before })
        (show (Managed.tally d.queue).overflow? d.queue.bounds = none by rw [htally, hov])
      rw [Action.on_bind, on_changing (d := { d with calls := before }) ha',
        Action.on_bind_of_ok hroom] at hput
      exact ⟨_, _, _, hput, h.insertAll batch⟩

end Ram

namespace Cached

open Held

variable {d : Desk Cached} {l : List Held}

/-- What a batch has brought so far that is new, and what there is with it. -/
structure Brings (es found cur : List Entry) : Prop where
  /-- What there is now is in order. -/
  order : Ordered cur
  /-- Nothing was brought twice. -/
  unique : (found.map Entry.id).Nodup
  /-- Nothing was there that was brought. -/
  apart : ∀ e ∈ found, ∀ x ∈ es, x.id ≠ e.id
  /-- What there is was there or was brought. -/
  mem : ∀ e, e ∈ cur ↔ e ∈ es ∨ e ∈ found

/-- One more entry of a batch is brought or is there already. -/
theorem Brings.step {es found cur : List Entry} (h : Brings es found cur) {holds : UInt64 → Bool}
    (hh : ∀ id, holds id = es.any fun e => decide (e.id = id)) (e : Entry) :
    Brings es (if holds e.id || found.any (·.id = e.id) then found else e :: found)
      (enter cur e) := by
  have hcond : (holds e.id || found.any (·.id = e.id)) =
      cur.any fun b => decide (idOf b = idOf e) := by
    rw [hh, Bool.eq_iff_iff]
    simp only [Bool.or_eq_true, List.any_eq_true, h.mem, idOf_entry]
    constructor
    · rintro (⟨x, hx, he⟩ | ⟨x, hx, he⟩)
      · exact ⟨x, .inl hx, he⟩
      · exact ⟨x, .inr hx, he⟩
    · rintro ⟨x, hx | hx, he⟩
      · exact .inl ⟨x, hx, he⟩
      · exact .inr ⟨x, hx, he⟩
  unfold enter
  rw [hcond]
  split
  · exact h
  · next hn =>
    have hfree : ∀ b ∈ cur, b.id ≠ e.id := fun b hb he =>
      hn (List.any_eq_true.2 ⟨b, hb, decide_eq_true he⟩)
    refine ⟨h.order.insertByKey hfree, ?_, ?_, fun b => ?_⟩
    · rw [List.map_cons, List.nodup_cons]
      refine ⟨fun hi => ?_, h.unique⟩
      obtain ⟨b, hb, he⟩ := List.mem_map.1 hi
      exact hfree b ((h.mem b).2 (.inr hb)) he
    · intro f hf x hx
      rcases List.mem_cons.1 hf with rfl | hf
      · exact hfree x ((h.mem x).2 (.inl hx))
      · exact h.apart f hf x hx
    · rw [mem_insertByKey, h.mem, List.mem_cons]
      tauto

/-- The new entries of a batch are those that entering it one after the other adds. -/
theorem Brings.foldl {es : List Entry} {holds : UInt64 → Bool}
    (hh : ∀ id, holds id = es.any fun e => decide (e.id = id)) (batch : List Entry)
    {found cur : List Entry} (h : Brings es found cur) :
    Brings es (batch.foldl (fun found e =>
      if holds e.id || found.any (·.id = e.id) then found else e :: found) found)
      (batch.foldl enter cur) := by
  induction batch generalizing found cur with
  | nil => exact h
  | cons e batch ih => exact ih (h.step hh e)

/-- The new entries of a batch. -/
theorem fresh_spec (h : Stocks d l) (batch : List Entry) :
    ((d.queue.fresh batch).map Entry.id).Nodup ∧
      (∀ e ∈ d.queue.fresh batch, ∀ x ∈ l, x.entry.id ≠ e.id) ∧
      sortByKey (l.map Held.entry ++ d.queue.fresh batch) =
        batch.foldl enter (l.map Held.entry) := by
  have hholds : ∀ id, d.queue.index.holds id =
      (l.map Held.entry).any fun e => decide (e.id = id) := fun id => by
    rw [Bool.eq_iff_iff, h.index.holds_iff, List.any_eq_true]
    constructor
    · rintro ⟨r, hr, he⟩
      obtain ⟨x, hx, rfl⟩ := List.mem_map.1 hr
      exact ⟨x.entry, List.mem_map_of_mem hx, decide_eq_true he⟩
    · rintro ⟨e, he, hid⟩
      obtain ⟨x, hx, rfl⟩ := List.mem_map.1 he
      exact ⟨x.resident, List.mem_map_of_mem hx, of_decide_eq_true hid⟩
  have hnone : Brings (l.map Held.entry) [] (l.map Held.entry) :=
    ⟨ordered_entries.2 h.layout.order, List.nodup_nil, by simp, by simp⟩
  obtain ⟨ho, hu, hd, hm⟩ := hnone.foldl hholds batch
  have hperm : (d.queue.fresh batch).Perm (batch.foldl (fun found e =>
      if d.queue.index.holds e.id || found.any (·.id = e.id) then found else e :: found) []) :=
    (perm_sortOrdered servedBefore _).trans (List.reverse_perm _)
  have hu' : ((d.queue.fresh batch).map Entry.id).Nodup := ((hperm.map _).nodup_iff).2 hu
  have hd' : ∀ e ∈ d.queue.fresh batch, ∀ x ∈ l, x.entry.id ≠ e.id := fun e he x hx =>
    hd e (hperm.mem_iff.1 he) x.entry (List.mem_map_of_mem hx)
  refine ⟨hu', hd', ho.sortByKey_eq ?_ fun e => ?_⟩
  · refine nodup_ids_append (ordered_entries.2 h.layout.order).unique hu' fun e he f hf => ?_
    obtain ⟨x, hx, rfl⟩ := List.mem_map.1 hf
    exact hd' e he x hx
  · rw [List.mem_append, hm, hperm.mem_iff]

/-- What comes of a put: what comes of it on the entries held, where nothing changes if that is a
refusal, and no more is held back if the link serves; or a failure of the database, which may be
tried again. -/
def PutsOn (d : Desk Cached) (l : List Held) {α : Type} (act : Action (Desk Cached) α)
    (outcome : Except Fault α) (rest : List Entry) : Prop :=
  (∃ d' m, act.on d = (outcome, d') ∧ Steady d d' ∧ Stocks d' m ∧ m.map Held.entry = rest ∧
    (d.store.link.Serving → pendingIds m ⊆ pendingIds l) ∧
    ∀ fault, outcome = .error fault →
      d'.queue = d.queue ∧ d'.store.table = d.store.table) ∨
  Spoilt d (act.on d).2 l ∧ ∃ fault, (act.on d).1 = .error fault ∧ fault.isRetryable = true

/-- Hook calls and a view of what a success gives make no difference to what comes of a put. -/
theorem PutsOn.framed {α β : Type} {act : Action (Desk Cached) α} {act' : Action (Desk Cached) β}
    {outcome : Except Fault α} {rest : List Entry} {before : List Call}
    (h : PutsOn { d with calls := before } l act outcome rest) (view : α → β)
    (ho : ∃ calls, act'.on d = ((act.on { d with calls := before }).1.map view,
      { (act.on { d with calls := before }).2 with calls })) :
    PutsOn d l act' (outcome.map view) rest := by
  obtain ⟨after, ho⟩ := ho
  rw [PutsOn, ho]
  rcases h with ⟨d', m, ho', hst, hs, hm, hp, hf⟩ | ⟨hspoilt, fault, hf, hretry⟩
  · rw [ho']
    refine .inl ⟨_, m, rfl, ⟨hst.storageId, hst.bounds, hst.phase, hst.hooks, hst.used, hst.filled⟩,
      hs.called after, hm, hp, fun fault hview => ?_⟩
    cases outcome with
    | ok a => cases hview
    | error fault' => exact hf fault' rfl
  · exact .inr ⟨hspoilt.called after, fault, by rw [hf]; rfl, hretry⟩

/-- Storing the new entries of a batch enters the batch. -/
theorem storing_on (h : Stocks d l) (batch : List Entry) :
    PutsOn d l (if !(d.queue.fresh batch).isEmpty then place (d.queue.fresh batch) else pure ())
      (.ok ()) (batch.foldl enter (l.map Held.entry)) := by
  obtain ⟨hu, hd, hentries⟩ := fresh_spec h batch
  cases hn : (d.queue.fresh batch).isEmpty with
  | true =>
    refine .inl ⟨d, l, rfl, .refl d, h, ?_, fun _ => List.Subset.refl _, nofun⟩
    rw [← hentries, List.isEmpty_iff.1 hn, List.append_nil]
    have ho := ordered_entries.2 h.layout.order
    exact (ho.sortByKey_eq ho.unique fun _ => Iff.rfl).symm
  | false =>
    rw [if_pos (by rfl)]
    rcases place_on h hu hd with
      ⟨d', durable, ho, hst, hs, hdurable, -⟩ | ⟨fault, store, ho, hm, -⟩
    · refine .inl ⟨d', _, ho, hst, hs,
        (entries_placed h.layout.order hu hd durable).trans hentries, fun hserving => ?_, nofun⟩
      rw [hdurable hserving]
      exact pendingIds_placed _ l _
    · exact .inr (by rw [ho]; exact ⟨spoilt_missed h hm, fault, rfl, hm.retryable⟩)

/-- A put within the bounds enters its batch, and one beyond them is refused. -/
theorem admitting_on (h : Stocks d l) (batch : List Entry) :
    PutsOn d l (do
        requireRoom
        let new := (← theQueue).fresh batch
        if !new.isEmpty then place new : Action (Desk Cached) Unit)
      (admitOn d.queue.storageId.text d.queue.bounds batch (l.map Held.entry)).1
      (admitOn d.queue.storageId.text d.queue.bounds batch (l.map Held.entry)).2 := by
  have htally : Managed.tally d.queue = Tally.total (l.map Held.entry) :=
    tally_of_lists h.index
  unfold admitOn
  cases hov : (Tally.total (l.map Held.entry)).overflow? d.queue.bounds with
  | some excess =>
    have hroom := on_requireRoom_error (d := d)
      (show (Managed.tally d.queue).overflow? d.queue.bounds = some excess by rw [htally, hov])
    refine .inl ⟨_, l, Action.on_bind_of_error hroom,
      ⟨rfl, rfl, rfl, rfl, ⟨rfl, .refl _⟩, fun _ => id⟩,
      ?_, rfl, fun _ => List.Subset.refl _, fun _ _ => ⟨rfl, rfl⟩⟩
    exact ⟨h.layout, h.index, h.hot, h.rows, h.named, h.warm, h.cold, h.fit⟩
  | none =>
    have hroom := on_requireRoom_ok (d := d)
      (show (Managed.tally d.queue).overflow? d.queue.bounds = none by rw [htally, hov])
    rw [PutsOn, Action.on_bind_of_ok hroom, Action.on_bind_of_ok (on_theQueue d)]
    exact storing_on h batch

/-- A cached queue puts as on a list, unless the link does not serve. -/
theorem put_on (h : Stocks d l) (ha : d.queue.phase = .active) (batch : List Entry)
    (bypass : Bool) :
    PutsOn d l (serve (.put batch bypass))
      (putOn d.queue.storageId.text d.queue.bounds d.queue.hooks batch bypass (l.map Held.entry)).1
      (putOn d.queue.storageId.text d.queue.bounds d.queue.hooks batch bypass
        (l.map Held.entry)).2 := by
  have ha' : Managed.phase d.queue = .active := ha
  let admitting : Action (Desk Cached) Unit := do
    requireRoom
    let new := (← theQueue).fresh batch
    if !new.isEmpty then place new
  let store : Action (Desk Cached) Bool := do
    altering admitting
    return true
  have hserve : ∀ {outcome : Except Fault Unit} {d' : Desk Cached},
      (framingPut batch bypass store).on d = (outcome, d') →
      (serve (.put batch bypass) : Action (Desk Cached) Reply).on d =
        (outcome.map fun _ => Reply.done, d') := fun {outcome d'} ho => by
    cases outcome with
    | ok u => exact Action.on_bind_of_ok ho
    | error fault => exact Action.on_bind_of_error ho
  unfold putOn
  cases hv : (d.queue.hooks.beforePut batch bypass).2 with
  | false =>
    obtain ⟨calls, ho⟩ := on_framingPut_vetoed ha' hv store
    exact .inl ⟨_, l, hserve ho, (Steady.refl d).called _, h.called _, rfl,
      fun _ => List.Subset.refl _, nofun⟩
  | true =>
    obtain ⟨before, after, ho⟩ := on_framingPut ha' hv store
    have hput := hserve ho
    rw [Action.on_bind, altering_on (d := { d with calls := before }) ha] at hput
    refine (admitting_on (h.called before) batch).framed (fun _ => Reply.done) ?_
    change ∃ calls, _ = (Except.map _ (admitting.on { d with calls := before }).1, _)
    rcases hrun : admitting.on { d with calls := before } with ⟨outcome, d'⟩
    rw [hrun] at hput
    cases outcome with
    | ok u => exact ⟨_, hput⟩
    | error fault => exact ⟨_, hput⟩

end Cached

end Spillway
