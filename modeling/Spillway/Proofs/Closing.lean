import Spillway.Proofs.Atomicity
import Spillway.Proofs.Destruction

/-!
# What a closing leaves behind

Closing a cached queue keeps all it holds: what was accepted and not removed. It tries to write what
was held back, and succeeds whether or not it could; closing it again does nothing. So a closing
that succeeds leaves rows of all that must survive exactly if nothing is held back afterwards, and
then and only then does a queue that is made anew over these rows have all of it.
-/

namespace Spillway

open Desk Held

namespace Cached

/-- All that a queue holds, whatever its phase: what is in memory, and the rows of what is not. -/
def holdings (d : Desk Cached) : List Entry :=
  d.queue.hot.roll.items ++ (rowEntries d).filter fun e => !d.queue.hot.roll.holds e.id

/-- Every entry that must survive has its row. -/
def Durably (d : Desk Cached) : Prop :=
  ∀ e ∈ holdings d, e.persistent = true → e ∈ rowEntries d

variable {c c' : Desk Cached} {d : Desk Cached} {l m : List Held}

/-- What a queue holds is what its list says. -/
theorem Shelved.holdings_eq (h : Shelved d l) : holdings d = l.map Held.entry := by
  have hcold : (inTable l).filter (fun e => !d.queue.hot.roll.holds e.id) =
      (l.filter isCold).map Held.entry := by
    rw [inTable, List.filter_map, List.filter_filter]
    refine congrArg _ (List.filter_congr fun x hx => ?_)
    have hheld : d.queue.hot.roll.holds x.entry.id = x.isHot := by
      rw [Bool.eq_iff_iff, h.hot.holds_iff]
      constructor
      · rintro ⟨e, he, hid⟩
        obtain ⟨y, hy, rfl⟩ := List.mem_map.1 he
        rw [List.mem_filter] at hy
        rw [← h.layout.order.eq_of_id hy.1 hx hid]
        exact hy.2
      · exact fun hh => ⟨x.entry, List.mem_map_of_mem (List.mem_filter.2 ⟨hx, hh⟩), rfl⟩
    change (!d.queue.hot.roll.holds x.entry.id && x.stored) = x.isCold
    rw [hheld, isCold_eq]
    cases hh : x.isHot with
    | true => rfl
    | false => rw [h.layout.rows x hx hh]; rfl
  rw [holdings, rowEntries_eq h.rows, hcold, h.hot.items, inMemory, ← List.map_append,
    h.layout.split]

/-- A queue in memory that is asked only what a cached queue answers has what that holds. -/
theorem holdings_shadowed {r : Desk Ram} (h : Shadowed c r) (hd : c.queue.phase ≠ .destroyed) :
    holdings c = r.queue.roll.items := by
  obtain ⟨l, hl⟩ := h.paired.resolve_left hd
  rw [hl.holds.shelved.holdings_eq, hl.roll.items]

/-- All that must survive has its row exactly if nothing is held back. -/
theorem Shelved.durably_iff (h : Shelved d l) : Durably d ↔ d.queue.pending = [] := by
  rw [Durably, h.holdings_eq, rowEntries_eq h.rows, h.pending]
  exact (pendingIds_eq_nil_iff h.layout.order).symm

/-- Of a closed queue that is dropped, another one that is opened over its rows has what must
survive and is not held back. -/
structure Reborn (c d : Desk Cached) : Prop where
  /-- It is active. -/
  active : d.queue.phase = .active
  /-- It has what must survive and is not held back. -/
  has : contents d = (holdings c).filter fun e => e.persistent && !c.queue.pending.contains e.id
  /-- That is all that must survive, exactly if nothing is held back. -/
  whole : contents d = (holdings c).filter (·.persistent) ↔ c.queue.pending = []

/-- A new queue over the rows of another. -/
theorem Shelved.reborn (h : Shelved c l) {bounds : Bounds} {q : Cached} {s : Store} (hooks : Hooks)
    (calls : List Call) (hq : create c.queue.storageId bounds = .ok q)
    (hs : c.store.Spares c.queue.storageId.text s)
    (hfit : TableName.isReserved s.tableName = false) (hserve : s.link.Serving)
    (hr : Reckonable (rowEntries c)) :
    ∃ d, (serve .start).on { queue := { q with hooks }, store := s, calls } = (.ok .done, d) ∧
      Reborn c d := by
  rw [rowEntries_eq h.rows] at hr
  obtain ⟨d, m, ho, -, ha, hst, hsame⟩ :=
    opened_anew hq (h.rows.of_rowsOf_eq hs.rows) hooks calls hfit hserve hr
  have hcontents : contents d = (inTable l).filter (·.persistent) := by
    rw [contents_eq hst, hsame.entries, entries_row]
  refine ⟨d, on_done ho, ha, ?_, ?_⟩
  · rw [hcontents, h.holdings_eq, h.pending, filter_not_pending h.layout.order]
  · rw [hcontents, h.holdings_eq, h.pending]
    exact (pendingIds_eq_nil_iff_filter h.layout.order).symm

/-- What a closing does to a queue. -/
structure Closes (c c' : Desk Cached) : Prop where
  /-- It is closed. -/
  phase : c'.queue.phase = .shutdown
  /-- It holds what it held. -/
  holdings : holdings c' = holdings c
  /-- Nothing is held back any more if what was could be written; otherwise it still is. -/
  pending : c'.queue.pending =
    if c.queue.phase = .active ∧ (flush.on c).1 = .ok () then [] else c.queue.pending
  /-- All that must survive has its row exactly if nothing is held back. -/
  durably : Durably c' ↔ c'.queue.pending = []
  /-- Another one that is opened over its rows while the link serves has what is not held back. -/
  reborn : ∀ {bounds : Bounds} {q : Cached} {s : Store} (hooks : Hooks) (calls : List Call),
    create c'.queue.storageId bounds = .ok q → c'.store.Spares c'.queue.storageId.text s →
    TableName.isReserved s.tableName = false → s.link.Serving → Reckonable (rowEntries c') →
    ∃ d, (serve .start).on { queue := { q with hooks }, store := s, calls } = (.ok .done, d) ∧
      Reborn c' d

/-- A closed queue over a list of the same entries. -/
theorem Shelved.closes (h : Shelved c l) (h' : Shelved c' m) (hphase : c'.queue.phase = .shutdown)
    (hentries : m.map Held.entry = l.map Held.entry) (hpending : pendingIds m =
      if c.queue.phase = .active ∧ (flush.on c).1 = .ok () then [] else pendingIds l) :
    Closes c c' where
  phase := hphase
  holdings := by rw [h'.holdings_eq, h.holdings_eq, hentries]
  pending := by rw [h'.pending, h.pending, hpending]
  durably := h'.durably_iff
  reborn := fun hooks calls => h'.reborn hooks calls

/-- Closing an active queue. -/
theorem closes_active (h : Stocks c l) (ha : c.queue.phase = .active) :
    ∃ c', shutdown.on c = (.ok (), c') ∧ Closes c c' ∧
      (c.store.link.Serving → c'.queue.pending = []) := by
  obtain ⟨c', m, ho, -, hs, hphase, -, -, hflush⟩ := shutdown_active h ha
  have hempty : m = flushed l → pendingIds m = [] := fun hm => by
    rw [hm, pendingIds_flushed h.layout.order]
  refine ⟨c', ho, (h.shelved ha).closes hs hphase ?_ ?_, fun hserve => ?_⟩
  · rcases hflush with ⟨-, rfl⟩ | ⟨-, rfl, -⟩
    · exact entries_flushed l
    · rfl
  · rcases hflush with ⟨hok, hm⟩ | ⟨hfail, rfl, -⟩
    · rw [if_pos ⟨ha, hok⟩, hempty hm]
    · refine (if_neg fun hok => ?_).symm
      rw [hok.2] at hfail
      cases hfail
  · rcases hflush with ⟨-, hm⟩ | ⟨-, -, hn⟩
    · rw [hs.pending, hempty hm]
    · exact absurd hserve hn

/-- Closing a queue that was closed. -/
theorem closes_shut (h : Shelved c l) (hp : c.queue.phase = .shutdown) :
    shutdown.on c = (.ok (), c) ∧ Closes c c := by
  refine ⟨?_, h.closes h hp rfl ?_⟩
  · rw [shutdown, Action.on_bind_of_ok (on_theQueue c), hp]
    rfl
  · refine (if_neg fun hn => ?_).symm
    rw [hp] at hn
    cases hn.1

end Cached

/-- An active queue, or one that was closed, holds what was accepted and not removed, whatever has
happened to the database meanwhile. Closing it succeeds and keeps that; what must survive has its
rows, and a queue that is opened over these has it, exactly if nothing is held back after the
closing. So it is where the link serves an active queue; a closing that could not write, or that
finds the queue closed, leaves held back what was. -/
theorem shutdown_durable {c : Desk Cached} (h : Cached.Reachable c)
    (hp : c.queue.phase = .active ∨ c.queue.phase = .shutdown) :
    (∀ {r : Desk Ram}, Shadowed c r → Cached.holdings c = r.queue.roll.items) ∧
      ∃ c', (serve .shutdown).on c = (.ok .done, c') ∧ Cached.Closes c c' ∧
        (c.queue.phase = .active → c.store.link.Serving → c'.queue.pending = []) := by
  have hd : c.queue.phase ≠ .destroyed := by
    rcases hp with hp | hp
    · rw [hp]; nofun
    · rw [hp]; nofun
  refine ⟨fun hs => Cached.holdings_shadowed hs hd, ?_⟩
  rcases hp with ha | hshut
  · obtain ⟨l, hl⟩ := Cached.reachable_stocks h ha
    obtain ⟨c', ho, hcloses, hserving⟩ := Cached.closes_active hl ha
    exact ⟨c', on_done ho, hcloses, fun _ => hserving⟩
  · obtain ⟨l, hl⟩ := Cached.reachable_holds h
    obtain ⟨ho, hcloses⟩ := Cached.closes_shut hl.shelved hshut
    refine ⟨c, on_done ho, hcloses, fun ha => ?_⟩
    rw [hshut] at ha
    cases ha

/-- A queue that holds back an entry because its database is away. -/
def Cached.withheld : Desk Cached :=
  ((serve (.put [.blank 1 true] false)).on
    (((serve .start).on newborn).2.relinked { reachable := false })).2

theorem Cached.reachable_withheld : Reachable withheld := by
  have hopened : Reachable ((serve .start).on newborn).2 :=
    reachable_newborn.runs (.snoc (.nil _) (.ask _ .start))
  exact (hopened.relinked { reachable := false }).runs (.snoc (.nil _) (.ask _ _))

/-- A queue in memory that is asked the same. -/
def Ram.withheld : Desk Ram :=
  ((serve (.put [.blank 1 true] false)).on
    ((serve .start).on { queue := { storageId := .mail, bounds := .tight }, store := {} }).2).2

theorem shadowed_withheld : Shadowed Cached.withheld Ram.withheld := by
  have hmade : Shadowed Cached.newborn
      { queue := { storageId := .mail, bounds := .tight }, store := {} } :=
    @Shadowed.made .mail .tight _ _ _ rfl rfl rfl {} {}
  obtain ⟨reply, c, ho⟩ := exists_of_isOk
    (show ((serve .start).on Cached.newborn).1.isOk = true by decide +kernel)
  have hopened := hmade.answered ho
  rw [show c = ((serve .start).on Cached.newborn).2 by rw [ho]] at hopened
  have hlost := hopened.relinked { reachable := false }
  obtain ⟨reply', c', ho'⟩ := exists_of_isOk
    (show ((serve (.put [.blank 1 true] false)).on
      (((serve .start).on Cached.newborn).2.relinked { reachable := false })).1.isOk = true by
        decide +kernel)
  have hput := hlost.answered ho'
  rwa [show c' = Cached.withheld by rw [Cached.withheld, ho']] at hput

/-- A queue that is closed once its database is back, and another one over its rows. -/
theorem shutdown_durable_written :
    let c := Cached.withheld.relinked {}
    (Shadowed c Ram.withheld ∧ Cached.Reachable c ∧ c.queue.phase = .active ∧
        c.store.link.Serving ∧ c.queue.pending = [1]) ∧
      Cached.holdings c = Ram.withheld.queue.roll.items ∧
      ∃ c' d, (serve .shutdown).on c = (.ok .done, c') ∧ Cached.Closes c c' ∧
        (serve .start).on { queue := Cached.newborn.queue, store := c'.store } = (.ok .done, d) ∧
        Cached.contents d = [.blank 1 true] := by
  intro c
  have hs : Shadowed c Ram.withheld := shadowed_withheld.relinked {}
  have hr : Cached.Reachable c := Cached.reachable_withheld.relinked {}
  have ha : c.queue.phase = .active := by decide +kernel
  have hserve : c.store.link.Serving := by decide +kernel
  have hheld : (Cached.holdings c).filter (·.persistent) = [.blank 1 true] := by decide +kernel
  obtain ⟨hitems, c', ho, hcloses, hwritten⟩ := shutdown_durable hr (.inl ha)
  have hc' : c' = ((serve .shutdown).on c).2 := by rw [ho]
  have hname : c'.queue.storageId = .mail := by
    rw [hc']
    decide +kernel
  have hserve' : c'.store.link.Serving := by
    rw [hc']
    decide +kernel
  have hcounted : Reckonable (Cached.rowEntries c') := by
    rw [hc']
    decide +kernel
  have hfit : TableName.isReserved c'.store.tableName = false := by
    rw [hc']
    decide +kernel
  have hq : Cached.create c'.queue.storageId .tight = .ok Cached.newborn.queue := by
    rw [hname]
    rfl
  obtain ⟨d, ho', hd⟩ := hcloses.reborn {} [] hq (.refl _ _) hfit hserve' hcounted
  refine ⟨⟨hs, hr, ha, hserve, by decide +kernel⟩, hitems hs, c', d, ho, hcloses, ho', ?_⟩
  rw [hd.whole.2 (hwritten ha hserve), hcloses.holdings, hheld]

/-- A queue that is closed while its database is away says that it was, and has no row of an entry
that must survive. -/
theorem not_durable : ¬ ∀ {c c' : Desk Cached}, Cached.Reachable c →
    c.queue.phase = .active ∨ c.queue.phase = .shutdown →
    (serve .shutdown).on c = (.ok .done, c') → Cached.Durably c' := by
  intro hall
  let c' := ((serve .shutdown).on Cached.withheld).2
  have ho : (serve .shutdown).on Cached.withheld = (.ok .done, c') :=
    on_of_answer (by decide +kernel)
  have hd := hall Cached.reachable_withheld (.inl (by decide +kernel)) ho
  have hheld : Entry.blank 1 true ∈ Cached.holdings c' := by decide +kernel
  have hrow : Entry.blank 1 true ∉ Cached.rowEntries c' := by decide +kernel
  exact hrow (hd _ hheld rfl)

end Spillway
