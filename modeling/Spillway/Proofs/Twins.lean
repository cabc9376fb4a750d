import Spillway.Proofs.Pairs

/-!
# A cached queue answers like a queue in memory

A cached queue and a queue in memory are made under one name with the same bounds, the one over a
table that has no rows of that name. As long as the link serves, they cannot be told apart: whatever
they are asked, one request after the other, they answer the same, fail in the same way and have the
same totals.
-/

namespace Spillway

open Desk Held

/-- A pair, the cached queue over a table that is there and a link that serves. -/
structure Alike (c : Desk Cached) (r : Desk Ram) (l : List Held) : Prop extends Paired c r l where
  /-- The link serves. -/
  serving : c.store.link.Serving
  /-- The table is there. -/
  made : c.store.table.isSome = true
  /-- It can have its name. -/
  fit : TableName.isReserved c.store.tableName = false

namespace Alike

variable {c : Desk Cached} {r : Desk Ram} {l : List Held} {request : Request}

/-- Two queues answer a request alike, and are alike afterwards. -/
def Answers (c : Desk Cached) (r : Desk Ram) (request : Request) : Prop :=
  ((serve request).on c).1 = ((serve request).on r).1 ∧
    ∃ m, Alike ((serve request).on c).2 ((serve request).on r).2 m

/-- A link that serves goes on serving. -/
theorem answers (h : Alike c r l) (ha : Paired.Answers c r request) : Answers c r request := by
  obtain ⟨m, hm⟩ := ha.paired
  exact ⟨ha.same, m, { hm with serving := ha.kept.used.link.serving h.serving
                               made := ha.made h.made
                               fit := ha.kept.used.tableName ▸ h.fit }⟩

/-- Whatever they are asked, two queues that are alike answer alike. -/
theorem serve (h : Alike c r l) (hb : (Managed.tally r.queue).bytes < 2 ^ 63)
    (request : Request) : Answers c r request := by
  rcases h.toPaired.asked request with ha | hf | hg
  · exact h.answers ha
  · have htable : (inTable l).Sublist (l.map Held.entry) := List.filter_sublist.map _
    have hopenable : Cached.Openable c l := by
      refine ⟨h.fit, .of_lt (Nat.lt_of_le_of_lt ?_ hb)⟩
      change _ ≤ r.queue.roll.tally.bytes
      rw [h.roll.tally, Tally.total_bytes, Tally.total_bytes]
      exact sum_charge_le htable
    exact absurd h.serving (hf.unserved hopenable h.made)
  · exact absurd h.serving hg.spoilt.unserved

/-- A notification changes nothing between them. -/
theorem notified (h : Alike c r l) : ∃ m, Alike (Cached.catchUp.on c).2 r m := by
  obtain ⟨hk, hmade, m, hm⟩ := h.toPaired.notified
  exact ⟨m, { hm with serving := hk.used.link.serving h.serving, made := hmade h.made
                      fit := hk.used.tableName ▸ h.fit }⟩

end Alike

/-! ## Twins -/

/-- A cached queue and a queue in memory with one history, all of it while the link serves. -/
inductive Twins : Desk Cached → Desk Ram → Prop
  /-- They are made under one name with the same bounds and hooks, over a table without rows of that
  name. -/
  | made {id : StorageId} {bounds : Bounds} {q : Cached} {q' : Ram} {s : Store}
      (hq : Cached.create id bounds = .ok q) (hq' : Ram.create id bounds = .ok q')
      (hm : s.table.isSome = true) (hn : TableName.isReserved s.tableName = false)
      (hr : Statement.rowsOf id.text s.rows = []) (hs : s.link.Serving) (hooks : Hooks)
      (s' : Store) :
      Twins { queue := { q with hooks }, store := s } { queue := { q' with hooks }, store := s' }
  /-- They are asked the same, while the bytes of all entries can be counted in a row. -/
  | ask {c : Desk Cached} {r : Desk Ram} (h : Twins c r)
      (hb : (Managed.tally r.queue).bytes < 2 ^ 63) (request : Request) :
      Twins ((serve request).on c).2 ((serve request).on r).2
  /-- They get the same hooks. -/
  | hooked {c : Desk Cached} {r : Desk Ram} (h : Twins c r) (hooks : Hooks) :
      Twins { c with queue := { c.queue with hooks } } { r with queue := { r.queue with hooks } }
  /-- Others use the store, and leave the link serving. -/
  | meanwhile {c : Desk Cached} {r : Desk Ram} (h : Twins c r) {s : Store}
      (hp : c.store.Spares c.queue.storageId.text s) (hs : s.link.Serving) (s' : Store) :
      Twins { c with store := s } { r with store := s' }
  /-- The cached queue is told that the database is there again. -/
  | notified {c : Desk Cached} {r : Desk Ram} (h : Twins c r) : Twins (Cached.catchUp.on c).2 r

variable {c : Desk Cached} {r : Desk Ram}

/-- Twins are alike. -/
theorem Twins.alike (h : Twins c r) : ∃ l, Alike c r l := by
  induction h with
  | made hq hq' hm hn hr hs hooks s' =>
    exact ⟨[], { Paired.of_made hq hq' hr hooks s' with serving := hs, made := hm, fit := hn }⟩
  | ask _ hb request ih =>
    obtain ⟨l, hl⟩ := ih
    exact (hl.serve hb request).2
  | hooked _ hooks ih =>
    obtain ⟨l, hl⟩ := ih
    exact ⟨l, { hl.toPaired.hooked hooks with
                  serving := hl.serving, made := hl.made, fit := hl.fit }⟩
  | meanwhile _ hp hs s' ih =>
    obtain ⟨l, hl⟩ := ih
    exact ⟨l, { hl.toPaired.spared hp s' with
                  serving := hs, made := hp.made hl.made, fit := hp.tableName ▸ hl.fit }⟩
  | notified _ ih =>
    obtain ⟨l, hl⟩ := ih
    exact hl.notified

/-- As long as the link serves, a cached queue and a queue in memory with one history have the same
totals, are at the same point of their lives, and answer or refuse every request alike. -/
theorem twins_agree (h : Twins c r) :
    Managed.tally c.queue = Managed.tally r.queue ∧
      Managed.phase c.queue = Managed.phase r.queue ∧
      ∀ request, (Managed.tally r.queue).bytes < 2 ^ 63 →
        ((serve request).on c).1 = ((serve request).on r).1 := by
  obtain ⟨l, hl⟩ := h.alike
  refine ⟨?_, hl.phase.symm, fun request hb => (hl.serve hb request).1⟩
  refine hl.index.tally.trans (Eq.trans ?_ hl.roll.tally.symm)
  rw [Tally.total_map (f := resident) fun _ _ => rfl,
    Tally.total_map (f := Held.entry) fun _ _ => rfl]

/-- Twins after a put that goes over the cache bounds. -/
theorem twins_agree_spilt :
    let c := ((serve (.put [.blank 1 true, .blank 2 false] false)).on
      ((serve .start).on { Cached.newborn with store := { table := some [] } }).2).2
    let r := ((serve (.put [.blank 1 true, .blank 2 false] false)).on
      ((serve .start).on { queue := { storageId := .mail, bounds := .tight }, store := {} }).2).2
    (Twins c r ∧ (Managed.tally r.queue).bytes < 2 ^ 63) ∧
      ((serve .peekFirst).on c).1 = ((serve .peekFirst).on r).1 := by
  intro c r
  have hmade : Twins { Cached.newborn with store := { table := some [] } }
      { queue := { storageId := .mail, bounds := .tight }, store := {} } :=
    @Twins.made .mail .tight _ _ _ rfl rfl rfl (by decide +kernel) rfl
      ⟨rfl, rfl, rfl, .inr (by decide)⟩ {} {}
  have h : Twins c r := (hmade.ask (by decide) .start).ask (by decide +kernel) _
  have hb : (Managed.tally r.queue).bytes < 2 ^ 63 := by decide +kernel
  exact ⟨⟨h, hb⟩, (twins_agree h).2.2 .peekFirst hb⟩

end Spillway
