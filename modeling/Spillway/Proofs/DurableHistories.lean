import Spillway.Proofs.Companions

/-!
# Histories of a queue in the table

A queue is made over whatever rows an earlier one of its name has left, answers requests, and is
dropped and made anew. Meanwhile the link does what it likes, and others change their own rows.
Whatever the history, its rows are those of one ordered list, and nothing is in it that was not
there or brought. Its totals are read from the table when it is opened and kept by hand from then
on; as long as the bytes are a word, those of an active queue are the totals of that list.
-/

namespace Spillway

open Desk

namespace Durable

variable {d d' : Desk Durable} {l m es : List Entry} {request : Request}

/-- A queue in the table, whatever its phase, that has a list of entries. -/
structure Rests (d : Desk Durable) (l : List Entry) : Prop where
  /-- Its rows are those of the list. -/
  rows : Partition d.queue.name d.store.rows l
  /-- The table is there once it is active. -/
  made : d.queue.phase = .active → d.store.table.isSome = true
  /-- Once destroyed, it has nothing. -/
  gone : d.queue.phase = .destroyed → l = []

/-- What an active queue in the table knows: the totals of its list, and a table that can have its
name. -/
def Exact (d : Desk Durable) (l : List Entry) : Prop :=
  d.queue.phase = .active →
    d.queue.tally = Tally.total l ∧ TableName.isReserved d.store.tableName = false

/-- What a queue in the table has after something happened: nothing that it had not and that was not
brought. If its totals were exact and can be counted as words they still are. -/
def Follows (d d' : Desk Durable) (l es : List Entry) : Prop :=
  d'.queue.storageId = d.queue.storageId ∧ ∃ m, Rests d' m ∧ (∀ e ∈ m, e ∈ l ∨ e ∈ es) ∧
    (Exact d l → (Tally.total l).bytes < 2 ^ 64 → Exact d' m)

theorem Rests.keeps (h : Rests d l) (ha : d.queue.phase = .active) :
    d.store.Keeps d.queue.name l := by
  obtain ⟨rows, ht⟩ := Option.isSome_iff_exists.1 (h.made ha)
  have hp := h.rows
  rw [Store.rows, ht] at hp
  exact ⟨rows, ht, hp⟩

/-- A queue that keeps its rows and is not destroyed. -/
theorem rests_of_keeps (h : d.store.Keeps d.queue.name l) (hd : d.queue.phase ≠ .destroyed) :
    Rests d l := by
  refine ⟨h.partition, fun _ => ?_, fun h => absurd h hd⟩
  obtain ⟨rows, ht, -⟩ := h
  rw [ht]
  rfl

/-- Work that changes neither the queue nor its rows leaves what it has. -/
theorem Rests.unaltered (h : Rests d l) (hq : d'.queue = d.queue)
    (ht : d'.store.table = d.store.table) (hn : d'.store.tableName = d.store.tableName) :
    Follows d d' l es := by
  obtain ⟨queue, store, calls⟩ := d'
  cases hq
  refine ⟨rfl, l, ⟨?_, fun ha => ht ▸ h.made ha, h.gone⟩, fun e he => .inl he, fun hx _ => ?_⟩
  · rw [Store.rows, ht]
    exact h.rows
  · rwa [Exact, hn]

/-- Work of an active queue leaves what it had, or what the work is to leave. -/
theorem Works.follows {α : Type} {outcome : Except Fault α × Desk Durable} {result : α → Prop}
    (h : Rests d l) (ha : d.queue.phase = .active) (hw : Works d l outcome result m)
    (hm : ∀ e ∈ m, e ∈ l ∨ e ∈ es) : Follows d outcome.2 l es := by
  rcases hw with ⟨a, tally, store, calls, rfl, -, htally, hk, hu⟩ | ⟨fault, store, rfl, hm⟩
  · have hd : d.queue.phase ≠ .destroyed := by rw [ha]; nofun
    refine ⟨rfl, m, rests_of_keeps hk hd, hm, fun hx _ _ => ?_⟩
    exact ⟨htally (hx ha).1, hu.tableName ▸ (hx ha).2⟩
  · exact h.unaltered rfl hm.table hm.used.tableName

/-- After a request for contents an active queue has nothing new. -/
theorem lookup_follows (h : Rests d l) (ha : d.queue.phase = .active)
    (hr : request.looksUp = true) : Follows d ((serve request).on d).2 l request.brought := by
  have hk := h.keeps ha
  have hleft : ∀ e ∈ request.left l, e ∈ l ∨ e ∈ request.brought := fun e he => by
    unfold Request.left at he
    split at he
    · exact .inl (List.mem_filter.1 he).1
    · exact .inl he
  cases request with
  | removeUpTo limit inclusive =>
    exact Works.follows h ha (removeUpTo_works ha hk limit inclusive)
      fun e he => .inl (List.mem_filter.1 he).1
  | start | shutdown | destroy | put => cases hr
  | _ => exact Works.follows h ha (serve_on ha hk hr trivial) hleft

/-- After a put an active queue has nothing new but entries of the batch. -/
theorem put_follows (h : Rests d l) (ha : d.queue.phase = .active) (batch : List Entry)
    (bypass : Bool) : Follows d ((serve (.put batch bypass)).on d).2 l batch := by
  by_cases hidle : (d.queue.hooks.beforePut batch bypass).2 = false ∨ batch = []
  · obtain ⟨calls, ho⟩ := put_idle ha hidle
    rw [ho]
    exact h.unaltered rfl rfl rfl
  obtain ⟨hv, hb⟩ := not_or.1 hidle
  obtain ⟨before, after, ho⟩ := put_framed ha hb (Bool.not_eq_false _ ▸ hv)
  cases hov : d.queue.tally.overflow? d.queue.bounds with
  | some excess =>
    obtain ⟨store, hrun, ht, hu⟩ :=
      admitting_full (d := { d with calls := before }) ha hov batch
    rw [ho hrun]
    exact h.unaltered rfl ht hu.tableName
  | none =>
    rcases admitting_room (d := { d with calls := before }) ha (h.keeps ha) hov batch with
      ⟨_, tally, store, calls, hrun, -, htally, hk, hu⟩ | ⟨fault, store, hrun, hm⟩
    · rw [ho hrun]
      have hd : d.queue.phase ≠ .destroyed := by rw [ha]; nofun
      refine ⟨rfl, _, rests_of_keeps hk hd, fun e => Cached.mem_of_mem_foldl_enter,
        fun hx _ _ => ?_⟩
      exact ⟨htally (hx ha).1, hu.tableName ▸ (hx ha).2⟩
    · rw [ho hrun]
      exact h.unaltered rfl hm.table hm.used.tableName

/-- A queue whose destruction succeeds has nothing. -/
theorem destroy_follows (h : Rests d l) :
    (∃ d', (serve .destroy).on d = (.ok .done, d') ∧ d'.queue.storageId = d.queue.storageId ∧
      d'.queue.phase = .destroyed ∧ Rests d' []) ∨
    ∃ fault d', (serve .destroy).on d = (.error fault, d') ∧ Follows d d' l [] := by
  by_cases hd : d.queue.phase = .destroyed
  · obtain rfl := h.gone hd
    exact .inl ⟨d, on_done (destroy_destroyed hd), rfl, hd, h⟩
  rcases destroy_cases hd h.rows with ⟨store, calls, ho, hk, -⟩ | ⟨fault, store, ho, ht, hu, -⟩
  · exact .inl ⟨_, on_done ho, rfl, rfl, hk.partition, nofun, fun _ => rfl⟩
  · exact .inr ⟨fault, _, on_done ho, h.unaltered rfl ht hu.tableName⟩

/-- After any request a queue in the table has nothing new but what the request brought. -/
theorem serve_follows (h : Rests d l) (request : Request) :
    Follows d ((serve request).on d).2 l request.brought := by
  cases request using Request.casesByNeed with
  | contents request hr =>
    by_cases ha : d.queue.phase = .active
    · obtain ⟨batch, bypass, rfl⟩ | hlooks := Request.put_or_looksUp hr
      · exact put_follows h ha batch bypass
      · exact lookup_follows h ha hlooks
    · rw [serve_inactive ha hr]
      exact h.unaltered rfl rfl rfl
  | start =>
    by_cases hd : d.queue.phase = .destroyed
    · rw [show (serve .start).on d = _ from on_done (start_destroyed hd)]
      exact h.unaltered rfl rfl rfl
    rcases start_cases hd h.rows with
      ⟨tally, store, ho, hk, hu, hn, htally⟩ | ⟨fault, store, ho, hrows, hu, ht, -⟩
    · rw [show (serve .start).on d = _ from on_done ho]
      refine ⟨rfl, l, rests_of_keeps hk nofun, fun e he => .inl he, fun _ hb _ => ?_⟩
      exact ⟨(htally hb).2, hu.tableName ▸ hn⟩
    · rw [show (serve .start).on d = _ from on_done ho]
      refine ⟨rfl, l, ⟨hrows.symm ▸ h.rows, fun ha => ?_, h.gone⟩, fun e he => .inl he,
        fun hx _ ha => ⟨(hx ha).1, hu.tableName ▸ (hx ha).2⟩⟩
      rw [ht (h.made ha)]
      exact h.made ha
  | shutdown =>
    obtain ⟨calls, ho⟩ := shutdown_on d
    rw [show (serve .shutdown).on d = _ from on_done ho]
    refine ⟨rfl, l, ⟨h.rows, fun ha => ?_, fun hd => h.gone ?_⟩, fun e he => .inl he,
      fun _ _ ha => ?_⟩
    · exact absurd ha d.queue.phase.closed_ne_active
    · exact Phase.closed_eq_destroyed_iff.1 hd
    · exact absurd ha d.queue.phase.closed_ne_active
  | destroy =>
    rcases destroy_follows h with ⟨d', ho, hname, hphase, hd⟩ | ⟨fault, d', ho, hd⟩
    · rw [ho]
      refine ⟨hname, [], hd, nofun, fun _ _ ha => ?_⟩
      rw [hphase] at ha
      cases ha
    · rw [ho]
      exact hd

/-! ## Histories -/

/-- What happens around a queue in the table, one after the other, and the entries that are brought
to it meanwhile. -/
inductive Runs : Desk Durable → List Entry → Desk Durable → Prop
  | nil (d : Desk Durable) : Runs d [] d
  /-- It is asked something. -/
  | ask {d d' : Desk Durable} {es : List Entry} (hr : Runs d es d') (request : Request) :
      Runs d (es ++ request.brought) ((serve request).on d').2
  /-- The link changes, others use the store. -/
  | meanwhile {d d' : Desk Durable} {es : List Entry} (hr : Runs d es d') {store : Store}
      (hs : d'.store.Spares d'.queue.name store) : Runs d es { d' with store }
  /-- It gets other hooks. -/
  | hooked {d d' : Desk Durable} {es : List Entry} (hr : Runs d es d') (hooks : Hooks) :
      Runs d es { d' with queue := { d'.queue with hooks } }
  /-- It is dropped as it is, and made anew. -/
  | renewed {d d' : Desk Durable} {es : List Entry} (hr : Runs d es d') {bounds : Bounds}
      {q : Durable} (hq : create d'.queue.storageId bounds = .ok q) (hooks : Hooks) :
      Runs d es { queue := { q with hooks }, store := d'.store }

/-- A queue that was just made, over the rows that others of its name have left. -/
structure Made (d : Desk Durable) : Prop where
  /-- It is new. -/
  fresh : ∃ q hooks, create d.queue.storageId d.queue.bounds = .ok q ∧ d.queue = { q with hooks }
  /-- Its rows are those of entries of different ids. -/
  rows : ∃ es, Partition d.queue.name d.store.rows es

/-- A queue in the table with a history. -/
def Reachable (d : Desk Durable) : Prop := ∃ d₀ es, Made d₀ ∧ Runs d₀ es d

/-- A queue that is made has the rows of its name. -/
theorem made_rests {id : StorageId} {bounds : Bounds} {q : Durable} {s : Store}
    (hq : create id bounds = .ok q) (hp : Partition id.text s.rows l) (hooks : Hooks)
    (calls : List Call) : Rests { queue := { q with hooks }, store := s, calls } l := by
  cases create_eq hq
  exact ⟨hp, nofun, nofun⟩

theorem Rests.spared (h : Rests d l) {s : Store} (hs : d.store.Spares d.queue.name s) :
    Rests { d with store := s } l :=
  ⟨h.rows.of_rowsOf_eq hs.rows, fun ha => hs.made (h.made ha), h.gone⟩

/-- After any history a queue in the table has nothing new but what was brought. -/
theorem runs_follow (hr : Runs d es d') (h : Rests d l) :
    d'.queue.storageId = d.queue.storageId ∧ ∃ m, Rests d' m ∧ ∀ e ∈ m, e ∈ l ∨ e ∈ es := by
  induction hr with
  | nil => exact ⟨rfl, l, h, fun e he => .inl he⟩
  | ask _ request ih =>
    obtain ⟨hname, m, hm, hfrom⟩ := ih
    obtain ⟨hname', n, hn, hfrom', -⟩ := serve_follows hm request
    refine ⟨hname'.trans hname, n, hn, fun e he => ?_⟩
    rw [List.mem_append]
    rcases hfrom' e he with he | he
    · exact (hfrom e he).imp_right .inl
    · exact .inr (.inr he)
  | meanwhile _ hs ih =>
    obtain ⟨hname, m, hm, hfrom⟩ := ih
    exact ⟨hname, m, hm.spared hs, hfrom⟩
  | hooked _ hooks ih =>
    obtain ⟨hname, m, hm, hfrom⟩ := ih
    exact ⟨hname, m, ⟨hm.rows, hm.made, hm.gone⟩, hfrom⟩
  | renewed _ hq hooks ih =>
    obtain ⟨hname, m, hm, hfrom⟩ := ih
    exact ⟨(by rw [create_eq hq]; exact hname), m, made_rests hq hm.rows hooks [], hfrom⟩

/-- A queue in the table with a history has a list of entries. -/
theorem reachable_rests (h : Reachable d) : ∃ l, Rests d l := by
  obtain ⟨d₀, es, ⟨⟨q, hooks, hq, he⟩, l, hp⟩, hr⟩ := h
  have h₀ : Rests d₀ l := by
    have := made_rests hq hp hooks d₀.calls
    rw [← he] at this
    exact this
  obtain ⟨-, m, hm, -⟩ := runs_follow hr h₀
  exact ⟨m, hm⟩

end Durable

end Spillway
