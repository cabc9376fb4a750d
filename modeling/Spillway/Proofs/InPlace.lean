import Spillway.Proofs.Bookkeeping

/-!
# One entry changes in place

Changing a stored entry of a queue in the table is seen in that entry and nowhere else: it stays
where it is in the order of service, every other row of the table is the row it was, and the totals
change by what the entry has become against what it has been. The work may fail for want of the
database, and then nothing has changed.
-/

namespace Spillway

open Desk

/-- Of two entries that come it does not matter which comes first. -/
theorem Tally.add_right_comm (t : Tally) (s s' : Slot) : (t.add s).add s' = (t.add s').add s := by
  cases hs : s.persistent <;> cases hs' : s'.persistent <;>
    simp [Tally.add, hs, hs'] <;> omega

namespace Durable

variable {d d' : Desk Durable} {l : List Entry} {e f : Entry}

/-! ## Histories -/

/-- A queue in the table with a history of jobs, over whatever rows it is opened. -/
inductive Employed : Desk Durable → Prop
  /-- It is made, over whatever rows an earlier one of its name has left. -/
  | made {d : Desk Durable} (h : Made d) : Employed d
  /-- It is given a job, whatever comes of it. -/
  | job {d : Desk Durable} (h : Employed d) (job : Job) : Employed (job.act.on d).2
  /-- The link changes, others use the store, and call hooks of their own. -/
  | meanwhile {d : Desk Durable} (h : Employed d) {s : Store} (hs : d.store.Spares d.queue.name s)
      (calls : List Call) : Employed { queue := d.queue, store := s, calls }
  /-- It gets other hooks. -/
  | hooked {d : Desk Durable} (h : Employed d) (hooks : Hooks) :
      Employed { d with queue := { d.queue with hooks } }
  /-- It is dropped as it is, and made anew. -/
  | renewed {d : Desk Durable} (h : Employed d) {bounds : Bounds} {q : Durable}
      (hq : create d.queue.storageId bounds = .ok q) (hooks : Hooks) (calls : List Call) :
      Employed { queue := { q with hooks }, store := d.store, calls }

theorem Worked.employed (h : Worked d) : Employed d := by
  induction h with
  | made h => exact .made h
  | job _ job _ ih => exact ih.job job
  | meanwhile _ hs calls ih => exact ih.meanwhile hs calls
  | hooked _ hooks ih => exact ih.hooked hooks
  | renewed _ hq hooks calls ih => exact ih.renewed hq hooks calls

/-- After work of an active queue its rows are those of a list. -/
theorem Works.rests {α : Type} {outcome : Except Fault α × Desk Durable} {result : α → Prop}
    {m : List Entry} (hw : Works d l outcome result m) (h : Rests d l)
    (ha : d.queue.phase = .active) : ∃ m, Rests outcome.2 m := by
  rcases hw with ⟨a, tally, store, calls, rfl, -, -, hk, -⟩ | ⟨fault, store, rfl, hm⟩
  · have hd : d.queue.phase ≠ .destroyed := by rw [ha]; nofun
    exact ⟨m, rests_of_keeps hk hd⟩
  · exact ⟨l, h.unmoved (.of_table rfl hm.table)⟩

/-- So they are after work whose answer is seen differently. -/
theorem rests_seen {α β : Type} {act : Action (Desk Durable) α} (h : ∃ m, Rests (act.on d).2 m)
    (view : α → β) : ∃ m, Rests ((act >>= fun a => pure (view a)).on d).2 m := by
  rw [Action.on_seen]
  exact h

/-- After any job the rows of a queue are those of a list. -/
theorem Job.rests (h : Rests d l) (job : Job) : ∃ m, Rests (job.act.on d).2 m := by
  by_cases hask : ∃ request, job = .ask request
  · obtain ⟨request, rfl⟩ := hask
    obtain ⟨-, m, hm, -⟩ := serve_follows h request
    exact rests_seen ⟨m, hm⟩ fun _ => ()
  by_cases ha : d.queue.phase = .active
  · have hk := h.keeps ha
    cases job with
    | ask request => exact absurd ⟨request, rfl⟩ hask
    | modify e => exact rests_seen ((modifyEntry_works ha hk e).rests h ha) fun _ => ()
    | takeIds ids => exact rests_seen ((takeIds_works ha hk ids).rests h ha) fun _ => ()
    | deleteIds ids => exact rests_seen ((deleteIds_works ha hk ids).rests h ha) fun _ => ()
    | slots => exact rests_seen ((slots_works ha hk).rests h ha) fun _ => ()
    | peekIds ids =>
      refine rests_seen ⟨l, ?_⟩ fun _ => ()
      unfold Durable.peekIds
      split
      · exact h
      · exact h.unmoved (reading_unmoved h ha .getByIds fun rows hp => entriesByIds_reads hp ids)
    | hold entries =>
      rw [Job.act, Durable.hold]
      split
      · exact ⟨l, h⟩
      · have hwrite := (write_works hk fun rows hp => hp.enterAll entries).changing ha
        exact rests_seen (hwrite.rests h ha) fun _ => ()
  · rcases Job.idle ha job fun request hj => absurd ⟨request, hj⟩ hask with ho | ⟨fault, ho⟩
    · rw [ho]
      exact ⟨l, h⟩
    · rw [ho]
      exact ⟨l, h⟩

/-- Whatever its history, the rows of a queue are those of a list. -/
theorem Employed.rests (h : Employed d) : ∃ l, Rests d l := by
  induction h with
  | made h =>
    obtain ⟨⟨q, hooks, hq, he⟩, l, hp⟩ := h
    have hrests := made_rests hq hp hooks []
    rw [← he] at hrests
    exact ⟨l, hp, fun ha => hrests.made ha, fun hd => hrests.gone hd⟩
  | job _ job ih =>
    obtain ⟨l, hl⟩ := ih
    exact job.rests hl
  | meanwhile _ hs calls ih =>
    obtain ⟨l, hl⟩ := ih
    exact ⟨l, hl.rows.of_rowsOf_eq hs.rows, fun ha => hs.made (hl.made ha), hl.gone⟩
  | hooked _ hooks ih =>
    obtain ⟨l, hl⟩ := ih
    exact ⟨l, hl.rows, hl.made, hl.gone⟩
  | renewed _ hq hooks calls ih =>
    obtain ⟨l, hl⟩ := ih
    exact ⟨l, made_rests hq hl.rows hooks calls⟩

/-! ## What changes -/

/-- The ids of the rows, in the order of service, over a link that serves. -/
theorem references_of_serving (ha : d.queue.phase = .active) (hk : d.store.Keeps d.queue.name l)
    (hs : d.store.link.Serving) : (references.on d).1 = .ok (l.map Entry.id) := by
  have hw : Works d l (references.on d) (· = l.map Entry.id) l :=
    (slots_works ha hk).map (fun slots => slots.map idOf) fun slots hslots => by
      rw [hslots, List.map_map]
      rfl
  rcases hw with ⟨a, tally, store, calls, ho, rfl, -⟩ | ⟨fault, store, -, hm⟩
  · rw [ho]
  · exact absurd hs hm.unserved

/-- The entry `f` has been given the size, the flag and the content of `e` where it is, and nothing
else has changed. -/
structure InPlace (d d' : Desk Durable) (f e : Entry) : Prop where
  /-- The entry was stored under the id. -/
  stored : f ∈ contents d ∧ f.id = e.id
  /-- Every entry is where it was in the order of service, at the level that it had. -/
  places : contents d' = (contents d).map fun g =>
    if g = f then { f with size := e.size, persistent := e.persistent, payload := e.payload } else g
  /-- One row has changed, and every other is as it was, whatever queue it belongs to. -/
  rows : d'.store.rows = d.store.rows.map fun r =>
    if r = Row.ofEntry d.queue.name f then
      Row.ofEntry d.queue.name
        { f with size := e.size, persistent := e.persistent, payload := e.payload }
    else r
  /-- The ids are read as before. -/
  references : d.store.link.Serving → (references.on d').1 = (references.on d).1 ∧
    (references.on d).1 = .ok ((contents d).map Entry.id)
  /-- Of the queue itself only the totals have changed. -/
  queue : d'.queue = { d.queue with tally := (d.queue.tally.subtract f.slot).add e.slot }

/-- Of the entries of a list only the one of the id is revised. -/
theorem map_revise_eq (ho : Ordered l) (hf : f ∈ l) (hid : f.id = e.id) :
    l.map e.revise = l.map fun g =>
      if g = f then { f with size := e.size, persistent := e.persistent, payload := e.payload }
      else g := by
  refine List.map_congr_left fun g hg => ?_
  by_cases he : g = f
  · rw [if_pos he, he, Entry.revise, if_pos hid]
  · rw [if_neg he, Entry.revise_of_ne]
    exact fun hg' => he (ho.eq_of_id hg hf (hg'.trans hid.symm))

/-- Of the rows of a table only the one of the id is revised. -/
theorem rows_revise_eq {queue : String} {rows : List Row} (hp : Partition queue rows l) (hf : f ∈ l)
    (hid : f.id = e.id) : rows.map (Row.revise queue e) = rows.map fun r =>
      if r = Row.ofEntry queue f then
        Row.ofEntry queue
          { f with size := e.size, persistent := e.persistent, payload := e.payload }
      else r := by
  have hrow : Statement.isRowOf queue e.id (Row.ofEntry queue f) = true := by
    rw [Partition.isRowOf_ofEntry, decide_eq_true hid]
  refine List.map_congr_left fun r hr => ?_
  by_cases he : r = Row.ofEntry queue f
  · rw [if_pos he, he, Row.revise_ofEntry, Entry.revise, if_pos hid]
  · rw [if_neg he]
    refine Row.revise_of_other (Bool.eq_false_iff.2 fun hid' => he ?_)
    -- A row of the id belongs to the queue, so it is the row of an entry of the list.
    obtain ⟨written, hw, hwritten⟩ := hp.rows
    have hown : r ∈ Statement.rowsOf queue rows := by
      simp only [Statement.isRowOf, Bool.and_eq_true] at hid'
      exact List.mem_filter.2 ⟨hr, hid'.1⟩
    rw [hwritten] at hown
    obtain ⟨g, hg, rfl⟩ := List.mem_map.1 hown
    rw [Partition.isRowOf_ofEntry, decide_eq_true_eq] at hid'
    rw [hp.order.eq_of_id (hw.mem_iff.1 hg) hf (hid'.trans hid.symm)]

/-- The totals of a queue that has the entry lose what it was, and gain what it has become. -/
theorem retold_exact (ho : Ordered l) (hf : f ∈ l) :
    (((Tally.total l).subtract f.slot).add e.slot).add f.slot = (Tally.total l).add e.slot := by
  obtain ⟨rest, hpart⟩ := Job.part_of_sublist ho (.inl (List.singleton_sublist.2 hf))
  obtain ⟨hcovered, -⟩ := Tally.covers_total hpart
  rw [Tally.add_right_comm, hcovered]

/-- What is left of a queue whose row of the id was revised. -/
theorem inPlace_of_found {rows : List Row} (ha : d.queue.phase = .active)
    (ht : d.store.table = some rows) (hp : Partition d.queue.name rows l) (hf : f ∈ l)
    (hid : f.id = e.id) {s' : Store}
    (ht' : s'.table = some (rows.map (Row.revise d.queue.name e))) (hu : d.store.Used s')
    (calls : List Call) :
    InPlace d (turned d ((d.queue.tally.subtract f.slot).add e.slot) s' calls) f e := by
  let d' := turned d ((d.queue.tally.subtract f.slot).add e.slot) s' calls
  have hrows : d.store.rows = rows := by rw [Store.rows, ht]; rfl
  have hrows' : d'.store.rows = rows.map (Row.revise d.queue.name e) := by
    rw [Store.rows, show d'.store.table = _ from ht']
    rfl
  have hp' := (hp.modifyEntry e).2
  have hcontents : contents d = l := by rw [contents, hrows, hp.entriesOf_eq]
  have hcontents' : contents d' = l.map e.revise := by
    rw [contents, hrows']
    exact hp'.entriesOf_eq
  refine ⟨⟨hcontents ▸ hf, hid⟩, ?_, ?_, fun hs => ?_, rfl⟩
  · rw [hcontents', hcontents, map_revise_eq hp.order hf hid]
  · rw [hrows', hrows, rows_revise_eq hp hf hid]
  · have hread := references_of_serving ha ⟨rows, ht, hp⟩ hs
    have hread' := references_of_serving (d := d') ha ⟨_, ht', hp'⟩ (hu.link.serving hs)
    have hids : (l.map e.revise).map Entry.id = l.map Entry.id := by
      rw [List.map_map]
      exact List.map_congr_left fun g _ => congrArg Key.id (e.key_revise g)
    rw [show (references.on (turned d _ s' calls)).1 = _ from hread', hread, hids, hcontents]
    exact ⟨rfl, rfl⟩

/-- An active queue in the table changes a stored entry in its place. If it has none of the id it
says so, and nothing changes; if it fails, nothing changes either. As long as the totals were exact
they are changed by exactly what the entry has become against what it was. -/
theorem modifyEntry_in_place (h : Employed d) (ha : d.queue.phase = .active) (e : Entry) :
    (d.store.link.Serving →
      ((modifyEntry e).on d).1 = .ok (decide (∃ f ∈ contents d, f.id = e.id))) ∧
    (∀ d', (modifyEntry e).on d = (.ok true, d') → ∃ f, InPlace d d' f e ∧
      (Worked d → d'.queue.tally.add f.slot = d.queue.tally.add e.slot ∧
        d'.queue.tally = Tally.total (contents d'))) ∧
    (∀ d', (modifyEntry e).on d = (.ok false, d') → (∀ f ∈ contents d, f.id ≠ e.id) ∧
      d'.queue = d.queue ∧ d'.store.table = d.store.table) ∧
    ∀ fault d', (modifyEntry e).on d = (.error fault, d') →
      d'.queue = d.queue ∧ d'.store.table = d.store.table := by
  obtain ⟨l, hl⟩ := h.rests
  obtain ⟨rows, ht, hp⟩ := hl.keeps ha
  have hcontents := hl.contents
  rcases modifyEntry_cases ha ht hp e with ⟨s', calls, ho, ht', hu⟩ | ⟨fault, s', ho, hm⟩
  · cases hf : l.find? fun f => decide (f.id = e.id) with
    | none =>
      have hnone : ∀ f ∈ l, f.id ≠ e.id := fun f hf' => by
        simpa using List.find?_eq_none.1 hf f hf'
      have hoff : (modifyEntry e).on d = (.ok false, turned d d.queue.tally s' calls) := by
        rw [ho, hf]
        rfl
      rw [hp.map_revise_of_ne hnone] at ht'
      rw [hoff, hcontents]
      refine ⟨fun _ => by simpa using hnone, by simp, fun d' hd' => ?_, by simp⟩
      cases hd'
      exact ⟨hnone, rfl, ht'.trans ht.symm⟩
    | some f =>
      have hid : f.id = e.id := by simpa using List.find?_some hf
      have hmem := List.mem_of_find?_eq_some hf
      have hplace := inPlace_of_found ha ht hp hmem hid ht' hu calls
      have hon : (modifyEntry e).on d =
          (.ok true, turned d ((d.queue.tally.subtract f.slot).add e.slot) s' calls) := by
        rw [ho, hf]
        rfl
      rw [hon]
      refine ⟨fun _ => ?_, fun d' hd' => ?_, by simp, by simp⟩
      · simpa using ⟨f, hcontents ▸ hmem, hid⟩
      · cases hd'
        refine ⟨f, hplace, fun hw => ?_⟩
        obtain ⟨m, hm⟩ := hw.accurate
        obtain rfl : m = l := hm.rests.contents.symm.trans hcontents
        rw [hplace.queue, hplace.places, hcontents, ← map_revise_eq hp.order hmem hid, hm.tally ha]
        exact ⟨retold_exact hp.order hmem, (Tally.total_revise hp.order hmem hid).symm⟩
  · rw [ho]
    refine ⟨fun hs => absurd hs hm.unserved, by simp, by simp, fun fault' d' hd' => ?_⟩
    cases hd'
    exact ⟨rfl, hm.table⟩

/-- A queue in the table with two entries. -/
def paired : Desk Durable :=
  ((Job.act (.ask (.put [.blank 1 true, .blank 2 false] false))).on
    ((serve .start).on newborn).2).2

theorem worked_paired : Worked paired :=
  worked_started.job (.ask (.put [.blank 1 true, .blank 2 false] false)) nofun

/-- The first of them is given another flag and size, by an entry of another level; it stays the
first. -/
theorem modifyEntry_in_place_paired :
    Worked paired ∧ paired.queue.phase = .active ∧ paired.store.link.Serving ∧
    ∃ d' f, (modifyEntry ⟨1, .lowest, 9, false, ⟨"new", .empty⟩⟩).on paired = (.ok true, d') ∧
      InPlace paired d' f ⟨1, .lowest, 9, false, ⟨"new", .empty⟩⟩ ∧
      contents d' = [⟨1, .normal, 9, false, ⟨"new", .empty⟩⟩, .blank 2 false] ∧
      paired.queue.tally = ⟨2, 8, 1, 4⟩ ∧ d'.queue.tally = ⟨2, 13, 0, 0⟩ := by
  let e : Entry := ⟨1, .lowest, 9, false, ⟨"new", .empty⟩⟩
  have ha : paired.queue.phase = .active := by decide +kernel
  have hs : paired.store.link.Serving := by decide +kernel
  obtain ⟨hanswer, hdone, -⟩ := modifyEntry_in_place worked_paired.employed ha e
  have hok : ((modifyEntry e).on paired).1 = .ok true := by
    rw [hanswer hs]
    decide +kernel
  have ho : (modifyEntry e).on paired = (.ok true, ((modifyEntry e).on paired).2) :=
    Prod.ext hok rfl
  obtain ⟨f, hplace, htally⟩ := hdone _ ho
  have hcontents : contents ((modifyEntry e).on paired).2 =
      [⟨1, .normal, 9, false, ⟨"new", .empty⟩⟩, .blank 2 false] := by decide +kernel
  refine ⟨worked_paired, ha, hs, _, f, ho, hplace, hcontents, by decide +kernel, ?_⟩
  rw [(htally worked_paired).2, hcontents]
  decide

end Durable

end Spillway
