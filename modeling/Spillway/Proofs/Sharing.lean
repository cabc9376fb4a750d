import Spillway.Proofs.Conduct

/-!
# Stores that are alike to a queue

Two stores are alike to a queue if they have the same rows of it, whatever else they hold, and calls
fare alike over their links. Work on alike stores comes to the same end and leaves them alike, and
work for one queue leaves a store as alike to all other queues as it was.
-/

namespace Spillway

variable {α : Type} {part other : String} {s s' t t' : Store}

/-! ## Links over which calls fare alike -/

/-- Every call over a link fails, and leaves the link as it is: it is known to be lost, or all
connections are in use. -/
structure Link.Stuck (l : Link) : Prop where
  /-- Nothing changes by itself. -/
  steady : l.forecast = []
  /-- No connection can be had. -/
  refuses : l.available = false ∨
    l.reachable = true ∧ l.idle = 0 ∧ l.settings.connections ≤ l.busy

/-- Calls over two links fare alike: both serve, or they are the same link and every call fails. -/
def Link.Even (l l' : Link) : Prop := l.Serving ∧ l'.Serving ∨ l.Stuck ∧ l' = l

/-- A link to a database that stays reachable serves or is stuck. -/
theorem Link.even_self {l : Link} (hr : l.reachable = true) (hf : l.forecast = []) : l.Even l := by
  cases ha : l.available with
  | false => exact .inr ⟨⟨hf, .inl ha⟩, rfl⟩
  | true =>
    by_cases hfree : 0 < l.idle ∨ l.idle + l.busy < l.settings.connections
    · have hserving : l.Serving := ⟨ha, hr, hf, hfree⟩
      exact .inl ⟨hserving, hserving⟩
    · exact .inr ⟨⟨hf, .inr ⟨hr, by omega, by omega⟩⟩, rfl⟩

theorem Link.Serving.not_stuck {l : Link} (h : l.Serving) : ¬ l.Stuck := by
  rintro ⟨-, ha | ⟨-, hidle, hbusy⟩⟩
  · rw [h.available] at ha
    cases ha
  · have hfree := h.free
    omega

namespace Store

/-- Over a link that serves, the work of a call is done, or the database says why not. -/
theorem run_serving (task : Task)
    (work : Option (List Row) → Except Refusal (α × Option (List Row))) (hs : s.link.Serving) :
    ∃ link : Link, link.Serving ∧ (run task work).on s =
      match work s.table with
      | .ok (a, table) => (.ok a, { s with table, link })
      | .error refusal => (.error (.failed task refusal), { s with link }) := by
  rcases run_cases task work s with ⟨link, hu, ho⟩ | ⟨fault, s', -, hm⟩
  · refine ⟨link.giveBack, hu.serving hs, ho.trans ?_⟩
    cases work s.table with
    | ok p => rfl
    | error refusal =>
      have hreach : link.giveBack.reachable = true := (hu.serving hs).reachable
      simp only [refuse, Action.on_of, hreach, if_true]
  · exact absurd hs hm.unserved

/-- Over a link that is stuck, every call fails in the same way and changes nothing. -/
theorem run_stuck (task : Task) {link : Link} (hl : link.Stuck) : ∃ fault : Fault,
    ∀ {β : Type} (work : Option (List Row) → Except Refusal (β × Option (List Row))) (s : Store),
      s.link = link → (run task work).on s = (.error fault, s) := by
  have hout : ∃ fault : Fault, ∀ s : Store, s.link = link →
      (checkout task).on s = (.error fault, s) := by
    have hadv : link.advance = link := by rw [Link.advance, hl.steady]
    cases ha : link.available with
    | false =>
      refine ⟨.unavailable task (.lost link.place), fun s hs => ?_⟩
      subst hs
      simp [checkout, hadv, ha]
    | true =>
      obtain ⟨hr, hidle, hbusy⟩ := hl.refuses.resolve_left (by simp [ha])
      have hnone : link.acquire = (false, link) := by
        unfold Link.acquire
        simp [hr, hidle, Nat.not_lt.2 hbusy]
      refine ⟨.unavailable task (.exhausted link.settings.waitMillis (link.idle + link.busy)),
        fun s hs => ?_⟩
      subst hs
      simp [checkout, hadv, ha, hnone, hr]
  obtain ⟨fault, hout⟩ := hout
  refine ⟨fault, fun work s hs => ?_⟩
  simp only [run, Action.on_bind, Action.on_get, hout s hs]

/-! ## Alike stores -/

/-- The table exists. -/
def Founded (s : Store) : Prop := s.table.isSome = true

/-- Two stores that are alike to a queue. Where the second has the table, the first has it too. -/
structure Alike (part : String) (s t : Store) : Prop where
  /-- The table has the same name. -/
  tableName : t.tableName = s.tableName
  /-- It has the same rows of the queue. -/
  rows : Statement.rowsOf part t.rows = Statement.rowsOf part s.rows
  /-- Calls fare alike. -/
  link : s.link.Even t.link
  /-- The second table does not exist without the first. -/
  founded : t.Founded → s.Founded

/-- What work on the table comes to, as far as a queue can tell. -/
inductive Agree (part : String) : Except Refusal (α × Option (List Row)) →
    Except Refusal (α × Option (List Row)) → Prop
  | ok (a : α) {rows rows' : List Row}
      (h : Statement.rowsOf part rows' = Statement.rowsOf part rows) :
      Agree part (.ok (a, some rows)) (.ok (a, some rows'))
  | error (refusal : Refusal) : Agree part (.error refusal) (.error refusal)

/-- Calls whose work comes to the same end on alike stores come to the same end and leave them
alike. A call that succeeds leaves a table in both. -/
theorem Alike.run (h : Alike part s t) (task : Task)
    {work work' : Option (List Row) → Except Refusal (α × Option (List Row))}
    (hw : Agree part (work s.table) (work' t.table)) :
    ((Store.run task work).on s).1 = ((Store.run task work').on t).1 ∧
      Alike part ((Store.run task work).on s).2 ((Store.run task work').on t).2 ∧
      (t.Founded → ((Store.run task work').on t).2.Founded) ∧
      (∀ a, ((Store.run task work').on t).1 = .ok a → ((Store.run task work').on t).2.Founded) := by
  rcases h.link with ⟨hs, ht⟩ | ⟨hstuck, hsame⟩
  · obtain ⟨link, hlink, ho⟩ := run_serving task work hs
    obtain ⟨link', hlink', ho'⟩ := run_serving task work' ht
    rw [ho, ho']
    generalize work s.table = outcome at hw ⊢
    generalize work' t.table = outcome' at hw ⊢
    cases hw with
    | ok a hrows =>
      exact ⟨rfl, ⟨h.tableName, hrows, .inl ⟨hlink, hlink'⟩, fun _ => rfl⟩, fun _ => rfl,
        fun _ _ => rfl⟩
    | error refusal =>
      exact ⟨rfl, ⟨h.tableName, h.rows, .inl ⟨hlink, hlink'⟩, h.founded⟩, id, fun _ => nofun⟩
  · obtain ⟨fault, hfail⟩ := run_stuck task hstuck
    rw [hfail work s rfl, hfail work' t hsame]
    exact ⟨rfl, h, id, fun _ => nofun⟩

/-- Making the table on alike stores. -/
theorem Alike.createTable (h : Alike part s t) :
    (Store.createTable.on s).1 = (Store.createTable.on t).1 ∧
      Alike part (Store.createTable.on s).2 (Store.createTable.on t).2 ∧
      (t.Founded → (Store.createTable.on t).2.Founded) ∧
      (∀ a, (Store.createTable.on t).1 = .ok a → (Store.createTable.on t).2.Founded) := by
  simp only [Store.createTable, Action.on_bind, Action.on_get]
  refine h.run .createTable ?_
  rw [h.tableName]
  cases TableName.isReserved s.tableName with
  | true => exact .error _
  | false => exact .ok () h.rows

/-- A statement that gives the same on two tables does so as the work of a call. -/
theorem agree_call {outcome outcome' : Except Refusal (α × List Row)}
    (h : Statement.Agree part outcome outcome') :
    Agree part (outcome.map fun (a, rows) => (a, some rows))
      (outcome'.map fun (a, rows) => (a, some rows)) := by
  cases h with
  | ok a hrows => exact .ok a hrows.symm
  | error refusal => exact .error refusal

/-- A local statement on alike stores that both have the table. -/
theorem Alike.call {statement : Statement α} (h : Alike part s t) (ht : t.Founded) (task : Task)
    (hl : Statement.Local part statement) :
    ((Store.call task statement).on s).1 = ((Store.call task statement).on t).1 ∧
      Alike part ((Store.call task statement).on s).2 ((Store.call task statement).on t).2 ∧
      (t.Founded → ((Store.call task statement).on t).2.Founded) ∧
      (∀ a, ((Store.call task statement).on t).1 = .ok a →
        ((Store.call task statement).on t).2.Founded) := by
  obtain ⟨rows', hrows'⟩ := Option.isSome_iff_exists.1 ht
  obtain ⟨rows, hrows⟩ := Option.isSome_iff_exists.1 (h.founded ht)
  have hsame := h.rows
  rw [Store.rows, Store.rows, hrows, hrows'] at hsame
  unfold Store.call
  refine h.run task ?_
  rw [hrows, hrows']
  exact agree_call (hl.agree hsame.symm)

/-- An errand on alike stores that both have the table. -/
theorem Alike.errand {work : Action Store α} (h : Alike part s t) (ht : t.Founded)
    (he : Errand part work) : (work.on s).1 = (work.on t).1 ∧
      Alike part (work.on s).2 (work.on t).2 ∧ (work.on t).2.Founded := by
  cases he with
  | count => exact ⟨rfl, ⟨h.tableName, h.rows, h.link, h.founded⟩, ht⟩
  | create =>
    obtain ⟨ho, hafter, hf, -⟩ := h.createTable
    exact ⟨ho, hafter, hf ht⟩
  | call task hl =>
    obtain ⟨ho, hafter, hf, -⟩ := h.call ht task hl
    exact ⟨ho, hafter, hf ht⟩

/-! ## What is done for others -/

/-- What work for one queue does to the store does not concern another one. -/
structure Passed (other : String) (s s' : Store) : Prop where
  /-- The rows, the name and the table. -/
  spares : s.Spares other s'
  /-- A link that serves goes on serving. -/
  serving : s.link.Serving → s'.link.Serving
  /-- One that is stuck stays as it is. -/
  stuck : s.link.Stuck → s'.link = s.link

theorem Passed.refl (s : Store) : Passed other s s := ⟨⟨rfl, id, rfl⟩, id, fun _ => rfl⟩

theorem Passed.trans {s'' : Store} (h : Passed other s s') (h' : Passed other s' s'') :
    Passed other s s'' := by
  refine ⟨⟨h'.spares.tableName.trans h.spares.tableName, h'.spares.made ∘ h.spares.made,
    h'.spares.rows.trans h.spares.rows⟩, h'.serving ∘ h.serving, fun hs => ?_⟩
  have hsame := h.stuck hs
  exact (h'.stuck (hsame.symm ▸ hs)).trans hsame

theorem Passed.even (h : Passed other s s') (hl : s.link.Even s.link) :
    s'.link.Even s'.link := by
  rcases hl with ⟨hs, -⟩ | ⟨hstuck, -⟩
  · exact .inl ⟨h.serving hs, h.serving hs⟩
  · rw [h.stuck hstuck]
    exact .inr ⟨hstuck, rfl⟩

/-- So alike stores stay alike. -/
theorem Alike.passed (h : Alike other s t) (hp : Passed other s s') : Alike other s' t := by
  refine ⟨h.tableName.trans hp.spares.tableName.symm, h.rows.trans hp.spares.rows.symm, ?_,
    fun ht => hp.spares.made (h.founded ht)⟩
  rcases h.link with ⟨hs, ht⟩ | ⟨hstuck, hsame⟩
  · exact .inl ⟨hp.serving hs, ht⟩
  · have hlink := hp.stuck hstuck
    exact .inr ⟨hlink.symm ▸ hstuck, hsame.trans hlink.symm⟩

/-- A call that keeps the table, and in it the rows of another queue, is nothing to that one. -/
theorem run_passed (task : Task) {work : Option (List Row) → Except Refusal (α × Option (List Row))}
    (hl : s.link.Even s.link) (hw : ∀ a table, work s.table = .ok (a, table) → ∃ rows,
      table = some rows ∧ Statement.rowsOf other rows = Statement.rowsOf other s.rows) :
    Passed other s ((run task work).on s).2 := by
  rcases hl with ⟨hs, -⟩ | ⟨hstuck, -⟩
  · obtain ⟨link, hlink, ho⟩ := run_serving task work hs
    rw [ho]
    cases hwork : work s.table with
    | ok p =>
      obtain ⟨rows, htable, hrows⟩ := hw p.1 p.2 hwork
      refine ⟨⟨rfl, fun _ => ?_, ?_⟩, fun _ => hlink, fun h => absurd h hs.not_stuck⟩
      · change p.2.isSome = true
        rw [htable]
        rfl
      · change Statement.rowsOf other (p.2.getD []) = _
        rw [htable]
        exact hrows
    | error refusal =>
      exact ⟨⟨rfl, id, rfl⟩, fun _ => hlink, fun h => absurd h hs.not_stuck⟩
  · obtain ⟨fault, hfail⟩ := run_stuck task hstuck
    rw [hfail work s rfl]
    exact .refl s

/-- An errand for one queue is nothing to another one. -/
theorem Errand.passed {work : Action Store α} (he : Errand part work) (hne : other ≠ part)
    (hl : s.link.Even s.link) : Passed other s (work.on s).2 := by
  cases he with
  | count => exact ⟨⟨rfl, id, rfl⟩, id, fun _ => rfl⟩
  | create =>
    simp only [createTable, Action.on_bind, Action.on_get]
    refine run_passed .createTable hl fun a table hwork => ?_
    split at hwork
    · cases hwork
    · cases hwork
      exact ⟨_, rfl, rfl⟩
  | @call _ task statement hlocal =>
    unfold Store.call
    refine run_passed task hl fun a table hwork => ?_
    cases ht : s.table with
    | none =>
      rw [ht] at hwork
      cases hwork
    | some rows =>
      rw [ht] at hwork
      cases hrun : statement rows with
      | error refusal =>
        simp only [hrun] at hwork
        cases hwork
      | ok p =>
        simp only [hrun] at hwork
        cases hwork
        refine ⟨p.2, rfl, ?_⟩
        rw [Store.rows, ht]
        exact hlocal.spares hrun other hne

end Store

/-! ## Work on alike stores -/

namespace Desk

variable {Q : Type} {m : Manner Q} {act : Action (Desk Q) α} {d e : Desk Q}

/-- Two desks with the same queue, over stores that are alike to it. -/
structure Beside (part : Q → String) (d e : Desk Q) : Prop where
  queue : e.queue = d.queue
  calls : e.calls = d.calls
  store : d.store.Alike (part d.queue) e.store

/-- Work that does not ask the store does not depend on it. -/
theorem Proper.storeless (h : Proper m act) (hfits : ∀ fault, m.fits fault) (ha : ¬ m.asks)
    (d : Desk Q) (s : Store) : (act.on d).2.store = d.store ∧
      act.on { d with store := s } = ((act.on d).1, { (act.on d).2 with store := s }) := by
  induction h generalizing d with
  | own result next said ho ht hf =>
    rw [ho, ho]
    exact ⟨rfl, rfl⟩
  | errand hasks => exact absurd hasks ha
  | @bind α β act next h hn ih ihn =>
    obtain ⟨hstore, hsame⟩ := ih d
    rw [Action.on_bind, Action.on_bind, hsame]
    rcases ho : act.on d with ⟨fault | a, d'⟩
    · rw [ho] at hstore
      exact ⟨hstore, rfl⟩
    · rw [ho] at hstore
      obtain ⟨hstore', hsame'⟩ := ihn a d'
      exact ⟨hstore'.trans hstore, hsame'⟩
  | @handle α β act next h hok herror ih ihok iherror =>
    obtain ⟨hstore, hsame⟩ := ih d
    have hattempt : act.attempt.on { d with store := s } =
        (.ok (act.on d).1, { (act.on d).2 with store := s }) := by
      rw [Action.on_attempt_of hsame]
    rw [Action.on_bind_of_ok hattempt]
    rcases ho : act.on d with ⟨fault | a, d'⟩
    · rw [ho] at hstore
      rw [Action.on_bind_of_ok (Action.on_attempt_of ho)]
      obtain ⟨hstore', hsame'⟩ := iherror fault (hfits fault) d'
      exact ⟨hstore'.trans hstore, hsame'⟩
    · rw [ho] at hstore
      rw [Action.on_bind_of_ok (Action.on_attempt_of ho)]
      obtain ⟨hstore', hsame'⟩ := ihok a d'
      exact ⟨hstore'.trans hstore, hsame'⟩

/-- Work on alike stores that both have the table comes to the same. -/
theorem Proper.beside (h : Proper m act) (hfits : ∀ fault, m.fits fault)
    (hturns : ∀ {q q'}, m.turns q q' → m.part q' = m.part q) (hb : Beside m.part d e)
    (ht : e.store.Founded) : (act.on d).1 = (act.on e).1 ∧
      Beside m.part (act.on d).2 (act.on e).2 ∧ (act.on e).2.store.Founded := by
  induction h generalizing d e with
  | own result next said ho hturn hf =>
    rw [ho, ho, hb.queue]
    refine ⟨rfl, ⟨rfl, ?_, ?_⟩, ht⟩
    · exact congrArg (· ++ said d.queue) hb.calls
    · change Store.Alike (m.part (next d.queue)) d.store e.store
      rw [hturns (hturn d.queue)]
      exact hb.store
  | errand hasks work hw ho =>
    obtain ⟨hsame, hafter, hfounded⟩ := hb.store.errand ht (hw _)
    rw [ho, ho, hb.queue]
    exact ⟨hsame, ⟨rfl, hb.calls, hafter⟩, hfounded⟩
  | @bind α β act next h hn ih ihn =>
    obtain ⟨hsame, hafter, hfounded⟩ := ih hb ht
    rw [Action.on_bind, Action.on_bind]
    rcases ho : act.on d with ⟨fault | a, d'⟩
    · rcases ho' : act.on e with ⟨fault' | a', e'⟩
      · rw [ho, ho'] at hsame hafter
        rw [ho'] at hfounded
        cases hsame
        exact ⟨rfl, hafter, hfounded⟩
      · rw [ho, ho'] at hsame
        cases hsame
    · rcases ho' : act.on e with ⟨fault' | a', e'⟩
      · rw [ho, ho'] at hsame
        cases hsame
      · rw [ho, ho'] at hsame hafter
        rw [ho'] at hfounded
        cases hsame
        exact ihn a hafter hfounded
  | @handle α β act next h hok herror ih ihok iherror =>
    obtain ⟨hsame, hafter, hfounded⟩ := ih hb ht
    rcases ho : act.on d with ⟨outcome, d'⟩
    rcases ho' : act.on e with ⟨outcome', e'⟩
    rw [ho, ho'] at hsame hafter
    rw [ho'] at hfounded
    cases hsame
    rw [Action.on_bind_of_ok (Action.on_attempt_of ho),
      Action.on_bind_of_ok (Action.on_attempt_of ho')]
    cases outcome with
    | error fault => exact iherror fault (hfits fault) hafter hfounded
    | ok a => exact ihok a hafter hfounded

/-- Work for one queue is nothing to another one. -/
theorem Proper.passed {other : String} (h : Proper m act) (hfits : ∀ fault, m.fits fault)
    (hturns : ∀ {q q'}, m.turns q q' → m.part q' = m.part q) (hne : other ≠ m.part d.queue)
    (hl : d.store.link.Even d.store.link) : m.part (act.on d).2.queue = m.part d.queue ∧
      Store.Passed other d.store (act.on d).2.store := by
  have hkept := h.keeps hfits
    (fun d d' => other ≠ m.part d.queue → d.store.link.Even d.store.link →
      m.part d'.queue = m.part d.queue ∧ d.store.Passed other d'.store)
    (fun h h' hne hl => ?_) (fun d queue calls hq _ _ => ⟨hturns hq, .refl _⟩)
    (fun d _ _ he hne hl => ⟨rfl, he.passed hne hl⟩) d
  · exact hkept hne hl
  · obtain ⟨hpart, hp⟩ := h hne hl
    obtain ⟨hpart', hp'⟩ := h' (by rwa [hpart]) (hp.even hl)
    exact ⟨hpart'.trans hpart, hp.trans hp'⟩

end Desk

end Spillway
