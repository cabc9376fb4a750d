import Spillway.Store.Basic

/-!
# Calls to the store

A call that runs a statement leaves the rows that the statement makes; a call that fails leaves the
rows as they were. Calls never fail for want of the database while the link serves, and nothing but
a probe that finds the database again makes a lost link available.
-/

namespace Spillway

/-- The database is there, a connection can be had, and nothing changes that by itself. -/
structure Link.Serving (l : Link) : Prop where
  /-- The database is believed to be there. -/
  available : l.available = true
  /-- It is there. -/
  reachable : l.reachable = true
  /-- It stays there. -/
  steady : l.forecast = []
  /-- A connection is free, or another one may be opened. -/
  free : 0 < l.idle ∨ l.idle + l.busy < l.settings.connections

instance (l : Link) : Decidable l.Serving :=
  decidable_of_iff (l.available = true ∧ l.reachable = true ∧ l.forecast = [] ∧
      (0 < l.idle ∨ l.idle + l.busy < l.settings.connections))
    ⟨fun ⟨available, reachable, steady, free⟩ => ⟨available, reachable, steady, free⟩,
      fun h => ⟨h.available, h.reachable, h.steady, h.free⟩⟩

/-- No call can get through over the link: it is known to be lost, or no connection can be had, or
the one that is had breaks. -/
def Link.Barred (l : Link) : Prop :=
  l.available = false ∨ l.advance.acquire.1 = false ∨ l.cutsOff = true

instance (l : Link) : Decidable l.Barred := inferInstanceAs (Decidable (_ ∨ _ ∨ _))

/-- What calls may do to a link. -/
structure Link.Used (l l' : Link) : Prop where
  /-- They do not make it available. -/
  available : l'.available = true → l.available = true
  /-- A link that serves goes on serving. -/
  serving : l.Serving → l'.Serving

/-- What calls may do to a store, the rows left aside. -/
structure Store.Used (s s' : Store) : Prop where
  /-- The table keeps its name. -/
  tableName : s'.tableName = s.tableName
  /-- The link. -/
  link : s.link.Used s'.link

/-- A call failed for want of the database. -/
structure Store.Missed (s : Store) (fault : Fault) (s' : Store) : Prop where
  /-- The fault says so. -/
  retryable : fault.isRetryable = true
  /-- No row has changed. -/
  table : s'.table = s.table
  /-- The link was used. -/
  used : s.Used s'
  /-- It did not serve. -/
  unserved : ¬ s.link.Serving

namespace Link

theorem Used.refl (l : Link) : l.Used l := ⟨id, id⟩

theorem Used.trans {l l' l'' : Link} (h : l.Used l') (h' : l'.Used l'') : l.Used l'' :=
  ⟨h.available ∘ h'.available, h'.serving ∘ h.serving⟩

/-- A link on which nothing is due stays as it is until it is used. -/
theorem Serving.advance {l : Link} (h : l.Serving) : l.advance = l := by
  rw [Link.advance, h.steady]

theorem available_advance (l : Link) : l.advance.available = l.available := by
  unfold Link.advance
  split <;> rfl

/-- No connection of a link that serves breaks. -/
theorem Serving.cutsOff {l : Link} (h : l.Serving) : l.cutsOff = false := by
  rw [Link.cutsOff, h.steady]
  rfl

/-- A link that serves hands out a connection, and serves again once it has it back. -/
theorem Serving.acquire {l : Link} (h : l.Serving) :
    l.acquire.1 = true ∧ l.acquire.2.giveBack.Serving := by
  have hready : (l.settings.testFirst && !l.reachable) = false := by simp [h.reachable]
  unfold Link.acquire
  rw [hready, if_neg Bool.false_ne_true]
  by_cases hi : 0 < l.idle
  · rw [if_pos hi]
    exact ⟨rfl, h.available, h.reachable, h.steady, .inl (Nat.succ_pos _)⟩
  · have hroom := h.free.resolve_left hi
    rw [if_neg hi, if_pos (by simpa [h.reachable] using hroom)]
    exact ⟨rfl, h.available, h.reachable, h.steady, .inl (Nat.succ_pos _)⟩

theorem available_acquire (l : Link) : l.acquire.2.available = l.available := by
  unfold Link.acquire
  dsimp only
  split
  · split
    · rfl
    · split <;> rfl
  · split
    · rfl
    · split <;> rfl

end Link

namespace Store

variable {α : Type} {s : Store}

theorem Used.refl (s : Store) : s.Used s := ⟨rfl, .refl _⟩

theorem Used.trans {s s' s'' : Store} (h : s.Used s') (h' : s'.Used s'') : s.Used s'' :=
  ⟨h'.tableName.trans h.tableName, h.link.trans h'.link⟩

theorem table_markLost (s : Store) : s.markLost.table = s.table := by
  unfold markLost
  split <;> rfl

theorem tableName_markLost (s : Store) : s.markLost.tableName = s.tableName := by
  unfold markLost
  split <;> rfl

theorem available_markLost (s : Store) : s.markLost.link.available = false := by
  unfold markLost
  split
  · rfl
  · next ha => exact Bool.eq_false_iff.2 ha

/-- A link that is found lost is left unavailable. -/
theorem used_markLost {left : Store} (hn : left.tableName = s.tableName) (hs : ¬ s.link.Serving) :
    s.Used left.markLost := by
  refine ⟨(tableName_markLost left).trans hn, fun ha => ?_, fun h => absurd h hs⟩
  rw [available_markLost] at ha
  cases ha

/-- Getting hold of a connection changes the link only, and fails only if the link does not serve.
-/
theorem checkout_cases (task : Task) (s : Store) :
    (∃ link, (checkout task).on s = (.ok (), { s with link }) ∧ s.link.Used link.giveBack) ∨
    ∃ fault s', (checkout task).on s = (.error fault, s') ∧ s.Missed fault s' := by
  let due := s.link.advance
  let tried := due.acquire.2
  have hadv : due.available = s.link.available := Link.available_advance s.link
  have hacq : tried.available = due.available := Link.available_acquire due
  by_cases ha : due.available = true
  · cases hg : due.acquire.1 with
    | true =>
      refine .inl ⟨tried, ?_, fun _ => hadv ▸ ha, fun hs => ?_⟩
      · simp [checkout, due, tried, ha, hg]
      · change due.acquire.2.giveBack.Serving
        rw [show due = s.link from hs.advance]
        exact hs.acquire.2
    | false =>
      have hns : ¬ s.link.Serving := fun hs => by
        rw [show due = s.link from hs.advance, hs.acquire.1] at hg
        cases hg
      refine .inr ?_
      cases hr : tried.reachable with
      | true =>
        let outage := Outage.exhausted tried.settings.waitMillis (tried.idle + tried.busy)
        refine ⟨.unavailable task outage, { s with link := tried }, ?_, rfl, rfl,
          ⟨rfl, fun _ => hadv ▸ ha, fun hs => absurd hs hns⟩, hns⟩
        simp [checkout, due, tried, outage, ha, hg, hr]
      | false =>
        let left : Store := { s with link := tried }
        refine ⟨.unavailable task (.lost tried.place), left.markLost, ?_, rfl,
          table_markLost left, used_markLost rfl hns, hns⟩
        simp [checkout, due, tried, left, ha, hg, hr]
  · have hns : ¬ s.link.Serving := fun hs => ha (hadv.trans hs.available)
    refine .inr ⟨.unavailable task (.lost due.place), { s with link := due }, ?_, rfl, rfl,
      ⟨rfl, fun h => absurd h ha, fun hs => absurd hs hns⟩, hns⟩
    simp [checkout, due, ha]

/-- The work of a call is done unless no connection can be had, or the connection breaks. -/
theorem run_cases (task : Task) (work : Option (List Row) → Except Refusal (α × Option (List Row)))
    (s : Store) :
    (∃ link : Link, s.link.Used link.giveBack ∧ (run task work).on s =
      match work s.table with
      | .ok (a, table) => (.ok a, { s with table, link := link.giveBack })
      | .error refusal => (refuse task refusal).on { s with link := link.giveBack }) ∨
    ∃ fault s', (run task work).on s = (.error fault, s') ∧ s.Missed fault s' := by
  rcases checkout_cases task s with ⟨link, hc, hu⟩ | ⟨fault, s', hc, hm⟩
  · cases hcut : s.link.cutsOff with
    | true =>
      let left : Store := { s with link := link.giveBack }
      have hns : ¬ s.link.Serving := fun hs => by
        rw [hs.cutsOff] at hcut
        cases hcut
      refine .inr ⟨.unavailable task (.duringStatement .brokenOff), left.markLost, ?_, rfl,
        table_markLost left, used_markLost rfl hns, hns⟩
      simp only [run, Action.on_bind, Action.on_get, hc, hcut, if_true, checkin, Action.on_modify,
        breakOff, Action.on_of, left]
    | false =>
      refine .inl ⟨link, hu, ?_⟩
      simp only [run, Action.on_bind, Action.on_get, hc, hcut, Bool.false_eq_true, if_false]
      cases work s.table with
      | ok p => simp only [Action.on_bind, checkin, Action.on_modify, Action.on_pure]
      | error refusal => simp only [Action.on_bind, checkin, Action.on_modify]
  · refine .inr ⟨fault, s', ?_, hm⟩
    simp only [run, Action.on_bind, Action.on_get, hc]

/-- Work that the database does is done, unless the database cannot be used. -/
theorem run_of_ok (task : Task) {work : Option (List Row) → Except Refusal (α × Option (List Row))}
    {a : α} {table : Option (List Row)} (h : work s.table = .ok (a, table)) :
    (∃ s', (run task work).on s = (.ok a, s') ∧ s'.table = table ∧ s.Used s') ∨
    ∃ fault s', (run task work).on s = (.error fault, s') ∧ s.Missed fault s' := by
  rcases run_cases task work s with ⟨link, hu, ho⟩ | hm
  · rw [h] at ho
    exact .inl ⟨{ s with table, link := link.giveBack }, ho, rfl, rfl, hu⟩
  · exact .inr hm

/-- Work that the database refuses changes no row. -/
theorem run_of_error (task : Task)
    {work : Option (List Row) → Except Refusal (α × Option (List Row))} {refusal : Refusal}
    (h : work s.table = .error refusal) :
    ∃ fault s', (run task work).on s = (.error fault, s') ∧ s'.table = s.table ∧ s.Used s' := by
  rcases run_cases task work s with ⟨link, hu, ho⟩ | ⟨fault, s', ho, hm⟩
  · let left : Store := { s with link := link.giveBack }
    rw [h] at ho
    cases hr : link.giveBack.reachable with
    | true =>
      refine ⟨.failed task refusal, left, ho.trans ?_, rfl, rfl, hu⟩
      simp only [refuse, Action.on_of, hr, if_true, left]
    | false =>
      have hns : ¬ s.link.Serving := fun hs => by
        rw [(hu.serving hs).reachable] at hr
        cases hr
      refine ⟨.unavailable task (.duringStatement refusal), left.markLost, ho.trans ?_,
        table_markLost left, used_markLost rfl hns⟩
      simp only [refuse, Action.on_of, hr, Bool.false_eq_true, if_false, left]
  · exact ⟨fault, s', ho, hm.table, hm.used⟩

variable {rows rows' : List Row} {statement : Statement α} {a : α}

/-- A statement that is not refused is run, unless the database cannot be used. -/
theorem call_of_ok (task : Task) (ht : s.table = some rows)
    (hs : statement rows = .ok (a, rows')) :
    (∃ s', (call task statement).on s = (.ok a, s') ∧ s'.table = some rows' ∧ s.Used s') ∨
    ∃ fault s', (call task statement).on s = (.error fault, s') ∧ s.Missed fault s' := by
  apply run_of_ok task
  rw [ht]
  change (statement rows).map _ = _
  rw [hs]
  rfl

/-- A statement that fails changes no row, whatever it fails for. -/
theorem call_cases (task : Task) (statement : Statement α) (ht : s.table = some rows) :
    (∃ a rows' s', statement rows = .ok (a, rows') ∧ (call task statement).on s = (.ok a, s') ∧
      s'.table = some rows' ∧ s.Used s') ∨
    ∃ fault s', (call task statement).on s = (.error fault, s') ∧ s'.table = s.table ∧
      s.Used s' := by
  cases hs : statement rows with
  | ok p =>
    rcases call_of_ok task ht hs with ⟨s', hc, ht', hu⟩ | ⟨fault, s', hc, hm⟩
    · exact .inl ⟨p.1, p.2, s', rfl, hc, ht', hu⟩
    · exact .inr ⟨fault, s', hc, hm.table, hm.used⟩
  | error refusal =>
    refine .inr (run_of_error task (?_ : _ = Except.error refusal))
    rw [ht]
    change (statement rows).map _ = _
    rw [hs]
    rfl

/-- Over a link that serves, a call that is refused says so. -/
theorem call_of_error (task : Task) {refusal : Refusal} (ht : s.table = some rows)
    (hr : statement rows = .error refusal) (hs : s.link.Serving) :
    ((call task statement).on s).1 = .error (.failed task refusal) := by
  unfold call
  rcases run_cases task _ s with ⟨link, hu, ho⟩ | ⟨fault, s', -, hm⟩
  · have hreach : link.giveBack.reachable = true := (hu.serving hs).reachable
    rw [ho, ht]
    dsimp only
    rw [hr]
    simp only [Except.map, refuse, Action.on_of, hreach, if_true]
  · exact absurd hs hm.unserved

/-- Making the table keeps its rows, and fails only for a name that no table can have or for want of
the database. -/
theorem createTable_cases (s : Store) :
    (∃ s', createTable.on s = (.ok (), s') ∧ s'.table = some s.rows ∧ s.Used s' ∧
      TableName.isReserved s.tableName = false) ∨
    ∃ fault s', createTable.on s = (.error fault, s') ∧ s'.table = s.table ∧ s.Used s' ∧
      (TableName.isReserved s.tableName = false → s.Missed fault s') := by
  let work : Option (List Row) → Except Refusal (Unit × Option (List Row)) := fun table =>
    if TableName.isReserved s.tableName then .error .reservedName
    else .ok ((), some (table.getD []))
  have hrun : createTable.on s = (run .createTable work).on s := by
    simp only [createTable, Action.on_bind, Action.on_get, work]
  rw [hrun]
  cases hn : TableName.isReserved s.tableName with
  | false =>
    have hwork : work s.table = .ok ((), some s.rows) := by
      simp only [work, hn]
      rfl
    rcases run_of_ok .createTable hwork with ⟨s', hc, ht, hu⟩ | ⟨fault, s', hc, hm⟩
    · exact .inl ⟨s', hc, ht, hu, rfl⟩
    · exact .inr ⟨fault, s', hc, hm.table, hm.used, fun _ => hm⟩
  | true =>
    have hwork : work s.table = .error .reservedName := by
      simp only [work, hn]
      rfl
    obtain ⟨fault, s', hc, ht, hu⟩ := run_of_error .createTable hwork
    exact .inr ⟨fault, s', hc, ht, hu, nofun⟩

/-! ## Calls that do not get through -/

/-- No call gets through: each of them fails for want of the database. -/
def Silent (s : Store) : Prop :=
  ∀ {α : Type} (task : Task) (statement : Statement α),
    ∃ outage, ((call task statement).on s).1 = .error (.unavailable task outage)

/-- A connection is had where the link is believed to be there and hands one out; otherwise the
fault names the outage. -/
theorem checkout_outcome (task : Task) (s : Store) :
    (∃ s', (checkout task).on s = (.ok (), s') ∧ s.link.available = true ∧
      s.link.advance.acquire.1 = true) ∨
    ∃ outage s', (checkout task).on s = (.error (.unavailable task outage), s') := by
  have hadv : s.link.advance.available = s.link.available := Link.available_advance s.link
  simp only [checkout, Action.on_of, hadv]
  cases ha : s.link.available with
  | false => exact .inr ⟨_, _, rfl⟩
  | true =>
    cases hg : s.link.advance.acquire.1 with
    | true => exact .inl ⟨_, rfl, rfl, rfl⟩
    | false =>
      refine .inr ?_
      simp only [Bool.not_true, Bool.false_eq_true, if_false]
      split
      · exact ⟨_, _, rfl⟩
      · exact ⟨_, _, rfl⟩

/-- Over a barred link no call gets through. -/
theorem silent_of_barred (h : s.link.Barred) : s.Silent := by
  intro α task statement
  rcases checkout_outcome task s with ⟨s', hc, ha, hg⟩ | ⟨outage, s', hc⟩
  · have hcut : s.link.cutsOff = true :=
      (h.resolve_left (by simp [ha])).resolve_left (by simp [hg])
    refine ⟨.duringStatement .brokenOff, ?_⟩
    simp only [call, run, Action.on_bind, Action.on_get, hc, hcut, if_true, checkin,
      Action.on_modify, breakOff, Action.on_of]
  · refine ⟨outage, ?_⟩
    simp only [call, run, Action.on_bind, Action.on_get, hc]

end Store

end Spillway
