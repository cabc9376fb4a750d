import Mathlib.Logic.Relation
import Spillway.Proofs.Conduct
import Spillway.Proofs.Storing

/-!
# Accesses to the database

Every access gets hold of a connection first. It is there that a link known to be lost refuses
everyone, and only an access that meets an unreachable database, or whose connection breaks, can
find out that the link is lost. All that brokers and queues do to the store is a sequence of
accesses and of things that have nothing to do with the database.
-/

namespace Spillway

variable {α β σ : Type} {task : Task} {act : Action Store α} {s s' s'' : Store}

/-! ## What happens to the link -/

/-- Between two links nobody has learned anything of the database. -/
structure Link.Unmoved (l l' : Link) : Prop where
  available : l'.available = l.available
  retrying : l'.retrying = l.retrying
  watchers : l'.watchers = l.watchers

namespace Link

/-- Nobody has learned anything where nobody has on the way. -/
theorem Unmoved.trans {l l' l'' : Link} (h : l.Unmoved l') (h' : l'.Unmoved l'') : l.Unmoved l'' :=
  ⟨h'.available.trans h.available, h'.retrying.trans h.retrying, h'.watchers.trans h.watchers⟩

/-- What the weather brings is not learned by itself. -/
theorem unmoved_advance (l : Link) : l.Unmoved l.advance := by
  unfold advance
  split <;> exact ⟨rfl, rfl, rfl⟩

/-- Nor does it change where the database is. -/
theorem place_advance (l : Link) : l.advance.place = l.place := by
  unfold advance
  split <;> rfl

/-- To ask for a connection does not change whether there is a database. -/
theorem unmoved_acquire (l : Link) :
    l.Unmoved l.acquire.2 ∧ l.acquire.2.reachable = l.reachable := by
  unfold acquire
  dsimp only
  split
  · split
    · exact ⟨⟨rfl, rfl, rfl⟩, rfl⟩
    · split <;> exact ⟨⟨rfl, rfl, rfl⟩, rfl⟩
  · split
    · exact ⟨⟨rfl, rfl, rfl⟩, rfl⟩
    · split <;> exact ⟨⟨rfl, rfl, rfl⟩, rfl⟩

end Link

namespace Store

/-- An access to the database. -/
inductive Access : {α : Type} → Task → Action Store α → Prop
  /-- Work on the table. -/
  | run {α : Type} (task : Task)
      (work : Option (List Row) → Except Refusal (α × Option (List Row))) :
      Access task (run task work)
  /-- The table is made. -/
  | create : Access .createTable createTable
  /-- A probe. -/
  | ping : Access .ping ping
  /-- A connection is kept. -/
  | hold : Access .hold hold
  /-- A connection is given back inside a transaction. -/
  | begin : Access .begin begin

/-- Nothing was learned of the database. -/
structure Quiet (s s' : Store) : Prop where
  link : s.link.Unmoved s'.link
  lost : s'.totals.lost = s.totals.lost
  reconnected : s'.totals.reconnected = s.totals.reconnected

/-- An access has found out that the link is lost. -/
structure Noticed (task : Task) (s : Store) (outcome : Except Fault α) (s' : Store) : Prop where
  /-- The link was believed to be there until then. -/
  before : s.link.available = true
  after : s'.link.available = false
  /-- The database could not be reached, or the connection broke. -/
  cause : s.link.advance.reachable = false ∨ s.link.cutsOff = true
  /-- The access failed, and not because all connections were in use. -/
  fault : ∃ outage, outcome = .error (.unavailable task outage) ∧
    ∀ wait count, outage ≠ .exhausted wait count
  /-- Attempts to reach the database are being made. -/
  retrying : s'.link.retrying = true
  lost : s'.totals.lost = s.totals.lost + 1
  reconnected : s'.totals.reconnected = s.totals.reconnected
  watchers : s'.link.watchers = s.link.watchers
  table : s'.table = s.table

/-- How an access fares. -/
inductive Fares (task : Task) (s : Store) : Except Fault α × Store → Prop
  /-- The link is known to be lost. -/
  | refused (ha : s.link.available = false) :
      Fares task s (.error (.unavailable task (.lost s.link.place)),
        { s with link := s.link.advance })
  /-- The database is there, or it is not missed. -/
  | quiet {outcome : Except Fault α} {s' : Store} (ha : s.link.available = true)
      (h : s.Quiet s') : Fares task s (outcome, s')
  /-- The database is missed. -/
  | noticed {outcome : Except Fault α} {s' : Store} (h : Noticed task s outcome s') :
      Fares task s (outcome, s')

/-- Where nothing happens there is no news. -/
theorem Quiet.refl (s : Store) : s.Quiet s := ⟨⟨rfl, rfl, rfl⟩, rfl, rfl⟩

/-- Nor is there where none comes on the way. -/
theorem Quiet.trans (h : s.Quiet s') (h' : s'.Quiet s'') : s.Quiet s'' :=
  ⟨h.link.trans h'.link, h'.lost.trans h.lost, h'.reconnected.trans h.reconnected⟩

/-- Where the link is marked as lost, what is noticed is all there in what went before. -/
theorem noticed_markLost {outage : Outage} (hq : s.Quiet s') (ht : s'.table = s.table)
    (ha : s.link.available = true)
    (hc : s.link.advance.reachable = false ∨ s.link.cutsOff = true)
    (ho : ∀ wait count, outage ≠ .exhausted wait count) :
    Noticed task s (.error (.unavailable task outage) : Except Fault α) s'.markLost := by
  have ha' : s'.link.available = true := hq.link.available.trans ha
  have hmark : s'.markLost =
      { s' with
        link := { s'.link with available := false, retrying := true }
        totals := { s'.totals with lost := s'.totals.lost + 1 } } := by
    rw [markLost, if_pos ha']
  rw [hmark]
  exact ⟨ha, rfl, hc, ⟨outage, rfl, ho⟩, rfl, congrArg (· + 1) hq.lost, hq.reconnected,
    hq.link.watchers, ht⟩

/-! ## How accesses fare -/

/-- With a connection in hand the database has been seen, or nobody has looked. Without one, an
access that does not find the link lost is merely out of luck. -/
theorem checkout_fares (task : Task) (s : Store) :
    (∃ link, (checkout task).on s = (.ok (), { s with link }) ∧ s.link.available = true ∧
      s.Quiet { s with link } ∧ link.reachable = s.link.advance.reachable) ∨
    ∃ fault s', (checkout task).on s = (.error fault, s') ∧
      ∀ {α : Type}, Fares task s ((.error fault : Except Fault α), s') := by
  let due := s.link.advance
  let tried := due.acquire.2
  have hdue : s.link.Unmoved due := s.link.unmoved_advance
  obtain ⟨hacq, hreach⟩ := due.unmoved_acquire
  have hquiet : s.Quiet { s with link := tried } := ⟨hdue.trans hacq, rfl, rfl⟩
  cases ha : s.link.available with
  | false =>
    refine .inr ⟨_, _, ?_, fun {α} => .refused ha⟩
    simp [checkout, hdue.available, due, ha, s.link.place_advance]
  | true =>
    have hda : due.available = true := hdue.available.trans ha
    cases hg : due.acquire.1 with
    | true =>
      refine .inl ⟨tried, ?_, rfl, hquiet, hreach⟩
      simp [checkout, due, tried, hda, hg]
    | false =>
      cases hr : tried.reachable with
      | true =>
        let outage := Outage.exhausted tried.settings.waitMillis (tried.idle + tried.busy)
        refine .inr ⟨.unavailable task outage, { s with link := tried }, ?_, fun {α} =>
          .quiet ha hquiet⟩
        simp [checkout, due, tried, outage, hda, hg, hr]
      | false =>
        refine .inr ⟨.unavailable task (.lost tried.place), Store.markLost { s with link := tried },
          ?_, fun {α} => .noticed (noticed_markLost hquiet rfl ha (.inl (hreach.symm.trans hr))
            fun _ _ h => ?_)⟩
        · simp [checkout, due, tried, hda, hg, hr]
        · cases h

/-- An access that goes on with a connection in hand. -/
theorem fares_of_checkout {next : Unit → Action Store α} (task : Task) (s : Store)
    (hn : ∀ link : Link, s.link.available = true → s.Quiet { s with link } →
      link.reachable = s.link.advance.reachable → Fares task s ((next ()).on { s with link })) :
    Fares task s ((checkout task >>= next).on s) := by
  rcases checkout_fares task s with ⟨link, ho, ha, hq, hr⟩ | ⟨fault, s', ho, hf⟩
  · rw [Action.on_bind_of_ok ho]
    exact hn link ha hq hr
  · rw [Action.on_bind_of_error ho]
    exact hf

/-- To give a connection back is no news. -/
theorem Quiet.giveBack {link : Link} (h : s.Quiet { s with link }) :
    s.Quiet { s with link := link.giveBack } :=
  ⟨h.link.trans ⟨rfl, rfl, rfl⟩, h.lost, h.reconnected⟩

/-- Work on the table fares as accesses do, with a look at the connection before and after it. -/
theorem run_fares (task : Task) (work : Option (List Row) → Except Refusal (α × Option (List Row)))
    (s : Store) : Fares task s ((run task work).on s) := by
  simp only [run, Action.on_bind_of_ok (Action.on_get s)]
  refine fares_of_checkout task s fun link ha hq hr => ?_
  let left : Store := { s with link := link.giveBack }
  have hleft : s.Quiet left := hq.giveBack
  cases hcut : s.link.cutsOff with
  | true =>
    simp only [if_true, checkin, Action.on_bind, Action.on_modify, breakOff, Action.on_of]
    refine .noticed (noticed_markLost hleft rfl ha (.inr hcut) fun _ _ h => ?_)
    cases h
  | false =>
    simp only [Bool.false_eq_true, if_false, Action.on_bind, Action.on_get]
    cases work s.table with
    | ok p =>
      simp only [Action.on_bind, Action.on_modify, checkin, Action.on_pure]
      exact .quiet ha ⟨hleft.link, hleft.lost, hleft.reconnected⟩
    | error refusal =>
      simp only [Action.on_bind, checkin, Action.on_modify, refuse, Action.on_of]
      cases hreach : link.giveBack.reachable with
      | true => exact .quiet ha hleft
      | false =>
        have hcause : s.link.advance.reachable = false := hr.symm.trans hreach
        refine .noticed (noticed_markLost hleft rfl ha (.inl hcause) fun _ _ h => ?_)
        cases h

/-- So does a probe. -/
theorem ping_fares (s : Store) : Fares .ping s (ping.on s) := by
  refine fares_of_checkout .ping s fun link ha hq hr => ?_
  let left : Store := { s with link := link.giveBack }
  have hleft : s.Quiet left := hq.giveBack
  simp only [checkin, Action.on_bind, Action.on_modify, Action.on_get]
  cases hreach : link.giveBack.reachable with
  | true => exact .quiet ha hleft
  | false =>
    have hcause : s.link.advance.reachable = false := hr.symm.trans hreach
    refine .noticed (noticed_markLost hleft rfl ha (.inl hcause) fun _ _ h => ?_)
    cases h

/-- An access to a link known to be lost is refused and changes nothing else. Otherwise it learns
nothing of the database, or finds out that the link is lost. -/
theorem Access.fares (h : Access task act) (s : Store) : Fares task s (act.on s) := by
  cases h with
  | run task work => exact run_fares task work s
  | create =>
    simp only [createTable, Action.on_bind_of_ok (Action.on_get s)]
    exact run_fares .createTable _ s
  | ping => exact ping_fares s
  | hold =>
    rcases checkout_fares .hold s with ⟨link, ho, ha, hq, -⟩ | ⟨fault, s', ho, hf⟩
    · rw [Store.hold, ho]
      exact .quiet ha hq
    · rw [Store.hold, ho]
      exact hf
  | begin =>
    refine fares_of_checkout .begin s fun link ha hq _ => ?_
    exact .quiet ha ⟨hq.link.trans ⟨rfl, rfl, rfl⟩, hq.lost, hq.reconnected⟩

/-- While the link is known to be lost every access is refused, and does nothing. -/
theorem Access.refused (h : Access task act) (ha : s.link.available = false) :
    (act.on s).1 = .error (.unavailable task (.lost s.link.place)) ∧
      (act.on s).2 = { s with link := s.link.advance } := by
  have hfares := h.fares s
  generalize act.on s = ending at hfares ⊢
  cases hfares with
  | refused => exact ⟨rfl, rfl⟩
  | quiet hthere =>
    rw [ha] at hthere
    cases hthere
  | noticed hn =>
    have hthere := hn.before
    rw [ha] at hthere
    cases hthere

/-! ## Courses -/

/-- One thing that happens to a store, other than that the database is found again. -/
inductive Doing : Store → Store → Prop
  /-- Someone accesses the database. -/
  | access {α : Type} {task : Task} {act : Action Store α} (h : Access task act) (s : Store) :
      Doing s (act.on s).2
  /-- Something else than losses and reconnections is counted. -/
  | count {change : Totals → Totals}
      (h : ∀ t, (change t).lost = t.lost ∧ (change t).reconnected = t.reconnected) (s : Store) :
      Doing s { s with totals := change s.totals }
  /-- Kept connections are given back. -/
  | release (s : Store) : Doing s { s with link := s.link.giveBackAll }
  /-- The database goes away or is there again, or others use the link. -/
  | weather (s : Store) (reachable : Bool) (forecast : List Weather) (idle busy : Nat) :
      Doing s { s with link := { s.link with reachable, forecast, idle, busy } }

/-- What happens to a store, one thing after the other. -/
abbrev Course : Store → Store → Prop := Relation.ReflTransGen Doing

/-- An access that finds out that the link is lost. -/
inductive Notice : Store → Store → Prop
  | access {α : Type} {task : Task} {act : Action Store α} (h : Access task act) {s : Store}
      (notice : Noticed task s (act.on s).1 (act.on s).2) : Notice s (act.on s).2

/-- In the course of what happens, and after nothing was learned of the database, an access finds
out that the link is lost. -/
inductive Loss (s s' : Store) : Prop
  | intro (s₁ s₂ : Store) (before : Course s s₁) (quiet : s.Quiet s₁) (notice : Notice s₁ s₂)
      (after : Course s₂ s')

/-- What one thing does is no news, or an access finds out that the link is lost. While the link is
known to be lost no row changes. -/
theorem Doing.cases (h : Doing s s') :
    s.Quiet s' ∧ (s.link.available = false → s'.table = s.table) ∨ Notice s s' := by
  cases h with
  | @access α task act h s =>
    have hfares := h.fares s
    rcases ho : act.on s with ⟨outcome, s'⟩
    rw [ho] at hfares
    cases hfares with
    | refused ha => exact .inl ⟨⟨s.link.unmoved_advance, rfl, rfl⟩, fun _ => rfl⟩
    | quiet ha hq => exact .inl ⟨hq, fun hn => absurd ha (by rw [hn]; nofun)⟩
    | noticed hn =>
      have hnotice : Notice s (act.on s).2 := .access h (by rwa [ho])
      rw [ho] at hnotice
      exact .inr hnotice
  | count h s => exact .inl ⟨⟨⟨rfl, rfl, rfl⟩, (h _).1, (h _).2⟩, fun _ => rfl⟩
  | release s => exact .inl ⟨⟨⟨rfl, rfl, rfl⟩, rfl, rfl⟩, fun _ => rfl⟩
  | weather s => exact .inl ⟨⟨⟨rfl, rfl, rfl⟩, rfl, rfl⟩, fun _ => rfl⟩

/-- Only a link that was believed to be there can be found lost. -/
theorem Notice.available (h : Notice s s') : s.link.available = true := by
  cases h with
  | access _ notice => exact notice.before

/-- Once the link is known to be lost that stays known, and no row changes. -/
theorem quiet_of_unavailable (h : Course s s') (ha : s.link.available = false) :
    s.Quiet s' ∧ s'.table = s.table := by
  induction h with
  | refl => exact ⟨.refl s, rfl⟩
  | tail _ hd ih =>
    obtain ⟨hq, ht⟩ := ih
    have hgone := hq.link.available.trans ha
    rcases hd.cases with ⟨hq', ht'⟩ | hnotice
    · exact ⟨hq.trans hq', (ht' hgone).trans ht⟩
    · rw [hnotice.available] at hgone
      cases hgone

/-- As long as no access finds out that the link is lost, there is no news. -/
theorem quiet_or_loss (h : Course s s') : s.Quiet s' ∨ Loss s s' := by
  induction h with
  | refl => exact .inl (.refl s)
  | @tail s₁ s₂ hc hd ih =>
    rcases ih with hq | ⟨t, t', hbefore, hq, hnotice, hafter⟩
    · rcases hd.cases with ⟨hq', -⟩ | hnotice
      · exact .inl (hq.trans hq')
      · exact .inr ⟨_, _, hc, hq, hnotice, .refl⟩
    · exact .inr ⟨t, t', hbefore, hq, hnotice, hafter.tail hd⟩

/-- The link is known to be lost since, which was counted once, and attempts are being made. -/
structure Gone (s s' : Store) : Prop where
  before : s.link.available = true
  after : s'.link.available = false
  retrying : s'.link.retrying = true
  watchers : s'.link.watchers = s.link.watchers
  lost : s'.totals.lost = s.totals.lost + 1
  reconnected : s'.totals.reconnected = s.totals.reconnected

/-- So there is one loss at most in the course of anything. -/
theorem Loss.gone (h : Loss s s') : Gone s s' := by
  obtain ⟨s₁, s₂, -, hq, hnotice, hafter⟩ := h
  cases hnotice with
  | access _ hn =>
    obtain ⟨hq', -⟩ := quiet_of_unavailable hafter hn.after
    exact {
      before := hq.link.available.symm.trans hn.before
      after := hq'.link.available.trans hn.after
      retrying := hq'.link.retrying.trans hn.retrying
      watchers := hq'.link.watchers.trans (hn.watchers.trans hq.link.watchers)
      lost := hq'.lost.trans (hn.lost.trans (congrArg (· + 1) hq.lost))
      reconnected := hq'.reconnected.trans (hn.reconnected.trans hq.reconnected) }

/-! ## Work that is a course -/

/-- Work in the course of which nothing else happens to the store, which `view` shows. -/
def Runs (view : σ → Store) (act : Action σ α) : Prop :=
  ∀ s, Course (view s) (view (act.on s).2)

variable {view : σ → Store} {work : Action σ α}

/-- To give a result is a course in which nothing happens. -/
theorem runs_pure (view : σ → Store) (a : α) : Runs view (pure a : Action σ α) := fun _ => .refl

/-- One course after another is a course. -/
theorem Runs.bind {next : α → Action σ β} (h : Runs view work) (hn : ∀ a, Runs view (next a)) :
    Runs view (work >>= next) := by
  intro s
  have hfirst := h s
  rw [Action.on_bind]
  rcases ho : work.on s with ⟨_ | a, s'⟩
  · rwa [ho] at hfirst
  · rw [ho] at hfirst
    exact hfirst.trans (hn a s')

/-- An access is a course of itself. -/
theorem Access.runs (h : Access task act) : Runs id act := fun s => .single (.access h s)

/-- So is an errand. -/
theorem Errand.runs {part : String} (h : Errand part act) : Runs id act := by
  cases h with
  | count h => exact fun s => .single (.count h s)
  | create => exact Access.create.runs
  | @call _ task statement hl => exact (Access.run task _).runs

end Store

open Desk Store

/-- The work of a queue is a course of errands. -/
theorem Desk.Proper.runs {Q : Type} {m : Manner Q} {work : Action (Desk Q) α}
    (h : Proper m work) (hfits : ∀ fault, m.fits fault) : Runs Desk.store work :=
  h.keeps hfits (fun d d' => Course d.store d'.store) (fun h h' => h.trans h')
    (fun _ _ _ _ => .refl) fun d _ _ he => he.runs d.store

namespace Queue

variable {d : Desk Queue}

/-- Whatever a queue is asked, what it does to the store is a course. -/
theorem runs_ask (request : Request) : Runs Desk.store (ask request) := by
  rintro ⟨queue, store, calls⟩
  cases queue with
  | ram q =>
    rw [show (ask request).on ⟨.ram q, store, calls⟩ = _ from
      wraps_ram.asked request ⟨q, store, calls⟩]
    exact (Ram.proper_request request).runs (fun _ => trivial) ⟨q, store, calls⟩
  | durable q =>
    rw [show (ask request).on ⟨.durable q, store, calls⟩ = _ from
      wraps_durable.asked request ⟨q, store, calls⟩]
    exact (Durable.proper_request request).runs (fun _ => trivial) ⟨q, store, calls⟩
  | cached q =>
    rw [show (ask request).on ⟨.cached q, store, calls⟩ = _ from
      wraps_cached.asked request ⟨q, store, calls⟩]
    exact (Cached.proper_request request).runs (fun _ => trivial) ⟨q, store, calls⟩

/-- So is what it does when it is told of the database. -/
theorem runs_catchUp : Runs Desk.store catchUp := by
  rintro ⟨queue, store, calls⟩
  cases queue with
  | ram | durable => exact .refl
  | cached q =>
    have hproper : Proper (Cached.living True) Cached.catchUp :=
      Cached.Proper.living Cached.proper_catchUp
    exact hproper.runs (fun _ => trivial) ⟨q, store, calls⟩

/-- So is a change in place. -/
theorem runs_modifyEntry (e : Entry) : Runs Desk.store (modifyEntry e) := by
  rintro ⟨queue, store, calls⟩
  cases queue with
  | ram | cached => exact .refl
  | durable q =>
    rw [show (modifyEntry e).on ⟨.durable q, store, calls⟩ =
      (modifyEntry e).on (Desk.seat .durable ⟨q, store, calls⟩) from rfl, modifyEntry_seat]
    have hproper : Proper (Durable.serving False) (Durable.modifyEntry e) :=
      Durable.proper_modifyEntry e
    exact hproper.living.runs (fun _ => trivial) ⟨q, store, calls⟩

end Queue

end Spillway
