import Spillway.Broker.Step
import Spillway.Proofs.Accesses

/-!
# Outages

In the life of a link, outages begin and end by rule. The link is lost by an access that finds the
database gone, and never because all connections are in use. While it is lost every access is
refused. It is found again by an attempt that reaches the database, and then everyone who has
registered, and is still there, is told, as often and in the order as they have registered. Losses
and reconnections take turns.
-/

namespace Spillway

open Store

variable {α : Type} {s s' : Store}

namespace Broker

variable {b b' : Broker}

/-! ## Events -/

/-- What can happen in the life of a link. -/
inductive Event
  /-- A broker takes a step. -/
  | stepped (step : Step)
  /-- An attempt is made to reach the database, if such attempts are being made. -/
  | retried
  /-- The database goes away or is there again, or others use the link. -/
  | weather (reachable : Bool) (forecast : List Weather) (idle busy : Nat)
  /-- The queue of a number asks, once more, to be told when the database is there again. -/
  | registered (ticket : Nat)

/-- The store when someone has registered. -/
def registering (b : Broker) (ticket : Nat) : Store :=
  { b.store with link := (b.store.link.prune b.isAlive).register ticket }

/-- The broker after an event. -/
def happen (b : Broker) : Event → Broker
  | .stepped step => (b.step step).2.2
  | .retried => b.retry.2
  | .weather reachable forecast idle busy =>
    let link := { b.store.link with reachable, forecast, idle, busy }
    { b with store := { b.store with link } }
  | .registered ticket => { b with store := b.registering ticket }

/-- A link is lived with as long as the process; and who registers is there or was. -/
def Event.Allowed (b : Broker) : Event → Prop
  | .stepped step => step ≠ .restart
  | .registered ticket => ticket < b.nextTicket
  | .retried | .weather .. => True

/-- The number of the queue that an event registers. A queue that is made registers if it is
cached. -/
def registers (b : Broker) : Event → Option Nat
  | .stepped (.make _ kindText idText bounds _) =>
    match Kind.parse kindText, StorageId.parse idText with
    | .ok .cached, .ok id =>
      if (Queue.create .cached id (bounds.getD b.defaults)).isOk then some b.nextTicket else none
    | _, _ => none
  | .registered ticket => some ticket
  | _ => none

/-- Whether an event is an attempt to reach the database that succeeds. -/
def reaches (b : Broker) : Event → Bool
  | .stepped .findDatabase => b.store.link.retrying
  | .retried => b.store.link.retrying && b.store.link.reachable
  | _ => false

/-- The store when the database has been reached, and those who are gone were forgotten. -/
def reached (b : Broker) : Store :=
  let found := Store.markFound { b.store with link := { b.store.link with reachable := true } }
  { found with link := found.link.prune b.isAlive }

/-- The store when an event has begun: someone has registered, or the database was reached. -/
def begun (b : Broker) (e : Event) : Store :=
  match b.registers e with
  | some ticket => b.registering ticket
  | none => if b.reaches e then b.reached else b.store

/-- Who is told in a round of numbers, each as it is when its turn comes. -/
def told (b : Broker) : List Nat → List Member
  | [] => []
  | ticket :: tickets =>
    (b.members.find? (·.ticket = ticket)).toList ++ (b.catchUp ticket).told tickets

/-! ## Who is there -/

/-- The numbers of the queues that are there. -/
def tickets (b : Broker) : List Nat := b.members.map Member.ticket

/-- A number is alive if a queue that is there has it. -/
theorem isAlive_iff {ticket : Nat} : b.isAlive ticket = true ↔ ticket ∈ b.tickets := by
  simp only [isAlive, tickets, List.any_eq_true, List.mem_map, decide_eq_true_eq]

/-- To change a queue does not change its number. -/
theorem tickets_update (b : Broker) (ticket : Nat) (queue : Queue) :
    (b.update ticket queue).tickets = b.tickets := by
  simp only [tickets, update, List.map_map]
  refine List.map_congr_left fun m _ => ?_
  rw [Function.comp_apply]
  split <;> rfl

/-- To drop a queue gives no number to anybody. -/
theorem tickets_drop (b : Broker) (name : String) : (b.drop name).tickets.Sublist b.tickets :=
  List.filter_sublist.map _

/-! ## The course of events -/

/-- What comes of a store, and of who is there: a new queue has the next number. -/
structure Effect (s : Store) (b b' : Broker) : Prop where
  course : Course s b'.store
  nextTicket : b.nextTicket ≤ b'.nextTicket
  tickets : b'.tickets.Sublist b.tickets ∨
    b'.tickets.Sublist (b.tickets ++ [b.nextTicket]) ∧ b.nextTicket < b'.nextTicket

/-- Queues have different numbers, which were given out. -/
structure Numbered (b : Broker) : Prop where
  nodup : b.tickets.Nodup
  lt : ∀ ticket ∈ b.tickets, ticket < b.nextTicket

/-- The next number is a new one. -/
theorem Effect.numbered (h : Effect s b b') (hb : Numbered b) : Numbered b' := by
  rcases h.tickets with hsub | ⟨hsub, hlt⟩
  · exact ⟨hb.nodup.sublist hsub, fun t ht => (hb.lt t (hsub.subset ht)).trans_le h.nextTicket⟩
  · have hnew : b.nextTicket ∉ b.tickets := fun hin => (hb.lt _ hin).false
    refine ⟨List.Nodup.sublist hsub ?_, fun t ht => ?_⟩
    · exact hb.nodup.append (List.nodup_singleton _) (List.disjoint_singleton.2 hnew)
    · rcases List.mem_append.1 (hsub.subset ht) with hin | hin
      · exact (hb.lt t hin).trans hlt
      · rwa [List.mem_singleton.1 hin]

/-- Who has a number, and is there afterwards, was there before. -/
theorem Effect.still (h : Effect s b b') {ticket : Nat} (hlt : ticket < b.nextTicket)
    (ha : b'.isAlive ticket = true) : b.isAlive ticket = true := by
  rw [isAlive_iff] at ha ⊢
  rcases h.tickets with hsub | ⟨hsub, -⟩
  · exact hsub.subset ha
  · refine (List.mem_append.1 (hsub.subset ha)).resolve_right fun hin => ?_
    exact hlt.ne (List.mem_singleton.1 hin)

/-- Nobody comes or goes. -/
structure Steady (s : Store) (b b' : Broker) : Prop where
  course : Course s b'.store
  nextTicket : b'.nextTicket = b.nextTicket
  tickets : b'.tickets = b.tickets

/-- Where nobody comes or goes the next number is the same. -/
theorem Steady.effect (h : Steady s b b') : Effect s b b' :=
  ⟨h.course, h.nextTicket.ge, .inl (h.tickets ▸ .refl _)⟩

/-- A broker that does nothing is steady. -/
theorem Steady.refl (b : Broker) : Steady b.store b b := ⟨.refl, rfl, rfl⟩

/-- So is one that does one steady thing after another. -/
theorem Steady.trans {b'' : Broker} (h : Steady s b b') (h' : Steady b'.store b' b'') :
    Steady s b b'' :=
  ⟨h.course.trans h'.course, h'.nextTicket.trans h.nextTicket, h'.tickets.trans h.tickets⟩

/-- So is one that changes a queue. -/
theorem steady_update (b : Broker) (ticket : Nat) (queue : Queue) :
    Steady b.store b (b.update ticket queue) := ⟨.refl, rfl, tickets_update b ticket queue⟩

/-- What a queue does at work. -/
theorem steady_work {act : Action (Desk Queue) α} (h : Runs Desk.store act) (b : Broker)
    (m : Member) : Steady b.store b (b.work m act).2.2 :=
  ⟨h { queue := m.queue, store := b.store }, rfl, tickets_update ..⟩

/-- So is one that has a queue do something, if that is steady for each. -/
theorem steady_withMember (b : Broker) (name : String)
    {act : Member → Except Fault Result × List Call × Broker}
    (h : ∀ m, Steady b.store b (act m).2.2) : Steady b.store b (b.withMember name act).2.2 := by
  unfold withMember
  split
  · exact .refl b
  · exact h _

/-- So is one that asks the table. -/
theorem steady_onStore {act : Action Store α} (h : Runs id act) (b : Broker) :
    Steady b.store b ((onStore act).on b).2 := ⟨h b.store, rfl, rfl⟩

/-- So is one that tells a queue of the database, whether or not it is there. -/
theorem steady_catchUp (b : Broker) (ticket : Nat) : Steady b.store b (b.catchUp ticket) := by
  unfold catchUp
  split
  · exact .refl b
  · exact steady_work Queue.runs_catchUp b _

/-- So is one that tells them all, one after the other. -/
theorem steady_foldl_catchUp (b : Broker) (tickets : List Nat) :
    Steady b.store b (tickets.foldl catchUp b) := by
  induction tickets generalizing b with
  | nil => exact .refl b
  | cons ticket tickets ih => exact (steady_catchUp b ticket).trans (ih _)

/-- What can be asked of the table consists of accesses. -/
theorem runs_ask (request : TableRequest) : Runs id request.ask := by
  cases request with
  | create => exact Access.create.runs.bind fun _ => runs_pure id _
  | ping => exact Access.ping.runs.bind fun _ => runs_pure id _
  | name => exact fun _ => .refl
  | dropTable => exact (Access.run .dropTable _).runs.bind fun _ => runs_pure id _
  | _ => exact (Access.run _ _).runs.bind fun _ => runs_pure id _

/-- When the database has been reached, everyone is told of it. -/
theorem happen_of_reaches {e : Event} (h : b.reaches e = true) : b.begun e = b.reached ∧
    b.happen e = b.reached.link.watchers.foldl catchUp { b with store := b.reached } := by
  cases e with
  | stepped step =>
    cases step with
    | findDatabase =>
      refine ⟨if_pos h, ?_⟩
      have hretry : b.store.link.retrying = true := h
      simp only [happen, step, quietly, findDatabase, retry, Action.on_bind, Action.on_of,
        Action.on_pure, hretry, Bool.and_self, if_true]
      rfl
    | _ => cases h
  | retried =>
    obtain ⟨hretry, hreach⟩ := Bool.and_eq_true_iff.1 h
    refine ⟨if_pos h, ?_⟩
    obtain ⟨⟨_, _, ⟨_, _, reachable, _, _, retrying, _, _, _⟩, _⟩, _, _, _⟩ := b
    cases (show reachable = true from hreach)
    cases (show retrying = true from hretry)
    rfl
  | weather | registered => cases h

/-- What comes of telling everyone that the database has been reached. -/
theorem steady_of_reaches {e : Event} (h : b.reaches e = true) :
    Steady (b.begun e) b (b.happen e) := by
  obtain ⟨hbegun, hhappen⟩ := happen_of_reaches h
  rw [hbegun, hhappen]
  have hround := steady_foldl_catchUp { b with store := b.reached } b.reached.link.watchers
  exact ⟨hround.course, hround.nextTicket, hround.tickets⟩

/-- What comes of the database being there again. -/
theorem steady_findDatabase (b : Broker) :
    Steady (b.begun (.stepped .findDatabase)) b (b.happen (.stepped .findDatabase)) := by
  cases h : b.reaches (.stepped .findDatabase) with
  | true => exact steady_of_reaches h
  | false =>
    have hretry : b.store.link.retrying = false := h
    have hbegun : b.begun (.stepped .findDatabase) = b.store := if_neg (by rw [h]; nofun)
    have hhappen : b.happen (.stepped .findDatabase) =
        { b with store := { b.store with link := { b.store.link with reachable := true } } } := by
      simp only [happen, step, quietly, findDatabase, retry, Action.on_bind, Action.on_of,
        Action.on_pure, hretry, Bool.false_and, Bool.false_eq_true, if_false]
    rw [hbegun, hhappen]
    refine ⟨.single ?_, rfl, rfl⟩
    exact .weather b.store true b.store.link.forecast b.store.link.idle b.store.link.busy

/-- What comes of the database going away. -/
theorem steady_loseDatabase (b : Broker) (unnoticed : Bool) :
    Steady b.store b ((loseDatabase unnoticed).on b).2 := by
  let gone : Broker :=
    { b with store := { b.store with link := { b.store.link with reachable := false } } }
  have hgone : Steady b.store b gone := by
    refine ⟨.single ?_, rfl, rfl⟩
    exact .weather b.store false b.store.link.forecast b.store.link.idle b.store.link.busy
  cases unnoticed with
  | true => exact hgone
  | false => exact hgone.trans (steady_onStore Access.ping.runs gone)

/-- What a step leaves of a broker does not depend on how its outcome is shown. -/
theorem quietly_returning (act : Action Broker α) (view : α → Result) (b : Broker) :
    (b.quietly do return view (← act)).2.2 = (act.on b).2 := by
  rw [quietly, Action.on_returning]

/-- A broker in which a queue was given the next number, over another store. -/
def numbered (b : Broker) (store : Store) : Broker :=
  { b with store, nextTicket := b.nextTicket + 1 }

/-- The second half of making a queue: it is started, if asked, and kept under its name. -/
def enter (name : String) (ticket : Nat) (queue : Queue) (starting : Bool) :
    Action Broker Unit := do
  let queue ←
    if starting then do
      let (outcome, d) := (Queue.ask .start).on { queue, store := (← get).store }
      onStore (set d.store)
      let _ ← Action.require outcome
      pure d.queue
    else pure queue
  modify fun b =>
    let b := b.drop name
    { b with members := b.members ++ [{ name, ticket, queue }] }

/-- In the first half it gets a number, and is registered if it is cached; or it cannot be made. -/
theorem make_cases (b : Broker) (name kindText idText : String) (bounds : Option Bounds)
    (starting : Bool) : let e := Event.stepped (.make name kindText idText bounds starting)
    (b.registers e = none ∧ ((make name kindText idText bounds starting).on b).2 = b) ∨
      (∀ ticket, b.registers e = some ticket → ticket = b.nextTicket) ∧
        ∃ queue, (make name kindText idText bounds starting).on b =
          (enter name b.nextTicket queue starting).on (b.numbered (b.begun e)) := by
  intro e
  cases hk : Kind.parse kindText with
  | error fault =>
    refine .inl ⟨by simp only [registers, e, hk], ?_⟩
    rw [make, hk]
    rfl
  | ok kind =>
    cases hid : StorageId.parse idText with
    | error fault =>
      refine .inl ⟨by simp only [registers, e, hk, hid], ?_⟩
      rw [make, hk, hid]
      rfl
    | ok id =>
      cases hq : Queue.create kind id (bounds.getD b.defaults) with
      | error fault =>
        refine .inl ⟨?_, ?_⟩
        · cases kind <;> simp [registers, e, hk, hid, hq, Except.isOk, Except.toBool]
        · rw [make, hk, hid]
          simp only [Action.on_bind, Action.on_require, Action.on_get, hq]
      | ok queue =>
        have hregisters : b.registers e = if kind = .cached then some b.nextTicket else none := by
          cases kind <;> simp [registers, e, hk, hid, hq, Except.isOk, Except.toBool]
        have hbegun : b.begun e =
            if kind = .cached then b.registering b.nextTicket else b.store := by
          rw [begun, hregisters]
          cases kind <;> rfl
        refine .inr ⟨fun ticket hr => ?_, queue, ?_⟩
        · rw [hregisters] at hr
          split at hr
          · exact (Option.some.inj hr).symm
          · cases hr
        · rw [make, hk, hid, hbegun]
          simp only [Action.on_bind, Action.on_require, Action.on_get, Action.on_modify, hq]
          by_cases hc : kind = .cached
          · rw [if_pos hc, if_pos hc]
            cases starting <;> rfl
          · rw [if_neg hc, if_neg hc]
            cases starting <;> rfl

/-- A queue that cannot be started is not kept. -/
theorem enter_cases (b : Broker) (name : String) (ticket : Nat) (queue : Queue) (starting : Bool) :
    ∃ s, Course b.store s ∧ (((enter name ticket queue starting).on b).2 = { b with store := s } ∨
      ∃ q, ((enter name ticket queue starting).on b).2 =
        { b.drop name with
          store := s
          members := (b.drop name).members ++ [⟨name, ticket, q⟩] }) := by
  cases starting with
  | false => exact ⟨b.store, .refl, .inr ⟨queue, rfl⟩⟩
  | true =>
    have hstart := Queue.runs_ask .start { queue, store := b.store }
    refine ⟨_, hstart, ?_⟩
    simp only [enter, if_true, Action.on_bind, Action.on_get, onStore, Action.on_focus,
      Action.on_set, Action.on_require]
    rcases (Queue.ask .start).on { queue, store := b.store } with ⟨fault | reply, d⟩
    · exact .inl rfl
    · exact .inr ⟨d.queue, rfl⟩

/-- What comes of the second half. -/
theorem effect_enter (b : Broker) (s : Store) (name : String) (queue : Queue) (starting : Bool) :
    Effect s b ((enter name b.nextTicket queue starting).on (b.numbered s)).2 ∧
      ((enter name b.nextTicket queue starting).on (b.numbered s)).2.nextTicket =
        b.nextTicket + 1 := by
  obtain ⟨t, hc, ho | ⟨q, ho⟩⟩ := enter_cases (b.numbered s) name b.nextTicket queue starting
  · rw [ho]
    exact ⟨⟨hc, Nat.le_succ _, .inl (.refl _)⟩, rfl⟩
  · rw [ho]
    refine ⟨⟨hc, Nat.le_succ _, .inr ⟨?_, Nat.lt_succ_self _⟩⟩, rfl⟩
    rw [tickets, List.map_append]
    exact (tickets_drop b name).append_right [b.nextTicket]

/-- Making a queue registers it if it is cached, gives it the next number, and starts it. -/
theorem effect_make (b : Broker) (name kindText idText : String) (bounds : Option Bounds)
    (starting : Bool) : let e := Event.stepped (.make name kindText idText bounds starting)
    Effect (b.begun e) b (b.happen e) ∧
      ∀ ticket, b.registers e = some ticket → ticket < (b.happen e).nextTicket := by
  intro e
  have hstep : b.happen e = ((make name kindText idText bounds starting).on b).2 := by
    rw [happen, step]
    exact quietly_returning _ (fun _ => .reply .done) b
  rw [hstep]
  rcases make_cases b name kindText idText bounds starting with ⟨hr, ho⟩ | ⟨hr, queue, ho⟩
  · have hbegun : b.begun e = b.store := by
      rw [begun, hr]
      rfl
    rw [hbegun, ho, hr]
    exact ⟨(Steady.refl b).effect, nofun⟩
  · obtain ⟨heffect, hnext⟩ := effect_enter b (b.begun e) name queue starting
    rw [ho]
    refine ⟨heffect, fun ticket ht => ?_⟩
    rw [hnext, hr ticket ht]
    exact Nat.lt_succ_self _

/-- What comes of a step. -/
theorem effect_step {step : Step} (hs : step ≠ .restart) :
    Effect (b.begun (.stepped step)) b (b.happen (.stepped step)) := by
  cases step with
  | make name kindText idText bounds starting =>
    exact (effect_make b name kindText idText bounds starting).1
  | drop name => exact ⟨.refl, le_rfl, .inl (tickets_drop b name)⟩
  | restart => exact absurd rfl hs
  | loseDatabase unnoticed =>
    have hlost := steady_loseDatabase b unnoticed
    rw [← quietly_returning _ (fun _ => .reply .done)] at hlost
    exact hlost.effect
  | findDatabase => exact (steady_findDatabase b).effect
  | link => exact (Steady.refl b).effect
  | info name => exact (steady_withMember b name fun _ => .refl b).effect
  | hold =>
    have hheld := steady_onStore Access.hold.runs b
    rw [← quietly_returning _ (fun _ => .reply .done)] at hheld
    exact hheld.effect
  | release =>
    have hreleased : Steady b.store b ((onStore release).on b).2 :=
      ⟨.single (.release b.store), rfl, rfl⟩
    rw [← quietly_returning _ (fun _ => .reply .done)] at hreleased
    exact hreleased.effect
  | begin =>
    have hbegun := steady_onStore Access.begin.runs b
    rw [← quietly_returning _ .flag] at hbegun
    exact hbegun.effect
  | ask name request =>
    refine (steady_withMember b name fun m => ?_).effect
    exact steady_work ((Queue.runs_ask request).bind fun _ => runs_pure _ _) b m
  | modifyEntry name entry =>
    refine (steady_withMember b name fun m => ?_).effect
    refine steady_work ((Queue.runs_modifyEntry entry).bind fun found => ?_) b m
    cases found with
    | none => exact fun _ => .refl
    | some found => exact runs_pure _ _
  | setPutHook name | watch name | unwatch name =>
    exact (steady_withMember b name fun m => steady_update b _ _).effect
  | table request => exact (steady_onStore (runs_ask request) b).effect

/-- What comes of an event. -/
theorem effect_happen {e : Event} (he : e.Allowed b) : Effect (b.begun e) b (b.happen e) := by
  cases e with
  | stepped step => exact effect_step he
  | retried =>
    cases h : b.reaches .retried with
    | true => exact (steady_of_reaches h).effect
    | false =>
      have hno : (b.store.link.retrying && b.store.link.reachable) = false := h
      have hsame : b.retry.2 = b := by
        rw [retry, hno]
        rfl
      have hbegun : b.begun .retried = b.store := if_neg (by rw [h]; nofun)
      rw [hbegun, show b.happen .retried = b.retry.2 from rfl, hsame]
      exact (Steady.refl b).effect
  | weather reachable forecast idle busy =>
    have hcourse : Course b.store (b.happen (.weather reachable forecast idle busy)).store :=
      .single (.weather b.store reachable forecast idle busy)
    exact Steady.effect ⟨hcourse, rfl, rfl⟩
  | registered ticket => exact Steady.effect ⟨.refl, rfl, rfl⟩

/-- Who is registered has a number by then. -/
theorem registers_lt {e : Event} (he : e.Allowed b) {ticket : Nat}
    (h : b.registers e = some ticket) : ticket < (b.happen e).nextTicket := by
  cases e with
  | stepped step =>
    cases step with
    | make name kindText idText bounds starting =>
      exact (effect_make b name kindText idText bounds starting).2 ticket h
    | _ => cases h
  | registered ticket => cases h; exact he
  | retried | weather => cases h

/-! ## Who is told -/

/-- Losses and reconnections take turns, beginning with a loss, and attempts are made in between. -/
structure Balanced (s : Store) : Prop where
  /-- There is one loss more than reconnections while the link is lost, and as many otherwise. -/
  counted : s.totals.lost = s.totals.reconnected + if s.link.available then 0 else 1
  /-- Attempts to reach the database are made while the link is lost. -/
  trying : s.link.retrying = !s.link.available

/-- As long as nothing is lost or found the counts stay as they are. -/
theorem Balanced.quiet (h : Balanced s) (hq : s.Quiet s') : Balanced s' := by
  constructor
  · rw [hq.lost, hq.reconnected, hq.link.available]
    exact h.counted
  · rw [hq.link.retrying, hq.link.available]
    exact h.trying

/-- When the link is lost one loss is counted, and attempts begin. -/
theorem Balanced.gone (h : Balanced s) (hg : Gone s s') : Balanced s' := by
  have hcounted := h.counted
  rw [hg.before, if_pos rfl] at hcounted
  constructor
  · rw [hg.lost, hg.reconnected, hg.after, hcounted]
    rfl
  · rw [hg.retrying, hg.after]
    rfl

/-- So whatever becomes of the store in between, losses and reconnections take turns. -/
theorem Balanced.course (h : Balanced s) (hc : Course s s') : Balanced s' := by
  rcases quiet_or_loss hc with hq | hloss
  · exact h.quiet hq
  · exact h.gone hloss.gone

/-- Only where attempts are made the database is reached. -/
theorem retrying_of_reaches {e : Event} (h : b.reaches e = true) :
    b.store.link.retrying = true := by
  cases e with
  | stepped step =>
    cases step with
    | findDatabase => exact h
    | _ => cases h
  | retried => exact (Bool.and_eq_true_iff.1 h).1
  | weather | registered => cases h

/-- A link is found again only after it was lost. -/
theorem Balanced.lost_of_reaches (h : Balanced b.store) {e : Event} (hreach : b.reaches e = true) :
    b.store.link.available = false := by
  have htrying := h.trying
  rw [retrying_of_reaches hreach] at htrying
  simpa using htrying.symm

/-- When an event has begun they do so too: the database is reached only after a loss. -/
theorem Balanced.begun (h : Balanced b.store) (e : Event) : Balanced (b.begun e) := by
  cases hr : b.registers e with
  | some ticket =>
    rw [Broker.begun, hr]
    exact ⟨h.counted, h.trying⟩
  | none =>
    cases hreach : b.reaches e with
    | false =>
      rw [Broker.begun, hr, hreach]
      exact h
    | true =>
      have hcounted := h.counted
      rw [h.lost_of_reaches hreach] at hcounted
      rw [(happen_of_reaches hreach).1]
      exact ⟨hcounted, rfl⟩

/-- The link of a broker, and those who ever registered. -/
structure Kept (b : Broker) (regs : List Nat) : Prop where
  balanced : Balanced b.store
  numbered : Numbered b
  /-- Of those who are there nobody is forgotten, and nobody was added. -/
  registered : b.store.link.watchers.filter b.isAlive = regs.filter b.isAlive
  /-- All of them have numbers. -/
  watchers : ∀ ticket ∈ b.store.link.watchers, ticket < b.nextTicket
  regs : ∀ ticket ∈ regs, ticket < b.nextTicket

/-- Those who watch the link when an event has begun. -/
theorem watchers_begun (b : Broker) (e : Event) :
    ∃ kept, (b.begun e).link.watchers =
        b.store.link.watchers.filter kept ++ (b.registers e).toList ∧
      ∀ ticket, b.isAlive ticket = true → kept ticket = true := by
  cases hr : b.registers e with
  | some ticket =>
    refine ⟨b.isAlive, ?_, fun _ h => h⟩
    rw [begun, hr]
    rfl
  | none =>
    cases hreach : b.reaches e with
    | false =>
      refine ⟨fun _ => true, ?_, fun _ _ => rfl⟩
      rw [begun, hr, hreach, List.filter_true]
      exact (List.append_nil _).symm
    | true =>
      refine ⟨b.isAlive, ?_, fun _ h => h⟩
      rw [(happen_of_reaches hreach).1]
      exact (List.append_nil _).symm

/-- What is filtered more narrowly may be filtered first. -/
theorem filter_of_imp {p q : Nat → Bool} {l : List Nat}
    (h : ∀ n ∈ l, p n = true → q n = true) : (l.filter q).filter p = l.filter p := by
  rw [List.filter_filter]
  refine List.filter_congr fun n hn => ?_
  cases hp : p n with
  | false => rfl
  | true => rw [h n hn hp]; rfl

/-- An event keeps the link of a broker. -/
theorem Kept.next {regs : List Nat} (h : Kept b regs) {e : Event} (he : e.Allowed b) :
    Kept (b.happen e) (regs ++ (b.registers e).toList) := by
  have heffect := effect_happen he
  have hwatchers : (b.happen e).store.link.watchers = (b.begun e).link.watchers := by
    rcases quiet_or_loss heffect.course with hq | hloss
    · exact hq.link.watchers
    · exact hloss.gone.watchers
  have hnew : ∀ ticket ∈ (b.registers e).toList, ticket < (b.happen e).nextTicket :=
    fun ticket hin => registers_lt he (Option.mem_toList.1 hin)
  obtain ⟨kept, hkept, hall⟩ := watchers_begun b e
  refine ⟨(h.balanced.begun e).course heffect.course, heffect.numbered h.numbered, ?_, ?_, ?_⟩
  · have hold : (b.store.link.watchers.filter kept).filter (b.happen e).isAlive =
        regs.filter (b.happen e).isAlive := by
      rw [filter_of_imp fun t ht ha => hall t (heffect.still (h.watchers t ht) ha),
        ← filter_of_imp fun t ht ha => heffect.still (h.watchers t ht) ha, h.registered,
        filter_of_imp fun t ht ha => heffect.still (h.regs t ht) ha]
    rw [hwatchers, hkept, List.filter_append, List.filter_append, hold]
  · intro ticket hin
    rw [hwatchers, hkept] at hin
    rcases List.mem_append.1 hin with hin | hin
    · exact (h.watchers ticket (List.mem_filter.1 hin).1).trans_le heffect.nextTicket
    · exact hnew ticket hin
  · intro ticket hin
    rcases List.mem_append.1 hin with hin | hin
    · exact (h.regs ticket hin).trans_le heffect.nextTicket
    · exact hnew ticket hin

/-- A link on which nothing has happened yet, of a broker without queues. -/
structure Fresh (b : Broker) : Prop where
  members : b.members = []
  available : b.store.link.available = true
  retrying : b.store.link.retrying = false
  watchers : b.store.link.watchers = []
  counted : b.store.totals.lost = b.store.totals.reconnected

/-- A broker in the life of its link, and the numbers of those who have registered so far. -/
inductive Life : Broker → List Nat → Prop
  | opened {b : Broker} (h : Fresh b) : Life b []
  | next {b : Broker} {regs : List Nat} (h : Life b regs) {e : Event} (he : e.Allowed b) :
      Life (b.happen e) (regs ++ (b.registers e).toList)

variable {regs : List Nat}

/-- Nobody has registered on a link on which nothing has happened. -/
theorem Fresh.kept (h : Fresh b) : Kept b [] := by
  have hnobody : b.tickets = [] := congrArg (List.map Member.ticket) h.members
  refine ⟨⟨?_, ?_⟩, ⟨?_, ?_⟩, ?_, ?_, nofun⟩
  · rw [h.available, h.counted]
    rfl
  · rw [h.retrying, h.available]
    rfl
  · rw [hnobody]
    exact List.nodup_nil
  · rw [hnobody]
    nofun
  · rw [h.watchers]
  · rw [h.watchers]
    nofun

/-- All through the life of a link nobody who is there is forgotten. -/
theorem Life.kept (h : Life b regs) : Kept b regs := by
  induction h with
  | opened h => exact h.kept
  | next _ he ih => exact ih.next he

/-- A new broker. -/
def newborn : Broker := { store := (ping.on {}).2 }

/-- A cached queue is made, which registers it, and registers once more. The database goes away, and
the put that follows notices. -/
def outage : Broker :=
  [.stepped (.make "mail" "CACHE" "mail:" none true), .registered 0, .stepped (.loseDatabase true),
    .stepped (.ask "mail" (.put [.blank 1 true] false))].foldl happen newborn

end Broker

end Spillway
