import Spillway.Proofs.Bookkeeping
import Spillway.Proofs.Limits
import Spillway.Proofs.Storing

/-!
# The protocol of a put

A batch that the put hook takes over is not stored. Any other is refused exactly if the queue is
over its bounds, and otherwise its new entries are added; the hook is called before anything
changes, and again once the batch is stored. Queues of all kinds keep to that, so that those with
the same entries take and refuse the same batches and call the same hooks. Only a queue in the table
does nothing more about an empty batch than to call its hook before it.
-/

namespace Spillway

open Desk

namespace Queue

variable {d : Desk Queue} {l batch : List Entry} {bypass : Bool}

/-! ## Histories -/

/-- A queue of any kind with a history in which the bytes of the rows of a queue in the table are a
word whenever it is opened over them. -/
inductive Worked : Desk Queue → Prop
  /-- It is made, over whatever rows an earlier one of its name has left. -/
  | made {kind : Kind} {id : StorageId} {bounds : Bounds} {q : Queue} {es : List Entry} {s : Store}
      (hq : create kind id bounds = .ok q) (hp : Partition id.text s.rows es) (hooks : Hooks)
      (calls : List Call) : Worked { queue := q.withHooks hooks, store := s, calls }
  /-- It is asked something. -/
  | asked {d : Desk Queue} (h : Worked d) (request : Request)
      (hb : request = .start → d.queue.kind = .durable →
        (Row.totals (Statement.rowsOf (Managed.storageId d.queue).text d.store.rows)).bytes <
          2 ^ 64) :
      Worked ((ask request).on d).2
  /-- It is told that the database is there again. -/
  | notified {d : Desk Queue} (h : Worked d) : Worked (catchUp.on d).2
  /-- It is to change an entry in place. -/
  | modified {d : Desk Queue} (h : Worked d) (e : Entry) : Worked ((modifyEntry e).on d).2
  /-- The link changes, others use the store. -/
  | meanwhile {d : Desk Queue} (h : Worked d) {s : Store}
      (hs : d.store.Spares (Managed.storageId d.queue).text s) : Worked { d with store := s }
  /-- It gets other hooks. -/
  | hooked {d : Desk Queue} (h : Worked d) (hooks : Hooks) :
      Worked { d with queue := d.queue.withHooks hooks }

theorem Worked.reachable (h : Worked d) : Reachable d := by
  induction h with
  | made hq hp hooks calls => exact .made hq hp hooks calls
  | asked _ request _ ih => exact ih.asked request
  | notified _ ih => exact ih.notified
  | modified _ e ih => exact ih.modified e
  | meanwhile _ hs ih => exact ih.meanwhile hs
  | hooked _ hooks ih => exact ih.hooked hooks

theorem seat_durable_inj {c c' : Desk Durable} (h : c.seat .durable = c'.seat .durable) :
    c = c' := by
  obtain ⟨q, s, calls⟩ := c
  obtain ⟨q', s', calls'⟩ := c'
  injection h with hq hs hcalls
  cases hq
  cases hs
  cases hcalls
  rfl

/-- The history of a queue in the table is one of jobs. -/
theorem Worked.durable (h : Worked d) {c : Desk Durable} (hc : d = c.seat .durable) :
    Durable.Worked c := by
  induction h generalizing c with
  | @made kind id bounds r es s hr hp hooks calls =>
    cases kind with
    | ram | cached =>
      obtain ⟨_, _, rfl⟩ := exists_of_map_eq_ok hr
      cases hc
    | durable =>
      obtain ⟨r, hnew, rfl⟩ := exists_of_map_eq_ok hr
      obtain rfl := seat_durable_inj (c := ⟨{ r with hooks }, s, calls⟩) hc
      cases Durable.create_eq hnew
      exact .made ⟨⟨_, hooks, hnew, rfl⟩, es, hp⟩
  | @asked d _ request hb ih =>
    obtain ⟨r, s, calls⟩ := d
    cases r with
    | ram | cached => cases hc
    | durable r =>
      obtain rfl := seat_durable_inj (c := ((serve request).on ⟨r, s, calls⟩).2) hc
      have hleft : ((serve request).on ⟨r, s, calls⟩).2 =
          ((Durable.Job.ask request).act.on ⟨r, s, calls⟩).2 := Durable.left_of_seen _ rfl _
      exact hleft ▸ (ih rfl).job (.ask request) fun hj => hb (Durable.Job.ask.inj hj) rfl
  | @notified d _ ih =>
    obtain ⟨r, s, calls⟩ := d
    cases r with
    | cached => cases hc
    | ram | durable => exact ih hc
  | @modified d _ e ih =>
    obtain ⟨r, s, calls⟩ := d
    cases r with
    | ram | cached => exact ih hc
    | durable r =>
      have hseat := modifyEntry_seat e ⟨r, s, calls⟩
      obtain rfl := seat_durable_inj (hseat.symm.trans hc)
      have hleft : ((Durable.modifyEntry e).on ⟨r, s, calls⟩).2 =
          ((Durable.Job.modify e).act.on ⟨r, s, calls⟩).2 := Durable.left_of_seen _ rfl _
      exact hleft ▸ (ih rfl).job (.modify e) nofun
  | @meanwhile d _ s hs ih =>
    obtain ⟨r, s', calls⟩ := d
    cases r with
    | ram | cached => cases hc
    | durable r =>
      obtain rfl := seat_durable_inj (c := ⟨r, s, calls⟩) hc
      exact (ih (c := ⟨r, s', calls⟩) rfl).meanwhile hs calls
  | @hooked d _ hooks ih =>
    obtain ⟨r, s, calls⟩ := d
    cases r with
    | ram | cached => cases hc
    | durable r =>
      obtain rfl := seat_durable_inj (c := ⟨{ r with hooks }, s, calls⟩) hc
      exact (ih (c := ⟨r, s, calls⟩) rfl).hooked hooks

/-- An active queue has one list, and its totals are those of the list. -/
theorem Worked.has (h : Worked d) (ha : Managed.phase d.queue = .active) :
    ∃ l, Has d l ∧ Managed.tally d.queue = Tally.total l := by
  obtain ⟨l, hl⟩ := reachable_has h.reachable
  refine ⟨l, hl, ?_⟩
  cases hl with
  | ram hl => exact hl.tally
  | @durable c l hl =>
    obtain ⟨m, hm⟩ := (h.durable rfl).accurate
    have hsame : m = l := hm.rests.contents.symm.trans hl.contents
    exact hsame ▸ hm.tally ha
  | cached hl => exact Cached.tally_of_lists (hl.stocks ha).index

/-! ## What a put comes to -/

/-- An open queue puts a batch as on the list that it has. -/
theorem Has.put (h : Has d l) (ho : Open d) (ht : Managed.tally d.queue = Tally.total l)
    (hb : d.queue.kind = .durable → batch ≠ []) (bypass : Bool) :
    ∃ d', (ask (.put batch bypass)).on d = ((putOn (Managed.storageId d.queue).text
        (Managed.bounds d.queue) (Managed.hooks d.queue) batch bypass l).1, d') ∧
      Open d' ∧ Has d' (putOn (Managed.storageId d.queue).text (Managed.bounds d.queue)
        (Managed.hooks d.queue) batch bypass l).2 := by
  obtain ⟨ha, hs⟩ := ho
  cases h with
  | @ram d l h =>
    obtain ⟨roll, store, calls, hon, hl⟩ := Ram.put_on ha h batch bypass
    exact ⟨Desk.seat .ram ⟨{ d.queue with roll }, store, calls⟩,
      congrArg (fun p => (p.1, p.2.seat .ram)) hon, ⟨ha, .inl rfl⟩, .ram hl⟩
  | @durable d l h =>
    have hserving := hs.resolve_left nofun
    rcases Durable.put_on ha (h.keeps ha) ht (hb rfl) bypass with
      ⟨tally, store, calls, hon, -, hk, hu⟩ | ⟨fault, store, calls, hon, hm⟩
    · have hd : d.queue.phase ≠ .destroyed := by
        rw [show d.queue.phase = .active from ha]
        nofun
      exact ⟨(Durable.turned d tally store calls).seat .durable,
        congrArg (fun p => (p.1, p.2.seat .durable)) hon,
        ⟨ha, .inr (hu.link.serving hserving)⟩, .durable (Durable.rests_of_keeps hk hd)⟩
    · exact absurd hserving hm.unserved
  | @cached d l h =>
    have hserving := hs.resolve_left nofun
    rcases Cached.put_on (h.stocks ha) ha batch bypass with
      ⟨d', m, hon, hst, hm, hsame, -⟩ | ⟨hspoilt, -⟩
    · have ha' : d'.queue.phase = .active := hst.phase.trans ha
      exact ⟨d'.seat .cached, congrArg (fun p => (p.1, p.2.seat .cached)) hon,
        ⟨ha', .inr (hst.used.link.serving hserving)⟩, hsame ▸ .cached (.serving ha' hm)⟩
    · exact absurd hserving hspoilt.unserved

/-- Hook calls that a queue has made do not matter to what it has. -/
theorem Has.called (h : Has d l) (calls : List Call) : Has (d.called calls) l := by
  cases h with
  | @ram d l h => exact .ram (d := d.called calls) h
  | @durable d l h => exact .durable (d := d.called calls) ⟨h.rows, h.made, h.gone⟩
  | @cached d l h =>
    cases h with
    | serving ha h => exact .cached (d := d.called calls) (.serving ha (h.called _))
    | resting hn h =>
      exact .cached (d := d.called calls)
        (.resting hn ⟨h.layout, h.known, h.hot, h.rows, h.named, h.alive⟩)

/-! ## The protocol -/

/-- What a queue that shows `l` is to do about a batch. -/
structure Protocol (d : Desk Queue) (l batch : List Entry) (bypass : Bool) : Prop where
  /-- A batch that the hook takes over is not stored. Nothing is done but to call the hook. -/
  takenOver : (Managed.hooks d.queue).TakesOver batch bypass →
    (ask (.put batch bypass)).on d =
      (.ok .done, d.called ((Managed.hooks d.queue).heardBefore batch bypass))
  /-- Otherwise the hook is called before anything changes; then the batch is put as if there were
  no hook, and if that succeeds the hook is called again. -/
  framed : ¬ (Managed.hooks d.queue).TakesOver batch bypass →
    (ask (.put batch bypass)).on d =
      confirmed ((Managed.hooks d.queue).heardAfter batch bypass)
        ((ask (.put batch true)).on (d.called ((Managed.hooks d.queue).heardBefore batch bypass)))
  /-- A queue over its bounds refuses the batch, and nothing is stored. -/
  full : ¬ (Managed.hooks d.queue).TakesOver batch bypass → (Managed.bounds d.queue).Exceeded l →
    ∃ excess d' told, (Tally.total l).overflow? (Managed.bounds d.queue) = some excess ∧
      (ask (.put batch bypass)).on d =
        (.error (.overflow (Managed.storageId d.queue).text excess), d') ∧
      d'.queue = d.queue ∧ d'.store.table = d.store.table ∧ Shows d' l ∧
      (∀ call ∈ told, call.ofPutHook = false) ∧
      d'.calls = d.calls ++ (Managed.hooks d.queue).heardBefore batch bypass ++ told
  /-- A queue within its bounds takes the batch, and adds exactly the entries of it whose ids are
  neither stored nor those of earlier ones. -/
  room : ¬ (Managed.hooks d.queue).TakesOver batch bypass → ¬ (Managed.bounds d.queue).Exceeded l →
    ∃ d' m told, (ask (.put batch bypass)).on d = (.ok .done, d') ∧ Shows d' m ∧ Ordered m ∧
      (∀ e, e ∈ m ↔ e ∈ l ∨
        ∃ first rest, batch = first ++ e :: rest ∧ ∀ f ∈ l ++ first, f.id ≠ e.id) ∧
      (∀ call ∈ told, call.ofPutHook = false) ∧
      d'.calls = d.calls ++ (Managed.hooks d.queue).heardBefore batch bypass ++ told ++
        (Managed.hooks d.queue).heardAfter batch bypass

/-- An empty batch at a queue in the table, which does no more about it than to call its hook before
it, where there is more to be done: to refuse it, or to call the hook again. -/
structure Skips (d : Desk Queue) (l batch : List Entry) (bypass : Bool) : Prop where
  durable : d.queue.kind = .durable
  empty : batch = []
  goesOn : ¬ (Managed.hooks d.queue).TakesOver batch bypass
  more : (Managed.bounds d.queue).Exceeded l ∨
    (Managed.hooks d.queue).heardAfter batch bypass ≠ []

/-- The calls of the put hook that a put makes. -/
def heard (d : Desk Queue) (batch : List Entry) (bypass : Bool) : List Call :=
  (((ask (.put batch bypass)).on d).2.calls.drop d.calls.length).filter Call.ofPutHook

/-- Two queues treat a batch alike: they answer the same, make the same calls of the put hook, and
show the same afterwards. -/
structure Alike (d e : Desk Queue) (batch : List Entry) (bypass : Bool) : Prop where
  answer : ((ask (.put batch bypass)).on d).1 = ((ask (.put batch bypass)).on e).1
  heard : heard d batch bypass = heard e batch bypass
  shown : ∃ m, Shows ((ask (.put batch bypass)).on d).2 m ∧
    Shows ((ask (.put batch bypass)).on e).2 m

/-- What puts come to at a queue that shows `l`. -/
structure Puts (d : Desk Queue) (l : List Entry) : Prop where
  /-- It shows its entries in order. -/
  shown : Shows d l
  order : Ordered l
  /-- It keeps to the protocol, unless it skips a batch. -/
  protocol : ∀ batch bypass, Protocol d l batch bypass ↔ ¬ Skips d l batch bypass
  /-- A batch that it skips it does not look at. -/
  skipped : ∀ batch bypass, Skips d l batch bypass → (ask (.put batch bypass)).on d =
    (.ok .done, d.called ((Managed.hooks d.queue).heardBefore batch bypass))
  /-- Any other queue that shows the same and has the same name, bounds and hooks treats a batch
  alike, if neither skips it. -/
  agree : ∀ e, Worked e → Open e → Shows e l →
    Managed.storageId e.queue = Managed.storageId d.queue →
    Managed.bounds e.queue = Managed.bounds d.queue →
    Managed.hooks e.queue = Managed.hooks d.queue →
    ∀ batch bypass, ¬ Skips d l batch bypass → ¬ Skips e l batch bypass → Alike d e batch bypass

/-- What a batch that a queue does not look at comes to. -/
theorem skips_on (ha : Managed.phase d.queue = .active) (h : Skips d l batch bypass) :
    (ask (.put batch bypass)).on d =
      (.ok .done, d.called ((Managed.hooks d.queue).heardBefore batch bypass)) := by
  obtain ⟨hk, rfl, -, -⟩ := h
  exact put_empty hk ha

/-- A queue that skips a batch does not keep to the protocol. -/
theorem Skips.not_protocol (h : Skips d l batch bypass) (ha : Managed.phase d.queue = .active) :
    ¬ Protocol d l batch bypass := by
  intro hp
  have hon := skips_on ha h
  by_cases hx : (Managed.bounds d.queue).Exceeded l
  · obtain ⟨excess, d', told, -, ho, -⟩ := hp.full h.goesOn hx
    rw [hon] at ho
    cases ho
  · obtain ⟨d', m, told, ho, -, -, -, -, hcalls⟩ := hp.room h.goesOn hx
    rw [hon] at ho
    cases ho
    have hsilent : told = [] ∧ (Managed.hooks d.queue).heardAfter batch bypass = [] := by
      simpa [called] using hcalls
    exact h.more.elim hx fun hafter => hafter hsilent.2

/-- A queue in the table that has nothing more to do about an empty batch keeps to the protocol. -/
theorem Has.protocol_empty (h : Has d l) (ho : Open d) (hk : d.queue.kind = .durable)
    (hs : ¬ Skips d l [] bypass) : Protocol d l [] bypass := by
  have hon : (ask (.put [] bypass)).on d =
      (.ok .done, d.called ((Managed.hooks d.queue).heardBefore [] bypass)) :=
    put_empty hk ho.active
  have hmore : ¬ (Managed.hooks d.queue).TakesOver [] bypass →
      ¬ (Managed.bounds d.queue).Exceeded l ∧
        (Managed.hooks d.queue).heardAfter [] bypass = [] := fun hgo =>
    ⟨fun hx => hs ⟨hk, rfl, hgo, .inl hx⟩, by_contra fun hn => hs ⟨hk, rfl, hgo, .inr hn⟩⟩
  refine ⟨fun _ => hon, fun hgo => ?_, fun hgo hx => absurd hx (hmore hgo).1, fun hgo _ => ?_⟩
  · rw [hon, (hmore hgo).2, confirmed_nil, put_empty (d := d.called _) hk ho.active]
    simp
  · refine ⟨_, l, [], hon, (h.called _).shows ⟨ho.active, ho.serving⟩, h.ordered, fun e => ?_,
      List.forall_mem_nil _, ?_⟩
    · simp
    · rw [(hmore hgo).2, List.append_nil, List.append_nil]
      rfl

/-- A queue that looks at a batch keeps to the protocol. -/
theorem Has.protocol_handled (h : Has d l) (ho : Open d)
    (ht : Managed.tally d.queue = Tally.total l) (hb : d.queue.kind = .durable → batch ≠ []) :
    Protocol d l batch bypass := by
  have hput := h.put ho ht hb bypass
  refine ⟨put_takenOver ho.active, fun hgo => (handles ho.active hgo hb).framed,
    fun hgo hx => ?_, fun hgo hx => ?_⟩
  · have hov := Tally.overflow?_total_eq_some hx
    obtain ⟨told, htold, hon⟩ := (handles ho.active hgo hb).refused _ (ht ▸ hov)
    rw [putOn_exceeded hgo hx] at hput
    obtain ⟨d', hon', ho', hl⟩ := hput
    obtain rfl : d' = _ := congrArg Prod.snd (hon'.symm.trans hon)
    exact ⟨_, _, told, hov, hon, rfl, rfl, hl.shows ho', htold, (List.append_assoc _ _ _).symm⟩
  · rw [putOn_room hgo hx] at hput
    obtain ⟨d', hon, ho', hl⟩ := hput
    obtain ⟨told, htold, hcalls⟩ := (handles ho.active hgo hb).calls _ _ hon
    refine ⟨d', _, told, hon, hl.shows ho', hl.ordered, fun e => ?_, htold, hcalls⟩
    rw [mem_foldl_enter, mem_arrivals]

theorem Has.protocol (h : Has d l) (ho : Open d) (ht : Managed.tally d.queue = Tally.total l)
    (hs : ¬ Skips d l batch bypass) : Protocol d l batch bypass := by
  by_cases hb : batch = []
  · by_cases hk : d.queue.kind = .durable
    · subst hb
      exact h.protocol_empty ho hk hs
    · exact h.protocol_handled ho ht fun hdurable => absurd hdurable hk
  · exact h.protocol_handled ho ht fun _ => hb

/-- The put hook hears what is called before and after a put, and not what is told in between. -/
theorem heard_eq {outcome : Except Fault Reply} {d' : Desk Queue} {before told after : List Call}
    (hon : (ask (.put batch bypass)).on d = (outcome, d'))
    (hcalls : d'.calls = d.calls ++ before ++ told ++ after)
    (hbefore : ∀ call ∈ before, call.ofPutHook = true)
    (htold : ∀ call ∈ told, call.ofPutHook = false)
    (hafter : ∀ call ∈ after, call.ofPutHook = true) : heard d batch bypass = before ++ after := by
  have hnone : told.filter Call.ofPutHook = [] :=
    List.filter_eq_nil_iff.2 fun call hcall => by rw [htold call hcall]; nofun
  rw [heard, hon, hcalls, List.append_assoc, List.append_assoc, List.drop_left, List.filter_append,
    List.filter_append, hnone, List.filter_eq_self.2 hbefore, List.filter_eq_self.2 hafter]
  rfl

/-- Two queues with the same entries, name, bounds and hooks that keep to the protocol treat a batch
alike. -/
theorem Protocol.alike {e : Desk Queue} (hd : Protocol d l batch bypass)
    (he : Protocol e l batch bypass) (hld : Has d l) (hle : Has e l) (hod : Open d) (hoe : Open e)
    (hname : Managed.storageId e.queue = Managed.storageId d.queue)
    (hbounds : Managed.bounds e.queue = Managed.bounds d.queue)
    (hhooks : Managed.hooks e.queue = Managed.hooks d.queue) : Alike d e batch bypass := by
  have hbefore := (Managed.hooks d.queue).ofPutHook_heardBefore batch bypass
  have hafter := (Managed.hooks d.queue).ofPutHook_heardAfter batch bypass
  by_cases ht : (Managed.hooks d.queue).TakesOver batch bypass
  · have hond := hd.takenOver ht
    have hone := he.takenOver (hhooks ▸ ht)
    rw [hhooks] at hone
    have hsilent : ∀ call ∈ ([] : List Call), call.ofPutHook = false := List.forall_mem_nil _
    have hheard : ∀ {c : Desk Queue}, (ask (.put batch bypass)).on c =
        (.ok .done, c.called ((Managed.hooks d.queue).heardBefore batch bypass)) →
        heard c batch bypass = (Managed.hooks d.queue).heardBefore batch bypass ++ [] :=
      fun hon => heard_eq hon (by simp [called]) hbefore hsilent (List.forall_mem_nil _)
    refine ⟨by rw [hond, hone], (hheard hond).trans (hheard hone).symm, l, ?_, ?_⟩
    · rw [hond]
      exact (hld.called _).shows ⟨hod.active, hod.serving⟩
    · rw [hone]
      exact (hle.called _).shows ⟨hoe.active, hoe.serving⟩
  by_cases hx : (Managed.bounds d.queue).Exceeded l
  · obtain ⟨excess, d', told, hov, hond, -, -, hsd, htold, hcd⟩ := hd.full ht hx
    obtain ⟨excess', e', told', hov', hone, -, -, hse, htold', hce⟩ :=
      he.full (hhooks ▸ ht) (hbounds ▸ hx)
    rw [hbounds, hov] at hov'
    cases hov'
    rw [hhooks] at hce
    rw [← List.append_nil (_ ++ told)] at hcd
    rw [← List.append_nil (_ ++ told')] at hce
    have hheard := heard_eq hond hcd hbefore htold (List.forall_mem_nil _)
    have hheard' := heard_eq hone hce hbefore htold' (List.forall_mem_nil _)
    refine ⟨by rw [hond, hone, hname], hheard.trans hheard'.symm, l, ?_, ?_⟩
    · rwa [hond]
    · rwa [hone]
  · obtain ⟨d', m, told, hond, hsd, hmd, hmemd, htold, hcd⟩ := hd.room ht hx
    obtain ⟨e', m', told', hone, hse, hme, hmeme, htold', hce⟩ :=
      he.room (hhooks ▸ ht) (hbounds ▸ hx)
    obtain rfl : m' = m :=
      hme.ascending.ext hmd.ascending fun a => (hmeme a).trans (hmemd a).symm
    rw [hhooks] at hce
    have hheard := heard_eq hond hcd hbefore htold hafter
    have hheard' := heard_eq hone hce hbefore htold' hafter
    refine ⟨by rw [hond, hone], hheard.trans hheard'.symm, m', ?_, ?_⟩
    · rwa [hond]
    · rwa [hone]

/-- Queues of all kinds that are active and can use what they need keep to one protocol of puts,
whatever their history, except that a queue in the table skips empty batches. -/
theorem puts_follow_protocol (h : Worked d) (ho : Open d) : ∃ l, Puts d l := by
  obtain ⟨l, hl, ht⟩ := h.has ho.active
  refine ⟨l, hl.shows ho, hl.ordered, fun batch bypass => ⟨fun hp hs => ?_, hl.protocol ho ht⟩,
    fun batch bypass hs => skips_on ho.active hs, ?_⟩
  · exact hs.not_protocol ho.active hp
  · intro e he hoe hshows hname hbounds hhooks batch bypass hsd hse
    obtain ⟨m, hm, ht'⟩ := he.has hoe.active
    obtain rfl := hshows.unique (hm.shows hoe)
    exact (hl.protocol ho ht hsd).alike (hm.protocol hoe ht' hse) hl hm ho hoe hname hbounds hhooks

/-- A queue that was just made has worked. -/
theorem worked_newborn (kind : Kind) : Worked { queue := newborn kind, store := {} } := by
  rw [← withHooks_newborn kind]
  exact .made (create_newborn kind) (.of_rowsOf_nil rfl) {} []

theorem worked_stocked (kind : Kind) : Worked (stocked kind) := by
  have hopened := (worked_newborn kind).asked .start fun _ _ => by
    cases kind <;> decide +kernel
  exact hopened.asked (.put [.blank 1 true, .blank 2 false] false) nofun

/-- Puts at queues of all kinds with two entries. -/
theorem puts_follow_protocol_stocked :
    (∀ kind, Worked (stocked kind) ∧ Open (stocked kind)) ∧
      ∀ kind, Puts (stocked kind) [.blank 1 true, .blank 2 false] := by
  refine ⟨fun kind => ⟨worked_stocked kind, open_stocked kind⟩, fun kind => ?_⟩
  obtain ⟨l, hl⟩ := puts_follow_protocol (worked_stocked kind) (open_stocked kind)
  rwa [hl.shown.unique (shows_stocked kind)] at hl

/-- A queue in the table that is to hold nothing, and was given an entry. -/
def crammed : Desk Queue :=
  [.start, .put [.blank 1 true] false].foldl (fun d request => ((ask request).on d).2)
    { queue := .durable { storageId := .mail, bounds := ⟨0, 0, 0, 0⟩ }, store := {} }

theorem worked_crammed : Worked crammed := by
  have hrows : Partition StorageId.mail.text ({} : Store).rows [] := .of_rowsOf_nil rfl
  have hmade := @Worked.made .durable .mail ⟨0, 0, 0, 0⟩ _ _ _ rfl hrows {} []
  have hopened := hmade.asked .start fun _ _ => by decide +kernel
  exact hopened.asked (.put [.blank 1 true] false) nofun

/-- A queue in the table that is over its bounds does not refuse an empty batch. -/
theorem empty_put_not_refused : ¬ ∀ {d : Desk Queue} {l : List Entry},
    Worked d → Open d → Shows d l → ∀ batch bypass, Protocol d l batch bypass := by
  intro hall
  have hopen : Open crammed := ⟨by decide +kernel, .inr (by decide +kernel)⟩
  have hshows : Shows crammed [.blank 1 true] := by
    unfold Shows
    decide +kernel
  have hprotocol := hall worked_crammed hopen hshows [] false
  have hexceeded : (Managed.bounds crammed.queue).Exceeded [.blank 1 true] :=
    .inl (by decide +kernel)
  have hgo : ¬ (Managed.hooks crammed.queue).TakesOver [] false := by
    have hnone : (Managed.hooks crammed.queue).put.isNone = true := by decide +kernel
    rintro ⟨-, hook, hhook, -⟩
    rw [Option.isNone_iff_eq_none.1 hnone] at hhook
    cases hhook
  obtain ⟨excess, d', told, -, hon, -⟩ := hprotocol.full hgo hexceeded
  have htaken : ((ask (.put [] false)).on crammed).1 = .ok .done := by decide +kernel
  rw [hon] at htaken
  cases htaken

end Queue

end Spillway
