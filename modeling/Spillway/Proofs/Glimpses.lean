import Spillway.Proofs.Destruction

/-!
# Reading while the database is away

While no call to the table gets through, a cached queue reads what it has in memory. What it reads
from the front is a true beginning of the full answer. From the back it is not: there the cold
entries come first, and they are left out. If nothing is cold, all reads but one are answered in
full; choosing among all entries asks the table in any case.
-/

namespace Spillway.Cached

open Desk Held

/-- Whether the index says of an entry that it is in the table only. -/
def knowsCold (q : Cached) (e : Entry) : Bool := (q.index.get? e.id).any Resident.isCold

/-- Those of some entries that are in memory. -/
def hotPart (q : Cached) (es : List Entry) : List Entry := es.filter fun e => !q.knowsCold e

/-- Those of some entries that are in the table only. -/
def coldPart (q : Cached) (es : List Entry) : List Entry := es.filter q.knowsCold

/-- Some of the entries are in memory, and some are not. -/
def Straddles (q : Cached) (es : List Entry) : Prop := q.hotPart es ≠ [] ∧ q.coldPart es ≠ []

section

variable {q : Cached} {es : List Entry}

/-- Nothing is cold exactly if the index does not say so of any. -/
theorem coldPart_eq_nil_iff : q.coldPart es = [] ↔ ∀ e ∈ es, q.knowsCold e = false := by
  simp only [coldPart, List.filter_eq_nil_iff, Bool.not_eq_true]

/-- If nothing is cold, all is in memory. -/
theorem hotPart_eq_self (h : q.coldPart es = []) : q.hotPart es = es :=
  List.filter_eq_self.2 fun e he => by rw [coldPart_eq_nil_iff.1 h e he]; rfl

/-- What starts with a cold entry, if hot entries come first, is cold altogether. -/
theorem head_cold_iff (h : q.hotPart es ++ q.coldPart es = es) :
    (∃ first, es.head? = some first ∧ q.knowsCold first = true) ↔
      q.hotPart es = [] ∧ q.coldPart es ≠ [] := by
  constructor
  · rintro ⟨first, hfirst, hcold⟩
    have hin : first ∈ q.coldPart es := List.mem_filter.2 ⟨List.mem_of_head? hfirst, hcold⟩
    refine ⟨?_, List.ne_nil_of_mem hin⟩
    cases hhot : q.hotPart es with
    | nil => rfl
    | cons e rest =>
      rw [← h, hhot] at hfirst
      cases hfirst
      have hin : first ∈ q.hotPart es := hhot ▸ List.mem_cons_self ..
      have hwarm := (List.mem_filter.1 hin).2
      rw [hcold] at hwarm
      cases hwarm
  · rintro ⟨hhot, hcold⟩
    obtain ⟨first, rest, hcons⟩ := List.exists_cons_of_ne_nil hcold
    have hin : first ∈ q.coldPart es := hcons ▸ List.mem_cons_self ..
    refine ⟨first, ?_, (List.mem_filter.1 hin).2⟩
    rw [← h, hhot, hcons]
    rfl

/-- If cold entries come first and are not the only ones, the hot part is no beginning. -/
theorem not_prefix_of_straddles (h : q.coldPart es ++ q.hotPart es = es) (hs : q.Straddles es) :
    ¬ q.hotPart es <+: es := by
  rintro ⟨rest, hrest⟩
  obtain ⟨e, hot, hcons⟩ := List.exists_cons_of_ne_nil hs.1
  obtain ⟨f, cold, hcons'⟩ := List.exists_cons_of_ne_nil hs.2
  have he : e ∈ q.hotPart es := hcons ▸ List.mem_cons_self ..
  have hf : f ∈ q.coldPart es := hcons' ▸ List.mem_cons_self ..
  have hsame : e :: (hot ++ rest) = f :: (cold ++ q.hotPart es) := by
    rw [← List.cons_append, ← List.cons_append, ← hcons, ← hcons', hrest, h]
  rw [(List.cons.inj hsame).1] at he
  have hwarm := (List.mem_filter.1 he).2
  rw [(List.mem_filter.1 hf).2] at hwarm
  cases hwarm

end

variable {d : Desk Cached} {l : List Held} {request : Request}

/-! ## What is read under some keys -/

/-- The index says of what is held whether it is cold. -/
theorem knowsCold_entry (h : Stocks d l) {x : Held} (hx : x ∈ l) :
    d.queue.knowsCold x.entry = x.isCold := any_isCold h.index hx

/-- The hot part of what stands under some keys is what is in memory of it. -/
theorem hotPart_struck (h : Stocks d l) (keys : List Key) :
    d.queue.hotPart ((struck keys l).map Held.entry) = inMemory (struck keys l) := by
  rw [hotPart, List.filter_map, inMemory]
  refine congrArg _ (List.filter_congr fun x hx => ?_)
  change (!d.queue.knowsCold x.entry) = x.isHot
  rw [knowsCold_entry h (List.mem_filter.1 hx).1, isCold_eq, Bool.not_not]

/-- The cold part is what is in the table only. -/
theorem coldPart_struck (h : Stocks d l) (keys : List Key) :
    d.queue.coldPart ((struck keys l).map Held.entry) =
      ((struck keys l).filter isCold).map Held.entry := by
  rw [coldPart, List.filter_map]
  refine congrArg _ (List.filter_congr fun x hx => ?_)
  exact knowsCold_entry h (List.mem_filter.1 hx).1

/-- In the order of service, what is hot comes first. -/
theorem parts_struck (h : Stocks d l) (keys : List Key) :
    d.queue.hotPart ((struck keys l).map Held.entry) ++
      d.queue.coldPart ((struck keys l).map Held.entry) = (struck keys l).map Held.entry := by
  rw [hotPart_struck h, coldPart_struck h, inMemory, ← List.map_append]
  exact congrArg _ (h.layout.filter _).split

/-- There is none if all of it is in memory. -/
theorem coldPart_struck_eq_nil_iff (h : Stocks d l) (keys : List Key) :
    d.queue.coldPart ((struck keys l).map Held.entry) = [] ↔
      ∀ x ∈ struck keys l, x.isCold = false := by
  rw [coldPart_struck h, List.map_eq_nil_iff, List.filter_eq_nil_iff]
  simp only [Bool.not_eq_true]

/-- What reading some entries gives: all of them if none is cold; otherwise what is in memory, if
there is any. -/
structure Reads (d : Desk Cached) (es : List Entry)
    (outcome : Except Fault (List Entry) × Desk Cached) : Prop where
  /-- Nothing is cold. -/
  hot : d.queue.coldPart es = [] → outcome.1 = .ok es
  /-- Some is in memory, and some is not. -/
  mixed : d.queue.Straddles es → outcome.1 = .ok (d.queue.hotPart es)
  /-- Nothing is in memory. -/
  cold : d.queue.hotPart es = [] → d.queue.coldPart es ≠ [] →
    ∃ outage, outcome.1 = .error (.unavailable .getByIds outage)
  /-- The queue is as it was. -/
  queue : outcome.2.queue = d.queue
  /-- The table is as it was. -/
  table : outcome.2.store.table = d.store.table

/-- Over a silent store reading by keys gives what reading these entries gives. -/
theorem fetch_reads (h : Stocks d l) (hs : d.store.Silent) {keys : List Key} (hu : keys.Nodup) :
    Reads d ((struck keys l).map Held.entry) ((fetch keys).on d) := by
  by_cases hc : d.queue.coldPart ((struck keys l).map Held.entry) = []
  · rw [fetch_hot h hu ((coldPart_struck_eq_nil_iff h keys).1 hc)]
    exact ⟨fun _ => rfl, fun hboth => absurd hc hboth.2, fun _ hn => absurd hc hn, rfl, rfl⟩
  · obtain ⟨outage, store, ho, ht⟩ :=
      fetch_silent h hs hu (mt (coldPart_struck_eq_nil_iff h keys).2 hc)
    rw [← hotPart_struck h] at ho
    rw [ho]
    refine ⟨fun hn => absurd hn hc, fun hboth => ?_, fun hn _ => ⟨outage, ?_⟩, rfl, ht⟩
    · exact if_neg (by simpa using hboth.1)
    · exact if_pos (by simpa using hn)

section

variable {es : List Entry} {outcome : Except Fault (List Entry) × Desk Cached}

/-- Where hot entries come first, and the very first is hot, the cold ones are left out. -/
theorem Reads.part (h : Reads d es outcome)
    (hparts : d.queue.hotPart es ++ d.queue.coldPart es = es)
    (hsome : ∃ e ∈ es, d.queue.knowsCold e = true)
    (hfirst : ∀ first, es.head? = some first → d.queue.knowsCold first = false) :
    outcome.1 = .ok (d.queue.hotPart es) ∧ d.queue.hotPart es ≠ [] := by
  obtain ⟨e, he, hcold⟩ := hsome
  have hcolds : d.queue.coldPart es ≠ [] := List.ne_nil_of_mem (List.mem_filter.2 ⟨he, hcold⟩)
  have hhots : d.queue.hotPart es ≠ [] := fun hnil => by
    obtain ⟨first, hin, hc⟩ := (head_cold_iff hparts).2 ⟨hnil, hcolds⟩
    rw [hfirst first hin] at hc
    cases hc
  exact ⟨h.mixed ⟨hhots, hcolds⟩, hhots⟩

/-- There, reading fails exactly if the very first is cold. -/
theorem Reads.refused_iff (h : Reads d es outcome)
    (hparts : d.queue.hotPart es ++ d.queue.coldPart es = es) :
    (∃ outage, outcome.1 = .error (.unavailable .getByIds outage)) ↔
      ∃ first, es.head? = some first ∧ d.queue.knowsCold first = true := by
  rw [head_cold_iff hparts]
  constructor
  · rintro ⟨outage, ho⟩
    have hcolds : d.queue.coldPart es ≠ [] := fun hnil => by
      rw [h.hot hnil] at ho
      cases ho
    refine ⟨?_, hcolds⟩
    by_contra hhots
    rw [h.mixed ⟨hhots, hcolds⟩] at ho
    cases ho
  · exact fun hboth => h.cold hboth.1 hboth.2

end

/-- What reading under some keys gives, whatever the link does: all that stands there, or what is in
memory of it although some is not. -/
theorem fetch_answered (h : Stocks d l) {keys : List Key} (hu : keys.Nodup) {es : List Entry}
    (ho : ((fetch keys).on d).1 = .ok es) : es = (struck keys l).map Held.entry ∨
      d.queue.Straddles ((struck keys l).map Held.entry) ∧
        es = d.queue.hotPart ((struck keys l).map Held.entry) := by
  rcases fetch_cases h hu with ⟨tally, store, calls, hf, -⟩ | ⟨fault, store, hf, -⟩
  · rw [hf] at ho
    cases ho
    exact .inl rfl
  · rw [← hotPart_struck h] at hf
    rw [hf] at ho
    by_cases hhots : d.queue.hotPart ((struck keys l).map Held.entry) = []
    · rw [if_pos (by simpa using hhots)] at ho
      cases ho
    · rw [if_neg (by simpa using hhots)] at ho
      cases ho
      by_cases hcolds : d.queue.coldPart ((struck keys l).map Held.entry) = []
      · exact .inl (hotPart_eq_self hcolds)
      · exact .inr ⟨⟨hhots, hcolds⟩, rfl⟩

/-! ## Answers over a link that serves -/

/-- A queue is where it is in its life, whatever its link. -/
theorem phase_relinked (d : Desk Cached) (link : Link) :
    (d.relinked link).queue.phase = d.queue.phase := rfl

/-- It has the same contents. -/
theorem contents_relinked (d : Desk Cached) (link : Link) :
    contents (d.relinked link) = contents d := rfl

/-- Over a link that serves, a request that takes nothing out is answered with what it names. -/
theorem answered_of_serving (h : Reachable d) (ha : d.queue.phase = .active)
    (hr : request.looksUp = true) {link : Link} (hl : link.Serving) :
    ((serve request).on (d.relinked link)).1 =
      .ok (request.reply (request.named (contents d))) := by
  obtain ⟨l, hstocks⟩ := reachable_stocks (h.relinked link) ha
  have hcontents := contents_eq hstocks
  rcases serve_on hstocks ha hr with ⟨d', m, ho, -⟩ | ⟨hspoilt, -⟩
  · rw [ho, ← hcontents, contents_relinked]
  · exact absurd hl hspoilt.unserved

/-! ## Reading from the front -/

/-- What becomes of a request that reads from the front while no call to the table gets through. -/
structure Glimpses (d : Desk Cached) (request : Request) (named : List Entry) : Prop where
  /-- Over a link that serves, the answer is all that it names. -/
  whole : ∀ link : Link, link.Serving →
    ((serve request).on (d.relinked link)).1 = .ok (request.reply named)
  /-- It is so now if none of that is cold. -/
  hot : (∀ e ∈ named, d.queue.knowsCold e = false) →
    ((serve request).on d).1 = .ok (request.reply named)
  /-- If some is cold, but not the first, it is what is in memory of it. -/
  part : (∃ e ∈ named, d.queue.knowsCold e = true) →
    (∀ first, named.head? = some first → d.queue.knowsCold first = false) →
    ((serve request).on d).1 = .ok (request.reply (d.queue.hotPart named)) ∧
      d.queue.hotPart named ≠ []
  /-- What is in memory of it is a beginning of it. -/
  front : d.queue.hotPart named <+: named
  /-- It fails exactly if the first is cold. -/
  refused : (∃ outage, ((serve request).on d).1 = .error (.unavailable .getByIds outage)) ↔
    ∃ first, named.head? = some first ∧ d.queue.knowsCold first = true
  /-- The queue is as it was. -/
  queue : ((serve request).on d).2.queue = d.queue
  /-- The table is as it was. -/
  table : ((serve request).on d).2.store.table = d.store.table

/-- Whatever the history of an active queue, and however calls to its table fail: what it reads from
the front is the full answer if none of that is cold, and else the beginning of it that is in
memory. It fails exactly if that is empty, and changes nothing. -/
theorem head_reads_true (h : Reachable d) (ha : d.queue.phase = .active) (hs : d.store.Silent)
    (hr : request.readsFront = true) : Glimpses d request (request.named (contents d)) := by
  obtain ⟨l, hl⟩ := reachable_stocks h ha
  have hlooks : request.looksUp = true := by
    cases request with
    | start | shutdown | destroy | put => cases hr
    | _ => rfl
  have hamounts := front_amounts hl ha hr
  have hreads := fetch_reads hl hs (nodup_named hl.layout.order request)
  have hparts := parts_struck hl ((request.named (l.map Held.entry)).map Entry.key)
  rw [struck_front hl.layout.order hr] at hreads hparts
  rw [← contents_eq hl] at hamounts hreads hparts
  have hoks : ∀ {es : List Entry}, ((fetch _).on d).1 = .ok es →
      ((serve request).on d).1 = .ok (request.reply es) := fun ho => hamounts.ok_iff.2 ⟨_, ho, rfl⟩
  refine ⟨fun link => answered_of_serving h ha hlooks,
    fun hnone => hoks (hreads.hot (coldPart_eq_nil_iff.2 hnone)),
    fun hsome hfirst => (hreads.part hparts hsome hfirst).imp_left hoks, ⟨_, hparts⟩, ?_,
    hamounts.queue.trans hreads.queue,
    (congrArg Store.table hamounts.store).trans hreads.table⟩
  rw [← hreads.refused_iff hparts]
  exact exists_congr fun _ => hamounts.error_iff

/-- A queue with an entry in memory and another one in the table. -/
def spilt : Desk Cached :=
  (serveAll [.start, .put [.blank 1 true, .blank 2 true] false] newborn).2

/-- That queue has a history. -/
theorem reachable_spilt : Reachable spilt := reachable_newborn.runs (runs_serveAll _ _)

/-- It is active over any link. -/
theorem active_spilt (link : Link) : (spilt.relinked link).queue.phase = .active := by
  rw [phase_relinked]
  decide +kernel

/-- A link that is known to be lost. -/
def lostLink : Link := { reachable := false, available := false }

/-- A link whose only connection is in use. -/
def crowdedLink : Link := { settings := { connections := 1 }, busy := 1 }

/-- A store whose link is lost answers nothing. -/
theorem silent_lost (d : Desk Cached) : (d.relinked lostLink).store.Silent :=
  Store.silent_of_barred (show lostLink.Barred by decide)

/-- Nor does one without a free connection. -/
theorem silent_crowded (d : Desk Cached) : (d.relinked crowdedLink).store.Silent :=
  Store.silent_of_barred (show crowdedLink.Barred by decide)

/-- All is to be read from the front, of a queue whose database is gone and of one that gets no
connection: both give what is in memory. -/
theorem head_reads_true_spilt : let request : Request := .peek {} .all
    (Reachable (spilt.relinked lostLink) ∧ (spilt.relinked lostLink).queue.phase = .active ∧
        (spilt.relinked lostLink).store.Silent ∧ (spilt.relinked crowdedLink).store.Silent ∧
        request.readsFront = true) ∧
      Glimpses (spilt.relinked lostLink) request [.blank 1 true, .blank 2 true] ∧
      Glimpses (spilt.relinked crowdedLink) request [.blank 1 true, .blank 2 true] ∧
      ((serve request).on (spilt.relinked lostLink)).1 = .ok (.entries [.blank 1 true]) := by
  intro request
  have hr : request.readsFront = true := rfl
  have hnamed : request.named (contents spilt) = [.blank 1 true, .blank 2 true] := by
    decide +kernel
  have hlost := head_reads_true (reachable_spilt.relinked lostLink) (active_spilt lostLink)
    (silent_lost spilt) hr
  have hcrowded := head_reads_true (reachable_spilt.relinked crowdedLink) (active_spilt crowdedLink)
    (silent_crowded spilt) hr
  rw [contents_relinked, hnamed] at hlost hcrowded
  have ho : ((serve request).on (spilt.relinked lostLink)).1 = .ok (.entries [.blank 1 true]) := by
    decide +kernel
  exact ⟨⟨reachable_spilt.relinked lostLink, active_spilt lostLink, silent_lost spilt,
    silent_crowded spilt, hr⟩, hlost, hcrowded, ho⟩

/-! ## Reading from the back -/

/-- What becomes of a request that reads the lowest entries. -/
structure LowestReads (d : Desk Cached) (request : Request) (named : List Entry) : Prop where
  /-- Over a link that serves, the answer is all that it names. -/
  whole : ∀ link : Link, link.Serving →
    ((serve request).on (d.relinked link)).1 = .ok (.entries named)
  /-- An answer is that, or what is in memory of it although some is not. -/
  answered : ∀ es, ((serve request).on d).1 = .ok (.entries es) →
    es = named ∨ d.queue.Straddles named ∧ es = d.queue.hotPart named
  /-- So it is a beginning of that, unless some is in memory and some is not. -/
  honest : ¬ d.queue.Straddles named →
    ∀ es, ((serve request).on d).1 = .ok (.entries es) → es <+: named
  /-- If none is cold, there is such an answer while no call to the table gets through. -/
  hot : d.store.Silent → d.queue.coldPart named = [] →
    ((serve request).on d).1 = .ok (.entries named)
  /-- There is none then if all is cold. -/
  refused : d.store.Silent → named ≠ [] → d.queue.hotPart named = [] →
    ∃ outage, ((serve request).on d).1 = .error (.unavailable .getByIds outage)
  /-- If some is in memory and some is not, the answer skips what is served last. -/
  skips : d.store.Silent → d.queue.Straddles named →
    ((serve request).on d).1 = .ok (.entries (d.queue.hotPart named)) ∧
      d.queue.coldPart named ++ d.queue.hotPart named = named ∧
      ¬ d.queue.hotPart named <+: named

/-- The hot part of entries that are turned round is turned round. -/
theorem hotPart_reverse (q : Cached) (es : List Entry) :
    q.hotPart es.reverse = (q.hotPart es).reverse := List.filter_reverse

/-- So is the cold part. -/
theorem coldPart_reverse (q : Cached) (es : List Entry) :
    q.coldPart es.reverse = (q.coldPart es).reverse := List.filter_reverse

/-- So turned round they are in memory and in the table as before. -/
theorem straddles_reverse (q : Cached) (es : List Entry) :
    q.Straddles es.reverse ↔ q.Straddles es := by
  simp only [Straddles, hotPart_reverse, coldPart_reverse, ne_eq, List.reverse_eq_nil_iff]

/-- Reading from the back comes to turning round what stands under some keys, in the order of
service, where hot entries come first. -/
theorem LowestReads.of_reverse {found : List Entry} {core : Action (Desk Cached) (List Entry)}
    (hon : Amounts d (serve request) core fun es => .entries es.reverse)
    (hparts : d.queue.hotPart found ++ d.queue.coldPart found = found)
    (hanswered : ∀ es, (core.on d).1 = .ok es →
      es = found ∨ d.queue.Straddles found ∧ es = d.queue.hotPart found)
    (hreads : d.store.Silent → Reads d found (core.on d))
    (hwhole : ∀ link : Link, link.Serving →
      ((serve request).on (d.relinked link)).1 = .ok (.entries found.reverse)) :
    LowestReads d request found.reverse := by
  have hoks : ∀ {es : List Entry}, (core.on d).1 = .ok es →
      ((serve request).on d).1 = .ok (.entries es.reverse) := fun ho => hon.ok_iff.2 ⟨_, ho, rfl⟩
  have hback : d.queue.coldPart found.reverse ++ d.queue.hotPart found.reverse = found.reverse := by
    rw [hotPart_reverse, coldPart_reverse, ← List.reverse_append, hparts]
  have hthere : ∀ es, ((serve request).on d).1 = .ok (.entries es) → es = found.reverse ∨
      d.queue.Straddles found.reverse ∧ es = d.queue.hotPart found.reverse := by
    intro es ho
    obtain ⟨read, hread, hview⟩ := hon.ok_iff.1 ho
    cases hview
    rw [straddles_reverse, hotPart_reverse]
    exact (hanswered read hread).imp (congrArg _) (And.imp_right (congrArg _))
  refine ⟨hwhole, hthere, fun hno es ho => ?_, fun hs hnone => ?_, fun hs hsome hnone => ?_,
    fun hs hboth => ⟨?_, hback, not_prefix_of_straddles hback hboth⟩⟩
  · rcases hthere es ho with rfl | ⟨hboth, -⟩
    · exact List.prefix_refl _
    · exact absurd hboth hno
  · rw [coldPart_reverse, List.reverse_eq_nil_iff] at hnone
    exact hoks ((hreads hs).hot hnone)
  · rw [hotPart_reverse, List.reverse_eq_nil_iff] at hnone
    have hcolds : d.queue.coldPart found ≠ [] := fun hnil => by
      rw [hnone, hnil] at hparts
      exact hsome (congrArg List.reverse hparts.symm)
    obtain ⟨outage, ho⟩ := (hreads hs).cold hnone hcolds
    exact ⟨outage, hon.error_iff.2 ho⟩
  · rw [hotPart_reverse]
    exact hoks ((hreads hs).mixed ((straddles_reverse _ _).1 hboth))

/-- Whatever the history of an active queue, and whatever the link does: what it reads from the back
is a beginning of the full answer, unless that has entries in memory and others in the table only.
Then, while no call to the table gets through, it is the end of it that is in memory. -/
theorem lowest_reads_honest (h : Reachable d) (ha : d.queue.phase = .active) (window : Window)
    (limit : Option Entry) (leaveOne : Bool) : LowestReads d (.peekLowest window limit leaveOne)
      ((Request.peekLowest window limit leaveOne).named (contents d)) := by
  obtain ⟨l, hl⟩ := reachable_stocks h ha
  have hu := nodup_named hl.layout.order (.peekLowest window limit leaveOne)
  have hwhole : ∀ link : Link, link.Serving → _ := fun link => answered_of_serving h ha
    (show (Request.peekLowest window limit leaveOne).looksUp = true from rfl)
  rw [contents_eq hl, ← struck_lowest hl.layout.order window limit leaveOne] at hwhole ⊢
  exact .of_reverse (peekLowest_amounts hl ha window limit leaveOne) (parts_struck hl _)
    (fun _ => fetch_answered hl hu) (fun hs => fetch_reads hl hs hu) hwhole

/-- Of a queue whose database is gone, all is to be read from the back: the entry that is served
last is skipped. -/
theorem lowest_reads_honest_spilt : let request : Request := .peekLowest {} none false
    (Reachable (spilt.relinked lostLink) ∧ (spilt.relinked lostLink).queue.phase = .active) ∧
      LowestReads (spilt.relinked lostLink) request [.blank 2 true, .blank 1 true] ∧
      ((serve request).on (spilt.relinked lostLink)).1 = .ok (.entries [.blank 1 true]) := by
  intro request
  have hnamed : request.named (contents spilt) = [.blank 2 true, .blank 1 true] := by
    decide +kernel
  have hreads :=
    lowest_reads_honest (reachable_spilt.relinked lostLink) (active_spilt lostLink) {} none false
  rw [contents_relinked, hnamed] at hreads
  have ho : ((serve request).on (spilt.relinked lostLink)).1 = .ok (.entries [.blank 1 true]) := by
    decide +kernel
  exact ⟨⟨reachable_spilt.relinked lostLink, active_spilt lostLink⟩, hreads, ho⟩

/-- What is read from the back is not always a beginning of what is read there while the link
serves. -/
theorem lowest_not_prefix : ¬ ∀ {d : Desk Cached} {link : Link} {es full : List Entry}
    (window : Window) (limit : Option Entry) (leaveOne : Bool), Reachable d →
    d.queue.phase = .active → link.Serving →
    ((serve (.peekLowest window limit leaveOne)).on d).1 = .ok (.entries es) →
    ((serve (.peekLowest window limit leaveOne)).on (d.relinked link)).1 = .ok (.entries full) →
    es <+: full := by
  intro hall
  have ho : ((serve (.peekLowest {} none false)).on (spilt.relinked lostLink)).1 =
      .ok (.entries [.blank 1 true]) := by decide +kernel
  have hfull : ((serve (.peekLowest {} none false)).on ((spilt.relinked lostLink).relinked {})).1 =
      .ok (.entries [.blank 2 true, .blank 1 true]) := by decide +kernel
  have hfront : [Entry.blank 1 true] <+: [.blank 2 true, .blank 1 true] :=
    hall {} none false (reachable_spilt.relinked lostLink) (active_spilt lostLink) (by decide) ho
      hfull
  revert hfront
  decide

/-! ## Reading while nothing is cold -/

/-- What becomes of a request that takes nothing out, while nothing is cold. -/
structure HotReads (d : Desk Cached) (request : Request) (named : List Entry) : Prop where
  /-- Over a link that serves, the answer is what it names. -/
  whole : ∀ link : Link, link.Serving →
    ((serve request).on (d.relinked link)).1 = .ok (request.reply named)
  /-- So it is over any link, without a call to the table, unless it chooses among all entries. -/
  kept : request.selects = false → ((serve request).on d).1 = .ok (request.reply named) ∧
    ((serve request).on d).2.queue = d.queue ∧ ((serve request).on d).2.store = d.store
  /-- If it does, it fails while no call to the table gets through. -/
  refused : d.store.Silent → request.selects = true →
    ∃ outage, ((serve request).on d).1 = .error (.unavailable .getAll outage)
  /-- The outcome is the same then as over a link that serves, unless it does. -/
  same_iff : d.store.Silent → ∀ link : Link, link.Serving →
    (((serve request).on d).1 = ((serve request).on (d.relinked link)).1 ↔
      request.selects = false)

/-- Choosing entries fails over a silent store, for it reads all rows. -/
theorem lacks_select (h : Stocks d l) (ha : d.queue.phase = .active) (hs : d.store.Silent)
    (admits : Entry → Bool) : d.Lacks .getAll (select admits) := by
  refine Lacks.reading (lacks_bind_of_ok (on_hotSelect h.warm h.hot admits) ?_) ha
  exact (lacks_onCold (Durable.lacks_select hs h.cold admits)).bind _

/-- Nothing of a queue without cold entries is cold. -/
theorem not_isCold_of_coldResidents (h : Stocks d l) (hc : d.queue.coldResidents = []) :
    ∀ x ∈ l, x.isCold = false := by
  rw [coldResidents_eq h, List.map_eq_nil_iff, List.filter_eq_nil_iff] at hc
  exact fun x hx => Bool.eq_false_iff.2 (hc x hx)

/-- While nothing is cold, all requests that take nothing out, and do not choose among all entries,
are answered out of memory. -/
theorem serve_hot (h : Stocks d l) (ha : d.queue.phase = .active)
    (hc : ∀ x ∈ l, x.isCold = false) (hr : request.looksUp = true) (hn : request.removes = false)
    (hselects : request.selects = false) :
    ((serve request).on d).1 = .ok (request.reply (request.named (l.map Held.entry))) ∧
      ((serve request).on d).2.queue = d.queue ∧ ((serve request).on d).2.store = d.store := by
  have hfetch := fetch_hot h (nodup_named h.layout.order request) fun x hx =>
    hc x (List.mem_filter.1 hx).1
  by_cases hfront : request.readsFront = true
  · have hamounts := front_amounts h ha hfront
    rw [struck_front h.layout.order hfront] at hfetch
    rw [hamounts.outcome, hamounts.queue, hamounts.store, hfetch]
    exact ⟨rfl, rfl, rfl⟩
  cases request with
  | peekLowest window limit leaveOne =>
    have hamounts := peekLowest_amounts h ha window limit leaveOne
    rw [hamounts.outcome, hamounts.queue, hamounts.store, hfetch]
    refine ⟨congrArg (fun es => Except.ok (Reply.entries es)) ?_, rfl, rfl⟩
    exact struck_lowest h.layout.order window limit leaveOne
  | references =>
    rw [references_on h ha]
    exact ⟨rfl, rfl, rfl⟩
  | select => cases hselects
  | start | shutdown | destroy | put => cases hr
  | peek | peekFirst | peekBefore => exact absurd rfl hfront
  | _ => cases hn

/-- Choosing among all entries is refused, even then. -/
theorem serve_select_refused (h : Stocks d l) (ha : d.queue.phase = .active) (hs : d.store.Silent)
    (hselects : request.selects = true) :
    ∃ outage, ((serve request).on d).1 = .error (.unavailable .getAll outage) := by
  cases request with
  | select admits => exact (lacks_select h ha hs admits).bind _
  | _ => cases hselects

/-- Whatever the history of an active queue of which nothing is cold: all it is asked that takes
nothing out is answered in full whatever the link does, unless it chooses among all entries. -/
theorem hot_reads_kept (h : Reachable d) (ha : d.queue.phase = .active)
    (hc : d.queue.coldResidents = []) (hr : request.looksUp = true)
    (hn : request.removes = false) : HotReads d request (request.named (contents d)) := by
  obtain ⟨l, hl⟩ := reachable_stocks h ha
  have hwhole : ∀ link : Link, link.Serving → ((serve request).on (d.relinked link)).1 =
      .ok (request.reply (request.named (contents d))) :=
    fun link => answered_of_serving h ha hr
  have hkept := serve_hot hl ha (not_isCold_of_coldResidents hl hc) hr hn
  rw [← contents_eq hl] at hkept
  refine ⟨hwhole, hkept, fun hs => serve_select_refused hl ha hs, fun hs link hserve => ?_⟩
  rw [hwhole link hserve]
  constructor
  · intro hsame
    by_contra hselects
    obtain ⟨outage, ho⟩ :=
      serve_select_refused hl ha hs (Bool.eq_true_of_not_eq_false hselects)
    rw [ho] at hsame
    cases hsame
  · exact fun hselects => (hkept hselects).1

/-- The queue with one entry is active over any link. -/
theorem active_stocked (link : Link) : (stocked.relinked link).queue.phase = .active := by
  rw [phase_relinked]
  decide +kernel

/-- Two reads of a queue that has all in memory, and whose database is gone. -/
theorem hot_reads_kept_stocked : let d := stocked.relinked lostLink
    (Reachable d ∧ d.queue.phase = .active ∧ d.queue.coldResidents = []) ∧
      (∀ request ∈ [Request.peekLowest {} none false, .select fun _ => true],
        request.looksUp = true ∧ request.removes = false ∧
          HotReads d request (request.named (contents d))) ∧
      ((serve (.peekLowest {} none false)).on d).1 = .ok (.entries [.blank 1 true]) := by
  intro d
  have hr : Reachable d := reachable_stocked.relinked lostLink
  have hc : d.queue.coldResidents = [] := by decide +kernel
  have hlowest : HotReads d (.peekLowest {} none false) _ :=
    hot_reads_kept hr (active_stocked lostLink) hc rfl rfl
  have hselect : HotReads d (.select fun _ => true) _ :=
    hot_reads_kept hr (active_stocked lostLink) hc rfl rfl
  refine ⟨⟨hr, active_stocked lostLink, hc⟩, List.forall_mem_cons.2 ⟨⟨rfl, rfl, hlowest⟩, ?_⟩,
    by decide +kernel⟩
  exact List.forall_mem_singleton.2 ⟨rfl, rfl, hselect⟩

/-- Not every read of a queue that has all in memory is answered while the database is gone as it is
over a link that serves. -/
theorem hot_reads_not_all_kept : ¬ ∀ {d : Desk Cached} {link : Link} {request : Request},
    Reachable d → d.queue.phase = .active → d.queue.coldResidents = [] → d.store.Silent →
    link.Serving → request.looksUp = true → request.removes = false →
    ((serve request).on d).1 = ((serve request).on (d.relinked link)).1 := by
  intro hall
  have hc : (stocked.relinked lostLink).queue.coldResidents = [] := by decide +kernel
  have hsame : ((serve (.select fun _ => true)).on (stocked.relinked lostLink)).1 =
      ((serve (.select fun _ => true)).on ((stocked.relinked lostLink).relinked {})).1 :=
    hall (reachable_stocked.relinked lostLink) (active_stocked lostLink) hc (silent_lost stocked)
      (by decide) rfl rfl
  revert hsame
  decide +kernel

end Spillway.Cached
