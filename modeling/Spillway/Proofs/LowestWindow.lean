import Spillway.Proofs.Capacity
import Spillway.Proofs.HeadWindow
import Spillway.Proofs.SortedList

/-!
# Tail windows in words

A tail window is asked for with two signed words as well, and the laxer one decides. It is the
longest prefix of what is served after its limit, seen from the back, of which each entry was still
to be covered when its turn came. Where one entry is to be left, the last one covered is given back
exactly if all of the queue would be covered. So the first entry of a queue stays, whatever its kind
and whatever becomes of the request.
-/

namespace Spillway

/-- What stays a prefix of a list without its last member does not have that. -/
theorem eq_of_prefix_concat {α : Type} {p l : List α} {a : α} (hp : p <+: l ++ [a]) (hl : a ∉ l)
    (ha : a ∈ p) : p = l ++ [a] := by
  rcases List.prefix_concat_iff.1 hp with h | h
  · exact h
  · exact absurd (h.subset ha) hl

/-- If the first member is not in a part of a list, it is still the first without that part. -/
theorem head?_without {α : Type} [DecidableEq α] {l part : List α}
    (h : ∀ first, l.head? = some first → first ∉ part) :
    (l.filter fun a => decide (a ∉ part)).head? = l.head? := by
  cases l with
  | nil => rfl
  | cons first rest =>
    have hkept : decide (first ∉ part) = true := decide_eq_true (h first rfl)
    simp only [List.filter_cons, hkept, if_true, List.head?_cons]

namespace Window

variable {α : Type} [Slotted α]

/-! ## The walk -/

/-- The walk of a tail window that holds `count` entries, with their bytes in a word. -/
def walkBack (w : Window) (limit : Option Key) (count : Nat) (bytes : UInt64) : List α → List α
  | [] => []
  | a :: l =>
    if !w.isOpen count bytes.toNat then []
    else if limit.any (· ≥ keyOf a) then []
    else a :: walkBack w limit (count + 1) (addWords bytes (Slotted.slot a).size) l

/-- The tail window that two words ask for, as it is walked. What is walked may be a part of a queue
with `total` entries. -/
def tailOf (n b : Int64) (limit : Option Key) (leaveOne : Bool) (total : Nat) (l : List α) :
    List α :=
  let covered := (ofInts n.toInt b.toInt).walkBack limit 0 0 l
  if leaveOne && !covered.isEmpty && covered.length == total then covered.dropLast else covered

/-- A sum that has reached the largest word has reached every bound that is a word. -/
theorem isOpen_capped {w : Window} (hb : ∀ b, w.bytes = some b → b < 2 ^ 64) (count : Nat)
    {bytes : UInt64} {exact : Nat} (he : bytes.toNat = min exact (2 ^ 64 - 1)) :
    w.isOpen count bytes.toNat = w.isOpen count exact := by
  unfold isOpen
  cases hw : w.bytes with
  | none => cases w.entries <;> rfl
  | some b =>
    have hword := hb b hw
    have hless : bytes.toNat < b ↔ exact < b := by omega
    cases w.entries <;> simp only [hless]

/-- The walk is that of exact sums. -/
theorem walkBack_eq_tailFrom {w : Window} (hb : ∀ b, w.bytes = some b → b < 2 ^ 64)
    (limit : Option Key) (count : Nat) {bytes : UInt64} {exact : Nat}
    (he : bytes.toNat = min exact (2 ^ 64 - 1)) (l : List α) :
    w.walkBack limit count bytes l = w.tailFrom limit count exact l := by
  induction l generalizing count bytes exact with
  | nil => rfl
  | cons a l ih =>
    have hnext : (addWords bytes (Slotted.slot a).size).toNat =
        min (exact + chargeOf a) (2 ^ 64 - 1) := by
      rw [toNat_addWords, he, chargeOf]
      omega
    simp only [walkBack, tailFrom, isOpen_capped hb count he, ih (count + 1) hnext]

theorem tailOf_eq_tail (n b : Int64) (limit : Option Key) (leaveOne : Bool) (total : Nat)
    (l : List α) : tailOf n b limit leaveOne total l =
      (ofInts n.toInt b.toInt).tail limit leaveOne total l := by
  have hzero : (0 : UInt64).toNat = min 0 (2 ^ 64 - 1) := rfl
  have hwalk := walkBack_eq_tailFrom (fun k hk => bytes_ofInts_lt (n := n) (b := b) hk) limit 0
    hzero l
  rw [tailOf, tail, hwalk]
  -- Of nothing there is nothing to give back.
  cases (ofInts n.toInt b.toInt).tailFrom limit 0 0 l with
  | nil => simp
  | cons a covered => simp

/-- A tail window is a prefix of what it is cut from. -/
theorem tailFrom_prefix_self (w : Window) (limit : Option Key) (count bytes : Nat) (l : List α) :
    w.tailFrom limit count bytes l <+: l := by
  induction l generalizing count bytes with
  | nil => exact List.prefix_rfl
  | cons a l ih =>
    unfold tailFrom
    split
    · exact List.nil_prefix
    split
    · exact List.nil_prefix
    · exact (List.prefix_cons_inj a).2 (ih _ _)

/-! ## What a window is -/

/-- Whether two words let one more entry be covered when `count` entries of `bytes` bytes are. There
is always room if both are negative; otherwise one of them must be above what is covered. -/
def Lets (n b : Int64) (count bytes : Nat) : Prop :=
  n.toInt < 0 ∧ b.toInt < 0 ∨ (count : Int) < n.toInt ∨ (bytes : Int) < b.toInt

/-- Each entry of a prefix was to be covered when those before it were. -/
def EachLet (n b : Int64) (p : List α) : Prop :=
  ∀ q a, q ++ [a] <+: p → Lets n b q.length (q.map chargeOf).sum

/-- The longest prefix of a list each entry of which was to be covered. -/
structure Farthest (n b : Int64) (l p : List α) : Prop where
  /-- It is a prefix of the list. -/
  part : p <+: l
  /-- Each entry of it was to be covered. -/
  each : EachLet n b p
  /-- It goes as far as any other. -/
  farthest : ∀ q, q <+: l → EachLet n b q → q <+: p

theorem goesOn_ofInts {n b : Int64} {p : List α} :
    (ofInts n.toInt b.toInt).GoesOn p ↔ Lets n b p.length (p.map chargeOf).sum := by
  have hnone : ∀ {k : Int}, bound k = none ↔ k < 0 := by
    intro k
    unfold bound
    split <;> simp_all
  simp only [GoesOn, Lets, ofInts, bound_eq_some_iff, hnone]
  constructor
  · rintro (h | ⟨k, hk, hlt⟩ | ⟨k, hk, hlt⟩)
    · exact .inl h
    · exact .inr (.inl (by omega))
    · exact .inr (.inr (by omega))
  · rintro (h | h | h)
    · exact .inl h
    · exact .inr (.inl ⟨n.toInt.toNat, by omega, by omega⟩)
    · exact .inr (.inr ⟨b.toInt.toNat, by omega, by omega⟩)

/-- A window that is known by its prefixes is the longest one. -/
theorem farthest_of_isTail {n b : Int64} {l m : List α}
    (h : (ofInts n.toInt b.toInt).IsTail l m) : Farthest n b l m where
  part := ((h m).1 List.prefix_rfl).1
  each := by
    intro q a hq
    rcases ((h _).1 hq).2 with hnil | hgoes
    · simp at hnil
    · rw [List.dropLast_concat] at hgoes
      exact goesOn_ofInts.1 hgoes
  farthest := by
    intro q hq heach
    refine (h q).2 ⟨hq, ?_⟩
    rcases List.eq_nil_or_concat q with rfl | ⟨before, a, rfl⟩
    · exact .inl rfl
    · refine .inr ?_
      rw [List.concat_eq_append, List.dropLast_concat]
      rw [List.concat_eq_append] at heach
      exact goesOn_ofInts.2 (heach before a List.prefix_rfl)

/-- The things of a list that are served after a limit, if there is one. -/
def following (limit : Option Key) (l : List α) : List α :=
  l.filter fun a => limit.all fun key => decide (key < keyOf a)

theorem filter_beyond (limit : Option Key) (l : List α) :
    l.filter (beyond limit) = following limit l := by
  refine List.filter_congr fun a _ => ?_
  cases limit with
  | none => rfl
  | some key =>
    rw [Bool.eq_iff_iff, beyond, Option.any_some, Option.all_some, Bool.not_eq_true',
      decide_eq_false_iff_not, decide_eq_true_eq]
    exact not_not

/-- What two words and a limit ask for of a queue whose entries are `stored`, in the order of
service, where `l` of them are looked at from the back. -/
structure Asks (n b : Int64) (limit : Option Key) (stored l : List α) : Prop where
  /-- The walk in words is the window of exact sums. -/
  exact : ∀ leaveOne, (ofInts n.toInt b.toInt).tail limit leaveOne stored.length l =
    tailOf n b limit leaveOne stored.length l
  /-- Without an entry to leave, it is the longest prefix of what is served after the limit of which
  each entry was to be covered. -/
  longest : Farthest n b (following limit l) (tailOf n b limit false stored.length l)
  /-- Where that is all that is stored and one entry is to be left, the last one is given back. -/
  all : tailOf n b limit false stored.length l = stored.reverse →
    tailOf n b limit true stored.length l = stored.tail.reverse
  /-- Otherwise none is. -/
  less : tailOf n b limit false stored.length l ≠ stored.reverse →
    tailOf n b limit true stored.length l = tailOf n b limit false stored.length l
  /-- So the first entry is not covered where one is to be left. -/
  spares : ∀ first, stored.head? = some first → first ∉ tailOf n b limit true stored.length l

theorem asks_tailOf {stored l : List α} (h : Ascending stored) (hl : l <+: stored.reverse)
    (n b : Int64) (limit : Option Key) : Asks n b limit stored l := by
  have hback : l.Pairwise fun a b => keyOf b < keyOf a :=
    (List.pairwise_reverse.2 h).sublist hl.sublist
  let covered := (ofInts n.toInt b.toInt).tailFrom limit 0 0 l
  have hleading : covered <+: stored.reverse := (tailFrom_prefix_self _ limit 0 0 l).trans hl
  have hplain : tailOf n b limit false stored.length l = covered := by
    rw [tailOf_eq_tail]
    rfl
  have hone : tailOf n b limit true stored.length l =
      if covered.length == stored.length then covered.dropLast else covered := by
    rw [tailOf_eq_tail]
    rfl
  have hall : covered = stored.reverse →
      tailOf n b limit true stored.length l = stored.tail.reverse := by
    intro heq
    rw [hone, heq, if_pos (by simp), List.dropLast_reverse]
  have hless : covered ≠ stored.reverse → tailOf n b limit true stored.length l = covered := by
    intro hne
    have hlength : covered.length ≠ stored.length := fun hsame =>
      hne (hleading.eq_of_length (hsame.trans (List.length_reverse).symm))
    rw [hone, if_neg (by simpa using hlength)]
  refine ⟨fun leaveOne => (tailOf_eq_tail ..).symm, ?_, hplain ▸ hall, hplain ▸ hless, ?_⟩
  · have htail := (ofInts n.toInt b.toInt).isTail_tailFrom limit hback
    rw [filter_beyond] at htail
    rw [hplain]
    exact farthest_of_isTail htail
  · intro first hfirst
    obtain ⟨rest, rfl⟩ : ∃ rest, stored = first :: rest := by
      cases stored with
      | nil => cases hfirst
      | cons a rest =>
        cases hfirst
        exact ⟨rest, rfl⟩
    have hnew : first ∉ rest.reverse := by
      rw [List.mem_reverse]
      exact (List.nodup_cons.1 h.nodup).1
    by_cases heq : covered = (first :: rest).reverse
    · rw [hall heq]
      exact hnew
    · rw [hless heq]
      intro hin
      rw [List.reverse_cons] at hleading heq
      exact heq (eq_of_prefix_concat hleading hnew hin)

end Window

namespace Queue

variable {d : Desk Queue} {l : List Entry} {request : Request}

/-! ## Taking tail windows -/

/-- An active queue has its contents. -/
theorem Has.contents_eq (h : Has d l) (ha : Managed.phase d.queue = .active) : contents d = l := by
  cases h with
  | ram h => exact h.items
  | durable h => exact h.contents
  | cached h => exact Cached.contents_eq (h.stocks ha)

/-- An active queue that is to remove something says what it was and goes on with the rest, or it
fails and goes on with what it had. -/
theorem Has.strikes (h : Has d l) (ha : Managed.phase d.queue = .active)
    (hr : request.looksUp = true) (hremoves : request.removes = true)
    (hf : d.queue.kind = .durable → request.Fair l) :
    (∃ d', (ask request).on d = (.ok (request.reply (request.named l)), d') ∧
      Managed.phase d'.queue = .active ∧ Has d' (request.left l)) ∨
    ∃ fault d', (ask request).on d = (.error fault, d') ∧
      Managed.phase d'.queue = .active ∧ Has d' l := by
  cases h with
  | @ram d l h =>
    obtain ⟨roll, calls, ho, hl⟩ := Ram.serve_on ha h hr
    exact .inl ⟨Desk.seat .ram ⟨{ d.queue with roll }, d.store, calls⟩,
      congrArg (fun p => (p.1, p.2.seat .ram)) ho, ha, .ram hl⟩
  | @durable d l h =>
    have halive : d.queue.phase ≠ .destroyed := by
      rw [show d.queue.phase = .active from ha]
      nofun
    rcases Durable.serve_on ha (h.keeps ha) hr (hf rfl) with
      ⟨_, tally, store, calls, ho, rfl, -, hk, -⟩ | ⟨fault, store, ho, hm⟩
    · exact .inl ⟨(Durable.turned d tally store calls).seat .durable,
        congrArg (fun p => (p.1, p.2.seat .durable)) ho, ha,
        .durable (Durable.rests_of_keeps hk halive)⟩
    · exact .inr ⟨fault, Desk.seat .durable { d with store },
        congrArg (fun p => (p.1, p.2.seat .durable)) ho, ha,
        .durable (Durable.rests_of_keeps ((h.keeps ha).missed hm) halive)⟩
  | @cached d l h =>
    rcases Cached.serve_on (h.stocks ha) ha hr with
      ⟨d', m, ho, hst, hm, hsame⟩ | ⟨hspoilt, ⟨hreads, -⟩ | ⟨fault, hfault⟩⟩
    · have ha' : d'.queue.phase = .active := hst.phase.trans ha
      refine .inl ⟨d'.seat .cached, congrArg (fun p => (p.1, p.2.seat .cached)) ho, ha', ?_⟩
      rw [← Cached.entries_restOf, ← hsame.entries]
      exact .cached (.serving ha' hm)
    · rw [hremoves] at hreads
      cases hreads
    · have ha' := hspoilt.steady.phase.trans ha
      refine .inr ⟨fault, ((serve request).on d).2.seat .cached, ?_, ha',
        .cached (.serving ha' hspoilt.stocks)⟩
      rw [← hfault]
      rfl

/-- What becomes of a queue that is to give a part of its contents away. -/
structure PartsWith (d : Desk Queue) (request : Request) (part : List Entry) : Prop where
  /-- It gives that if it can use what it needs. -/
  answers : Open d → ((ask request).on d).1 = .ok (.entries part)
  /-- If it gives something, it gives that, and goes on with the rest. -/
  given : ∀ reply, ((ask request).on d).1 = .ok reply → reply = .entries part ∧
    contents ((ask request).on d).2 = (contents d).filter fun e => decide (e ∉ part)
  /-- If it fails, it goes on with what it had. -/
  kept : ∀ fault, ((ask request).on d).1 = .error fault →
    contents ((ask request).on d).2 = contents d
  /-- In any case the first entry stays the first, so a queue with entries keeps one. -/
  first : (contents ((ask request).on d).2).head? = (contents d).head?

theorem partsWith_tailOf (h : Reachable d) (ha : Managed.phase d.queue = .active) (n b : Int64)
    (limit : Option Entry) :
    PartsWith d (.takeLowest (Window.ofInts n.toInt b.toInt) limit true)
      (Window.tailOf n b (limit.map Entry.key) true (contents d).length (contents d).reverse) := by
  obtain ⟨l, hl⟩ := reachable_has h
  obtain rfl := hl.contents_eq ha
  let request : Request := .takeLowest (Window.ofInts n.toInt b.toInt) limit true
  let part := Window.tailOf n b (limit.map Entry.key) true (contents d).length (contents d).reverse
  have hasks := Window.asks_tailOf hl.ordered.ascending List.prefix_rfl n b (limit.map Entry.key)
  have hnamed : request.named (contents d) = part := hasks.exact true
  have hrest : request.left (contents d) = (contents d).filter fun e => decide (e ∉ part) :=
    hnamed ▸ left_eq_unnamed hl.ordered request
  have hfair : d.queue.kind = .durable → request.Fair (contents d) := fun _ => trivial
  have hopen : Open d → ((ask request).on d).1 = .ok (.entries part) := fun ho => by
    obtain ⟨_, hon, -⟩ := hl.lookup ho rfl hfair
    rw [hon, hnamed]
    rfl
  rcases hl.strikes ha rfl rfl hfair with ⟨d', ho, ha', hl'⟩ | ⟨fault, d', ho, ha', hl'⟩
  · have hcontents := hl'.contents_eq ha'
    rw [hrest] at hcontents
    rw [hnamed] at ho
    refine ⟨hopen, ?_, ?_, ?_⟩ <;> rw [show (ask request).on d = _ from ho]
    · rintro _ ⟨⟩
      exact ⟨rfl, hcontents⟩
    · rintro _ ⟨⟩
    · rw [hcontents]
      exact head?_without hasks.spares
  · have hcontents := hl'.contents_eq ha'
    refine ⟨hopen, ?_, ?_, ?_⟩ <;> rw [show (ask request).on d = _ from ho]
    · rintro _ ⟨⟩
    · exact fun _ _ => hcontents
    · rw [hcontents]

/-- A tail window is the longest prefix, from the back, of what is served after its limit of which
each entry was still to be covered, its bytes counted exactly although the walk keeps them in a
word. Where one entry is to be left, the last one is given back exactly if the window is the whole
queue. So a queue of any kind with any history from which a tail window is taken that leaves one
keeps its first entry, whatever its limits and whether or not its database can be used. -/
theorem tail_windows_farthest :
    (∀ {α : Type} [Slotted α] {stored l : List α}, Ascending stored → l <+: stored.reverse →
      ∀ n b limit, Window.Asks n b limit stored l) ∧
    ∀ {d : Desk Queue}, Reachable d → Managed.phase d.queue = .active → ∀ n b limit,
      PartsWith d (.takeLowest (Window.ofInts n.toInt b.toInt) limit true)
        (Window.tailOf n b (limit.map Entry.key) true (contents d).length
          (contents d).reverse) := by
  constructor
  · intro α _ stored l h hl n b limit
    exact Window.asks_tailOf h hl n b limit
  · intro d h ha n b limit
    exact partsWith_tailOf h ha n b limit

/-- Windows on four entries of which two are as large as can be, with one to leave: the bound on
bytes ends one, the laxer bound decides another, and a third is the whole list and gives the first
entry back. Seen from the back alone, the last three are none too many. Queues of all kinds with two
entries give one. -/
theorem tail_windows_of_heavySlots :
    let back := Window.heavySlots.reverse
    (Ascending Window.heavySlots ∧ back.take 3 <+: back) ∧
      Window.tailOf (-1) 10 none true 4 back = back.take 2 ∧
      Window.tailOf 3 10 none true 4 back = back.take 3 ∧
      Window.tailOf (-1) (-1) none true 4 back = back.take 3 ∧
      Window.tailOf (-1) (-1) none true 4 (back.take 3) = back.take 3 ∧
      Window.Asks (-1) (-1) none Window.heavySlots back ∧
      Window.Asks (-1) (-1) none Window.heavySlots (back.take 3) ∧
      ∀ kind, (Reachable (stocked kind) ∧ Managed.phase (stocked kind).queue = .active) ∧
        PartsWith (stocked kind) (.takeLowest {} none true) [.blank 2 false] := by
  intro back
  have h : Ascending Window.heavySlots := by unfold Ascending; decide +kernel
  have hpart : back.take 3 <+: back := List.take_prefix 3 back
  refine ⟨⟨h, hpart⟩, by decide +kernel, by decide +kernel, by decide +kernel, by decide +kernel,
    tail_windows_farthest.1 h List.prefix_rfl _ _ _, tail_windows_farthest.1 h hpart _ _ _, ?_⟩
  intro kind
  have ha := (open_stocked kind).active
  have hparts := tail_windows_farthest.2 (reachable_stocked kind) ha (-1) (-1) none
  have hgiven : Window.tailOf (-1) (-1) ((none : Option Entry).map Entry.key) true
      (contents (stocked kind)).length (contents (stocked kind)).reverse = [.blank 2 false] := by
    cases kind <;> decide +kernel
  rw [hgiven] at hparts
  exact ⟨⟨reachable_stocked kind, ha⟩, hparts⟩

end Queue

end Spillway
