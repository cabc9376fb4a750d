import Spillway.Proofs.Decoding

/-!
# What queries find

A query keeps rows of a queue by their cells, puts them in order, may cut them short, and reads what
is left; rows that cannot be read stand among the others until then. What it finds is nevertheless
what the same conditions keep of the entries of the queue in the order of service, and it is refused
only for a row that it would have to read.
-/

namespace Spillway

/-! ## Rows in order -/

namespace Row

/-- What is read from rows of a queue in order stands in the order of service. -/
theorem ordered_decode {queue : String} {rows : List Row} (hk : Keyed rows)
    (hq : ∀ r ∈ rows, r.queue = queue)
    (hs : rows.Pairwise fun r r' => before r' r = false) : Ordered (decode rows) := by
  refine ⟨?_, Statement.nodup_decode hk hq⟩
  rw [Ascending, decode, List.pairwise_filterMap]
  refine (hs.and hk).imp_of_mem ?_
  rintro r r' hr hr' ⟨hnot, hne⟩ e he e' he'
  have hrow := eq_ofEntry_of_some he
  have hrow' := eq_ofEntry_of_some he'
  rw [hq r hr] at hrow
  rw [hq r' hr'] at hrow'
  subst hrow hrow'
  rw [before_ofEntry, servedBefore, decide_eq_false_iff_not] at hnot
  rcases Key.lt_trichotomy (keyOf e) (keyOf e') with h | h | h
  · exact h
  · exact absurd ⟨rfl, congrArg (fun key : Key => idToCell key.id) h⟩ hne
  · exact absurd h hnot

/-- Where the rows that a bound lets through can be read, they may as well be bounded after
reading. -/
theorem decode_limited {bound : Option Nat} {rows : List Row}
    (h : ∀ r ∈ Statement.limited bound rows, r.readable = true) :
    decode (Statement.limited bound rows) = Statement.limited bound (decode rows) := by
  cases bound with
  | none => rfl
  | some n =>
    simp only [Statement.limited] at h ⊢
    induction rows generalizing n with
    | nil => simp [decode]
    | cons r rows ih =>
      cases n with
      | zero => simp [decode]
      | succ n =>
        rw [List.take_succ_cons] at h ⊢
        obtain ⟨hr, hrest⟩ := List.forall_mem_cons.1 h
        obtain ⟨e, he⟩ := readable_iff.1 hr
        rw [decode_cons he, decode_cons he, List.take_succ_cons, ih n hrest]

end Row

/-! ## Conditions -/

namespace Statement

variable {α : Type} {queue : String} {rows : List Row}

/-- The entries in the rows of a queue, in the order of service. -/
def entriesOf (queue : String) (rows : List Row) : List Entry :=
  (Row.inOrder (rowsOf queue rows)).filterMap fun r => r.readEntry.toOption

theorem queue_of_perm {p : Row → Bool} {found : List Row}
    (hp : found.Perm ((rowsOf queue rows).filter p)) : ∀ r ∈ found, r.queue = queue := by
  intro r hr
  exact queue_of_mem_rowsOf (List.mem_of_mem_filter (hp.mem_iff.1 hr))

theorem mem_entriesOf {e : Entry} : e ∈ entriesOf queue rows ↔ Row.ofEntry queue e ∈ rows := by
  have hq : ∀ r ∈ Row.inOrder (rowsOf queue rows), r.queue = queue := fun r hr =>
    queue_of_mem_rowsOf (Row.mem_inOrder.1 hr)
  rw [show e ∈ entriesOf queue rows ↔ _ from Row.mem_decode hq, Row.mem_inOrder, rowsOf,
    List.mem_filter]
  simp [Row.ofEntry]

/-- Rows of a queue that a condition keeps, put in order, are read in the order of service. -/
theorem ordered_decode_inOrder (hk : Keyed (rowsOf queue rows)) (p : Row → Bool) :
    Ordered (Row.decode (Row.inOrder ((rowsOf queue rows).filter p))) := by
  have hp := perm_sortOrdered Row.before ((rowsOf queue rows).filter p)
  have hkeyed : Keyed ((rowsOf queue rows).filter p) := hk.sublist List.filter_sublist
  exact Row.ordered_decode (hkeyed.perm hp.symm) (queue_of_perm hp) (Row.pairwise_inOrder _)

theorem ordered_entriesOf (hk : Keyed (rowsOf queue rows)) : Ordered (entriesOf queue rows) := by
  rw [entriesOf, ← List.filter_true (rowsOf queue rows)]
  exact ordered_decode_inOrder hk fun _ => true

section

variable {p : Row → Bool} {q : Entry → Bool}
  (h : ∀ e ∈ entriesOf queue rows, p (Row.ofEntry queue e) = q e)

include h

/-- A condition on cells finds, in whatever order, what the condition on entries keeps. -/
theorem mem_decode_filter {found : List Row} (hp : found.Perm ((rowsOf queue rows).filter p))
    {e : Entry} : e ∈ Row.decode found ↔ e ∈ (entriesOf queue rows).filter q := by
  have hqueue : (Row.ofEntry queue e).queue = queue := rfl
  rw [Row.mem_decode (queue_of_perm hp), hp.mem_iff, List.mem_filter, List.mem_filter, rowsOf,
    List.mem_filter, mem_entriesOf, hqueue, beq_self_eq_true, eq_self, and_true]
  apply and_congr_right
  intro he
  rw [h e (mem_entriesOf.2 he)]

/-- In order it finds just that. -/
theorem decode_inOrder (hk : Keyed (rowsOf queue rows)) :
    Row.decode (Row.inOrder ((rowsOf queue rows).filter p)) = (entriesOf queue rows).filter q := by
  apply (ordered_decode_inOrder hk p).ascending.ext ((ordered_entriesOf hk).filter q).ascending
  intro e
  exact mem_decode_filter h (perm_sortOrdered Row.before _)

/-- Backwards it finds that backwards. -/
theorem decode_inReverse (hk : Keyed (rowsOf queue rows)) :
    Row.decode (Row.inReverse ((rowsOf queue rows).filter p)) =
      ((entriesOf queue rows).filter q).reverse := by
  have hp := perm_sortOrdered (fun r r' => Row.before r' r) ((rowsOf queue rows).filter p)
  have hback : (Row.inReverse ((rowsOf queue rows).filter p)).reverse.Perm
      ((rowsOf queue rows).filter p) := (List.reverse_perm _).trans hp
  have hkeyed : Keyed ((rowsOf queue rows).filter p) := hk.sublist List.filter_sublist
  have hordered := Row.ordered_decode (hkeyed.perm hback.symm) (queue_of_perm hback)
    (List.pairwise_reverse.2 (Row.pairwise_inReverse _))
  have hdecode : Row.decode (Row.inReverse ((rowsOf queue rows).filter p)).reverse =
      (Row.decode (Row.inReverse ((rowsOf queue rows).filter p))).reverse :=
    List.filterMap_reverse
  rw [← List.reverse_eq_iff, ← hdecode]
  apply hordered.ascending.ext ((ordered_entriesOf hk).filter q).ascending
  intro e
  exact mem_decode_filter h hback

end

/-! ## What a statement on a queue comes to -/

/-- What comes of a statement on a queue is right, or it is refused for a row of the queue that
cannot be read. -/
def Meets (queue : String) (rows : List Row) (act : Statement α)
    (right : α → List Row → Prop) : Prop :=
  (∃ a left, act rows = .ok (a, left) ∧ right a left) ∨
    act rows = .error .unreadableRow ∧ ∃ r ∈ rowsOf queue rows, r.readable = false

/-- Where all rows of the queue can be read, it answers. -/
theorem Meets.answers {act : Statement α} {right : α → List Row → Prop}
    (h : Meets queue rows act right) (hr : ∀ r ∈ rowsOf queue rows, r.readable = true) :
    ∃ a left, act rows = .ok (a, left) ∧ right a left := by
  rcases h with h | ⟨-, r, hmem, hunread⟩
  · exact h
  · rw [hr r hmem] at hunread
    cases hunread

/-- A statement that only looks then gives what is right and leaves the rows. -/
theorem Meets.eq_ok {act : Statement α} {a : α}
    (h : Meets queue rows act fun found left => found = a ∧ left = rows)
    (hr : ∀ r ∈ rowsOf queue rows, r.readable = true) : act rows = .ok (a, rows) := by
  obtain ⟨found, left, he, rfl, rfl⟩ := h.answers hr
  exact he

theorem Meets.mono {act : Statement α} {right right' : α → List Row → Prop}
    (h : Meets queue rows act right) (hr : ∀ a left, right a left → right' a left) :
    Meets queue rows act right' := by
  rcases h with ⟨a, left, he, ha⟩ | h
  · exact .inl ⟨a, left, he, hr a left ha⟩
  · exact .inr h

/-- A statement that reads some rows of a queue has to be right only where it can read them. -/
theorem meets_of_read {act : Statement α} {right : α → List Row → Prop} {read : List Row} {a : α}
    {left : List Row}
    (he : act rows = if ∀ r ∈ read, r.readable = true then .ok (a, left) else .error .unreadableRow)
    (hmem : ∀ r ∈ read, r ∈ rowsOf queue rows)
    (ha : (∀ r ∈ read, r.readable = true) → right a left) : Meets queue rows act right := by
  by_cases h : ∀ r ∈ read, r.readable = true
  · rw [if_pos h] at he
    exact .inl ⟨a, left, he, ha h⟩
  · rw [if_neg h] at he
    simp only [not_forall, Bool.not_eq_true] at h
    obtain ⟨r, hr, hunread⟩ := h
    exact .inr ⟨he, r, hmem r hr, hunread⟩

/-! ## Deletions -/

/-- The rows that are left when those of some entries of a queue are gone. -/
def without (queue : String) (gone : List Entry) (rows : List Row) : List Row :=
  rows.filter fun r => decide (r ∉ gone.map (Row.ofEntry queue))

/-- Deleting rows of a queue reads them as the slots of the entries that are gone. -/
theorem meets_delete {p : Row → Bool} {gone : List Entry}
    (hgone : (∀ r ∈ (rowsOf queue rows).filter p, r.readable = true) →
      (Row.decode ((rowsOf queue rows).filter p)).Perm gone) :
    Meets queue rows (do readSlots (← deleteWhere fun r => r.queue == queue && p r))
      fun slots left => slots.Perm (gone.map Entry.slot) ∧ left = without queue gone rows := by
  have hrun := deleteSlots_eq (fun r => r.queue == queue && p r) rows
  rw [filter_of_queue] at hrun
  apply meets_of_read hrun
  · exact fun _ => List.mem_of_mem_filter
  · intro hr
    have hrows := Row.map_decode
      (fun r hr => queue_of_mem_rowsOf (List.mem_of_mem_filter hr)) hr
    have hmem : ∀ r, r ∈ gone.map (Row.ofEntry queue) ↔
        r ∈ rows ∧ (r.queue == queue && p r) = true := by
      intro r
      rw [← ((hgone hr).map (Row.ofEntry queue)).mem_iff, hrows, ← filter_of_queue,
        List.mem_filter]
    refine ⟨(hgone hr).map Entry.slot, List.filter_congr ?_⟩
    intro r hin
    rw [Bool.eq_iff_iff, decide_eq_true_eq, hmem, Bool.not_eq_true', ← Bool.not_eq_true]
    simp only [hin, true_and]

/-- What is left of the queue are the other entries. -/
theorem entriesOf_without (hk : Keyed (rowsOf queue rows)) (gone : List Entry) :
    entriesOf queue (without queue gone rows) =
      (entriesOf queue rows).filter fun e => decide (e ∉ gone) := by
  have hleft : Keyed (rowsOf queue (without queue gone rows)) :=
    hk.sublist (List.filter_sublist.filter _)
  apply (ordered_entriesOf hleft).ascending.ext ((ordered_entriesOf hk).filter _).ascending
  intro e
  have hrow : Row.ofEntry queue e ∈ gone.map (Row.ofEntry queue) ↔ e ∈ gone :=
    List.mem_map_of_injective (Row.ofEntry_injective queue)
  simp only [List.mem_filter, mem_entriesOf, without, decide_eq_true_eq, hrow]

/-- The rows of another queue stay. -/
theorem rowsOf_without {other : String} (hne : other ≠ queue) (gone : List Entry) :
    rowsOf other (without queue gone rows) = rowsOf other rows := by
  rw [rowsOf, without, List.filter_filter]
  apply List.filter_congr
  intro r _
  rw [Bool.eq_iff_iff, Bool.and_eq_true, beq_iff_eq, decide_eq_true_eq, and_iff_left_iff_imp]
  rintro rfl hgone
  obtain ⟨e, -, rfl⟩ := List.mem_map.1 hgone
  exact hne rfl

/-- The rows with the ids of those that stand first in order are those. -/
theorem perm_first (hk : Keyed (rowsOf queue rows)) (count : Nat) :
    ((rowsOf queue rows).filter fun r =>
      (((Row.inOrder (rowsOf queue rows)).take count).map (·.id)).contains r.id).Perm
      ((Row.inOrder (rowsOf queue rows)).take count) := by
  have hown : ∀ r ∈ (Row.inOrder (rowsOf queue rows)).take count, r ∈ rowsOf queue rows := by
    intro r hr
    exact Row.mem_inOrder.1 (List.mem_of_mem_take hr)
  have hnodup : ((Row.inOrder (rowsOf queue rows)).take count).Nodup := by
    apply List.Nodup.sublist (List.take_sublist ..)
    exact (perm_sortOrdered Row.before _).nodup_iff.2 hk.nodup
  apply (List.perm_ext_iff_of_nodup (hk.nodup.sublist List.filter_sublist) hnodup).2
  intro r
  simp only [List.mem_filter, List.contains_iff_mem, List.mem_map]
  constructor
  · rintro ⟨hr, r', hfirst, hid⟩
    have hr' := hown r' hfirst
    have hqueue := (queue_of_mem_rowsOf hr).trans (queue_of_mem_rowsOf hr').symm
    exact hk.eq_of_id hr hr' hqueue hid.symm ▸ hfirst
  · intro hfirst
    exact ⟨hown r hfirst, r, hfirst, rfl⟩

end Statement

end Spillway
