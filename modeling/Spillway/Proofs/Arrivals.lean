import Spillway.Proofs.Puts

/-!
# What a batch brings

Of a batch, a queue takes the entries whose ids it does not have yet, the first one of each id. The
put hook is called around that: before anything is done, with the whole batch, and afterwards again,
unless the batch was refused.
-/

namespace Spillway

open Desk

/-! ## New entries -/

/-- The entries of a batch that are new to a list: no entry of the list has their id, and none that
stands earlier in the batch. -/
def arrivals (l : List Entry) : List Entry → List Entry
  | [] => []
  | e :: batch =>
    if l.any fun f => decide (f.id = e.id) then arrivals l batch
    else e :: arrivals (e :: l) batch

section
variable {l m batch : List Entry} {e : Entry}

theorem any_id_iff : (l.any fun f => decide (f.id = e.id)) = true ↔ ∃ f ∈ l, f.id = e.id := by
  simp

/-- Which entries are new depends on the ids of the list only. -/
theorem arrivals_congr (h : ∀ id, (∃ f ∈ l, f.id = id) ↔ ∃ f ∈ m, f.id = id) :
    arrivals l batch = arrivals m batch := by
  induction batch generalizing l m with
  | nil => rfl
  | cons e batch ih =>
    have hany : (l.any fun f => decide (f.id = e.id)) = m.any fun f => decide (f.id = e.id) := by
      rw [Bool.eq_iff_iff, any_id_iff, any_id_iff, h]
    rw [arrivals, arrivals, hany, ih h]
    rw [ih (l := e :: l) (m := e :: m) fun id => ?_]
    simp only [List.mem_cons, exists_eq_or_imp, h]

theorem arrivals_sublist (l batch : List Entry) : (arrivals l batch).Sublist batch := by
  induction batch generalizing l with
  | nil => exact .slnil
  | cons e batch ih =>
    rw [arrivals]
    split
    · exact (ih l).cons e
    · exact (ih (e :: l)).cons_cons e

/-- Where a thing stands in a list: in front, or further back. -/
theorem exists_split_cons {α : Type} {a b : α} {l : List α} {p : List α → Prop} :
    (∃ before after, a :: l = before ++ b :: after ∧ p before) ↔
      a = b ∧ p [] ∨ ∃ before after, l = before ++ b :: after ∧ p (a :: before) := by
  constructor
  · rintro ⟨_ | ⟨c, before⟩, after, hsplit, hp⟩
    · exact .inl ⟨(List.cons.inj hsplit).1, hp⟩
    · obtain ⟨rfl, rfl⟩ := List.cons.inj hsplit
      exact .inr ⟨before, after, rfl, hp⟩
  · rintro (⟨rfl, hp⟩ | ⟨before, after, rfl, hp⟩)
    · exact ⟨[], l, rfl, hp⟩
    · exact ⟨a :: before, after, rfl, hp⟩

/-- The new entries of a batch are those whose ids the list does not have, nor any entry that stands
earlier in the batch. -/
theorem mem_arrivals : e ∈ arrivals l batch ↔
    ∃ before after, batch = before ++ e :: after ∧ ∀ f ∈ l ++ before, f.id ≠ e.id := by
  induction batch generalizing l with
  | nil => simp [arrivals]
  | cons a batch ih =>
    have hmove : ∀ before : List Entry, (∀ f ∈ l ++ a :: before, f.id ≠ e.id) ↔
        ∀ f ∈ a :: l ++ before, f.id ≠ e.id := fun before => by
      simp only [List.perm_middle.mem_iff, List.cons_append]
    rw [arrivals, exists_split_cons]
    split
    · next hknown =>
      obtain ⟨g, hg, hid⟩ := any_id_iff.1 hknown
      rw [ih]
      constructor
      · rintro ⟨before, after, hsplit, hfree⟩
        refine .inr ⟨before, after, hsplit, (hmove before).2 ?_⟩
        rw [List.cons_append, List.forall_mem_cons]
        exact ⟨hid ▸ hfree g (List.mem_append_left _ hg), hfree⟩
      · rintro (⟨rfl, hfree⟩ | ⟨before, after, hsplit, hfree⟩)
        · exact absurd hid (hfree g (List.mem_append_left _ hg))
        · refine ⟨before, after, hsplit, ?_⟩
          have hall := (hmove before).1 hfree
          rw [List.cons_append, List.forall_mem_cons] at hall
          exact hall.2
    · next hnew =>
      rw [List.mem_cons, ih]
      refine or_congr ⟨?_, fun h => h.1.symm⟩ ?_
      · rintro rfl
        refine ⟨rfl, fun f hf hid => hnew (any_id_iff.2 ⟨f, ?_, hid⟩)⟩
        rwa [List.append_nil] at hf
      · simp only [hmove]

/-- Entering a batch adds its new entries. -/
theorem perm_foldl_enter (l batch : List Entry) :
    (batch.foldl enter l).Perm (l ++ arrivals l batch) := by
  induction batch generalizing l with
  | nil => rw [arrivals, List.append_nil]; exact .refl l
  | cons e batch ih =>
    rw [List.foldl_cons, arrivals]
    by_cases hknown : (l.any fun f => decide (f.id = e.id)) = true
    · have henter : enter l e = l := if_pos hknown
      rw [henter, if_pos hknown]
      exact ih l
    · have henter : enter l e = insertByKey e l := if_neg hknown
      have hperm : (insertByKey e l).Perm (e :: l) := perm_insertOrdered servedBefore e l
      have hids : arrivals (insertByKey e l) batch = arrivals (e :: l) batch :=
        arrivals_congr fun id => by simp only [hperm.mem_iff]
      have hrest : (batch.foldl enter (insertByKey e l)).Perm
          (insertByKey e l ++ arrivals (e :: l) batch) := hids ▸ ih _
      rw [henter, if_neg hknown]
      exact hrest.trans ((hperm.append_right _).trans List.perm_middle.symm)

theorem mem_foldl_enter : e ∈ batch.foldl enter l ↔ e ∈ l ∨ e ∈ arrivals l batch := by
  rw [(perm_foldl_enter l batch).mem_iff, List.mem_append]

/-- The entries of one list whose ids the other does not have. -/
def newcomers (before after : List Entry) : List Entry :=
  after.filter fun e => !before.any fun f => decide (f.id = e.id)

theorem newcomers_self (l : List Entry) : newcomers l l = [] := by
  refine List.filter_eq_nil_iff.2 fun e he => ?_
  rw [any_id_iff.2 ⟨e, he, rfl⟩]
  nofun

/-- What a list has newly after a batch was entered are the new entries of the batch. -/
theorem perm_newcomers (l batch : List Entry) :
    (newcomers l (batch.foldl enter l)).Perm (arrivals l batch) := by
  have hperm := (perm_foldl_enter l batch).filter fun e => !l.any fun f => decide (f.id = e.id)
  have hnew : newcomers l (arrivals l batch) = arrivals l batch := by
    refine List.filter_eq_self.2 fun e he => ?_
    obtain ⟨before, after, -, hfree⟩ := mem_arrivals.1 he
    rw [Bool.not_eq_true', Bool.eq_false_iff, Ne, any_id_iff]
    rintro ⟨f, hf, hid⟩
    exact hfree f (List.mem_append_left _ hf) hid
  rw [List.filter_append] at hperm
  change List.Perm _ (newcomers l l ++ newcomers l (arrivals l batch)) at hperm
  rwa [newcomers_self, hnew] at hperm

/-- Entering a batch keeps the order. -/
theorem Ordered.foldl_enter (h : Ordered l) (batch : List Entry) :
    Ordered (batch.foldl enter l) := by
  induction batch generalizing l with
  | nil => exact h
  | cons e batch ih =>
    refine ih ?_
    unfold enter
    split
    · exact h
    · next hnew => exact h.insertByKey fun f hf hid => hnew (any_id_iff.2 ⟨f, hf, hid⟩)

end

/-! ## The hook around a put -/

/-- Whether a call is one of a put hook. -/
def Call.ofPutHook : Call → Bool
  | .beforePut _ _ | .afterPut _ _ => true
  | .sizeChanged _ _ _ _ => false

namespace Desk

variable {Q : Type} [Managed Q] {d : Desk Q}

/-- The announcements of a change are not calls of a put hook. -/
theorem ofPutHook_announcement {q : Q} {closed : Bool} {call : Call}
    (h : call ∈ announcement q closed) : call.ofPutHook = false := by
  obtain ⟨name, -, rfl⟩ := List.mem_map.1 h
  rfl

end Desk

end Spillway
