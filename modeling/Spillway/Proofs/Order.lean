import Mathlib.Algebra.GroupWithZero.Nat
import Mathlib.Data.List.Nodup
import Mathlib.Data.List.Perm.Basic
import Spillway.Entry.Sort

/-!
# Lists in the order of service

An ordered list stands in the order of service and names no id twice. Such a list is determined by
its members, so two ways to compute the contents of a queue agree as soon as they hold the same.
-/

namespace Spillway

/-- Things in the order of service, no two of one id. -/
structure Ordered {α : Type} [Slotted α] (l : List α) : Prop where
  /-- Every key is served before those after it. -/
  ascending : Ascending l
  /-- No id stands twice. -/
  unique : (l.map idOf).Nodup

/-- What one condition picks and what another picks of the rest make up what either picks. -/
theorem perm_filter_or {α : Type} (p q : α → Bool) (l : List α) :
    (l.filter p ++ l.filter fun a => !p a && q a).Perm (l.filter fun a => p a || q a) := by
  have hs := List.filter_append_perm p (l.filter fun a => p a || q a)
  rw [List.filter_filter, List.filter_filter] at hs
  refine cast (congrArg (List.Perm · _) (congrArg₂ _ ?_ ?_)) hs
  · exact List.filter_congr fun a _ => by cases p a <;> rfl
  · exact List.filter_congr fun a _ => by cases p a <;> simp

section

variable {α β : Type} {before : α → α → Bool} {before' : β → β → Bool} {f : α → β}

/-- What stands for things of the same order is entered where they are. -/
theorem insertOrdered_map (h : ∀ a b, before' (f a) (f b) = before a b) (a : α) (l : List α) :
    insertOrdered before' (f a) (l.map f) = (insertOrdered before a l).map f := by
  induction l with
  | nil => rfl
  | cons b l ih =>
    simp only [List.map_cons, insertOrdered, h] at ih ⊢
    split
    · rw [List.map_cons, ih]
    · rfl

/-- And sorted as they are. -/
theorem sortOrdered_map (h : ∀ a b, before' (f a) (f b) = before a b) (l : List α) :
    sortOrdered before' (l.map f) = (sortOrdered before l).map f := by
  induction l with
  | nil => rfl
  | cons a l ih =>
    change insertOrdered before' (f a) (sortOrdered before' (l.map f)) = _
    rw [ih, insertOrdered_map h]
    rfl

end

section

variable {α β : Type} [Slotted α] [Slotted β]

/-- What has the slots of other things has their keys. -/
theorem keyOf_apply {f : α → β} (hf : ∀ a, Slotted.slot (f a) = Slotted.slot a) (a : α) :
    keyOf (f a) = keyOf a := congrArg Slot.key (hf a)

/-- It counts for as many bytes. -/
theorem chargeOf_apply {f : α → β} (hf : ∀ a, Slotted.slot (f a) = Slotted.slot a) (a : α) :
    chargeOf (f a) = chargeOf a := by rw [chargeOf, chargeOf, hf a]

/-- An ascending list holds nothing twice. -/
theorem Ascending.nodup {l : List α} (h : Ascending l) : l.Nodup := by
  refine List.Pairwise.imp ?_ h
  rintro a b hab rfl
  exact Key.lt_irrefl _ hab

/-- Two ascending lists of the same members are one list. -/
theorem Ascending.ext {l m : List α} (hl : Ascending l) (hm : Ascending m)
    (h : ∀ a, a ∈ l ↔ a ∈ m) : l = m := by
  have hp : l.Perm m := (List.perm_ext_iff_of_nodup hl.nodup hm.nodup).2 h
  refine hp.eq_of_pairwise (fun a b _ _ hab hba => ?_) hl hm
  exact absurd hba (Key.lt_asymm hab)

/-- A list without members is ordered. -/
theorem Ordered.nil : Ordered ([] : List α) := ⟨.nil, List.nodup_nil⟩

/-- What is left of an ordered list is ordered. -/
theorem Ordered.sublist {l m : List α} (h : Ordered l) (hs : m.Sublist l) : Ordered m :=
  ⟨List.Pairwise.sublist hs h.ascending, h.unique.sublist (hs.map _)⟩

/-- What meets a condition is ordered as it was. -/
theorem Ordered.filter {l : List α} (h : Ordered l) (p : α → Bool) : Ordered (l.filter p) :=
  h.sublist List.filter_sublist

/-- An ordered list holds nothing twice. -/
theorem Ordered.nodup {l : List α} (h : Ordered l) : l.Nodup := h.ascending.nodup

/-- Members of an ordered list are told apart by their ids. -/
theorem Ordered.eq_of_id {l : List α} (h : Ordered l) {a b : α} (ha : a ∈ l) (hb : b ∈ l)
    (he : idOf a = idOf b) : a = b :=
  List.inj_on_of_nodup_map h.unique ha hb he

/-- And so by their keys. -/
theorem Ordered.eq_of_key {l : List α} (h : Ordered l) {a b : α} (ha : a ∈ l) (hb : b ∈ l)
    (he : keyOf a = keyOf b) : a = b := h.eq_of_id ha hb (congrArg Key.id he)

/-- Among the ids of the members that meet a condition, a member finds its own exactly if it meets
the condition. -/
theorem Ordered.mem_filter_ids {l : List α} (h : Ordered l) {p : α → Bool} {a : α} (ha : a ∈ l) :
    idOf a ∈ (l.filter p).map idOf ↔ p a = true := by
  simp only [List.mem_map, List.mem_filter]
  constructor
  · rintro ⟨b, ⟨hb, hp⟩, he⟩
    rwa [← h.eq_of_id hb ha he]
  · exact fun hp => ⟨a, ⟨ha, hp⟩, rfl⟩

/-- An ordered list is one of its members and the others. -/
theorem Ordered.perm_cons_without {l : List α} (h : Ordered l) {a : α} (ha : a ∈ l) :
    l.Perm (a :: l.filter fun b => decide (keyOf b ≠ keyOf a)) := by
  refine (List.perm_ext_iff_of_nodup h.nodup ?_).2 fun b => ?_
  · simp [List.nodup_cons, h.nodup.filter]
  · simp only [List.mem_cons, List.mem_filter, decide_eq_true_eq]
    constructor
    · intro hb
      by_cases he : keyOf b = keyOf a
      · exact .inl (h.eq_of_key hb ha he)
      · exact .inr ⟨hb, he⟩
    · rintro (rfl | hb)
      · exact ha
      · exact hb.1

/-- Looking for the id of a member finds that member. -/
theorem Ordered.find?_eq_some {l : List α} (h : Ordered l) {a : α} (ha : a ∈ l) :
    l.find? (fun b => decide (idOf b = idOf a)) = some a := by
  cases hf : l.find? (fun b => decide (idOf b = idOf a)) with
  | none => simpa using List.find?_eq_none.1 hf a ha
  | some b =>
    have hb := List.find?_some hf
    rw [h.eq_of_id (List.mem_of_find?_eq_some hf) ha (by simpa using hb)]

/-- What is found by an id does not depend on how a list is arranged. -/
theorem Ordered.find?_perm {l m : List α} (h : Ordered m) (hp : l.Perm m) (id : UInt64) :
    (l.find? fun a => decide (idOf a = id)) = m.find? fun a => decide (idOf a = id) := by
  cases hf : l.find? fun a => decide (idOf a = id) with
  | none =>
    refine (List.find?_eq_none.2 fun a ha => ?_).symm
    exact List.find?_eq_none.1 hf a (hp.mem_iff.2 ha)
  | some a =>
    have hid : idOf a = id := by simpa using List.find?_some hf
    rw [← hid, h.find?_eq_some (hp.mem_iff.1 (List.mem_of_find?_eq_some hf))]

/-- Relabelling things without moving them keeps a list ordered, and the other way round. -/
theorem ordered_map_iff {l : List α} {f : α → β} (hf : ∀ a ∈ l, keyOf (f a) = keyOf a) :
    Ordered (l.map f) ↔ Ordered l := by
  have hi : (l.map f).map idOf = l.map idOf := by
    rw [List.map_map]
    exact List.map_congr_left fun a ha => congrArg Key.id (hf a ha)
  constructor
  · rintro ⟨ha, hu⟩
    refine ⟨?_, hi ▸ hu⟩
    exact (List.pairwise_map.1 ha).imp_of_mem fun ha hb hab => by rwa [hf _ ha, hf _ hb] at hab
  · rintro ⟨ha, hu⟩
    refine ⟨List.pairwise_map.2 (ha.imp_of_mem fun ha hb hab => ?_), hi.symm ▸ hu⟩
    rwa [hf _ ha, hf _ hb]

/-- Sorting keeps the members. -/
theorem mem_sortByKey {l : List α} {a : α} : a ∈ sortByKey l ↔ a ∈ l :=
  (perm_sortOrdered servedBefore l).mem_iff

/-- Sorting things of different ids makes an ordered list. -/
theorem ordered_sortByKey {l : List α} (h : (l.map idOf).Nodup) : Ordered (sortByKey l) := by
  have hp : (sortByKey l).Perm l := perm_sortOrdered servedBefore l
  have hu : ((sortByKey l).map idOf).Nodup := ((hp.map idOf).nodup_iff).2 h
  refine ⟨?_, hu⟩
  have hne : (sortByKey l).Pairwise fun a b => idOf a ≠ idOf b := List.pairwise_map.1 hu
  refine ((pairwise_sortByKey l).and hne).imp fun ⟨hle, hid⟩ => ?_
  exact (Key.le_iff_lt_or_eq.1 hle).resolve_right fun he => hid (congrArg Key.id he)

/-- The sorted list of the members of an ordered list is that list. -/
theorem Ordered.sortByKey_eq {l m : List α} (h : Ordered m) (hu : (l.map idOf).Nodup)
    (hm : ∀ a, a ∈ l ↔ a ∈ m) : sortByKey l = m :=
  (ordered_sortByKey hu).ascending.ext h.ascending fun a => mem_sortByKey.trans (hm a)

/-- However an ordered list was arranged, sorting brings it back. -/
theorem Ordered.sortByKey_perm {l m : List α} (h : Ordered m) (hp : l.Perm m) : sortByKey l = m :=
  h.sortByKey_eq (((hp.map idOf).nodup_iff).2 h.unique) fun _ => hp.mem_iff

/-- Some members of an ordered list, put in the order of service. -/
theorem Ordered.sortByKey_eq_filter {l found : List α} (h : Ordered l) {p : α → Bool}
    (hp : found.Perm (l.filter p)) : sortByKey found = l.filter p :=
  (h.filter p).sortByKey_perm hp

/-- Entering a thing adds it to the members. -/
theorem mem_insertByKey {l : List α} {a b : α} : b ∈ insertByKey a l ↔ b = a ∨ b ∈ l := by
  rw [insertByKey, (perm_insertOrdered servedBefore a l).mem_iff, List.mem_cons]

/-- Entering a thing of a new id keeps a list ordered. -/
theorem Ordered.insertByKey {l : List α} (h : Ordered l) {a : α} (ha : ∀ b ∈ l, idOf b ≠ idOf a) :
    Ordered (insertByKey a l) := by
  have hp := perm_insertOrdered servedBefore a l
  have hu : ((Spillway.insertByKey a l).map idOf).Nodup := by
    rw [show ((Spillway.insertByKey a l).map idOf).Nodup ↔ _ from (hp.map idOf).nodup_iff]
    simp only [List.map_cons, List.nodup_cons, List.mem_map, not_exists, not_and]
    exact ⟨fun b hb => ha b hb, h.unique⟩
  have hs : sortByKey (a :: l) = Spillway.insertByKey a l := by
    change Spillway.insertByKey a (sortByKey l) = _
    rw [h.sortByKey_eq h.unique fun _ => Iff.rfl]
  rw [← hs]
  exact ordered_sortByKey (((hp.map idOf).nodup_iff).1 hu)

/-- Two lists without an id in common, each of different ids, make one list of different ids. -/
theorem nodup_ids_append {l m : List α} (hl : (l.map idOf).Nodup) (hm : (m.map idOf).Nodup)
    (hd : ∀ b ∈ m, ∀ a ∈ l, idOf a ≠ idOf b) : ((l ++ m).map idOf).Nodup := by
  rw [List.map_append, List.nodup_append]
  refine ⟨hl, hm, ?_⟩
  rintro i hi j hj rfl
  obtain ⟨a, ha, rfl⟩ := List.mem_map.1 hi
  obtain ⟨b, hb, hid⟩ := List.mem_map.1 hj
  exact hd b hb a ha hid.symm

end

end Spillway
