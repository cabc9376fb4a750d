import Spillway.Proofs.Totals
import Spillway.Queue.Roll

/-!
# What a roll lists

A roll lists an ordered list when its contents are that list and both summaries, the places of the
ids and the totals, say of it what is true. Every change of a roll is here an equation between the
list before and the list after, so that no other proof opens the three parts of a roll again.
-/

namespace Spillway

variable {α : Type} [Slotted α]

/-- An ordered list with one more thing; one whose id is there already changes nothing. -/
def enter (l : List α) (a : α) : List α :=
  if l.any fun b => decide (idOf b = idOf a) then l else insertByKey a l

namespace Roll

/-- A roll whose contents are an ordered list and whose summaries are right. -/
structure Lists (r : Roll α) (l : List α) : Prop where
  /-- The contents. -/
  items : r.items = l
  /-- They stand in the order of service, each id once. -/
  order : Ordered l
  /-- Exactly the ids of the contents have a place, and it is the right one. -/
  places : ∀ id, r.place? id = (l.find? fun a => decide (idOf a = id)).map keyOf
  /-- The totals are exact. -/
  tally : r.tally = Tally.total l

namespace Lists

variable {r : Roll α} {l : List α}

theorem empty : ({} : Roll α).Lists [] := ⟨rfl, .nil, fun _ => rfl, rfl⟩

theorem place?_of_mem (h : r.Lists l) {a : α} (ha : a ∈ l) :
    r.place? (idOf a) = some (keyOf a) := by
  rw [h.places, h.order.find?_eq_some ha, Option.map_some]

theorem place?_eq_some_iff (h : r.Lists l) {id : UInt64} {key : Key} :
    r.place? id = some key ↔ ∃ a ∈ l, idOf a = id ∧ keyOf a = key := by
  rw [h.places, Option.map_eq_some_iff]
  constructor
  · rintro ⟨a, ha, rfl⟩
    exact ⟨a, List.mem_of_find?_eq_some ha, by simpa using List.find?_some ha, rfl⟩
  · rintro ⟨a, ha, rfl, rfl⟩
    exact ⟨a, h.order.find?_eq_some ha, rfl⟩

theorem place?_eq_none_iff (h : r.Lists l) {id : UInt64} :
    r.place? id = none ↔ ∀ a ∈ l, idOf a ≠ id := by
  rw [h.places, Option.map_eq_none_iff, List.find?_eq_none]
  simp only [decide_eq_true_eq, ne_eq]

theorem holds_iff (h : r.Lists l) {id : UInt64} : r.holds id = true ↔ ∃ a ∈ l, idOf a = id := by
  rw [holds, Option.isSome_iff_exists]
  constructor
  · rintro ⟨key, hp⟩
    obtain ⟨a, ha, he, -⟩ := h.place?_eq_some_iff.1 hp
    exact ⟨a, ha, he⟩
  · rintro ⟨a, ha, rfl⟩
    exact ⟨keyOf a, h.place?_of_mem ha⟩

theorem atKey?_of_mem (h : r.Lists l) {a : α} (ha : a ∈ l) : r.atKey? (keyOf a) = some a := by
  rw [atKey?, h.items]
  cases hf : l.find? fun b => decide (keyOf b = keyOf a) with
  | none => simpa using List.find?_eq_none.1 hf a ha
  | some b =>
    have hb : keyOf b = keyOf a := by simpa using List.find?_some hf
    rw [h.order.eq_of_key (List.mem_of_find?_eq_some hf) ha hb]

theorem atKey?_eq_some_iff (h : r.Lists l) {key : Key} {a : α} :
    r.atKey? key = some a ↔ a ∈ l ∧ keyOf a = key := by
  constructor
  · intro hf
    rw [atKey?, h.items] at hf
    exact ⟨List.mem_of_find?_eq_some hf, by simpa using List.find?_some hf⟩
  · rintro ⟨ha, rfl⟩
    exact h.atKey?_of_mem ha

theorem atKey?_eq_none_iff (h : r.Lists l) {key : Key} :
    r.atKey? key = none ↔ ∀ a ∈ l, keyOf a ≠ key := by
  rw [atKey?, h.items, List.find?_eq_none]
  simp only [decide_eq_true_eq, ne_eq]

theorem get?_eq_some_iff (h : r.Lists l) {id : UInt64} {a : α} :
    r.get? id = some a ↔ a ∈ l ∧ idOf a = id := by
  rw [get?, Option.bind_eq_some_iff]
  constructor
  · rintro ⟨key, hp, hk⟩
    obtain ⟨b, hb, rfl, rfl⟩ := h.place?_eq_some_iff.1 hp
    obtain ⟨ha, he⟩ := h.atKey?_eq_some_iff.1 hk
    exact ⟨ha, congrArg Key.id he⟩
  · rintro ⟨ha, rfl⟩
    exact ⟨keyOf a, h.place?_of_mem ha, h.atKey?_of_mem ha⟩

/-! ## Entering -/

/-- A thing whose id is there changes nothing. -/
theorem insert_known (h : r.Lists l) {a b : α} (hb : b ∈ l) (he : idOf b = idOf a) :
    r.insert a = r := by
  rw [insert, if_pos (h.holds_iff.2 ⟨b, hb, he⟩)]

/-- A thing of a new id is entered at its place. -/
theorem insert_new (h : r.Lists l) {a : α} (ha : ∀ b ∈ l, idOf b ≠ idOf a) :
    (r.insert a).Lists (insertByKey a l) := by
  have hn : ¬ r.holds (idOf a) = true := by
    rw [h.holds_iff]
    rintro ⟨b, hb, he⟩
    exact ha b hb he
  have ho := h.order.insertByKey ha
  rw [insert, if_neg hn]
  refine ⟨by rw [h.items], ho, fun id => ?_, by rw [h.tally, Tally.total_insertByKey]⟩
  have hl : ((insertByKey a l).find? fun b => decide (idOf b = id)) =
      if idOf a = id then some a else l.find? fun b => decide (idOf b = id) := by
    split
    · next he => exact he ▸ ho.find?_eq_some (mem_insertByKey.2 (.inl rfl))
    · next he =>
      cases hf : l.find? fun b => decide (idOf b = id) with
      | some b =>
        have hb : idOf b = id := by simpa using List.find?_some hf
        exact hb ▸ ho.find?_eq_some (mem_insertByKey.2 (.inr (List.mem_of_find?_eq_some hf)))
      | none =>
        rw [List.find?_eq_none] at hf ⊢
        intro b hb
        rcases mem_insertByKey.1 hb with rfl | hb
        · simpa using he
        · exact hf b hb
  rw [hl, place?, List.lookup_cons]
  by_cases he : idOf a = id
  · simp [he]
  · have : (id == idOf a) = false := by simpa using fun h => he h.symm
    rw [this, if_neg he]
    exact h.places id

/-- Things of new and different ids are all entered. -/
theorem insertAll_new (h : r.Lists l) {m n : List α} (hm : (m.map idOf).Nodup)
    (hd : ∀ a ∈ m, ∀ b ∈ l, idOf b ≠ idOf a) (hn : Ordered n)
    (hmem : ∀ a, a ∈ n ↔ a ∈ l ∨ a ∈ m) : (r.insertAll m).Lists n := by
  induction m generalizing r l with
  | nil =>
    have : l = n := h.order.ascending.ext hn.ascending fun a => by simp [hmem]
    exact this ▸ h
  | cons a m ih =>
    rw [List.map_cons, List.nodup_cons] at hm
    have ha := h.insert_new (hd a (List.mem_cons_self ..))
    refine ih ha hm.2 (fun b hb c hc => ?_) fun b => ?_
    · rcases mem_insertByKey.1 hc with rfl | hc
      · exact fun he => hm.1 (he ▸ List.mem_map_of_mem hb)
      · exact hd b (List.mem_cons_of_mem _ hb) c hc
    · rw [hmem, mem_insertByKey, List.mem_cons]
      tauto

/-- Entering things one after the other. -/
theorem insertAll (h : r.Lists l) (m : List α) : (r.insertAll m).Lists (m.foldl enter l) := by
  induction m generalizing r l with
  | nil => exact h
  | cons a m ih =>
    apply ih
    unfold enter
    split
    · next hb =>
      obtain ⟨b, hb, he⟩ := List.any_eq_true.1 hb
      rw [h.insert_known hb (of_decide_eq_true he)]
      exact h
    · next hb =>
      refine h.insert_new fun b hb' he => hb ?_
      exact List.any_eq_true.2 ⟨b, hb', decide_eq_true he⟩

/-! ## Striking out -/

/-- Dropping the pairs of one id leaves what is found under the others. -/
private theorem lookup_without (places : List (UInt64 × Key)) (id out : UInt64) :
    (places.filter fun p => decide (p.1 ≠ out)).lookup id =
      if id = out then none else places.lookup id := by
  induction places with
  | nil => simp
  | cons p ps ih =>
    obtain ⟨i, k⟩ := p
    rw [List.filter_cons, List.lookup_cons]
    by_cases hi : i = out
    · subst hi
      by_cases hid : id = i
      · simpa [hid] using ih
      · simpa [hid, beq_eq_false_iff_ne.2 hid] using ih
    · by_cases hid : id = i
      · simp [hi, hid]
      · simpa [hi, hid, List.lookup_cons, beq_eq_false_iff_ne.2 hid] using ih

/-- What stands under a key is struck out; where nothing does, nothing changes. -/
theorem remove (h : r.Lists l) (key : Key) :
    (r.remove key).Lists (l.filter fun a => decide (keyOf a ≠ key)) := by
  unfold Roll.remove
  cases hk : r.atKey? key with
  | none =>
    have : (l.filter fun a => decide (keyOf a ≠ key)) = l :=
      List.filter_eq_self.2 fun a ha => decide_eq_true (h.atKey?_eq_none_iff.1 hk a ha)
    rw [this]
    exact h
  | some a =>
    obtain ⟨ha, rfl⟩ := h.atKey?_eq_some_iff.1 hk
    refine ⟨by rw [h.items], h.order.filter _, fun id => ?_, by
      rw [h.tally, Tally.total_without h.order ha]⟩
    rw [place?, lookup_without]
    split
    · next he =>
      subst he
      symm
      rw [Option.map_eq_none_iff, List.find?_eq_none]
      intro b hb
      rw [List.mem_filter, decide_eq_true_eq] at hb
      simpa using fun hid => hb.2 (congrArg keyOf (h.order.eq_of_id hb.1 ha hid))
    · next he =>
      refine (h.places id).trans (congrArg _ ?_)
      rw [List.find?_filter]
      congr 1
      funext b
      by_cases hid : idOf b = id
      · have : keyOf b ≠ keyOf a := fun hk => he (hid.symm.trans (congrArg Key.id hk))
        simp [hid, this]
      · simp [hid]

/-- Striking out under many keys leaves the others. -/
theorem take_rest (h : r.Lists l) (keys : List Key) :
    (r.take keys).2.Lists (l.filter fun a => decide (keyOf a ∉ keys)) := by
  induction keys generalizing r l with
  | nil => simpa [take] using h
  | cons key keys ih =>
    have hr := ih (h.remove key)
    rw [List.filter_filter] at hr
    have he : (r.take (key :: keys)).2 = ((r.remove key).take keys).2 := by
      simp only [take]
      split <;> rfl
    rw [he]
    refine cast (congrArg _ (List.filter_congr fun a _ => ?_)) hr
    simp [Bool.and_comm]

/-- Striking out members gives those members, in the order of the call. -/
theorem take_members (h : r.Lists l) {m : List α} (hm : ∀ a ∈ m, a ∈ l) (hu : m.Nodup) :
    (r.take (m.map keyOf)).1 = m := by
  induction m generalizing r l with
  | nil => rfl
  | cons a m ih =>
    rw [List.nodup_cons] at hu
    have ha := hm a (List.mem_cons_self ..)
    have hr := ih (h.remove (keyOf a)) (fun b hb => ?_) hu.2
    · simp only [List.map_cons, take, h.atKey?_of_mem ha, hr]
    · have hb' := hm b (List.mem_cons_of_mem _ hb)
      refine List.mem_filter.2 ⟨hb', decide_eq_true fun he => hu.1 ?_⟩
      exact h.order.eq_of_key hb' ha he ▸ hb

/-- Striking out by ids leaves the others. -/
theorem takeIds_rest (h : r.Lists l) (ids : List UInt64) :
    (r.takeIds ids).2.Lists (l.filter fun a => decide (idOf a ∉ ids)) := by
  induction ids generalizing r l with
  | nil => simpa [takeIds] using h
  | cons id ids ih =>
    simp only [takeIds]
    cases hp : r.place? id with
    | none =>
      refine cast (congrArg _ (List.filter_congr fun a ha => ?_)) (ih h)
      simp [List.mem_cons, h.place?_eq_none_iff.1 hp a ha]
    | some key =>
      obtain ⟨b, hb, rfl, rfl⟩ := h.place?_eq_some_iff.1 hp
      simp only [h.atKey?_of_mem hb]
      have hr := ih (h.remove (keyOf b))
      rw [List.filter_filter] at hr
      refine cast (congrArg _ (List.filter_congr fun a ha => ?_)) hr
      have : keyOf a = keyOf b ↔ idOf a = idOf b :=
        ⟨congrArg Key.id, fun he => congrArg keyOf (h.order.eq_of_id ha hb he)⟩
      simp [this, Bool.and_comm]

/-- Striking out by ids gives the members of those ids, each once. -/
theorem takeIds_taken (h : r.Lists l) (ids : List UInt64) :
    (r.takeIds ids).1.Perm (l.filter fun a => decide (idOf a ∈ ids)) := by
  induction ids generalizing r l with
  | nil => simp [takeIds]
  | cons id ids ih =>
    simp only [takeIds]
    cases hp : r.place? id with
    | none =>
      refine (ih h).trans (.of_eq (List.filter_congr fun a ha => ?_))
      simp [List.mem_cons, h.place?_eq_none_iff.1 hp a ha]
    | some key =>
      obtain ⟨b, hb, rfl, rfl⟩ := h.place?_eq_some_iff.1 hp
      simp only [h.atKey?_of_mem hb]
      have hr := (ih (h.remove (keyOf b))).cons b
      apply hr.trans
      refine (List.perm_ext_iff_of_nodup ?_ (h.order.nodup.filter _)).2 fun a => ?_
      · exact List.nodup_cons.2 ⟨by simp, (h.order.nodup.filter _).filter _⟩
      · simp only [List.mem_cons, List.mem_filter, decide_eq_true_eq]
        constructor
        · rintro (rfl | ⟨⟨ha, -⟩, hi⟩)
          · exact ⟨hb, .inl rfl⟩
          · exact ⟨ha, .inr hi⟩
        · rintro ⟨ha, hi⟩
          by_cases he : idOf a = idOf b
          · exact .inl (h.order.eq_of_id ha hb he)
          · exact .inr ⟨⟨ha, fun hk => he (congrArg Key.id hk)⟩, hi.resolve_left he⟩

/-! ## Changing in place -/

/-- Changing what has an id changes it where it stands. -/
theorem update (h : r.Lists l) {f : α → α} (hf : ∀ a, Slotted.slot (f a) = Slotted.slot a)
    (id : UInt64) : (r.update id f).Lists (l.map fun a => if idOf a = id then f a else a) := by
  have hs : ∀ a, Slotted.slot (if idOf a = id then f a else a) = Slotted.slot a := by
    intro a
    split
    · exact hf a
    · rfl
  have hk : ∀ a, keyOf (if idOf a = id then f a else a) = keyOf a := keyOf_apply hs
  have ho := (ordered_map_iff fun a _ => hk a).2 h.order
  unfold Roll.update
  cases hp : r.place? id with
  | none =>
    have : (l.map fun a => if idOf a = id then f a else a) = l := by
      refine (List.map_congr_left fun a ha => ?_).trans (List.map_id l)
      rw [if_neg (h.place?_eq_none_iff.1 hp a ha), id_eq]
    rw [this]
    exact h
  | some key =>
    obtain ⟨b, hb, rfl, rfl⟩ := h.place?_eq_some_iff.1 hp
    refine ⟨?_, ho, fun i => ?_, by rw [h.tally, Tally.total_map fun a _ => hs a]⟩
    · simp only [h.items]
      refine List.map_congr_left fun a ha => ?_
      have : keyOf a = keyOf b ↔ idOf a = idOf b :=
        ⟨congrArg Key.id, fun he => congrArg keyOf (h.order.eq_of_id ha hb he)⟩
      simp [this]
    · have hid : (fun c => decide (idOf c = i)) ∘ (fun a => if idOf a = idOf b then f a else a) =
          fun a => decide (idOf a = i) := funext fun a => by
        change decide ((keyOf (if idOf a = idOf b then f a else a)).id = i) = _
        rw [hk a]
        rfl
      refine (h.places i).trans ?_
      rw [List.find?_map, hid, Option.map_map]
      exact congrArg (fun g => Option.map g _) (funext fun a => (hk a).symm)

/-- Changing what has one of many ids, for a change that does nothing the second time. -/
theorem updateAll (h : r.Lists l) {f : α → α} (hf : ∀ a, Slotted.slot (f a) = Slotted.slot a)
    (hff : ∀ a, f (f a) = f a) (ids : List UInt64) :
    (ids.foldl (fun r id => r.update id f) r).Lists
      (l.map fun a => if idOf a ∈ ids then f a else a) := by
  induction ids generalizing r l with
  | nil => simpa using h
  | cons id ids ih =>
    refine cast (congrArg _ ?_) (ih (h.update hf id))
    rw [List.map_map]
    refine List.map_congr_left fun a _ => ?_
    have hi : idOf (f a) = idOf a := congrArg Key.id (keyOf_apply hf a)
    by_cases he : idOf a = id <;> by_cases hm : idOf a ∈ ids <;> simp_all

/-! ## Picking -/

/-- Picking by different ids gives the members of those ids in the order of service. -/
theorem pick_eq (h : r.Lists l) {ids : List UInt64} (hu : ids.Nodup) :
    r.pick ids = l.filter fun a => decide (idOf a ∈ ids) := by
  refine (h.order.filter _).sortByKey_eq ?_ fun a => ?_
  · have : (ids.filterMap r.get?).map idOf = ids.filter fun id => (r.get? id).isSome := by
      clear hu
      induction ids with
      | nil => rfl
      | cons id ids ih =>
        cases hg : r.get? id with
        | none => simp [hg, ih]
        | some a => simp [hg, ih, (h.get?_eq_some_iff.1 hg).2]
    rw [this]
    exact hu.filter _
  · simp only [List.mem_filterMap, h.get?_eq_some_iff, List.mem_filter, decide_eq_true_eq]
    constructor
    · rintro ⟨id, hid, ha, rfl⟩
      exact ⟨ha, hid⟩
    · rintro ⟨ha, hid⟩
      exact ⟨idOf a, hid, ha, rfl⟩

end Lists

end Roll

end Spillway
