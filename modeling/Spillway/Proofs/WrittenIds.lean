import Spillway.Document.Serial
import Spillway.Proofs.PlainTexts

/-!
# Written ids

Which texts are ids. A text is one if it holds a separator with more than blanks in front of the
first; the id is then made of what stands on its two sides. An id has one written form, which is
also what is stored of it, and no two ids share theirs. Main statement: `written_ids_canonical`.
-/

namespace Spillway

namespace StorageId

open Text

/-- An id whose parts are the cores of two texts. -/
structure MadeOf (x : StorageId) (relating detail : List Char) : Prop where
  relating : IsCore relating x.relating.toList
  detail : IsCore detail x.detail.toList

/-- A text with its first separator between two others. -/
def SplitsAt (s : String) (before after : List Char) : Prop :=
  s.toList = before ++ ':' :: after ∧ ':' ∉ before

theorem MadeOf.unique {x y : StorageId} {relating detail : List Char}
    (hx : x.MadeOf relating detail) (hy : y.MadeOf relating detail) : x = y := by
  have hr := (isCore_iff.1 hx.relating).trans (isCore_iff.1 hy.relating).symm
  have hd := (isCore_iff.1 hx.detail).trans (isCore_iff.1 hy.detail).symm
  cases x
  cases y
  simp_all [String.toList_inj]

/-- Two texts are the parts of an id exactly if the first holds more than blanks and no separator.
-/
theorem exists_madeOf_iff {relating detail : List Char} :
    (∃ x : StorageId, x.MadeOf relating detail) ↔
      (∃ c ∈ relating, isBlank c = false) ∧ ':' ∉ relating := by
  have hcolon : isBlank ':' = false := by decide
  constructor
  · rintro ⟨x, h⟩
    refine ⟨h.relating.ne_nil_iff.1 ?_, fun hm => ?_⟩
    · exact fun h => x.relating_ne (String.toList_eq_nil_iff.1 h)
    · exact x.relating_colon ((h.relating.mem_iff hcolon).2 hm)
  · rintro ⟨hne, hfree⟩
    have hr := isCore_trim (String.ofList relating)
    have hd := isCore_trim (String.ofList detail)
    rw [String.toList_ofList] at hr hd
    refine ⟨⟨trim (String.ofList relating), trim (String.ofList detail), fun h => ?_, fun h => ?_,
      trim_trim _, trim_trim _⟩, hr, hd⟩
    · exact hr.ne_nil_iff.2 hne (String.toList_eq_nil_iff.2 h)
    · exact hfree ((hr.mem_iff hcolon).1 h)

/-- What two texts make is the id that they are the parts of, if there is one. -/
theorem ofParts_eq_ok_iff {relating detail : String} {x : StorageId} :
    ofParts relating detail = .ok x ↔ x.MadeOf relating.toList detail.toList := by
  have hsound : ∀ {y : StorageId}, ofParts relating detail = .ok y →
      y.MadeOf relating.toList detail.toList := by
    intro y h
    simp only [ofParts] at h
    split at h
    · cases h
      exact ⟨isCore_trim _, isCore_trim _⟩
    · cases h
  refine ⟨hsound, fun h => ?_⟩
  have hrelating : trim relating = x.relating :=
    String.toList_inj.1 ((isCore_iff.1 (isCore_trim _)).trans (isCore_iff.1 h.relating).symm)
  have hfit : trim relating ≠ "" ∧ ':' ∉ (trim relating).toList := by
    rw [hrelating]
    exact ⟨x.relating_ne, x.relating_colon⟩
  have hok : ∃ y, ofParts relating detail = .ok y := ⟨_, dif_pos hfit⟩
  obtain ⟨y, hy⟩ := hok
  rw [hy, (hsound hy).unique h]

theorem splitAtColon_eq_some_iff {s : String} {before after : List Char} :
    splitAtColon s.toList = some (before, after) ↔ SplitsAt s before after := by
  constructor
  · exact eq_append_of_splitAtColon
  · rintro ⟨hs, hfree⟩
    rw [hs]
    exact splitAtColon_append hfree after

/-- A text is read as the id that is made of what stands around its first separator. -/
theorem parse_eq_ok_iff {s : String} {x : StorageId} :
    parse s = .ok x ↔ ∃ before after, SplitsAt s before after ∧ x.MadeOf before after := by
  constructor
  · intro h
    unfold parse at h
    split at h
    · next before after hs =>
      have hm := ofParts_eq_ok_iff.1 h
      rw [String.toList_ofList, String.toList_ofList] at hm
      exact ⟨before, after, splitAtColon_eq_some_iff.1 hs, hm⟩
    · cases h
  · rintro ⟨before, after, hs, hm⟩
    rw [parse, splitAtColon_eq_some_iff.2 hs]
    apply ofParts_eq_ok_iff.2
    rwa [String.toList_ofList, String.toList_ofList]

/-- A text is an id exactly if it holds a separator with more than blanks in front of the first. -/
theorem parses_iff {s : String} : (∃ x, parse s = .ok x) ↔
    ∃ before after, SplitsAt s before after ∧ ∃ c ∈ before, isBlank c = false := by
  constructor
  · rintro ⟨x, h⟩
    obtain ⟨before, after, hs, hm⟩ := parse_eq_ok_iff.1 h
    exact ⟨before, after, hs, (exists_madeOf_iff.1 ⟨x, hm⟩).1⟩
  · rintro ⟨before, after, hs, hne⟩
    obtain ⟨x, hm⟩ := exists_madeOf_iff.2 ⟨hne, hs.2⟩
    exact ⟨x, parse_eq_ok_iff.2 ⟨before, after, hs, hm⟩⟩

/-- An id that can be told by its written form. -/
structure Canonical (x : StorageId) : Prop where
  /-- Its written form is read as it. -/
  reread : parse x.text = .ok x
  /-- Its serialized form is read as it. -/
  restored : ofValue x.toValue = .ok x
  /-- No other id has its written form. -/
  alone : ∀ y : StorageId, y.text = x.text → y = x

theorem canonical (x : StorageId) : x.Canonical where
  reread := parse_text x
  restored := ofValue_toValue x
  alone _ h := text_injective h

/-- Whatever an id was made of, its written form and its serialized form give it back and are those
of no other id. Texts make an id exactly if the first holds more than blanks and no separator, one
text exactly if it holds a separator with more than blanks in front of the first; the parts are then
the two texts, or what stands around that separator, without the blanks at their ends. -/
theorem written_ids_canonical :
    (∀ relating detail x, ofParts relating detail = .ok x →
      x.Canonical ∧ x.MadeOf relating.toList detail.toList) ∧
    (∀ relating detail, (∃ x, ofParts relating detail = .ok x) ↔
      (∃ c ∈ relating.toList, isBlank c = false) ∧ ':' ∉ relating.toList) ∧
    (∀ s x, parse s = .ok x → x.Canonical ∧
      ∀ before after, SplitsAt s before after → x.MadeOf before after) ∧
    ∀ s, (∃ x, parse s = .ok x) ↔
      ∃ before after, SplitsAt s before after ∧ ∃ c ∈ before, isBlank c = false := by
  refine ⟨fun relating detail x h => ⟨canonical x, ofParts_eq_ok_iff.1 h⟩,
    fun relating detail => ?_,
    fun s x h => ⟨canonical x, fun before after hs => ?_⟩, fun s => parses_iff⟩
  · simp only [ofParts_eq_ok_iff, exists_madeOf_iff]
  · obtain ⟨_, _, hs', hm⟩ := parse_eq_ok_iff.1 h
    cases (splitAtColon_eq_some_iff.2 hs).symm.trans (splitAtColon_eq_some_iff.2 hs')
    exact hm

/-- The id of a node's callbacks. -/
def callbacksOfNode : StorageId :=
  ⟨"callback", "/node:2", by decide, by decide, by decide +kernel, by decide +kernel⟩

/-- An id written with blanks everywhere and two separators, and made of its parts with other
blanks. -/
theorem written_ids_of_callbacksOfNode :
    (parse " callback :\t/node:2 " = .ok callbacksOfNode ∧
      ofParts "callback " "\n/node:2" = .ok callbacksOfNode ∧
      SplitsAt " callback :\t/node:2 " " callback ".toList "\t/node:2 ".toList) ∧
    callbacksOfNode.text = "callback:/node:2" ∧ callbacksOfNode.Canonical ∧
    callbacksOfNode.MadeOf " callback ".toList "\t/node:2 ".toList ∧
    callbacksOfNode.MadeOf "callback ".toList "\n/node:2".toList := by
  have hread : parse " callback :\t/node:2 " = .ok callbacksOfNode := by decide +kernel
  have hmade : ofParts "callback " "\n/node:2" = .ok callbacksOfNode := by decide +kernel
  have hsplit : SplitsAt " callback :\t/node:2 " " callback ".toList "\t/node:2 ".toList :=
    ⟨by decide, by decide⟩
  obtain ⟨hcanonical, hparts⟩ := written_ids_canonical.2.2.1 _ _ hread
  exact ⟨⟨hread, hmade, hsplit⟩, by decide, hcanonical, hparts _ _ hsplit,
    (written_ids_canonical.1 _ _ _ hmade).2⟩

end StorageId

end Spillway
