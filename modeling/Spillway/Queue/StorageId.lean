import Spillway.Fault
import Spillway.Text.Blank

/-!
# Storage ids

The stable name of a queue: what it relates to and a detail, written `relating:detail`. The
first colon separates the parts, so the first part holds none; both parts are trimmed. Main
statements: a written id is read back, and two ids with one written form are one.
-/

namespace Spillway

/-- The name of a queue. -/
structure StorageId where
  /-- What the queue relates to. -/
  relating : String
  /-- Tells queues that relate to the same thing apart; may be empty and may hold colons. -/
  detail : String
  /-- The first part is not empty. -/
  relating_ne : relating ≠ ""
  /-- The first part holds no separator. -/
  relating_colon : ':' ∉ relating.toList
  /-- The first part has no blanks at its ends. -/
  relating_trim : Text.trim relating = relating
  /-- The detail has no blanks at its ends. -/
  detail_trim : Text.trim detail = detail
  deriving DecidableEq

namespace StorageId

/-- The id with the two parts trimmed. -/
def ofParts (relating detail : String) : Except Fault StorageId :=
  let first := Text.trim relating
  if h : first ≠ "" ∧ ':' ∉ first.toList then
    .ok ⟨first, Text.trim detail, h.1, h.2, Text.trim_trim relating, Text.trim_trim detail⟩
  else .error (.relating first)

/-- The characters before and after the first colon. -/
def splitAtColon : List Char → Option (List Char × List Char)
  | [] => none
  | c :: cs =>
    if c = ':' then some ([], cs)
    else (splitAtColon cs).map fun (before, after) => (c :: before, after)

/-- Read a written id. -/
def parse (text : String) : Except Fault StorageId :=
  match splitAtColon text.toList with
  | some (before, after) => ofParts (String.ofList before) (String.ofList after)
  | none => .error (.noSeparator text)

/-- The written form, which is also the name of the queue's part of the table. -/
def text (id : StorageId) : String := id.relating ++ ":" ++ id.detail

instance : ToString StorageId := ⟨text⟩

theorem splitAtColon_append {before : List Char} (h : ':' ∉ before) (after : List Char) :
    splitAtColon (before ++ ':' :: after) = some (before, after) := by
  induction before with
  | nil => simp [splitAtColon]
  | cons c cs ih =>
    rw [List.mem_cons, not_or] at h
    simp [splitAtColon, ih h.2, Ne.symm h.1]

/-- A split text is put together from its parts, and the first part holds no colon. -/
theorem eq_append_of_splitAtColon {cs before after : List Char}
    (h : splitAtColon cs = some (before, after)) : cs = before ++ ':' :: after ∧ ':' ∉ before := by
  induction cs generalizing before with
  | nil => simp [splitAtColon] at h
  | cons c cs ih =>
    unfold splitAtColon at h
    split at h
    · next hc =>
      cases h
      simp [hc]
    · next hc =>
      obtain ⟨⟨b, a⟩, hs, hr⟩ := Option.map_eq_some_iff.1 h
      cases hr
      obtain ⟨rfl, hb⟩ := ih hs
      simp [hb, Ne.symm hc]

/-- The parts of an id make that id again. -/
theorem ofParts_parts (id : StorageId) : ofParts id.relating id.detail = .ok id := by
  have h : Text.trim id.relating ≠ "" ∧ ':' ∉ (Text.trim id.relating).toList := by
    rw [id.relating_trim]
    exact ⟨id.relating_ne, id.relating_colon⟩
  rw [ofParts, dif_pos h]
  cases id
  simp_all

/-- A written id is read back. -/
theorem parse_text (id : StorageId) : parse id.text = .ok id := by
  have hs : splitAtColon id.text.toList = some (id.relating.toList, id.detail.toList) := by
    have : id.text.toList = id.relating.toList ++ ':' :: id.detail.toList := by
      simp [text, String.toList_append]
    rw [this, splitAtColon_append id.relating_colon]
  simp [parse, hs, ofParts_parts]

/-- Different ids have different written forms. -/
theorem text_injective {a b : StorageId} (h : a.text = b.text) : a = b := by
  have ha := parse_text a
  rw [h, parse_text b] at ha
  exact (Except.ok.inj ha).symm

end StorageId

end Spillway
