import Spillway.Document.Value
import Spillway.Queue.StorageId
import Spillway.Queue.Tally

/-!
# Serialized values

Bounds, totals and storage ids as documents, and bounds and storage ids read from documents. Main
statements: what was written is read back.
-/

namespace Spillway

open Document

namespace Bounds

/-- The names of the four bounds, in the order in which a list gives them. -/
def fieldNames : List String :=
  ["max_entries", "max_bytes", "max_entries_cache", "max_bytes_cache"]

/-- Bounds as a document. -/
def toValue (b : Bounds) : Value :=
  .table (fieldNames.zip ([b.entries, b.bytes, b.cacheEntries, b.cacheBytes].map
    fun n => .whole (Int.ofNat n)))

/-- The bounds that stand in a document under their names. A bound that is not there is the standard
one; fields of other names are passed over. -/
def ofFields? (fields : List (String × Value)) : Option Bounds := do
  let entries ← optionalField Value.word? "max_entries" fields
  let bytes ← optionalField Value.word? "max_bytes" fields
  let cacheEntries ← optionalField Value.word? "max_entries_cache" fields
  let cacheBytes ← optionalField Value.word? "max_bytes_cache" fields
  return {
    entries := entries.getD standard.entries
    bytes := bytes.getD standard.bytes
    cacheEntries := cacheEntries.getD standard.cacheEntries
    cacheBytes := cacheBytes.getD standard.cacheBytes }

/-- Read bounds from a document. A list gives the first of them, in order. -/
def ofValue? : Value → Option Bounds
  | .table fields => ofFields? fields
  | .list items =>
    if items.length ≤ fieldNames.length then ofFields? (fieldNames.zip items) else none
  | _ => none

/-- Written bounds are read back. -/
theorem ofValue?_toValue {b : Bounds} (he : b.entries ≤ Text.maxWord)
    (hb : b.bytes ≤ Text.maxWord) (hce : b.cacheEntries ≤ Text.maxWord)
    (hcb : b.cacheBytes ≤ Text.maxWord) : ofValue? b.toValue = some b := by
  simp [toValue, ofValue?, ofFields?, fieldNames, optionalField, List.lookup_cons,
    Value.word?_whole, he, hb, hce, hcb]

end Bounds

namespace Tally

/-- Totals as a document. -/
def toValue (t : Tally) : Value :=
  .table [
    ("num_of_entries", .whole t.entries), ("num_of_bytes", .whole t.bytes),
    ("num_of_persistent_entries", .whole t.persistentEntries),
    ("num_of_persistent_bytes", .whole t.persistentBytes)]

end Tally

namespace StorageId

/-- A storage id as a document is its written form. -/
def toValue (id : StorageId) : Value := .text id.text

/-- Read a storage id from a document. A document that is no text is refused without a fault of its
own. -/
def ofValue : Value → Except (Option Fault) StorageId
  | .text s => (parse s).mapError some
  | _ => .error none

/-- A serialized id is read back. -/
theorem ofValue_toValue (id : StorageId) : ofValue id.toValue = .ok id := by
  rw [toValue, ofValue, parse_text]
  rfl

end StorageId

end Spillway
