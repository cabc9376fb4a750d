import Spillway.Document.Value
import Spillway.Fault
import Spillway.Settings.Logging

/-!
# Sections of a settings text

A settings text has three sections: bounds of queues, the store, and the log. Every section and
every field may be missing; unknown ones are refused.
-/

namespace Spillway

open Document

/-- What a settings text says about the bounds of queues. -/
structure BoundsSection where
  entries : Option Nat := none
  bytes : Option Nat := none
  cacheEntries : Option Nat := none
  cacheBytes : Option Nat := none
  deriving DecidableEq, Repr

/-- What a settings text says about the store. -/
structure StoreSection where
  path : Option String := none
  tableName : Option String := none
  connections : Option Nat := none
  waitMillis : Option Nat := none
  retryMillis : Option Nat := none
  testFirst : Option Bool := none
  deriving DecidableEq, Repr

/-- What a settings text says. -/
structure Sections where
  bounds : BoundsSection := {}
  store : StoreSection := {}
  log : LogSettings := {}
  deriving DecidableEq, Repr

/-- The fields of a section, all of whose names are known. A section that is a list gives its fields
in order; it must have one for each name, and what goes beyond is passed over. -/
def sectionFields (names : List String) : Value → Option (List (String × Value))
  | .table fields => if namesAmong names fields then some fields else none
  | .list items => if names.length ≤ items.length then some (names.zip items) else none
  | _ => none

namespace BoundsSection

/-- The names of the fields, in order. -/
def names : List String := ["max_entries", "max_bytes", "max_entries_cache", "max_bytes_cache"]

/-- Read the section from a document. -/
def ofValue? (v : Value) : Option BoundsSection := do
  let fields ← sectionFields names v
  return {
    entries := ← optionalField Value.word? "max_entries" fields
    bytes := ← optionalField Value.word? "max_bytes" fields
    cacheEntries := ← optionalField Value.word? "max_entries_cache" fields
    cacheBytes := ← optionalField Value.word? "max_bytes_cache" fields }

end BoundsSection

namespace StoreSection

/-- The names of the fields, in order. -/
def names : List String :=
  ["path", "table_name", "max_connections", "acquire_timeout_ms", "reconnect_interval_ms",
    "test_on_checkout"]

/-- Read the section from a document. -/
def ofValue? (v : Value) : Option StoreSection := do
  let fields ← sectionFields names v
  return {
    path := ← optionalField Value.text? "path" fields
    tableName := ← optionalField Value.text? "table_name" fields
    connections := ← optionalField Value.word? "max_connections" fields
    waitMillis := ← optionalField Value.word? "acquire_timeout_ms" fields
    retryMillis := ← optionalField Value.word? "reconnect_interval_ms" fields
    testFirst := ← optionalField Value.flag? "test_on_checkout" fields }

end StoreSection

namespace LogSettings

/-- The names of the fields, in order. -/
def names : List String := ["format", "filter", "file"]

/-- Read the section from a document. -/
def ofValue? (v : Value) : Option LogSettings := do
  let fields ← sectionFields names v
  return {
    format := ← optionalField Value.text? "format" fields
    filter := ← optionalField Value.text? "filter" fields
    file := ← optionalField Value.text? "file" fields }

end LogSettings

namespace Sections

/-- The names of the sections. -/
def names : List String := ["queue", "sqlite", "logging"]

/-- Read the sections from a document. -/
def ofValue? (v : Value) : Option Sections := do
  let sections ← v.table?
  if !namesAmong names sections then none
  let bounds ← optionalField BoundsSection.ofValue? "queue" sections
  let store ← optionalField StoreSection.ofValue? "sqlite" sections
  let log ← optionalField LogSettings.ofValue? "logging" sections
  return { bounds := bounds.getD {}, store := store.getD {}, log := log.getD {} }

end Sections

end Spillway
