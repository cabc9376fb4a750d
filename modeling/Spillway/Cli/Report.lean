import Spillway.Entry.Basic
import Spillway.Queue.Tally
import Spillway.Text.Hex
import Spillway.Text.Number

/-!
# Reports

What the commands print: a table of queues, the totals of a queue, and entries as lines or as
objects.
-/

namespace Spillway.Cli

/-- A text filled up with spaces behind it. -/
def padRight (width : Nat) (s : String) : String :=
  s ++ String.ofList (List.replicate (width - s.length) ' ')

/-- A text filled up with spaces in front of it. -/
def padLeft (width : Nat) (s : String) : String :=
  String.ofList (List.replicate (width - s.length) ' ') ++ s

/-- Lines, each with its line feed. -/
def linesText (lines : List String) : String := String.join (lines.map (· ++ "\n"))

/-- One line of the table of queues. -/
def queueLine (name entries bytes persistent : String) : String :=
  padRight 48 name ++ " " ++ padLeft 10 entries ++ " " ++ padLeft 12 bytes ++ " " ++
    padLeft 10 persistent

/-- The table of queues in the database at a place. -/
def queuesReport (place : String) (queues : List (String × Tally)) : String :=
  if queues.isEmpty then linesText ["No queues in " ++ place]
  else linesText (queueLine "QUEUE" "ENTRIES" "BYTES" "PERSISTENT" :: queues.map fun (name, t) =>
    queueLine name (toString t.entries) (toString t.bytes) (toString t.persistentEntries))

/-- An entry as a line. -/
def entryLine (e : Entry) : String :=
  "#" ++ toString e.id.toNat ++ " prio=" ++ toString e.priority ++
    " bytes=" ++ toString e.size.toNat ++
    " " ++ (if e.persistent then "persistent" else "transient") ++ " type=" ++ e.payload.tag ++
    " created=" ++ e.createdAt?.getD "-"

/-- The totals of a queue and its first entry. -/
def statsReport (name : String) (t : Tally) (first : Option Entry) : String :=
  linesText ([
    "Queue: " ++ name,
    "  Entries:            " ++ toString t.entries,
    "  Bytes:              " ++ toString t.bytes,
    "  Persistent entries: " ++ toString t.persistentEntries,
    "  Persistent bytes:   " ++ toString t.persistentBytes] ++
    (first.map fun e => "  Head:               " ++ entryLine e).toList)

/-- The escapes of a letter inside a JSON string. -/
def jsonEscapes : List (Char × String) := [
  ('"', "\\\""), ('\\', "\\\\"), ('\x08', "\\b"), ('\x0C', "\\f"), ('\n', "\\n"), ('\r', "\\r"),
  ('\t', "\\t")]

/-- A character inside a JSON string; controls are escaped. -/
def jsonChar (c : Char) : String :=
  match jsonEscapes.lookup c with
  | some s => s
  | none =>
    if c.toNat < 0x20 then
      "\\u00" ++ String.ofList [Text.hexDigit (c.toNat / 16), Text.hexDigit (c.toNat % 16)]
    else String.singleton c

/-- A text as a JSON string. -/
def jsonString (s : String) : String := "\"" ++ String.join (s.toList.map jsonChar) ++ "\""

/-- An entry as the fields of a JSON object, in the order of their names. -/
def entryFields (e : Entry) : List (String × String) := [
  ("created_at", (e.createdAt?.map jsonString).getD "null"),
  ("payload_len", toString e.payload.bytes.size),
  ("persistent", if e.persistent then "true" else "false"),
  ("priority", toString e.priority),
  ("size_in_bytes", toString e.size.toNat),
  ("type_tag", jsonString e.payload.tag),
  ("unique_id", toString e.id.toNat)]

/-- An entry as a JSON object over several lines. -/
def entryObject (e : Entry) : String :=
  "  \x7b\n" ++
    ",\n".intercalate ((entryFields e).map fun (name, value) =>
      "    " ++ jsonString name ++ ": " ++ value) ++
    "\n  \x7d"

/-- Entries as a JSON list over several lines. -/
def entriesJson (entries : List Entry) : String :=
  if entries.isEmpty then linesText ["[]"]
  else linesText ["[", ",\n".intercalate (entries.map entryObject), "]"]

/-- Entries as lines. -/
def entriesReport (name : String) (entries : List Entry) : String :=
  if entries.isEmpty then linesText ["Queue '" ++ name ++ "' is empty"]
  else linesText (entries.map entryLine)

end Spillway.Cli
