import Spillway.Table.Row
import Spillway.Text.Hex
import Spillway.Text.Split

/-!
# Images of databases

A database holds tables by name, whose case does not matter. Its image is a text with one line for
each table and, below it, one for each of its rows.
-/

namespace Spillway

/-- The tables of a database. -/
abbrev Tables := List (String × List Row)

namespace Tables

/-- A name without regard to case. -/
def folded (name : String) : String := String.ofList (name.toList.map Char.toLower)

/-- The rows of a table, if it exists. -/
def find? (t : Tables) (name : String) : Option (List Row) := t.lookup (folded name)

/-- The tables with other rows in one of them, or without it. -/
def set (t : Tables) (name : String) (rows : Option (List Row)) : Tables :=
  let others := t.filter (·.1 ≠ folded name)
  match rows with
  | some rows => others ++ [(folded name, rows)]
  | none => others

/-- The first line of every image. -/
def heading : String := "spillway 1"

/-- A text in hexadecimal. -/
def textHex (s : String) : String := Text.hexText s.toUTF8

/-- The text behind hexadecimal. -/
def hexText? (s : String) : Option String := do String.fromUTF8? (← Text.hexBytes? s)

/-- The line of a row. -/
def rowLine (r : Row) : String :=
  " ".intercalate [
    "row", textHex r.queue, toString r.id.toInt, toString r.priority.toInt, toString r.size.toInt,
    if r.persistent then "1" else "0", textHex r.payload.tag,
    Text.hexText r.payload.bytes]

/-- The image of tables. -/
def image (t : Tables) : String :=
  "\n".intercalate (heading :: t.flatMap fun (name, rows) =>
    ("table " ++ name) :: rows.map rowLine)

/-- Read a number of a signed cell. -/
def cell? (s : String) : Option Int64 := s.toInt?.bind Text.toSignedWord?

/-- Read the fields of a row. -/
def row? : List String → Option Row
  | [queue, id, priority, size, persistent, tag, bytes] => do
    return {
      queue := ← hexText? queue, id := ← cell? id, priority := ← cell? priority
      size := ← cell? size, persistent := persistent == "1"
      payload := ⟨← hexText? tag, ← Text.hexBytes? bytes⟩ }
  | _ => none

/-- Read the lines below the heading, last one first. -/
def ofLines : List (List String) → Option (List Row × Tables)
  | [] => some ([], [])
  | line :: lines => do
    let (rows, tables) ← ofLines lines
    match line with
    | ["table", name] => return ([], (name, rows) :: tables)
    | "row" :: fields => return ((← row? fields) :: rows, tables)
    | _ => none

/-- Read an image; an empty text is the image of no tables. -/
def ofImage? (text : String) : Option Tables :=
  let lines := (Text.splitAt '\n' text.toList).map fun line =>
    (Text.splitAt ' ' line).map String.ofList
  match lines with
  | [[""]] => some []
  | first :: rest =>
    if " ".intercalate first = heading then
      match ofLines rest with
      | some ([], tables) => some tables
      | _ => none
    else none
  | [] => none

end Tables

end Spillway
