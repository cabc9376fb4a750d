import Spillway.Text.Blank
import Spillway.Text.Letter

/-!
# Environment files

A file of lines `NAME=value` that adds variables to the environment of a process. A value may be
quoted, may refer to other variables by `$name` or `${name}`, and may span lines inside quotes.
Reading stops at the first line that is not understood; the lines before it count.
-/

namespace Spillway.EnvFile

/-- A part of a value. -/
inductive Piece
  /-- A character. -/
  | char (c : Char)
  /-- What a variable holds. -/
  | held (name : String)
  deriving DecidableEq, Repr

/-- A line that sets a variable. -/
structure Setting where
  /-- The variable. -/
  name : String
  /-- Its value. -/
  value : List Piece
  deriving DecidableEq, Repr

/-! ## Lines -/

/-- Where a line of the file stands with respect to quotes. -/
inductive Nesting
  | outside | blank | escape | double | doubleEscape | single | singleEscape | comment
  deriving DecidableEq, Repr

/-- Read one character of a line. -/
def Nesting.next (c : Char) : Nesting → Nesting
  | .outside =>
    if Text.isBlank c ∧ c ≠ '\n' ∧ c ≠ '\r' then .blank
    else if c = '\\' then .escape
    else if c = '"' then .double
    else if c = '\'' then .single
    else .outside
  | .blank =>
    if c = '#' then .comment
    else if c = '\\' then .escape
    else if c = '"' then .double
    else if c = '\'' then .single
    else .outside
  | .escape => .outside
  | .double => if c = '\\' then .doubleEscape else if c = '"' then .outside else .double
  | .doubleEscape => .double
  | .single => if c = '\\' then .singleEscape else if c = '\'' then .outside else .single
  | .singleEscape => .single
  | .comment => .comment

/-- Read a line up to its end or to a comment behind a blank. -/
def nestingAfter (n : Nesting) : List Char → List Char × Nesting
  | [] => ([], n)
  | c :: rest =>
    match n.next c with
    | .comment => ([], .comment)
    | n' =>
      let (kept, last) := nestingAfter n' rest
      (c :: kept, last)

/-- The lines of a text, each with its line feed. -/
def physicalLines (text : List Char) : List (List Char) :=
  text.foldr
    (fun c lines =>
      if c = '\n' then ['\n'] :: lines
      else match lines with
        | line :: others => (c :: line) :: others
        | [] => [[c]])
    []

/-- A line without its line end. -/
def withoutEnd (line : List Char) : List Char :=
  match line.reverse with
  | '\n' :: '\r' :: rest | '\n' :: rest => rest.reverse
  | _ => line

/-- Put the lines together that belong together because a quote is open. A last line that is not
finished is given as `none`. -/
def logicalLines (held : List Char) (n : Nesting) : List (List Char) → List (Option (List Char))
  | [] => if n = .outside then [] else [none]
  | line :: lines =>
    let all := held ++ line
    if (all.dropWhile Text.isBlank).head? = some '#' then some [] :: logicalLines [] .outside lines
    else
      let (kept, last) := nestingAfter n line
      match last with
      | .outside => some (withoutEnd all) :: logicalLines [] .outside lines
      | .comment => some (held ++ kept) :: logicalLines [] .outside lines
      | last => logicalLines all last lines

/-! ## Values -/

/-- Where the reading of a value stands with respect to quotes. -/
inductive Quote
  | none | single | double
  deriving DecidableEq, Repr

/-- A reference to a variable that is being read, last character of the name first. -/
inductive Reference
  | plain (name : List Char)
  | braced (name : List Char)
  deriving DecidableEq, Repr

/-- What has been read of a value. -/
structure Reading where
  /-- The open quote. -/
  quote : Quote := .none
  /-- Whether a backslash was read. -/
  escaped : Bool := false
  /-- Whether a blank was read, so that nothing but a comment may follow. -/
  ending : Bool := false
  /-- Whether a comment was read. -/
  ended : Bool := false
  /-- The open reference. -/
  reference : Option Reference := Option.none
  /-- The value so far, last piece first. -/
  read : List Piece := []

namespace Reading

/-- Add a character. -/
def push (r : Reading) (c : Char) : Reading := { r with read := .char c :: r.read }

/-- Close a reference. -/
def refer (r : Reading) (name : List Char) : Reading :=
  { r with read := .held (String.ofList name.reverse) :: r.read, reference := Option.none }

/-- Read a character of a reference. -/
def nextReference (r : Reading) (c : Char) : Reference → Reading
  | .plain name =>
    if Text.isLetterOrDigit c then { r with reference := some (.plain (c :: name)) }
    else if c = '\x7b' ∧ name = [] then { r with reference := some (.braced []) }
    else if c = '$' then { r.refer name with reference := some (.plain []) }
    else (r.refer name).push c
  | .braced name =>
    if Text.isLetterOrDigit c then { r with reference := some (.braced (c :: name)) }
    else if c = '\x7d' then r.refer name
    else { r with reference := some (.braced (c :: name)) }

/-- Read a character outside single quotes and references. -/
def nextPlain (r : Reading) (c : Char) : Reading :=
  if c = '$' then { r with reference := some (.plain []) }
  else if c = '\\' then { r with escaped := true }
  else if r.quote = .double then if c = '"' then { r with quote := .none } else r.push c
  else if c = '\'' then { r with quote := .single }
  else if c = '"' then { r with quote := .double }
  else if c = ' ' ∨ c = '\t' then { r with ending := true }
  else r.push c

/-- Read a character behind a backslash. -/
def nextEscaped (r : Reading) (c : Char) : Option Reading :=
  let r := { r with escaped := false }
  if c = '\\' ∨ c = '\'' ∨ c = '"' ∨ c = '$' ∨ c = ' ' then some (r.push c)
  else if c = 'n' then some (r.push '\n')
  else Option.none

/-- Read a character. -/
def next (r : Reading) (c : Char) : Option Reading :=
  if r.ended then some r
  else if r.ending then
    if c = ' ' ∨ c = '\t' then some r
    else if c = '#' then some { r with ended := true }
    else Option.none
  else if r.escaped then r.nextEscaped c
  else if r.quote = .single then
    some (if c = '\'' then { r with quote := .none } else r.push c)
  else match r.reference with
    | some reference => some (r.nextReference c reference)
    | Option.none => some (r.nextPlain c)

/-- The value, unless a quote or a brace is open. -/
def finish (r : Reading) : Option (List Piece) :=
  match r.quote, r.reference with
  | .none, Option.none => some r.read.reverse
  | .none, some (.plain name) => some (r.refer name).read.reverse
  | _, _ => Option.none

end Reading

/-- Read a value. -/
def value? (text : List Char) : Option (List Piece) :=
  (text.foldlM Reading.next ({} : Reading)).bind Reading.finish

/-! ## Settings -/

/-- Drop blanks in front. -/
def skip (text : List Char) : List Char := text.dropWhile Text.isBlank

/-- Whether a name may start with a character. -/
def isNameStart (c : Char) : Bool := c.isAlpha || c == '_'

/-- Whether a name may hold a character. -/
def isNameChar (c : Char) : Bool := c.isAlphanum || c == '_' || c == '.'

/-- Read a name, and blanks behind it. -/
def name? (text : List Char) : Option (String × List Char) :=
  if text.head?.any isNameStart then
    some (String.ofList (text.takeWhile isNameChar), skip (text.dropWhile isNameChar))
  else none

/-- Read a line that sets a variable, or `some none` if the line says nothing. The word `export`
may stand in front of the name. -/
def setting? (line : List Char) : Option (Option Setting) := do
  let text := Text.trimChars line
  if text.isEmpty || text.head? == some '#' then return none
  let (name, rest) ← name? text
  let (name, rest) ←
    if name = "export" ∧ rest.head? ≠ some '=' then name? rest else some (name, rest)
  match rest with
  | '=' :: rest =>
    let rest := skip rest
    if rest.isEmpty || rest.head? == some '#' then return some ⟨name, []⟩
    return some ⟨name, ← value? rest⟩
  | _ => none

/-- The settings of lines up to the first line that is not understood. -/
def settingsOf : List (Option (List Char)) → List Setting
  | [] | none :: _ => []
  | some line :: lines =>
    match setting? line with
    | none => []
    | some none => settingsOf lines
    | some (some setting) => setting :: settingsOf lines

/-- Read an environment file; a byte order mark may stand in front. -/
def read (text : String) : List Setting :=
  let chars := match text.toList with
    | '\uFEFF' :: rest => rest
    | chars => chars
  settingsOf (logicalLines [] .outside (physicalLines chars))

example : read "# x\nA=1 # one\nexport B='c d'\n" =
    [⟨"A", [.char '1']⟩, ⟨"B", [.char 'c', .char ' ', .char 'd']⟩] := by decide +kernel

end Spillway.EnvFile
