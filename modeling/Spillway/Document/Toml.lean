import Spillway.Document.Quoted
import Spillway.Document.Value

/-!
# Settings texts

The part of TOML that settings use: sections, named by headings or by the first part of a dotted
name, and in them fields that are strings, whole numbers or flags. A section may also be written in
one go, as a table in braces or as a list. Whatever else TOML has (fractions, dates, deeper tables)
is refused, because no setting takes it.
-/

namespace Spillway.Document.Toml

/-- Drop spaces and tabs. -/
def skipSpaces (chars : List Char) : List Char := chars.dropWhile fun c => c == ' ' || c == '\t'

/-- Drop blanks, line breaks and comments; a comment holds no controls. -/
def skipBlanks (inComment : Bool) : List Char → Option (List Char)
  | [] => some []
  | '\n' :: rest => skipBlanks false rest
  | '\r' :: '\n' :: rest => skipBlanks false rest
  | c :: rest =>
    if inComment then if isPrintable c then skipBlanks true rest else none
    else if c = '#' then skipBlanks true rest
    else if c = ' ' ∨ c = '\t' then skipBlanks false rest
    else some (c :: rest)

/-- Whether a line ends here, but for spaces and a comment. -/
def atLineEnd (chars : List Char) : Bool :=
  match skipSpaces chars with
  | [] | '\n' :: _ | '\r' :: '\n' :: _ | '#' :: _ => true
  | _ => false

/-- Characters of a name that is not quoted. -/
def isNameChar (c : Char) : Bool := c.isAlphanum || c == '_' || c == '-'

/-- Read a name: a run of letters, digits, underscores and dashes, or a short string. -/
def name : List Char → Option (String × List Char)
  | '"' :: rest => shortQuoted '"' rest
  | '\'' :: rest => shortQuoted '\'' rest
  | chars =>
    match chars.takeWhile isNameChar with
    | [] => none
    | run => some (String.ofList run, chars.dropWhile isNameChar)

/-- Read a name, and a second one behind a dot if there is a dot. -/
def path (chars : List Char) : Option (String × Option String × List Char) := do
  let (first, rest) ← name chars
  match skipSpaces rest with
  | '.' :: rest =>
    let (second, rest) ← name (skipSpaces rest)
    return (first, some second, skipSpaces rest)
  | rest => return (first, none, rest)

/-- The digits of a number without the underscores between them; an underscore stands between two
digits. -/
def joined (isDigit : Char → Bool) : List Char → Option (List Char)
  | [] => none
  | [c] => if isDigit c then some [c] else none
  | c :: '_' :: rest => if isDigit c then (joined isDigit rest).map (c :: ·) else none
  | c :: rest => if isDigit c then (joined isDigit rest).map (c :: ·) else none

/-- The value of digits in a base. -/
def inBase (base : Nat) (digits : List Char) : Option Nat :=
  digits.foldlM (fun n c => (Text.hexValue? c).map (base * n + ·)) 0

/-- Read the digits of a base, with underscores. -/
def basedNumber (base : Nat) (chars : List Char) : Option Nat := do
  inBase base (← joined (fun c => (Text.hexValue? c).any (· < base)) chars)

/-- Read decimal digits, with underscores; no zero stands in front. -/
def decimalNumber : List Char → Option Nat
  | ['0'] => some 0
  | '0' :: _ => none
  | chars => basedNumber 10 chars

/-- Read a whole number: a decimal one, perhaps with a sign, or one of base 16, 8 or 2. -/
def wholeNumber : List Char → Option Int
  | '0' :: 'x' :: rest => (basedNumber 16 rest).map Int.ofNat
  | '0' :: 'o' :: rest => (basedNumber 8 rest).map Int.ofNat
  | '0' :: 'b' :: rest => (basedNumber 2 rest).map Int.ofNat
  | '+' :: rest => (decimalNumber rest).map Int.ofNat
  | '-' :: rest => (decimalNumber rest).map fun n => -(n : Int)
  | chars => (decimalNumber chars).map Int.ofNat

/-- Characters of a number or a flag. -/
def isAtomChar (c : Char) : Bool := isNameChar c || c == '+' || c == '.' || c == ':'

/-- The flag or whole number that a run of characters is. -/
def atom (run : List Char) : Option Value :=
  if run = "true".toList then some (.flag true)
  else if run = "false".toList then some (.flag false)
  else (wholeNumber run).map .whole

/-- Read a string, a flag or a whole number. -/
def scalar : List Char → Option (Value × List Char)
  | chars@('"' :: _) | chars@('\'' :: _) => (quoted chars).map fun (s, rest) => (.text s, rest)
  | chars => (atom (chars.takeWhile isAtomChar)).map (·, chars.dropWhile isAtomChar)

/-- Read the members of a list up to its end. -/
def items : Nat → List Char → Option (List Value × List Char)
  | 0, _ => none
  | fuel + 1, chars => do
    match ← skipBlanks false chars with
    | ']' :: rest => return ([], rest)
    | chars =>
      let (value, rest) ← scalar chars
      match ← skipBlanks false rest with
      | ']' :: rest => return ([value], rest)
      | ',' :: rest =>
        let (values, rest) ← items fuel rest
        return (value :: values, rest)
      | _ => none

/-- Read an equals sign and a scalar behind it. -/
def assigned (chars : List Char) : Option (Value × List Char) :=
  match skipSpaces chars with
  | '=' :: rest => scalar (skipSpaces rest)
  | _ => none

/-- Read the fields of a table up to its end. -/
def fields : Nat → List Char → Option (List (String × Value) × List Char)
  | 0, _ => none
  | fuel + 1, chars => do
    match ← skipBlanks false chars with
    | '}' :: rest => return ([], rest)
    | chars =>
      let (key, rest) ← name chars
      let (value, rest) ← assigned rest
      match ← skipBlanks false rest with
      | '}' :: rest => return ([(key, value)], rest)
      | ',' :: rest =>
        let (others, rest) ← fields fuel rest
        if others.any (·.1 = key) then none else return ((key, value) :: others, rest)
      | _ => none

/-- Read a scalar, a list of scalars or a table of scalars. -/
def value : List Char → Option (Value × List Char)
  | '[' :: rest => (items (rest.length + 1) rest).map fun (l, rest) => (.list l, rest)
  | '{' :: rest => (fields (rest.length + 1) rest).map fun (l, rest) => (.table l, rest)
  | chars => scalar chars

/-- How a section came to be. -/
inductive Section
  /-- Written in one go. -/
  | whole (value : Value)
  /-- By dotted names. -/
  | dotted (fields : List (String × Value))
  /-- By a heading. -/
  | headed (fields : List (String × Value))

/-- What a section says. -/
def Section.value : Section → Value
  | .whole value => value
  | .dotted fields | .headed fields => .table fields

/-- What has been read so far: the sections, last one first, and the one that a heading opened. -/
structure Draft where
  sections : List (String × Section) := []
  current : Option String := none

namespace Draft

/-- Open a section by a heading; a section is opened once. -/
def head (d : Draft) (title : String) : Option Draft :=
  match d.sections.lookup title with
  | some _ => none
  | none => some { sections := (title, .headed []) :: d.sections, current := some title }

/-- The draft with another section in the place of the one of that name. -/
def replace (d : Draft) (title : String) (s : Section) : Draft :=
  { d with sections := d.sections.map fun entry => if entry.1 = title then (title, s) else entry }

/-- The fields with a further one; a field is set once. -/
def extended (fields : List (String × Value)) (key : String) (value : Value) :
    Option (List (String × Value)) :=
  if fields.any (·.1 = key) then none else some (fields ++ [(key, value)])

/-- Set a field, or a whole section where no heading has opened one. -/
def assign (d : Draft) (key : String) (second : Option String) (value : Value) : Option Draft :=
  match d.current, second with
  | some title, none => do
    match ← d.sections.lookup title with
    | .headed fields => return d.replace title (.headed (← extended fields key value))
    | _ => none
  | none, none =>
    match d.sections.lookup key with
    | some _ => none
    | none => some { d with sections := (key, .whole value) :: d.sections }
  | none, some field =>
    match d.sections.lookup key with
    | none => some { d with sections := (key, .dotted [(field, value)]) :: d.sections }
    | some (.dotted fields) => return d.replace key (.dotted (← extended fields field value))
    | some _ => none
  | some _, some _ => none

end Draft

/-- Read one heading or assignment; the line must end behind it. -/
def statement (d : Draft) : List Char → Option (Draft × List Char)
  | '[' :: rest => do
    match ← path (skipSpaces rest) with
    | (title, none, ']' :: rest) =>
      let d ← d.head title
      if atLineEnd rest then return (d, rest) else none
    | _ => none
  | chars => do
    let (key, second, rest) ← path chars
    match rest with
    | '=' :: rest =>
      let (v, rest) ← value (skipSpaces rest)
      let d ← d.assign key second v
      if atLineEnd rest then return (d, rest) else none
    | _ => none

/-- Read headings and assignments up to the end of the text. -/
def statements : Nat → Draft → List Char → Option Draft
  | 0, _, _ => none
  | fuel + 1, d, chars => do
    match ← skipBlanks false chars with
    | [] => return d
    | chars =>
      let (d, rest) ← statement d chars
      statements fuel d rest

/-- Read a settings text; a byte order mark may stand in front. -/
def read? (text : String) : Option Value := do
  let chars := match text.toList with
    | '\uFEFF' :: rest => rest
    | chars => chars
  let d ← statements (chars.length + 1) {} chars
  return .table (d.sections.reverse.map fun (title, s) => (title, s.value))

end Spillway.Document.Toml
