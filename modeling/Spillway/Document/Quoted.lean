import Spillway.Text.Hex

/-!
# Quoted texts

The four ways in which a settings text writes a string: between double or single quotes, one or
three of them. Three quotes allow line breaks; double quotes allow escapes, single ones stand for
what is between them. A scan reads one character at a time and ends where the string ends.
-/

namespace Spillway.Document

/-- A way to write a string. -/
structure Quoting where
  /-- The quote: a double one allows escapes. -/
  mark : Char
  /-- Whether three quotes stand at each end. -/
  long : Bool

/-- What a scan is in the middle of. -/
inductive Scan
  /-- Nothing special. -/
  | plain
  /-- A carriage return that a line feed must follow. -/
  | newline
  /-- A number of quotes in a row, in a long string. -/
  | quotes (count : Nat)
  /-- A backslash. -/
  | escape
  /-- The digits of a code point, with the number of digits to come and the value so far. -/
  | code (digits value : Nat)
  /-- Blanks after a backslash, and whether a line break was among them. -/
  | fold (broken : Bool)

/-- Characters that may stand for themselves: all but controls, though the tab is no control
here. -/
def isPrintable (c : Char) : Bool := c == '\t' || (0x20 ≤ c.toNat && c.toNat != 0x7F)

/-- The escapes of one letter. -/
def escapes : List (Char × Char) := [
  ('b', '\x08'), ('t', '\t'), ('n', '\n'), ('f', '\x0C'), ('r', '\r'), ('e', '\x1B'), ('"', '"'),
  ('\\', '\\')]

/-- The escapes that digits follow, with their number. -/
def codeEscapes : List (Char × Nat) := [('x', 2), ('u', 4), ('U', 8)]

namespace Scan

/-- A number of quotes in front of what was read before, last character first. -/
def quoted (q : Quoting) (count : Nat) (read : List Char) : List Char :=
  List.replicate count q.mark ++ read

/-- Read a character that nothing special precedes. -/
def readPlain (q : Quoting) (read : List Char) (c : Char) : Option (Scan × List Char) :=
  if c = '\\' ∧ q.mark = '"' then some (.escape, read)
  else if c = q.mark then some (.quotes 1, read)
  else if c = '\n' ∧ q.long then some (.plain, c :: read)
  else if c = '\r' ∧ q.long then some (.newline, read)
  else if isPrintable c then some (.plain, c :: read)
  else none

/-- Read a character behind a backslash. -/
def readEscape (q : Quoting) (read : List Char) (c : Char) : Option (Scan × List Char) :=
  match escapes.lookup c, codeEscapes.lookup c with
  | some d, _ => some (.plain, d :: read)
  | none, some digits => some (.code digits 0, read)
  | none, none =>
    if !q.long then none
    else if c = ' ' ∨ c = '\t' ∨ c = '\r' then some (.fold false, read)
    else if c = '\n' then some (.fold true, read)
    else none

/-- Read a digit of a code point. -/
def readCode (digits value : Nat) (read : List Char) (c : Char) : Option (Scan × List Char) := do
  let value := 16 * value + (← Text.hexValue? c)
  if 1 < digits then return (.code (digits - 1) value, read)
  else if value.isValidChar then return (.plain, Char.ofNat value :: read)
  else none

/-- Read one character; the characters read so far are given last first. -/
def next (q : Quoting) (read : List Char) (c : Char) : Scan → Option (Scan × List Char)
  | .plain => readPlain q read c
  | .newline => if c = '\n' then some (.plain, c :: read) else none
  | .quotes count =>
    if c = q.mark then if count < 5 then some (.quotes (count + 1), read) else none
    else readPlain q (quoted q count read) c
  | .escape => readEscape q read c
  | .code digits value => readCode digits value read c
  | .fold broken =>
    if c = ' ' ∨ c = '\t' ∨ c = '\r' then some (.fold broken, read)
    else if c = '\n' then some (.fold true, read)
    else if broken then readPlain q read c
    else none

/-- Where a string may end: what it holds, last character first, if the next character is not a
further quote. A short string ends at the first quote, a long one at three, of which up to two more
belong to what it holds. -/
def ended? (q : Quoting) (read : List Char) : Scan → Option (List Char)
  | .quotes count =>
    if !q.long then some read
    else if 3 ≤ count then some (quoted q (count - 3) read)
    else none
  | _ => none

/-- Read up to the end of the string; the second component is what follows. -/
def run (q : Quoting) (scan : Scan) (read : List Char) : List Char → Option (String × List Char)
  | [] => (scan.ended? q read).map fun chars => (String.ofList chars.reverse, [])
  | c :: rest =>
    match scan.ended? q read with
    | some chars =>
      if q.long && c == q.mark then
        (scan.next q read c).bind fun (scan, read) => run q scan read rest
      else some (String.ofList chars.reverse, c :: rest)
    | none => (scan.next q read c).bind fun (scan, read) => run q scan read rest

end Scan

/-- Read a string between single marks, the first of which is gone. -/
def shortQuoted (mark : Char) (chars : List Char) : Option (String × List Char) :=
  Scan.run ⟨mark, false⟩ .plain [] chars

/-- Read a string between three marks each, the first three of which are gone. A line break right
behind them does not count. -/
def longQuoted (mark : Char) (chars : List Char) : Option (String × List Char) :=
  Scan.run ⟨mark, true⟩ .plain [] <|
    match chars with
    | '\n' :: rest | '\r' :: '\n' :: rest => rest
    | _ => chars

/-- Read a string of any of the four ways. -/
def quoted : List Char → Option (String × List Char)
  | '"' :: '"' :: '"' :: rest => longQuoted '"' rest
  | '\'' :: '\'' :: '\'' :: rest => longQuoted '\'' rest
  | '"' :: rest => shortQuoted '"' rest
  | '\'' :: rest => shortQuoted '\'' rest
  | _ => none

example : quoted "\"a\\u00fc\\t\" b".toList = some ("aü\t", " b".toList) := by decide +kernel

example : quoted "'''\na''b'''''c".toList = some ("a''b''", "c".toList) := by decide +kernel

end Spillway.Document
