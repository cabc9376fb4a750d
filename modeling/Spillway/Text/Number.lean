/-!
# Reading whole numbers

Decimal numbers with an optional sign and a bound. Leading zeros are allowed, blanks and
separators are not.
-/

namespace Spillway.Text

/-- The value of an ASCII digit. -/
def digit? (c : Char) : Option Nat :=
  if '0' ≤ c ∧ c ≤ '9' then some (c.toNat - '0'.toNat) else none

/-- The value of a string of digits read after `acc`. -/
def digitsFrom (acc : Nat) : List Char → Option Nat
  | [] => some acc
  | c :: cs =>
    match digit? c with
    | some d => digitsFrom (10 * acc + d) cs
    | none => none

/-- The value of one or more digits. -/
def digits? : List Char → Option Nat
  | [] => none
  | cs => digitsFrom 0 cs

/-- Largest value of an unsigned word of 64 bits. -/
def maxWord : Nat := 0xFFFFFFFFFFFFFFFF

/-- Number of values of a signed word of 64 bits that are not negative; the others are as many. -/
def halfWords : Nat := 0x8000000000000000

/-- Read a number of at most `limit`; a plus sign may stand in front. -/
def natUpTo? (limit : Nat) (s : String) : Option Nat :=
  let body := match s.toList with
    | '+' :: cs => cs
    | cs => cs
  (digits? body).filter (· ≤ limit)

/-- Read a number that fits a signed word of 64 bits. -/
def signedWord? (s : String) : Option Int :=
  match s.toList with
  | '-' :: cs => ((digits? cs).filter (· ≤ halfWords)).map fun n => -(n : Int)
  | '+' :: cs => ((digits? cs).filter (· < halfWords)).map Int.ofNat
  | cs => ((digits? cs).filter (· < halfWords)).map Int.ofNat

/-- The signed word of 64 bits that is a given number, if there is one. -/
def toSignedWord? (n : Int) : Option Int64 :=
  if -(halfWords : Int) ≤ n ∧ n < halfWords then some (Int64.ofInt n) else none

/-- A number in decimal, filled up with zeros at the front to `width` places. -/
def zeroPadded (width n : Nat) : String :=
  let s := toString n
  String.ofList (List.replicate (width - s.length) '0') ++ s

end Spillway.Text
