import Spillway.Text.Number

/-!
# Documents

A document is what a settings text or a serialized value says, before anyone asks what it means:
texts, numbers, flags, lists and tables of named fields.
-/

namespace Spillway.Document

/-- A document or a part of one. -/
inductive Value
  /-- Nothing at all. -/
  | nothing
  /-- Yes or no. -/
  | flag (value : Bool)
  /-- A whole number. -/
  | whole (value : Int)
  /-- A number with a fraction or an exponent. -/
  | real
  /-- A text. -/
  | text (value : String)
  /-- A list. -/
  | list (items : List Value)
  /-- Named fields. -/
  | table (fields : List (String × Value))
  deriving Inhabited

namespace Value

/-- A whole number that fits an unsigned word of 64 bits. -/
def word? : Value → Option Nat
  | .whole n => if 0 ≤ n ∧ n.toNat ≤ Text.maxWord then some n.toNat else none
  | _ => none

/-- A text. -/
def text? : Value → Option String
  | .text s => some s
  | _ => none

/-- Yes or no. -/
def flag? : Value → Option Bool
  | .flag b => some b
  | _ => none

/-- Named fields. -/
def table? : Value → Option (List (String × Value))
  | .table fields => some fields
  | _ => none

/-- A word is read back. -/
theorem word?_whole {n : Nat} (h : n ≤ Text.maxWord) :
    (whole (n : Int)).word? = some n := by
  simp [word?, h]

end Value

/-- The field of a name, if it is there, as `read` understands it; the outer `none` says that it is
there but cannot be understood. -/
def optionalField {α : Type} (read : Value → Option α) (name : String)
    (fields : List (String × Value)) : Option (Option α) :=
  match fields.lookup name with
  | none => some none
  | some value => (read value).map some

/-- Whether all fields have one of the given names. -/
def namesAmong (names : List String) (fields : List (String × Value)) : Bool :=
  fields.all fun field => names.contains field.1

end Spillway.Document
