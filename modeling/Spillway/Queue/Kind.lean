import Spillway.Fault
import Spillway.Text.Blank
import Spillway.Text.Upper

/-!
# Kinds of queue

A queue lives in memory only, in the table only, or with a hot prefix in memory over the
table.
-/

namespace Spillway

/-- Where the entries of a queue live. -/
inductive Kind
  /-- In memory only. -/
  | ram
  /-- As rows of the table. -/
  | durable
  /-- The first of them in memory, the rest as rows. -/
  | cached
  deriving DecidableEq, Repr

namespace Kind

/-- The word by which settings name a kind. -/
def name : Kind → String
  | .ram => "RAM"
  | .durable => "JDBC"
  | .cached => "CACHE"

instance : ToString Kind := ⟨name⟩

/-- The kind of a queue whose settings name none. -/
def standard : Kind := .cached

/-- Read the word for a kind; blanks around it and its case do not matter. -/
def parse (text : String) : Except Fault Kind :=
  match Text.upper (Text.trim text) with
  | "RAM" => .ok .ram
  | "JDBC" => .ok .durable
  | "CACHE" => .ok .cached
  | other => .error (.queueKind other)

/-- Every kind is read from its own word. -/
theorem parse_name (k : Kind) : parse k.name = .ok k := by
  cases k <;> decide +kernel

end Kind

end Spillway
