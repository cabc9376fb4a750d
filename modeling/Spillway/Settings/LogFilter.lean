import Spillway.Fault
import Spillway.Text.Blank
import Spillway.Text.Letter
import Spillway.Text.Number
import Spillway.Text.Split

/-!
# Log filters

A log filter is a list of directives between commas. A directive is a level, or names a target, a
span with fields, or both, and may give a level behind an equals sign: `target[span{field}]=level`.
A level is one of six words or a number from 0 to 5. Only whether a filter can be read is decided
here.
-/

namespace Spillway.LogFilter

/-- What has been read of a directive. -/
inductive Stage
  /-- Nothing. -/
  | start
  /-- A level or a part of a target. -/
  | target
  /-- A part of the name of a span. -/
  | span
  /-- A part of a field of a span, and whether that is empty so far. -/
  | field (empty : Bool)
  /-- All fields of a span. -/
  | fields
  /-- A span. -/
  | spanEnd
  /-- A part of a level behind an equals sign, last character first. -/
  | level (read : List Char)

/-- The words for levels. -/
def levels : List String := ["off", "error", "warn", "info", "debug", "trace"]

/-- Whether a text is a level. Nothing at all stands for the lowest one. -/
def isLevel (text : List Char) : Bool :=
  text.isEmpty || (levels.map String.toList).contains (text.map Char.toLower) ||
    (Text.natUpTo? 5 (String.ofList text)).isSome

/-- Whether a directive may start with a character. -/
def isDirectiveStart (c : Char) : Bool :=
  c == '-' || c == ':' || c == '_' || Text.isLetterOrDigit c

/-- Read one character of a directive. -/
def Stage.next (c : Char) : Stage → Option Stage
  | .start =>
    if c = '[' then some .span else if isDirectiveStart c then some .target else none
  | .target =>
    some (if c = '=' then .level [] else if c = '[' then .span else .target)
  | .span =>
    some (if c = ']' then .spanEnd else if c = '\x7b' then .field true else .span)
  | .field empty =>
    if c = '\x7d' then if empty then none else some .fields else some (.field false)
  | .fields => if c = ']' then some .spanEnd else none
  | .spanEnd => if c = '=' then some (.level []) else none
  | .level read => some (.level (c :: read))

/-- Whether a directive can be read. Blanks around it are passed over, but not where it gives a
level behind an equals sign. -/
def isDirective (text : List Char) : Bool :=
  match (Text.trimChars text).foldlM (fun stage c => stage.next c) Stage.start with
  | some .target | some .spanEnd => true
  | some (.level read) => text == Text.trimChars text && isLevel read.reverse
  | _ => false

/-- Refuse a filter with a part that is neither empty nor a directive. -/
def check (filter : String) : Except Fault Unit :=
  if (Text.splitAt ',' filter.toList).all fun part => part.isEmpty || isDirective part then .ok ()
  else .error (.logFilter filter)

example : check "tierqueue=debug,,broker[s\x7bf=1\x7d]=Off" = .ok () := by decide +kernel

example : check "tierqueue=loud" = .error (.logFilter "tierqueue=loud") := by decide +kernel

end Spillway.LogFilter
