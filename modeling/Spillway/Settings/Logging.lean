import Spillway.Text.Blank

/-!
# Logging settings

What settings say about the log, and how it is resolved: a filter that is set wins over that of the
process, which wins over the standard filter; a blank filter is replaced by the standard one.
-/

namespace Spillway

/-- How log lines are written. -/
inductive LogFormat
  /-- For people. -/
  | pretty
  /-- One object per line. -/
  | json
  deriving DecidableEq, Repr

namespace LogFormat

/-- The word for a format. -/
def name : LogFormat → String
  | .pretty => "pretty"
  | .json => "json"

/-- The format of a word; whatever is not `json` is pretty. Only ASCII letters have a case here. -/
def parse (text : String) : LogFormat :=
  if (Text.trim text).toList.map Char.toLower = "json".toList then .json else .pretty

end LogFormat

/-- What settings say about the log. -/
structure LogSettings where
  /-- Word for the format. -/
  format : Option String := none
  /-- What is logged. -/
  filter : Option String := none
  /-- Where the log goes, if not to the terminal. -/
  file : Option String := none
  deriving DecidableEq, Repr

/-- How a log is written. -/
structure LogPlan where
  /-- How lines are written. -/
  format : LogFormat
  /-- What is logged. -/
  filter : String
  /-- Where the log goes, if not to the terminal. -/
  file : Option String
  deriving DecidableEq, Repr

namespace LogPlan

/-- What is logged if nothing else is asked for. -/
def standardFilter (verbose : Bool) : String :=
  if verbose then "tierqueue=debug" else "tierqueue=warn"

/-- Resolve settings, of which there may be none, with the filter that the process was given. -/
def resolve (settings : Option LogSettings) (verbose : Bool) (processFilter : Option String) :
    LogPlan :=
  let asked := (settings.bind LogSettings.filter).or processFilter
  { format := ((settings.bind LogSettings.format).map LogFormat.parse).getD .pretty
    filter := match asked with
      | some filter => if Text.trim filter = "" then standardFilter verbose else filter
      | none => standardFilter verbose
    file := settings.bind LogSettings.file }

end LogPlan

end Spillway
