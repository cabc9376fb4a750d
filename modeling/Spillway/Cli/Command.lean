import Spillway.Fault
import Spillway.Text.Number

/-!
# Command lines

Options and a command with its own options and arguments. Options that every command has may stand
before or behind the command; behind it they win. Arguments are read from left to right, and the
first one that cannot be read, or that asks for help or the version, decides.
-/

namespace Spillway.Cli

/-- What the program is to do. -/
inductive Command
  /-- List the queues. -/
  | queues
  /-- Show the totals of a queue. -/
  | stats (storageId : String)
  /-- Show the first entries of a queue. -/
  | peek (storageId : String) (entries bytes : Int) (json : Bool)
  /-- Remove the entries of a queue that need not survive a restart. -/
  | purgeTransient (storageId : String)
  /-- Remove all entries of a queue. -/
  | clear (storageId : String)
  /-- Probe the database. -/
  | ping
  deriving DecidableEq, Repr

/-- What a command line asks for. -/
structure Invocation where
  /-- Whether more is logged. -/
  verbose : Bool
  /-- The settings file, if one is named. -/
  settingsFile : Option String
  /-- The database file, if one is named. -/
  database : Option String
  /-- What to do. -/
  command : Command
  deriving DecidableEq, Repr

/-- Why a command line asks for nothing to be done. -/
inductive Halt
  /-- It cannot be understood. -/
  | misuse
  /-- It asks for help. -/
  | help
  /-- It asks for the version. -/
  | version
  deriving DecidableEq, Repr

/-- The options. -/
inductive Flag
  | verbose | settingsFile | database | entries | bytes | json | help | version
  deriving DecidableEq, Repr

namespace Flag

/-- The long name. -/
def long : Flag → String
  | .verbose => "verbose"
  | .settingsFile => "config"
  | .database => "db"
  | .entries => "num"
  | .bytes => "bytes"
  | .json => "json"
  | .help => "help"
  | .version => "version"

/-- The short name. -/
def short? : Flag → Option Char
  | .verbose => some 'v'
  | .settingsFile => some 'c'
  | .database => none
  | .entries => some 'n'
  | .bytes => some 'b'
  | .json => none
  | .help => some 'h'
  | .version => some 'V'

/-- Whether a value follows. -/
def takesValue : Flag → Bool
  | .settingsFile | .database | .entries | .bytes => true
  | .verbose | .json | .help | .version => false

/-- Whether the value may be an argument that starts with a dash. -/
def takesDash : Flag → Bool
  | .entries | .bytes => true
  | _ => false

/-- Whether a text can be a value: a number for a bound, or a path that is not empty. -/
def accepts (f : Flag) (value : String) : Bool :=
  match f with
  | .entries | .bytes => (Text.signedWord? value).isSome
  | .settingsFile | .database => value ≠ ""
  | _ => true

end Flag

/-- The options that may stand before the command. -/
def outerFlags : List Flag := [.verbose, .settingsFile, .database, .help, .version]

/-- The options that may stand behind every command. -/
def commonFlags : List Flag := [.verbose, .settingsFile, .database, .help]

/-- What has been read of the arguments before or behind the command. -/
structure Given where
  /-- The options with their values. -/
  options : List (Flag × String) := []
  /-- The other arguments, last one first. -/
  words : List String := []

namespace Given

/-- Add an option. No option is given twice. -/
def add (g : Given) (f : Flag) (value : String) : Except Halt Given :=
  match f with
  | .help => .error .help
  | .version => .error .version
  | _ =>
    if g.options.any (·.1 = f) || !f.accepts value then .error .misuse
    else .ok { g with options := (f, value) :: g.options }

/-- Whether an option is given. -/
def has (g : Given) (f : Flag) : Bool := g.options.any (·.1 = f)

/-- The value of an option. -/
def value? (g : Given) (f : Flag) : Option String := g.options.lookup f

end Given

/-- The form of an argument. -/
inductive Shape
  /-- A word. -/
  | word
  /-- The mark behind which all arguments are words. -/
  | divider
  /-- An option by its long name, perhaps with its value. -/
  | long (name : String) (value : Option String)
  /-- Options by their short names. -/
  | short (letters : List Char)
  deriving DecidableEq, Repr

/-- The text up to an equals sign and the text behind it, if there is one. -/
def splitAssignment (text : List Char) : String × Option String :=
  (String.ofList (text.takeWhile (· ≠ '=')),
    match text.dropWhile (· ≠ '=') with
    | _ :: value => some (String.ofList value)
    | [] => none)

/-- The form of an argument; a lone dash is a word. -/
def shapeOf (arg : String) : Shape :=
  match arg.toList with
  | ['-', '-'] => .divider
  | '-' :: '-' :: text =>
    let (name, value) := splitAssignment text
    .long name value
  | '-' :: c :: cs => .short (c :: cs)
  | _ => .word

/-- Read short names up to one that takes a value, which may follow at once or behind an equals
sign. The second component is the option that still lacks its value. -/
def readShort (allowed : List Flag) (g : Given) : List Char → Except Halt (Given × Option Flag)
  | [] => .ok (g, none)
  | c :: cs =>
    match allowed.find? (·.short? = some c) with
    | none => .error .misuse
    | some f =>
      if f.takesValue then
        match cs with
        | [] => .ok (g, some f)
        | '=' :: value => do return (← g.add f (String.ofList value), none)
        | value => do return (← g.add f (String.ofList value), none)
      else do readShort allowed (← g.add f "") cs

/-- Read an option by its long name. The second component is the option that still lacks its
value. -/
def readLong (allowed : List Flag) (g : Given) (name : String) (value : Option String) :
    Except Halt (Given × Option Flag) :=
  match allowed.find? (·.long = name), value with
  | none, _ => .error .misuse
  | some f, some value =>
    if f.takesValue then do return (← g.add f value, none) else .error .misuse
  | some f, none => if f.takesValue then .ok (g, some f) else do return (← g.add f "", none)

/-- Read arguments. With `stopping` the first word ends the reading, and what follows it is the
second component. An option that lacks its value takes the next argument. -/
def readArguments (allowed : List Flag) (stopping : Bool) (g : Given) (lacking : Option Flag) :
    List String → Except Halt (Given × List String)
  | [] => if lacking.isSome then .error .misuse else .ok (g, [])
  | arg :: args =>
    match lacking with
    | some f =>
      if f.takesDash || shapeOf arg = .word then do
        readArguments allowed stopping (← g.add f arg) none args
      else .error .misuse
    | none =>
      match shapeOf arg with
      | .word =>
        if stopping then .ok ({ g with words := [arg] }, args)
        else readArguments allowed stopping { g with words := arg :: g.words } none args
      | .divider =>
        if stopping then .error .misuse
        else .ok ({ g with words := args.reverse ++ g.words }, [])
      | .long name value => do
        let (g, lacking) ← readLong allowed g name value
        readArguments allowed stopping g lacking args
      | .short letters => do
        let (g, lacking) ← readShort allowed g letters
        readArguments allowed stopping g lacking args

/-- The command of a name with what was read behind it. -/
def commandOf (name : String) (g : Given) : Except Halt Command :=
  match name, g.words with
  | "queues", [] => .ok .queues
  | "ping", [] => .ok .ping
  | "stats", [id] => .ok (.stats id)
  | "purge-transient", [id] => .ok (.purgeTransient id)
  | "clear", [id] => .ok (.clear id)
  | "peek", [id] =>
    let number (f : Flag) (standard : Int) : Int :=
      ((g.value? f).bind Text.signedWord?).getD standard
    .ok (.peek id (number .entries 10) (number .bytes (-1)) (g.has .json))
  | _, _ => .error .misuse

/-- The options that may stand behind a command, if there is one of that name. -/
def flagsOf (name : String) : Option (List Flag) :=
  if name = "peek" then some (commonFlags ++ [.entries, .bytes, .json])
  else if ["queues", "stats", "purge-transient", "clear", "ping"].contains name then
    some commonFlags
  else none

/-- The settings file: named behind the command, or before it, or by a variable. A variable that is
empty is misuse wherever it is not overridden. -/
def settingsFileOf (outer inner : Given) (held : Option String) : Except Halt (Option String) :=
  match inner.value? .settingsFile, outer.value? .settingsFile with
  | some path, some _ => .ok (some path)
  | inner, outer =>
    if held = some "" then .error .misuse else .ok ((inner.or outer).or held)

/-- Read a command line. `held` is what the variable for the settings file holds. -/
def Invocation.read (held : Option String) (args : List String) : Except Halt Invocation := do
  let (outer, rest) ← readArguments outerFlags true {} none args
  let [name] := outer.words | throw .misuse
  if name = "help" then throw .help
  let some flags := flagsOf name | throw .misuse
  let (inner, _) ← readArguments flags false {} none rest
  let command ← commandOf name inner
  return {
    verbose := outer.has .verbose || inner.has .verbose
    settingsFile := ← settingsFileOf outer inner held
    database := (inner.value? .database).or (outer.value? .database)
    command }

example : Invocation.read none ["-vc", "a", "peek", "q:1", "-n-1", "--json"] =
    .ok ⟨true, some "a", none, .peek "q:1" (-1) (-1) true⟩ := by decide +kernel

example : Invocation.read none ["queues", "-v", "-v"] = .error .misuse := by decide +kernel

end Spillway.Cli
