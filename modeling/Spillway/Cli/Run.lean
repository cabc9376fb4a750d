import Spillway.Cli.Machine
import Spillway.Cli.Perform
import Spillway.Settings.Basic
import Spillway.Settings.LogFilter

/-!
# Runs of the program

From arguments to an exit code and texts: the environment file is read, then the arguments, then
the settings; the log is opened; the command is performed on the store, and its tables are kept if
they changed.
-/

namespace Spillway.Cli

/-- What a run of the program comes to. -/
structure Outcome where
  /-- Exit code. -/
  code : Nat
  /-- What is printed. -/
  out : String := ""
  /-- What is printed as an error. -/
  err : String := ""
  deriving DecidableEq, Repr

/-- A run that failed with a message. -/
def Outcome.failure (message : String) : Outcome := { code := 1, err := message ++ "\n" }

/-- The variables that the program looks at. -/
def variableNames : List String := [
  "HOME", "XDG_CONFIG_HOME", "XDG_DATA_HOME", "RUST_LOG", "TIERQUEUE_CONFIG_PATH",
  "TIERQUEUE_DB_PATH", "TIERQUEUE_TABLE_NAME", "TIERQUEUE_MAX_CONNECTIONS",
  "TIERQUEUE_RECONNECT_INTERVAL_MS", "TIERQUEUE_MAX_ENTRIES", "TIERQUEUE_MAX_BYTES",
  "TIERQUEUE_LOG_FORMAT", "TIERQUEUE_LOG_FILTER", "TIERQUEUE_LOG_FILE"]

/-! ## Standard places -/

/-- The home folder. -/
def home? (env : Environment) : Option String := (env "HOME").filter (· ≠ "")

/-- The folder that a variable names, if it names one from the root, or else one below the home
folder. -/
def baseFolder (env : Environment) (name : String) (home below : String) : String :=
  match (env name).filter Path.isAbsolute with
  | some folder => folder
  | none => Path.join home below

/-- Where settings are looked for if no file is named. -/
def settingsPlaces (env : Environment) : List String :=
  match home? env with
  | none => []
  | some home =>
    [baseFolder env "XDG_CONFIG_HOME" home ".config", Path.join home ".config"].map fun folder =>
      Path.join folder "tierqueue/config.toml"

/-- Where the database is if nothing else is set. -/
def databasePlace (env : Environment) : String :=
  match home? env with
  | none => "tierqueue.db"
  | some home =>
    Path.join (baseFolder env "XDG_DATA_HOME" home ".local/share") "tierqueue/queues.db"

/-! ## Stages of a run -/

variable {m : Type → Type} [Monad m] [Machine m]

/-- The first environment file in the working folder or one above it. -/
def environmentFile : m (Option String) := do
  for folder in ← Machine.workingFolders do
    if let some text ← Machine.readText (Path.join folder ".env") then return some text
  return none

/-- What a variable holds, with those that were added. -/
def heldWith (added : List (String × String)) (name : String) : m (Option String) := do
  match ← Machine.held name with
  | some value => return some value
  | none => return added.lookup name

/-- The value of a setting of an environment file. -/
def pieceText (added : List (String × String)) : EnvFile.Piece → m String
  | .char c => return String.singleton c
  | .held name => return (← heldWith added name).getD ""

/-- The variables that an environment file adds; it changes none that are there. -/
def addedBy (settings : List EnvFile.Setting) : m (List (String × String)) :=
  settings.foldlM (fun added setting => do
    let value := String.join (← setting.value.mapM (pieceText added))
    match ← heldWith added setting.name with
    | some _ => return added
    | none => return (setting.name, value) :: added) []

/-- The variables that the program looks at, with what the environment file adds. -/
def environment : m Environment := do
  let added ← addedBy (((← environmentFile).map EnvFile.read).getD [])
  let found ← variableNames.mapM fun name => return (name, ← heldWith added name)
  return fun name => (found.lookup name).join

/-- The settings: those of the named file, or else of the first of the standard places that has
any, under the environment. -/
def loadSettings (env : Environment) (named : Option String) : m (Except Complaint Settings) := do
  let settings ← match named with
    | some path => do
      let outcome := match ← Machine.readText path with
        | some text => Settings.parse text
        | none => .error (.failed .readSettings (.badPath path))
      pure (outcome.mapError (Complaint.mk ("cannot load " ++ path) ·))
    | none => do
      let texts ← (settingsPlaces env).filterMapM Machine.readText
      pure (.ok (Settings.firstOf texts))
  return settings.map (Settings.withEnvironment env)

/-- Check the filter of a log and open its file. -/
def startLog (plan : LogPlan) : m (Except Fault Unit) := do
  match LogFilter.check plan.filter, plan.file with
  | .error fault, _ => return .error fault
  | .ok _, none => return .ok ()
  | .ok _, some path =>
    let folder := Path.parent? path
    if !(← (folder.map Machine.makeFolder).getD (pure true)) then
      return .error (.failed .createLogDir (.badPath (folder.getD path)))
    if !(← Machine.openLog path) then
      return .error (.failed .openLogFile (.badPath path))
    return .ok ()

/-- Perform a command on what was found at the place of the database. -/
def performOn (settings : Settings) (place : String) (command : Command) (finding : Finding) :
    m (Except Complaint String) := do
  let store (reachable : Bool) (table : Option (List Row)) : Store := {
    tableName := settings.store.tableName, table
    link := { settings := settings.store.effectiveLink, place, reachable } }
  match finding with
  | .junk => return performOnJunk place command
  | .nothing => return ((perform settings.bounds command).run.run (store false none)).1
  | .tables tables =>
    let former := store true (tables.find? settings.store.tableName)
    let (outcome, latter) := (perform settings.bounds command).run.run former
    if latter.table ≠ former.table then
      Machine.keep place (tables.set settings.store.tableName latter.table)
    return outcome

/-- Open the store and perform a command on it. -/
def performAt (settings : Settings) (place : String) (command : Command) :
    m (Except Complaint String) := do
  let opening := "failed to open queue store"
  let folder := (Path.parent? place).filter (· ≠ "")
  if !(← (folder.map Machine.makeFolder).getD (pure true)) then
    return .error ⟨opening, .failed .createDatabaseDir (.badPath (folder.getD place))⟩
  match TableName.check settings.store.tableName with
  | .error fault => return .error ⟨opening, fault⟩
  | .ok _ => performOn settings place command (← Machine.openDatabase place)

/-- Do what a command line asks for. -/
def invoke (env : Environment) (i : Invocation) : m Outcome := do
  match ← loadSettings env i.settingsFile with
  | .error complaint => return .failure ("Failed to load configuration: " ++ complaint.text)
  | .ok settings =>
    match ← startLog (.resolve (some settings.log) i.verbose (env "RUST_LOG")) with
    | .error fault => return .failure ("Failed to initialize logging: " ++ fault.message)
    | .ok _ =>
      let place := (i.database.or settings.store.path).getD (databasePlace env)
      match ← performAt settings place i.command with
      | .error complaint => return .failure ("Error: " ++ complaint.text)
      | .ok out => return { code := 0, out }

/-- How the program is used. -/
def usage : String :=
  linesText [
    "Usage: tierqueue [-v] [-c FILE] [--db FILE] COMMAND",
    "",
    "  queues",
    "  stats ID",
    "  peek ID [-n ENTRIES] [-b BYTES] [--json]",
    "  purge-transient ID",
    "  clear ID",
    "  ping"]

/-- Run the program. -/
def run (args : List String) : m Outcome := do
  let env ← environment
  match Invocation.read (env "TIERQUEUE_CONFIG_PATH") args with
  | .error .misuse => return { code := 2, err := usage }
  | .error .help => return { code := 0, out := usage }
  | .error .version => return { code := 0, out := "tierqueue 0.3.2\n" }
  | .ok i => invoke env i

end Spillway.Cli
