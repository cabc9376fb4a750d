import Spillway.Text.Span

/-!
# Faults

Everything that a call can be refused for, by cause, and the one wording of each cause.
-/

namespace Spillway

/-- What was being done when a call to the database or to the file system failed. -/
inductive Task
  | createTable | addEntries | modifyEntry | getEntries | getEntriesWithLimit | getLowest
  | takeLowest | takeEntries | deleteFirst | deleteEntries | deleteUpTo | deleteTransient
  | deleteAll | getByIds | getAll | getSlots | count | queueNames | ping | connect
  | hold | begin | insertRaw | dropTable
  | readSettings | createDatabaseDir | createLogDir | openLogFile | initLogging
  deriving DecidableEq, Repr

/-- The name under which a task appears in messages. -/
def Task.name : Task → String
  | .createTable => "create_table"
  | .addEntries => "add_entries"
  | .modifyEntry => "modify_entry"
  | .getEntries => "get_entries"
  | .getEntriesWithLimit => "get_entries_with_limit"
  | .getLowest => "get_lowest"
  | .takeLowest => "get_and_delete_lowest"
  | .takeEntries => "take_entries"
  | .deleteFirst => "delete_first_entries"
  | .deleteEntries => "delete_entries"
  | .deleteUpTo => "delete_up_to"
  | .deleteTransient => "delete_all_transient"
  | .deleteAll => "delete_all"
  | .getByIds => "get_entries_by_ids"
  | .getAll => "get_all_entries"
  | .getSlots => "get_entry_slots"
  | .count => "count"
  | .queueNames => "queue_names"
  | .ping => "ping"
  | .connect => "open_sqlite"
  | .hold => "hold"
  | .begin => "begin"
  | .insertRaw => "raw"
  | .dropTable => "drop"
  | .readSettings => "read_config_file"
  | .createDatabaseDir => "create_database_dir"
  | .createLogDir => "create_log_dir"
  | .openLogFile => "open_log_file"
  | .initLogging => "logging_init"

/-- Why a reachable database, or the file system, refused a task. -/
inductive Refusal
  /-- The table does not exist. -/
  | noTable
  /-- No table can have the given name. -/
  | reservedName
  /-- A row that was read has a priority outside the range. -/
  | unreadableRow
  /-- A row of the same queue and id exists. -/
  | duplicateRow
  /-- A total left the range of signed words of 64 bits. -/
  | totalOverflow
  /-- The file of the database is something else. -/
  | notDatabase
  /-- The connection broke while the statement ran. -/
  | brokenOff
  /-- A file or directory could not be read, made or opened. -/
  | badPath (path : String)
  /-- The log was set up before. -/
  | logAlreadySet
  deriving DecidableEq, Repr

/-- The refusal in words. -/
def Refusal.text : Refusal → String
  | .noTable => "no such table"
  | .reservedName => "table name is reserved"
  | .unreadableRow => "priority of a stored row is out of range"
  | .duplicateRow => "row exists already"
  | .totalOverflow => "integer overflow"
  | .notDatabase => "file is not a database"
  | .brokenOff => "disk I/O error"
  | .badPath path => path ++ ": not accessible"
  | .logAlreadySet => "logging already initialized"

/-- Why the database could not be used. -/
inductive Outage
  /-- The link to the database at `place` is known to be lost. -/
  | lost (place : String)
  /-- All `count` connections stayed in use for the whole waiting time. -/
  | exhausted (waitMillis count : Nat)
  /-- A probe found the database switched off. -/
  | switchedOff
  /-- A statement failed, and a probe after it found the database gone. -/
  | duringStatement (refusal : Refusal)
  deriving DecidableEq, Repr

/-- The outage in words. -/
def Outage.text : Outage → String
  | .lost place => "connection to '" ++ place ++ "' lost, reconnect pending"
  | .exhausted wait count =>
    "no connection free after " ++ Text.spanText wait ++ " (" ++ toString count ++
      " open): timed out waiting for connection"
  | .switchedOff => "database switched off"
  | .duringStatement refusal => refusal.text

/-- The bound that a full queue has exceeded. -/
inductive Overflow
  | entries (bound held : Nat)
  | bytes (bound held : Nat)
  deriving DecidableEq, Repr

/-- The overflow in words. -/
def Overflow.text : Overflow → String
  | .entries bound held =>
    "max entries (" ++ toString bound ++ ") exceeded, " ++ toString held ++ " entries held"
  | .bytes bound held =>
    "max bytes (" ++ toString bound ++ ") exceeded, " ++ toString held ++ " bytes held"

/-- What is wrong with a settings text. -/
inductive Flaw
  /-- It cannot be read. -/
  | malformed
  /-- It can be read but sets something unknown, or something known to what it cannot be. -/
  | unfit
  deriving DecidableEq, Repr

/-- The flaw in words. -/
def Flaw.text : Flaw → String
  | .malformed => "not a settings text"
  | .unfit => "unknown field or unfit value"

/-- The reason why a call failed. -/
inductive Fault
  /-- A priority lies outside `0..=9`. -/
  | priorityRange (value : Int)
  /-- A text names no priority. -/
  | priorityText (text : String)
  /-- The first part of a storage id is blank or holds a colon. -/
  | relating (text : String)
  /-- A storage id has no colon. -/
  | noSeparator (text : String)
  /-- A text names no kind of queue. -/
  | queueKind (upper : String)
  /-- There is no queue of a name that can do what was asked. -/
  | unknownQueue (name : String)
  /-- The cache bound on entries is above the outer bound. -/
  | cacheEntries (cache outer : Nat)
  /-- The cache bound on bytes is above the outer bound. -/
  | cacheBytes (cache outer : Nat)
  /-- A table name is no plain identifier. -/
  | tableName (name : String)
  /-- A settings text is of no use. -/
  | settingsText (flaw : Flaw)
  /-- A log filter does not parse. -/
  | logFilter (filter : String)
  /-- A queue holds more than its bounds allow. -/
  | overflow (queue : String) (excess : Overflow)
  /-- A queue is not active. -/
  | inactive (queue : String)
  /-- A reachable database, or the file system, refused a task. -/
  | failed (task : Task) (refusal : Refusal)
  /-- The database could not be used; the call may be repeated later. -/
  | unavailable (task : Task) (outage : Outage)
  deriving DecidableEq, Repr

namespace Fault

/-- The classes of faults that callers tell apart. -/
inductive Kind
  | invalidInput | capacityExceeded | shutdown | configuration | operationFailed
  | resourceUnavailable
  deriving DecidableEq, Repr

/-- The class of a fault. -/
def kind : Fault → Kind
  | .priorityRange _ | .priorityText _ | .relating _ | .noSeparator _ | .queueKind _
  | .unknownQueue _ => .invalidInput
  | .cacheEntries _ _ | .cacheBytes _ _ | .tableName _ | .settingsText _ | .logFilter _ =>
    .configuration
  | .overflow _ _ => .capacityExceeded
  | .inactive _ => .shutdown
  | .failed _ _ => .operationFailed
  | .unavailable _ _ => .resourceUnavailable

/-- Whether repeating the call later may succeed. -/
def isRetryable (fault : Fault) : Bool := fault.kind = .resourceUnavailable

/-- What a fault says, without the words for its class. -/
def detail : Fault → String
  | .priorityRange value => "priority " ++ toString value ++ " is outside 0..=9"
  | .priorityText text => "unknown priority '" ++ text ++ "'"
  | .relating text => "invalid relating type '" ++ text ++ "'"
  | .noSeparator text => "separator ':' not found in storage id '" ++ text ++ "'"
  | .queueKind upper => "unknown queue kind '" ++ upper ++ "', expected RAM, JDBC or CACHE"
  | .unknownQueue name => "no queue '" ++ name ++ "'"
  | .cacheEntries cache outer =>
    "max_entries_cache (" ++ toString cache ++ ") exceeds max_entries (" ++ toString outer ++ ")"
  | .cacheBytes cache outer =>
    "max_bytes_cache (" ++ toString cache ++ ") exceeds max_bytes (" ++ toString outer ++ ")"
  | .tableName name => "invalid table name '" ++ name ++ "'"
  | .settingsText flaw => "invalid config file: " ++ flaw.text
  | .logFilter filter => "invalid log filter '" ++ filter ++ "'"
  | .overflow queue excess => "queue '" ++ queue ++ "' overflow: " ++ excess.text
  | .inactive queue => "queue '" ++ queue ++ "' is shut down"
  | .failed task refusal => "operation '" ++ task.name ++ "' failed: " ++ refusal.text
  | .unavailable task outage =>
    "resource unavailable during '" ++ task.name ++ "': " ++ outage.text

/-- The message of a fault. -/
def message (fault : Fault) : String :=
  match fault.kind with
  | .invalidInput => "invalid input: " ++ fault.detail
  | .configuration => "configuration error: " ++ fault.detail
  | _ => fault.detail

end Fault

/-- Outcomes are compared by what they hold. -/
instance decidableEqOutcome {ε α : Type} [DecidableEq ε] [DecidableEq α] :
    DecidableEq (Except ε α)
  | .ok a, .ok b => if h : a = b then .isTrue (by rw [h]) else .isFalse (by simp [h])
  | .error a, .error b => if h : a = b then .isTrue (by rw [h]) else .isFalse (by simp [h])
  | .ok _, .error _ => .isFalse nofun
  | .error _, .ok _ => .isFalse nofun

end Spillway
