import Spillway.Action
import Spillway.Store.Link
import Spillway.Table.Name
import Spillway.Table.Statement

/-!
# The store

The one table that all queues share, the link to it, and counts of what happened. A call to the
store either runs a statement, or fails: with `unavailable` where no connection could be had, or
it broke, or the database is gone, with `failed` where a reachable database refused the statement. A
call that fails changes no row.
-/

namespace Spillway

/-- Counts of noteworthy events. -/
structure Totals where
  /-- Puts refused because a queue was over its bounds. -/
  rejected : Nat := 0
  /-- Entries moved out of memory to make room. -/
  spilled : Nat := 0
  /-- Entries copied into memory. -/
  promoted : Nat := 0
  /-- Rows held back because the database could not be used. -/
  deferred : Nat := 0
  /-- Times the database was found gone. -/
  lost : Nat := 0
  /-- Times it was found again. -/
  reconnected : Nat := 0
  deriving DecidableEq, Repr

/-- The table, the link to it and the counts. -/
structure Store where
  /-- Name of the table. -/
  tableName : String := TableName.standard
  /-- The rows, if the table exists. -/
  table : Option (List Row) := none
  /-- The link to the database. -/
  link : Link := {}
  /-- Counts of events. -/
  totals : Totals := {}
  deriving DecidableEq

namespace Store

/-- The rows of the table; none if it does not exist. -/
def rows (s : Store) : List Row := s.table.getD []

/-- Count the link as lost, and begin to try to reach the database again. -/
def markLost (s : Store) : Store :=
  if s.link.available then
    { s with
      link := { s.link with available := false, retrying := true }
      totals := { s.totals with lost := s.totals.lost + 1 } }
  else s

/-- Count the link as there again. -/
def markFound (s : Store) : Store :=
  { s with
    link := { s.link with available := true, retrying := false }
    totals := { s.totals with reconnected := s.totals.reconnected + 1 } }

/-- Get hold of a connection. If none comes free in time, a probe tells a busy link from a lost
one. -/
def checkout (task : Task) : Action Store Unit := .of fun s =>
  let s := { s with link := s.link.advance }
  if !s.link.available then (.error (.unavailable task (.lost s.link.place)), s)
  else
    let (got, link) := s.link.acquire
    let s := { s with link }
    if got then (.ok (), s)
    else if link.reachable then
      (.error (.unavailable task
        (.exhausted link.settings.waitMillis (link.idle + link.busy))), s)
    else (.error (.unavailable task (.lost link.place)), s.markLost)

/-- Give a connection back. -/
def checkin : Action Store Unit := modify fun s => { s with link := s.link.giveBack }

/-- Report a refused statement; a probe tells whether the database is still there. -/
def refuse {α : Type} (task : Task) (refusal : Refusal) : Action Store α := .of fun s =>
  if s.link.reachable then (.error (.failed task refusal), s)
  else (.error (.unavailable task (.duringStatement refusal)), s.markLost)

/-- Report that the connection broke while the statement ran; the database has undone the work. -/
def breakOff {α : Type} (task : Task) : Action Store α := .of fun s =>
  (.error (.unavailable task (.duringStatement .brokenOff)), s.markLost)

/-- Run work on the table, which need not exist. -/
def run {α : Type} (task : Task)
    (work : Option (List Row) → Except Refusal (α × Option (List Row))) : Action Store α := do
  let cut := (← get).link.cutsOff
  checkout task
  if cut then
    checkin
    breakOff task
  else match work (← get).table with
  | .ok (result, table) =>
    modify fun s => { s with table }
    checkin
    return result
  | .error refusal =>
    checkin
    refuse task refusal

/-- Run a statement on the table. -/
def call {α : Type} (task : Task) (statement : Statement α) : Action Store α :=
  run task fun table =>
    match table with
    | none => .error .noTable
    | some rows => (statement rows).map fun (result, rows) => (result, some rows)

/-- Make the table if it does not exist. -/
def createTable : Action Store Unit := do
  let name := (← get).tableName
  run .createTable fun table =>
    if TableName.isReserved name then .error .reservedName else .ok ((), some (table.getD []))

/-- Delete the table with all its rows. -/
def dropTable : Action Store Unit := do
  run .dropTable fun table =>
    match table with
    | none => .error .noTable
    | some _ => .ok ((), none)

/-- Probe the database. -/
def ping : Action Store Unit := do
  checkout .ping
  checkin
  let s ← get
  unless s.link.reachable do
    set s.markLost
    throw (.unavailable .ping .switchedOff)

/-- Get hold of a connection and keep it. -/
def hold : Action Store Unit := checkout .hold

/-- Give all kept connections back. -/
def release : Action Store Unit := modify fun s => { s with link := s.link.giveBackAll }

/-- Begin a transaction on a connection and give the connection back as it is. The transaction
is undone and the connection closed, because a connection inside a transaction is not used
again. The result tells whether the connection was outside a transaction. -/
def begin : Action Store Bool := do
  checkout .begin
  modify fun s => { s with link := s.link.discard }
  return false

end Store

end Spillway
