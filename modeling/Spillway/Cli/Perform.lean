import Spillway.Cli.Command
import Spillway.Cli.Report
import Spillway.Queue.Durable

/-!
# Commands at work

A command works on the store. One that names a queue opens it as a durable queue, whatever wrote
its rows, so that looking at a queue never removes anything from it.
-/

namespace Spillway.Cli

/-- Why a command failed. -/
structure Complaint where
  /-- What failed. -/
  during : String
  /-- Why it failed. -/
  cause : Fault
  deriving DecidableEq

/-- The complaint in words. -/
def Complaint.text (c : Complaint) : String := c.during ++ ": " ++ c.cause.message

/-- Work on a state of type `σ` that may end in a complaint. -/
abbrev Job (σ α : Type) := ExceptT Complaint (StateM σ) α

variable {σ α : Type}

/-- Do an action as a part of a job. -/
def during (what : String) (act : Action σ α) : Job σ α :=
  ExceptT.mk (StateT.mk fun s =>
    let (outcome, s) := act.on s
    (outcome.mapError (Complaint.mk what ·), s))

/-- Open the queue of a written id, do a job on it and close it. -/
def onQueue (bounds : Bounds) (idText : String) (job : StorageId → Job (Desk Durable) String) :
    Job Store String := do
  let id ← during ("invalid storage id '" ++ idText ++ "'")
    (Action.require (StorageId.parse idText))
  let opening := "failed to open queue '" ++ id.text ++ "'"
  let queue ← during opening (Action.require (Durable.create id bounds))
  ExceptT.mk (StateT.mk fun (s : Store) =>
    let work : Job (Desk Durable) String := do
      during opening Durable.start
      let text ← job id
      during "failed to close queue" Durable.shutdown
      return text
    let (outcome, d) := work.run.run { queue, store := s }
    (outcome, d.store))

/-- Perform a command; the result is what it prints. -/
def perform (bounds : Bounds) : Command → Job Store String
  | .queues => do
    let queues ← during "failed to list queues" (Store.call .queueNames Statement.queueNames)
    return queuesReport (← get).link.place queues
  | .stats id => onQueue bounds id fun id => do
    let tally := (← get).queue.tally
    let first ← during "failed to read queue head" (Durable.peek { entries := some 1 } .all)
    return statsReport id.text tally first.head?
  | .peek id entries bytes json => onQueue bounds id fun id => do
    let found ← during "failed to peek" (Durable.peek (.ofInts entries bytes) .all)
    return if json then entriesJson found else entriesReport id.text found
  | .purgeTransient id => onQueue bounds id fun id => do
    let removed ← during "failed to remove transient entries" Durable.removeTransient
    return linesText [
      "Removed " ++ toString removed ++ " transient entries from '" ++ id.text ++ "'"]
  | .clear id => onQueue bounds id fun id => do
    let removed ← during "failed to clear queue" Durable.clear
    return linesText ["Removed " ++ toString removed ++ " entries from '" ++ id.text ++ "'"]
  | .ping => do
    let place := (← get).link.place
    during (place ++ " is unreachable") Store.ping
    return linesText ["ok: " ++ place]

/-- What a command comes to where the database file can be opened but is no database: a probe
succeeds, and the first statement that asks for a table finds out. -/
def performOnJunk (place : String) (command : Command) : Except Complaint String :=
  let gone (task : Task) := Fault.unavailable task (.duringStatement .notDatabase)
  match command with
  | .queues => .error ⟨"failed to list queues", gone .queueNames⟩
  | .ping => .ok (linesText ["ok: " ++ place])
  | .stats id | .peek id _ _ _ | .purgeTransient id | .clear id =>
    match StorageId.parse id with
    | .error fault => .error ⟨"invalid storage id '" ++ id ++ "'", fault⟩
    | .ok id => .error ⟨"failed to open queue '" ++ id.text ++ "'", gone .createTable⟩

end Spillway.Cli
