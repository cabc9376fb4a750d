/-!
# The link to the database

A link keeps a few connections open and hands them out. Once a probe has found the database gone,
the link counts as lost: every call is refused at once, and attempts to reach the database are made,
until one of them succeeds. A link whose connections are all in use is busy, not lost.

The database may go away and come back between any two calls, also between two calls of one piece of
work, it may go away while a statement runs, and others may take and return connections meanwhile.
A forecast says when, so that what holds under every forecast holds whatever the database and the
others do.
-/

namespace Spillway

/-- How a link works. -/
structure LinkSettings where
  /-- Most connections open at a time. -/
  connections : Nat := 4
  /-- How long a call waits for a connection. -/
  waitMillis : Nat := 5000
  /-- Pause between two attempts to reach a lost database. -/
  retryMillis : Nat := 1000
  /-- Whether an idle connection is probed before it is handed out. -/
  testFirst : Bool := true
  deriving DecidableEq, Repr

/-- The settings with another number of connections; there is always at least one. -/
def LinkSettings.withConnections (s : LinkSettings) (n : Nat) : LinkSettings :=
  { s with connections := max n 1 }

/-- What changes about a link without the caller's doing. -/
structure Weather where
  /-- Whether connecting and probing succeed. -/
  reachable : Bool
  /-- Open connections that nobody uses. -/
  idle : Nat
  /-- Open connections in use. -/
  busy : Nat
  /-- Whether the connection breaks before the work of the call is committed. -/
  cutsOff : Bool := false
  deriving DecidableEq, Repr

/-- The state of a link. -/
structure Link where
  /-- How it works. -/
  settings : LinkSettings := {}
  /-- Where the database is, as messages show it. -/
  place : String := ":memory:"
  /-- Whether connecting and probing succeed at present. -/
  reachable : Bool := true
  /-- What each of the next calls finds; from then on nothing changes by itself. -/
  forecast : List Weather := []
  /-- Whether the database is believed to be there. -/
  available : Bool := true
  /-- Whether attempts to reach it again are being made. -/
  retrying : Bool := false
  /-- Open connections that nobody uses. -/
  idle : Nat := 0
  /-- Open connections in use. -/
  busy : Nat := 0
  /-- Who is told when the database is there again, in the order of registration. -/
  watchers : List Nat := []
  deriving DecidableEq, Repr

namespace Link

/-- The link under other weather. -/
def under (l : Link) (w : Weather) : Link :=
  { l with reachable := w.reachable, idle := w.idle, busy := w.busy }

/-- The link at the next call: the first part of the forecast has come true. -/
def advance (l : Link) : Link :=
  match l.forecast with
  | [] => l
  | weather :: forecast => { l.under weather with forecast }

/-- Whether the connection of the next call breaks while its statement runs. -/
def cutsOff (l : Link) : Bool := l.forecast.head?.any Weather.cutsOff

/-- Hand out a connection: an idle one, if it need not be probed or stands the probe, or else a
new one, if there is room for it. The first component tells whether one was handed out. Idle
connections that do not stand the probe are closed. -/
def acquire (l : Link) : Bool × Link :=
  let l := if l.settings.testFirst && !l.reachable then { l with idle := 0 } else l
  if 0 < l.idle then (true, { l with idle := l.idle - 1, busy := l.busy + 1 })
  else if l.reachable && l.idle + l.busy < l.settings.connections then
    (true, { l with busy := l.busy + 1 })
  else (false, l)

/-- Take back a connection for further use. -/
def giveBack (l : Link) : Link := { l with idle := l.idle + 1, busy := l.busy - 1 }

/-- Take back a connection and close it. -/
def discard (l : Link) : Link := { l with busy := l.busy - 1 }

/-- Take back all connections for further use. -/
def giveBackAll (l : Link) : Link := { l with idle := l.idle + l.busy, busy := 0 }

/-- Register someone to be told when the database is there again. -/
def register (l : Link) (watcher : Nat) : Link := { l with watchers := l.watchers ++ [watcher] }

/-- Forget all watchers that are not alive. -/
def prune (l : Link) (alive : Nat → Bool) : Link :=
  { l with watchers := l.watchers.filter alive }

end Link

end Spillway
