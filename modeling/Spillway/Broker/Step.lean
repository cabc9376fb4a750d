import Spillway.Broker.Basic

/-!
# Steps

Everything that can happen to a broker, as data, so that a history is a list of steps. Each step
has an outcome, and makes hook calls.
-/

namespace Spillway

/-- What can be asked of the table directly, past the queues above it. -/
inductive TableRequest
  | create
  | dropTable
  | ping
  | name
  | addEntry (queue : String) (entry : Entry)
  | addEntries (queue : String) (entries : List Entry)
  | getWindow (queue : String) (window : Window) (band : Band)
  | getBefore (queue : String) (id : UInt64)
  | getIds (queue : String) (ids : List UInt64)
  | takeIds (queue : String) (ids : List UInt64)
  | getAll (queue : String)
  | getLowest (queue : String) (window : Window) (limit : Option Key) (leaveOne : Bool)
  | takeLowest (queue : String) (window : Window) (limit : Option Key) (leaveOne : Bool)
  | deleteAll (queue : String)
  | references (queue : String)
  | tally (queue : String)
  | names
  | insertRow (row : Row)

/-- What a queue is and holds. -/
structure QueueInfo where
  tier : String
  storageId : StorageId
  bounds : Bounds
  closed : Bool
  tally : Tally
  partName : Option String

/-- What a step results in. -/
inductive Result
  | reply (reply : Reply)
  | flag (flag : Bool)
  | flags (flags : List Bool)
  | text (text : String)
  | tally (tally : Tally)
  | tallies (tallies : List (String × Tally))
  | link (link : Link)
  | info (info : QueueInfo)
  | found (endedOutage : Bool)

/-- Answer a request to the table. -/
def TableRequest.ask : TableRequest → Action Store Result
  | .create => do Store.createTable; return .reply .done
  | .dropTable => do Store.dropTable; return .reply .done
  | .ping => do Store.ping; return .reply .done
  | .name => return .text (← get).tableName
  | .addEntry queue entry => do
    let added ← Store.call .addEntries (Statement.addEntries queue [entry])
    return .flag (added.any id)
  | .addEntries queue entries => return .flags (← Store.call .addEntries
    (Statement.addEntries queue entries))
  | .getWindow queue window band => return .reply (.entries (← Store.call .getEntries
    (Statement.getEntries queue window band)))
  | .getBefore queue id => return .reply (.entries (← Store.call .getEntriesWithLimit
    (Statement.getBefore queue id)))
  | .getIds queue ids => return .reply (.entries (← Store.call .getByIds
    (Statement.entriesByIds queue ids)))
  | .takeIds queue ids => return .reply (.entries (← Store.call .takeEntries
    (Statement.takeByIds queue ids)))
  | .getAll queue => return .reply (.entries (← Store.call .getAll (Statement.getAll queue)))
  | .getLowest queue window limit leaveOne => return .reply (.entries (← Store.call .getLowest
    (Statement.getLowest queue window limit leaveOne)))
  | .takeLowest queue window limit leaveOne => return .reply (.entries (← Store.call .takeLowest
    (Statement.takeLowest queue window limit leaveOne)))
  | .deleteAll queue => return .reply (.count (← Store.call .deleteAll
    (Statement.deleteAll queue)))
  | .references queue => return .reply (.ids ((← Store.call .getSlots
    (Statement.getSlots queue)).map idOf))
  | .tally queue => return .tally (← Store.call .count (Statement.count queue))
  | .names => return .tallies (← Store.call .queueNames Statement.queueNames)
  | .insertRow row => do
    Store.call .insertRaw (Statement.insertRow row)
    return .reply (.count 1)

/-- What can happen to a broker. -/
inductive Step
  /-- Make a queue. -/
  | make (name kind storageId : String) (bounds : Option Bounds) (starting : Bool)
  /-- Drop a queue as it is. -/
  | drop (name : String)
  /-- Start the process anew. -/
  | restart
  /-- The database goes away. -/
  | loseDatabase (unnoticed : Bool)
  /-- The database comes back. -/
  | findDatabase
  /-- Look at the link. -/
  | link
  /-- Keep a connection. -/
  | hold
  /-- Give all kept connections back. -/
  | release
  /-- Give a connection back inside a transaction. -/
  | begin
  /-- Ask a queue. -/
  | ask (name : String) (request : Request)
  /-- Look at a queue. -/
  | info (name : String)
  /-- Change an entry in place, in a durable queue. -/
  | modifyEntry (name : String) (entry : Entry)
  /-- Give a queue another put hook, or none. -/
  | setPutHook (name : String) (hook : Option PutHook)
  /-- Register a size watcher. -/
  | watch (name watcher : String)
  /-- Forget a size watcher. -/
  | unwatch (name watcher : String)
  /-- Ask the table. -/
  | table (request : TableRequest)

namespace Broker

/-- Do something with the queue of a name. -/
def withMember (name : String) (b : Broker)
    (act : Member → Except Fault Result × List Call × Broker) :
    Except Fault Result × List Call × Broker :=
  match b.find? name with
  | none => (.error (.unknownQueue name), [], b)
  | some m => act m

/-- An action of a broker as a step that makes no hook calls. -/
def quietly (act : Action Broker Result) (b : Broker) :
    Except Fault Result × List Call × Broker :=
  let (outcome, b) := act.on b
  (outcome, [], b)

/-- What a queue is and holds. -/
def infoOf (q : Queue) : QueueInfo where
  tier := q.tierName
  storageId := Managed.storageId q
  bounds := Managed.bounds q
  closed := (Managed.phase q).isClosed
  tally := Managed.tally q
  partName := q.partName?

/-- Take a step. -/
def step (b : Broker) : Step → Except Fault Result × List Call × Broker
  | .make name kind storageId bounds starting =>
    b.quietly do make name kind storageId bounds starting; return .reply .done
  | .drop name => (.ok (.reply .done), [], b.drop name)
  | .restart => b.quietly do restart; return .reply .done
  | .loseDatabase unnoticed => b.quietly do loseDatabase unnoticed; return .reply .done
  | .findDatabase => b.quietly do return .found (← findDatabase)
  | .link => (.ok (.link b.store.link), [], b)
  | .hold => b.quietly do onStore Store.hold; return .reply .done
  | .release => b.quietly do onStore Store.release; return .reply .done
  | .begin => b.quietly do return .flag (← onStore Store.begin)
  | .ask name request => b.withMember name fun m => b.work m do
    return .reply (← Queue.ask request)
  | .info name => b.withMember name fun m => (.ok (.info (infoOf m.queue)), [], b)
  | .modifyEntry name entry => b.withMember name fun m => b.work m do
    match ← Queue.modifyEntry entry with
    | some changed => return .flag changed
    | none => throw (.unknownQueue name)
  | .setPutHook name hook => b.withMember name fun m =>
    let hooks := Managed.hooks m.queue
    (.ok (.flag hooks.put.isSome), [], b.update m.ticket
      (m.queue.withHooks { hooks with put := hook }))
  | .watch name watcher => b.withMember name fun m =>
    (.ok (.reply .done), [], b.update m.ticket
      (m.queue.withHooks ((Managed.hooks m.queue).watch watcher)))
  | .unwatch name watcher => b.withMember name fun m =>
    let (hooks, was) := (Managed.hooks m.queue).unwatch watcher
    (.ok (.flag was), [], b.update m.ticket (m.queue.withHooks hooks))
  | .table request => b.quietly (onStore request.ask)

/-- The broker after a history. -/
def after (b : Broker) (history : List Step) : Broker :=
  history.foldl (fun b step => (b.step step).2.2) b

/-- A broker over a new store: the name of the table is checked, and a first connection is opened
and kept idle. -/
def create (tableName : String) (settings : LinkSettings) (place : String) (defaults : Bounds) :
    Except Fault Broker := do
  TableName.check tableName
  let store : Store := { tableName, link := { settings, place } }
  return { store := (Store.ping.on store).2, defaults }

end Broker

end Spillway
