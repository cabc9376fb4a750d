import Spillway.Settings.EnvFile
import Spillway.Store.Image
import Spillway.Text.Split

/-!
# Machines

What the command line needs of the machine it runs on: variables, files and databases. A host is a
machine in memory, with a tree of folders, texts and databases.
-/

namespace Spillway

/-- What stands where a database is looked for. -/
inductive Finding
  /-- A database, perhaps a new one without tables. -/
  | tables (tables : Tables)
  /-- Something that can be opened but is no database. -/
  | junk
  /-- Nothing that can be opened. -/
  | nothing

/-- A machine that a program can run on. -/
class Machine (m : Type → Type) where
  /-- The working folder and those above it, nearest first. -/
  workingFolders : m (List String)
  /-- What a variable holds. -/
  held : String → m (Option String)
  /-- What a text file holds, if it can be read. -/
  readText : String → m (Option String)
  /-- Make a folder and those above it; `false` if that is not possible. -/
  makeFolder : String → m Bool
  /-- Open a file for appending, making it if need be; `false` if that is not possible. -/
  openLog : String → m Bool
  /-- Open a database. -/
  openDatabase : String → m Finding
  /-- Keep the tables of a database. -/
  keep : String → Tables → m Unit

/-! ## Paths -/

namespace Path

/-- The steps of a path, from its root or from the working folder. -/
def steps (path : String) : List String :=
  ((Text.splitAt '/' path.toList).map String.ofList).filter fun s => s ≠ "" ∧ s ≠ "."

/-- Whether a path starts at the root. -/
def isAbsolute (path : String) : Bool := path.toList.head? == some '/'

/-- The path of steps. -/
def ofSteps (absolute : Bool) (steps : List String) : String :=
  (if absolute then "/" else "") ++ "/".intercalate steps

/-- The folder that a path lies in, if it has one; that of a lone name is the empty path. -/
def parent? (path : String) : Option String :=
  match steps path with
  | [] => none
  | l => some (ofSteps (isAbsolute path) l.dropLast)

/-- A path below another one. -/
def join (folder name : String) : String :=
  if folder.toList.getLast? = some '/' then folder ++ name else folder ++ "/" ++ name

/-- The steps without those back to the folder above. -/
def settled (steps : List String) : List String :=
  (steps.foldl (fun l s => if s = ".." then l.drop 1 else s :: l) []).reverse

/-- The folder that steps from the root lead to and those above it, nearest first. -/
def upward (steps : List String) : List String :=
  (List.range (steps.length + 1)).map fun i => ofSteps true (steps.take (steps.length - i))

end Path

/-! ## Hosts -/

/-- What stands at a place of a host. -/
inductive Node
  | folder
  | text (contents : String)
  | database (tables : Tables)

/-- A machine in memory. -/
structure Host where
  /-- Steps to the working folder. -/
  working : List String := []
  /-- What variables hold. -/
  holding : List (String × String) := []
  /-- What stands where, by the steps from the root; the root itself is a folder. -/
  nodes : List (List String × Node) := []

namespace Host

/-- The steps from the root to a path. -/
def locate (h : Host) (path : String) : List String :=
  let steps := Path.steps path
  Path.settled (if Path.isAbsolute path then steps else h.working ++ steps)

/-- What stands at a place. -/
def node? (h : Host) (place : List String) : Option Node :=
  if place = [] then some .folder else h.nodes.lookup place

/-- Whether a folder stands at a place. -/
def isFolder (h : Host) (place : List String) : Bool :=
  match h.node? place with
  | some .folder => true
  | _ => false

/-- The host with something at a place. -/
def withNode (h : Host) (place : List String) (node : Node) : Host :=
  { h with nodes := (place, node) :: h.nodes.filter (·.1 ≠ place) }

/-- Make the folders on the way from `above` down the given steps; the first component tells
whether nothing else was in the way. -/
def makeFolders (above : List String) : List String → Host → Bool × Host
  | [], h => (true, h)
  | step :: steps, h =>
    let place := above ++ [step]
    match h.node? place with
    | none => makeFolders place steps (h.withNode place .folder)
    | some .folder => makeFolders place steps h
    | some _ => (false, h)

/-- The host with something at a path, and folders on the way. -/
def withFile (h : Host) (path : String) (node : Node) : Host :=
  let place := h.locate path
  ((makeFolders [] place.dropLast h).2).withNode place node

/-- Open a file for appending. -/
def appendable (h : Host) (path : String) : Bool × Host :=
  let place := h.locate path
  match h.node? place with
  | some .folder => (false, h)
  | some _ => (true, h)
  | none => if h.isFolder place.dropLast then (true, h.withNode place (.text "")) else (false, h)

/-- Open a database. An empty path stands for a database of its own that nobody else sees. -/
def findingAt (h : Host) (path : String) : Finding :=
  if path = "" then .tables []
  else
    let place := h.locate path
    match h.node? place with
    | some (.database tables) => .tables tables
    | some (.text contents) => if contents = "" then .tables [] else .junk
    | some .folder => .nothing
    | none => if h.isFolder place.dropLast then .tables [] else .nothing

instance : Machine (StateM Host) where
  workingFolders := return Path.upward (← get).working
  held name := return (← get).holding.lookup name
  readText path := do
    let h ← get
    match h.node? (h.locate path) with
    | some (.text contents) => return some contents
    | _ => return none
  makeFolder path := modifyGet fun h => makeFolders [] (h.locate path) h
  openLog path := modifyGet fun h => h.appendable path
  openDatabase path := return (← get).findingAt path
  keep path tables := modify fun h =>
    if path = "" then h else h.withNode (h.locate path) (.database tables)

end Host

end Spillway
