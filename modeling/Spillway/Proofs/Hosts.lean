import Mathlib.Order.Defs.Unbundled
import Spillway.Cli.Run

/-!
# Hosts and their rows

What a run does to a host before its command is to read, to make folders and to open a log; none of
this touches a row of any database. Keeping the tables of one database leaves all others, and
another table in it keeps its rows unless it has the same name, in whatever case.
-/

namespace Spillway

/-- Looking up a key in what a filter by keys leaves. -/
theorem lookup_filter_key {κ ν : Type} [BEq κ] [LawfulBEq κ] (keeps : κ → Bool) (key : κ)
    (l : List (κ × ν)) : (l.filter fun entry => keeps entry.1).lookup key =
      if keeps key = true then l.lookup key else none := by
  induction l with
  | nil => simp
  | cons entry l ih =>
    obtain ⟨k, v⟩ := entry
    cases hk : keeps k with
    | true =>
      cases he : key == k with
      | true =>
        obtain rfl := eq_of_beq he
        simp [hk]
      | false => simp [hk, List.lookup_cons, he, ih]
    | false =>
      cases he : key == k with
      | true =>
        obtain rfl := eq_of_beq he
        simp [hk, ih]
      | false => simp [hk, List.lookup_cons, he, ih]

/-- What is set under a name is found under all that differ in case only. -/
theorem Tables.find?_set (t : Tables) (name other : String) (rows : Option (List Row)) :
    (t.set name rows).find? other =
      if folded other = folded name then rows else t.find? other := by
  have hothers : List.lookup (folded other) (t.filter (·.1 ≠ folded name)) =
      if folded other = folded name then none else t.find? other := by
    rw [lookup_filter_key fun key => decide (key ≠ folded name)]
    by_cases h : folded other = folded name
    · simp [h]
    · simp [h, find?]
  cases rows with
  | none =>
    rw [set, find?, hothers]
  | some rows =>
    rw [set, find?, List.lookup_append, hothers]
    by_cases h : folded other = folded name
    · simp [h]
    · have hne : (folded other == folded name) = false := by simpa using h
      simp [h, List.lookup_cons, hne]

/-- The tables of the database that something is, if it is one. -/
def Node.tables : Node → Tables
  | .database tables => tables
  | .folder | .text _ => []

namespace Host

variable {α β : Type} {h h' : Host}

/-- The rows that a host has at a place in the table of a name. -/
def rowsAt (h : Host) (place : List String) (name : String) : List Row :=
  ((((h.node? place).map Node.tables).getD []).find? name).getD []

/-- The rows that are found at a path in the table of a name. -/
def rowsFor (h : Host) (path name : String) : List Row :=
  if path = "" then [] else h.rowsAt (h.locate path) name

/-- Where paths lead is the same on both hosts, and so are the rows of all databases. -/
structure Spares (h h' : Host) : Prop where
  working : h'.working = h.working
  rows : ∀ place name, h'.rowsAt place name = h.rowsAt place name

/-- A host as it is has lost nothing. -/
theorem Spares.refl (h : Host) : h.Spares h := ⟨rfl, fun _ _ => rfl⟩

/-- What is spared twice is spared. -/
theorem Spares.trans {h'' : Host} (hs : h.Spares h') (hs' : h'.Spares h'') : h.Spares h'' :=
  ⟨hs'.working.trans hs.working, fun place name => (hs'.rows place name).trans (hs.rows place name)⟩

/-- Paths lead where they led. -/
theorem Spares.locate (hs : h.Spares h') (path : String) : h'.locate path = h.locate path := by
  rw [Host.locate, Host.locate, hs.working]

/-- The rows that are found at a path are those that were found there. -/
theorem Spares.rowsFor (hs : h.Spares h') (path name : String) :
    h'.rowsFor path name = h.rowsFor path name := by
  rw [Host.rowsFor, Host.rowsFor, hs.locate, hs.rows]

/-- What was put at a place is found there, and all else where it was; nothing is ever put at the
root. -/
theorem node?_withNode (h : Host) (place other : List String) (node : Node) :
    (h.withNode place node).node? other =
      if other ≠ [] ∧ other = place then some node else h.node? other := by
  by_cases hroot : other = []
  · simp [node?, hroot]
  · have hrest : List.lookup other (h.nodes.filter (·.1 ≠ place)) =
        if other = place then none else h.nodes.lookup other := by
      rw [lookup_filter_key fun key => decide (key ≠ place)]
      by_cases hp : other = place <;> simp [hp]
    simp only [node?, withNode, hroot, if_false, List.lookup_cons, hrest]
    by_cases hp : other = place
    · subst hp
      simp [hroot]
    · have hne : (other == place) = false := by simpa using hp
      simp [hp, hne]

/-- The rows of a database that was put at a place are those it came with. -/
theorem rowsAt_withNode (h : Host) (place other : List String) (node : Node) (name : String) :
    (h.withNode place node).rowsAt other name =
      if other ≠ [] ∧ other = place then (node.tables.find? name).getD []
      else h.rowsAt other name := by
  rw [rowsAt, node?_withNode]
  split
  · rfl
  · rfl

/-- Something without tables where nothing was before takes no row. -/
theorem spares_withNode {place : List String} {node : Node} (hn : h.node? place = none)
    (ht : node.tables = []) : h.Spares (h.withNode place node) := by
  refine ⟨rfl, fun other name => ?_⟩
  rw [rowsAt_withNode]
  split
  · next hp => rw [ht, hp.2, rowsAt, hn]; rfl
  · rfl

/-- Making folders takes no rows: a folder is made only where nothing is. -/
theorem spares_makeFolders (above steps : List String) (h : Host) :
    h.Spares (makeFolders above steps h).2 := by
  induction steps generalizing above h with
  | nil => exact .refl h
  | cons step steps ih =>
    rw [makeFolders]
    split
    · next hn => exact (spares_withNode hn rfl).trans (ih _ _)
    · exact ih _ _
    · exact .refl h

/-- Opening a file to append to it makes it only where nothing is. -/
theorem spares_appendable (path : String) (h : Host) : h.Spares (h.appendable path).2 := by
  simp only [appendable]
  split
  · exact .refl h
  · exact .refl h
  · next hn =>
    split
    · exact spares_withNode hn rfl
    · exact .refl h

/-- A database that is found at a path has the rows that are found there. -/
theorem rows_of_findingAt {path : String} {tables : Tables} (hf : h.findingAt path = .tables tables)
    (name : String) : (tables.find? name).getD [] = h.rowsFor path name := by
  rw [rowsFor]
  simp only [findingAt] at hf
  split at hf
  · next hp =>
    cases hf
    rw [if_pos hp]
    rfl
  · next hp =>
    rw [if_neg hp, rowsAt]
    split at hf
    · next hn => cases hf; rw [hn]; rfl
    · next hn =>
      split at hf
      · cases hf; rw [hn]; rfl
      · cases hf
    · cases hf
    · next hn =>
      split at hf
      · cases hf; rw [hn]; rfl
      · cases hf

/-- No database is at the root. -/
theorem locate_ne_of_findingAt {path : String} {tables : Tables} (hp : path ≠ "")
    (hf : h.findingAt path = .tables tables) : h.locate path ≠ [] := by
  intro hroot
  rw [findingAt, if_neg hp, hroot] at hf
  cases hf

/-! ## Actions on hosts -/

instance : Std.Refl Spares := ⟨.refl⟩

instance : IsTrans Host Spares := ⟨fun _ _ _ => .trans⟩

/-- An action that leaves a host in a relation to what it was. -/
def Keeps (R : Host → Host → Prop) (act : StateM Host α) : Prop := ∀ h, R h (act.run h).2

section

variable {R : Host → Host → Prop}

/-- What is kept by one action and by the next is kept by both together. -/
theorem Keeps.bind [IsTrans Host R] {act : StateM Host α} {next : α → StateM Host β}
    (ha : Keeps R act) (hn : ∀ a, Keeps R (next a)) : Keeps R (act >>= next) :=
  fun h => IsTrans.trans _ _ _ (ha h) (hn _ _)

variable [Std.Refl R]

/-- To give a result keeps everything. -/
theorem keeps_pure (a : α) : Keeps R (pure a) := Std.Refl.refl

/-- So does asking where the program runs. -/
theorem keeps_workingFolders : Keeps R (Machine.workingFolders : StateM Host (List String)) :=
  Std.Refl.refl

/-- So does asking for a variable. -/
theorem keeps_held (name : String) : Keeps R (Machine.held name : StateM Host (Option String)) :=
  Std.Refl.refl

/-- So does reading a file, whether or not it is there. -/
theorem keeps_readText (path : String) :
    Keeps R (Machine.readText path : StateM Host (Option String)) := by
  intro h
  have hleft : ((Machine.readText path : StateM Host (Option String)).run h).2 = h := by
    simp only [Machine.readText, StateT.run_bind, StateT.run_get, pure_bind]
    split <;> rfl
  rw [hleft]
  exact Std.Refl.refl h

/-- So does looking for a database. -/
theorem keeps_openDatabase (path : String) :
    Keeps R (Machine.openDatabase path : StateM Host Finding) :=
  Std.Refl.refl

variable [IsTrans Host R]

/-- Doing something for each member of a list keeps what is kept each time. -/
theorem keeps_mapM {act : α → StateM Host β} (ha : ∀ a, Keeps R (act a)) (l : List α) :
    Keeps R (l.mapM act) :=
  mapM_closed (Keeps R) keeps_pure Keeps.bind ha l

/-- So it is if some of the results are dropped. -/
theorem keeps_filterMapM {act : α → StateM Host (Option β)} (ha : ∀ a, Keeps R (act a))
    (l : List α) : Keeps R (l.filterMapM act) := by
  induction l with
  | nil => exact keeps_pure []
  | cons a l ih =>
    rw [List.filterMapM_cons]
    refine (ha a).bind fun b => ?_
    cases b with
    | none => exact ih
    | some b => exact ih.bind fun bs => keeps_pure (b :: bs)

/-- And if each action depends on what came of those before. -/
theorem keeps_foldlM {act : β → α → StateM Host β} (ha : ∀ b a, Keeps R (act b a)) (l : List α)
    (b : β) : Keeps R (l.foldlM act b) := by
  induction l generalizing b with
  | nil => exact keeps_pure b
  | cons a l ih =>
    rw [List.foldlM_cons]
    exact (ha b a).bind ih

/-- And if an action may be the last one. -/
theorem keeps_forIn {act : α → β → StateM Host (ForInStep β)} (ha : ∀ a b, Keeps R (act a b))
    (l : List α) (b : β) : Keeps R (forIn l b act) := by
  induction l generalizing b with
  | nil => exact keeps_pure b
  | cons a l ih =>
    rw [List.forIn_cons]
    refine (ha a b).bind fun step => ?_
    cases step with
    | done b => exact keeps_pure b
    | yield b => exact ih b

/-! ## Stages that only read -/

open Cli

/-- Looking for the file of the environment changes nothing, however far up it is. -/
theorem keeps_environmentFile : Keeps R (environmentFile : StateM Host (Option String)) := by
  refine keeps_workingFolders.bind fun folders => (keeps_forIn (fun folder _ => ?_) _ _).bind ?_
  · refine (keeps_readText _).bind fun text => ?_
    cases text with
    | none => exact keeps_pure _
    | some text => exact keeps_pure _
  · rintro ⟨_ | text, _⟩ <;> exact keeps_pure _

/-- Nor does asking for a variable that may have been added. -/
theorem keeps_heldWith (added : List (String × String)) (name : String) :
    Keeps R (heldWith added name : StateM Host (Option String)) := by
  refine (keeps_held name).bind fun value => ?_
  cases value with
  | none => exact keeps_pure _
  | some value => exact keeps_pure _

/-- Nor does adding the settings of that file, which the host does not know of. -/
theorem keeps_addedBy (settings : List EnvFile.Setting) :
    Keeps R (addedBy settings : StateM Host (List (String × String))) := by
  refine keeps_foldlM (fun added setting => (keeps_mapM (fun piece => ?_) _).bind fun pieces =>
    (keeps_heldWith _ _).bind fun value => ?_) settings []
  · cases piece with
    | char c => exact keeps_pure _
    | held name => exact (keeps_heldWith _ _).bind fun _ => keeps_pure _
  · cases value with
    | none => exact keeps_pure _
    | some value => exact keeps_pure _

/-- So the environment is gathered without changing anything. -/
theorem keeps_environment : Keeps R (environment : StateM Host Environment) :=
  keeps_environmentFile.bind fun _ => (keeps_addedBy _).bind fun _ =>
    (keeps_mapM (fun _ => (keeps_heldWith _ _).bind fun _ => keeps_pure _) _).bind fun _ =>
      keeps_pure _

/-- And so are the settings. -/
theorem keeps_loadSettings (env : Environment) (named : Option String) :
    Keeps R (loadSettings env named : StateM Host (Except Complaint Settings)) := by
  cases named with
  | none =>
    exact (keeps_filterMapM keeps_readText _).bind fun _ =>
      (keeps_pure _).bind fun _ => keeps_pure _
  | some path =>
    exact (keeps_readText path).bind fun _ => (keeps_pure _).bind fun _ => keeps_pure _

end

/-! ## Stages that make what is missing -/

/-- Making a folder spares all rows. -/
theorem keeps_makeFolder (path : String) :
    Keeps Spares (Machine.makeFolder path : StateM Host Bool) :=
  fun h => spares_makeFolders [] (h.locate path) h

/-- So does opening the log. -/
theorem keeps_openLog (path : String) :
    Keeps Spares (Machine.openLog path : StateM Host Bool) :=
  fun h => spares_appendable path h

/-- So does making a folder only if one is wanted. -/
theorem keeps_makeFolder? (folder : Option String) :
    Keeps Spares ((folder.map Machine.makeFolder).getD (pure true) : StateM Host Bool) := by
  cases folder with
  | none => exact keeps_pure true
  | some path => exact keeps_makeFolder path

/-- So the log is started without touching a row. -/
theorem keeps_startLog (plan : LogPlan) :
    Keeps Spares (Cli.startLog plan : StateM Host (Except Fault Unit)) := by
  unfold Cli.startLog
  split
  · exact keeps_pure _
  · exact keeps_pure _
  · refine (keeps_makeFolder? _).bind fun made => ?_
    cases made with
    | false => exact keeps_pure _
    | true =>
      refine (keeps_openLog _).bind fun opened => ?_
      cases opened with
      | false => exact keeps_pure _
      | true => exact keeps_pure _

end Host

end Spillway
