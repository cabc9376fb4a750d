import Spillway.Proofs.Commands
import Spillway.Proofs.Hosts
import Spillway.Proofs.Layers

/-!
# Runs of the program and the rows of a host

A run reads the environment and its arguments, loads settings, opens a log and a database, and only
then performs its command. Whatever it comes to, it touches the rows of one table at most, and of
these only a part of the queue that a removing command names. Main statement:
`command_lines_keep_to_their_rows`.
-/

namespace Spillway.Cli

open Host

section Stages

variable {m : Type → Type} [Monad m] [Machine m]

/-- Where the database of a run is. -/
def databaseOf (env : Environment) (i : Invocation) (settings : Settings) : String :=
  (i.database.or settings.store.path).getD (databasePlace env)

/-- Make the folder of a database and open it, unless no table can have the name that is set. -/
def openAt (settings : Settings) (place : String) : m (Except Complaint Finding) := do
  let opening := "failed to open queue store"
  let folder := (Path.parent? place).filter (· ≠ "")
  if !(← (folder.map Machine.makeFolder).getD (pure true)) then
    return .error ⟨opening, .failed .createDatabaseDir (.badPath (folder.getD place))⟩
  match TableName.check settings.store.tableName with
  | .error fault => return .error ⟨opening, fault⟩
  | .ok _ => return .ok (← Machine.openDatabase place)

/-- All that a run does before its command: what it finds, or why it ends. -/
def approach (env : Environment) (i : Invocation) : m (Except Outcome (Settings × Finding)) := do
  match ← loadSettings env i.settingsFile with
  | .error complaint =>
    return .error (.failure ("Failed to load configuration: " ++ complaint.text))
  | .ok settings =>
    match ← startLog (.resolve (some settings.log) i.verbose (env "RUST_LOG")) with
    | .error fault => return .error (.failure ("Failed to initialize logging: " ++ fault.message))
    | .ok _ =>
      match ← openAt settings (databaseOf env i settings) with
      | .error complaint => return .error (.failure ("Error: " ++ complaint.text))
      | .ok finding => return .ok (settings, finding)

/-- What a run comes to by its command. -/
def conclusion : Except Complaint String → Outcome
  | .error complaint => .failure ("Error: " ++ complaint.text)
  | .ok out => { code := 0, out }

/-- To perform a command at a place is to open what is there and perform the command on it. -/
theorem performAt_eq [LawfulMonad m] (settings : Settings) (place : String) (command : Command) :
    (performAt settings place command : m _) = openAt settings place >>= fun opened =>
      match opened with
      | .error complaint => pure (.error complaint)
      | .ok finding => performOn settings place command finding := by
  simp only [performAt, openAt, bind_assoc]
  refine bind_congr fun made => ?_
  cases made with
  | false => simp
  | true =>
    cases TableName.check settings.store.tableName with
    | error fault => simp
    | ok _ => simp

/-- A run approaches its command and performs it. -/
theorem invoke_eq [LawfulMonad m] (env : Environment) (i : Invocation) :
    (invoke env i : m Outcome) = approach env i >>= fun reached =>
      match reached with
      | .error outcome => pure outcome
      | .ok (settings, finding) =>
        conclusion <$> performOn settings (databaseOf env i settings) i.command finding := by
  simp only [invoke, approach, bind_assoc]
  refine bind_congr fun loaded => ?_
  cases loaded with
  | error complaint => simp
  | ok settings =>
    simp only [bind_assoc]
    refine bind_congr fun started => ?_
    cases started with
    | error fault => simp
    | ok _ =>
      simp only [performAt_eq, bind_assoc, databaseOf]
      refine bind_congr fun opened => ?_
      cases opened with
      | error complaint => simp
      | ok finding =>
        dsimp only
        rw [pure_bind]
        dsimp only
        rw [map_eq_pure_bind]
        refine bind_congr fun result => ?_
        cases result <;> rfl

end Stages

/-! ## What the stages leave -/

variable {α β : Type}

/-- Opening makes folders only where nothing is. -/
theorem keeps_openAt (settings : Settings) (place : String) :
    Keeps Spares (openAt settings place : StateM Host (Except Complaint Finding)) := by
  refine (keeps_makeFolder? _).bind fun made => ?_
  cases made with
  | false => exact keeps_pure _
  | true =>
    simp only [Bool.not_true, Bool.false_eq_true, if_false]
    split
    · exact keeps_pure _
    · exact (keeps_openDatabase place).bind fun _ => keeps_pure _

/-- Nothing that a run does before its command takes a row. -/
theorem keeps_approach (env : Environment) (i : Invocation) :
    Keeps Spares (approach env i : StateM Host (Except Outcome (Settings × Finding))) := by
  refine (keeps_loadSettings env i.settingsFile).bind fun loaded => ?_
  cases loaded with
  | error complaint => exact keeps_pure _
  | ok settings =>
    refine (keeps_startLog _).bind fun started => ?_
    cases started with
    | error fault => exact keeps_pure _
    | ok _ =>
      refine (keeps_openAt _ _).bind fun opened => ?_
      cases opened with
      | error complaint => exact keeps_pure _
      | ok finding => exact keeps_pure _

/-- What an action gives and the host it leaves. -/
def Results (post : α → Host → Prop) (act : StateM Host α) : Prop :=
  ∀ h, post (act.run h).1 (act.run h).2

section

variable {post : β → Host → Prop} {act : StateM Host α} {next : α → StateM Host β}

/-- An action that does nothing but give a result leaves every host. -/
theorem results_pure {b : β} (h : ∀ s, post b s) : Results post (pure b) := h

/-- What is known of one action is at hand for the next. -/
theorem Results.bind {mid : α → Host → Prop} (ha : Results mid act)
    (hn : ∀ a h, mid a h → post ((next a).run h).1 ((next a).run h).2) :
    Results post (act >>= next) := fun h => hn _ _ (ha h)

/-- So is what is known of its result alone. -/
theorem Results.seq {mid : α → Prop} (ha : Results (fun a _ => mid a) act)
    (hn : ∀ a, mid a → Results post (next a)) : Results post (act >>= next) :=
  ha.bind fun a h hm => hn a hm h

/-- What is known of the second action alone is known of both. -/
theorem results_after (hn : ∀ a, Results post (next a)) : Results post (act >>= next) :=
  fun _ => hn _ _

end

/-- Settings that were loaded have consistent bounds. -/
theorem loadSettings_consistent (env : Environment) (named : Option String) :
    Results (fun loaded _ => ∀ s : Settings, loaded = .ok s → s.bounds.Consistent)
      (loadSettings env named) := by
  have habove : ∀ {e : Except Complaint Settings}, (∀ s, e = .ok s → s.bounds.Consistent) →
      ∀ s, e.map (Settings.withEnvironment env) = .ok s → s.bounds.Consistent := by
    intro e he s hs
    cases e with
    | error complaint => cases hs
    | ok below =>
      cases hs
      exact Settings.bounds_consistent_withEnvironment env (he below rfl)
  cases named with
  | none =>
    refine results_after fun texts => results_pure fun _ => habove ?_
    rintro _ ⟨⟩
    obtain ⟨file, -, hfirst, hc⟩ := Settings.firstOf_says texts
    rw [hfirst]
    exact hc
  | some path =>
    refine results_after fun text => results_pure fun _ => habove fun s hs => ?_
    cases text with
    | none => cases hs
    | some text =>
      cases hp : Settings.parse text with
      | error fault =>
        simp only [hp] at hs
        cases hs
      | ok below =>
        simp only [hp] at hs
        cases hs
        exact Settings.bounds_consistent_of_parse hp

/-- The database is opened as it is found. -/
theorem openAt_found (settings : Settings) (place : String) :
    Results (fun opened h => ∀ finding, opened = .ok finding → finding = h.findingAt place)
      (openAt settings place) := by
  refine results_after fun made => ?_
  cases made with
  | false => exact results_pure fun _ => nofun
  | true =>
    simp only [Bool.not_true, Bool.false_eq_true, if_false]
    split
    · exact results_pure fun _ => nofun
    · rintro h finding ⟨⟩
      rfl

/-- A run gets to its command with consistent bounds, and with the database as it is found then. -/
theorem approach_found (env : Environment) (i : Invocation) :
    Results (fun reached h => ∀ settings finding, reached = .ok (settings, finding) →
      settings.bounds.Consistent ∧ finding = h.findingAt (databaseOf env i settings))
      (approach env i) := by
  refine (loadSettings_consistent env i.settingsFile).seq fun loaded hc => ?_
  cases loaded with
  | error complaint => exact results_pure fun _ => nofun
  | ok settings =>
    refine results_after fun started => ?_
    cases started with
    | error fault => exact results_pure fun _ => nofun
    | ok _ =>
      refine (openAt_found settings _).bind fun opened h hfound => ?_
      cases opened with
      | error complaint => exact nofun
      | ok finding =>
        rintro _ _ ⟨⟩
        exact ⟨hc settings rfl, hfound finding rfl⟩

/-! ## Commands on databases -/

/-- The store that a command works on where a database was opened. -/
def formerStore (settings : Settings) (place : String) (tables : Tables) : Store where
  tableName := settings.store.tableName
  table := tables.find? settings.store.tableName
  link := { settings := settings.store.effectiveLink, place }

/-- The link to a database that was opened serves. -/
theorem serving_formerStore (settings : Settings) (place : String) (tables : Tables) :
    (formerStore settings place tables).link.Serving :=
  ⟨rfl, rfl, rfl, .inr (Nat.lt_of_lt_of_le Nat.zero_lt_one (Nat.le_max_right _ _))⟩

variable {settings : Settings} {place : String} {command : Command} {tables : Tables} {h h' : Host}

/-- A command at work where a database was opened. -/
def performed (settings : Settings) (place : String) (tables : Tables) (command : Command) :
    Except Complaint String × Store :=
  Job.on (perform settings.bounds command) (formerStore settings place tables)

/-- The store that a command works on where nothing can be opened. -/
def missingStore (settings : Settings) (place : String) : Store where
  tableName := settings.store.tableName
  link := { settings := settings.store.effectiveLink, place, reachable := false }

/-- The link to one that cannot be opened is barred. -/
theorem barred_missingStore (settings : Settings) (place : String) :
    (missingStore settings place).link.Barred :=
  Link.barred_of_unreachable rfl rfl rfl

/-- What is no database is left as it is. -/
theorem performOn_junk (settings : Settings) (place : String) (command : Command) (h : Host) :
    (performOn settings place command .junk : StateM Host _).run h =
      (performOnJunk place command, h) := rfl

/-- Where nothing can be opened a command works on a store that it cannot reach. -/
theorem performOn_nothing (settings : Settings) (place : String) (command : Command) (h : Host) :
    (performOn settings place command .nothing : StateM Host _).run h =
      ((Job.on (perform settings.bounds command) (missingStore settings place)).1, h) := rfl

/-- What was found is worked on, and the host keeps what has changed. -/
theorem performOn_tables (settings : Settings) (place : String) (command : Command)
    (tables : Tables) (h : Host) :
    (performOn settings place command (.tables tables) : StateM Host _).run h =
      ((performed settings place tables command).1,
        if (performed settings place tables command).2.table ≠
            (formerStore settings place tables).table then
          if place = "" then h
          else h.withNode (h.locate place) (.database (tables.set settings.store.tableName
            (performed settings place tables command).2.table))
        else h) := by
  have hrun : (performOn settings place command (.tables tables) : StateM Host _).run h =
      ((if (performed settings place tables command).2.table ≠
            (formerStore settings place tables).table then do
          Machine.keep place (tables.set settings.store.tableName
            (performed settings place tables command).2.table)
          return (performed settings place tables command).1
        else return (performed settings place tables command).1 : StateM Host _)).run h := rfl
  rw [hrun]
  split <;> rfl

/-- The rows that a command finds are those that the host has in the table of its database. -/
theorem rows_formerStore (hf : h.findingAt place = .tables tables) {other : List String}
    {name : String} (hnamed : place ≠ "" ∧ other = h.locate place ∧
      Tables.folded name = Tables.folded settings.store.tableName) :
    (formerStore settings place tables).rows = h.rowsAt other name := by
  obtain ⟨hp, ho, hn⟩ := hnamed
  have hfound := rows_of_findingAt hf name
  rw [rowsFor, if_neg hp, ← ho, Tables.find?, hn] at hfound
  exact hfound

/-- A command changes the rows of its table only. -/
theorem rowsAt_performOn (hf : h.findingAt place = .tables tables) (command : Command)
    (other : List String) (name : String) :
    ((performOn settings place command (.tables tables) : StateM Host _).run h).2.rowsAt
        other name =
      if place ≠ "" ∧ other = h.locate place ∧
          Tables.folded name = Tables.folded settings.store.tableName then
        (performed settings place tables command).2.rows
      else h.rowsAt other name := by
  let latter := (performed settings place tables command).2
  let former := formerStore settings place tables
  rw [performOn_tables]
  dsimp only
  by_cases hkept : latter.table ≠ former.table
  · rw [if_pos hkept]
    by_cases hp : place = ""
    · rw [if_pos hp, if_neg fun hnamed => hnamed.1 hp]
    · rw [if_neg hp, rowsAt_withNode, Node.tables, Tables.find?_set]
      by_cases ho : other = h.locate place
      · have hroot : other ≠ [] := ho ▸ locate_ne_of_findingAt hp hf
        rw [if_pos ⟨hroot, ho⟩]
        by_cases hn : Tables.folded name = Tables.folded settings.store.tableName
        · rw [if_pos hn, if_pos ⟨hp, ho, hn⟩]
          rfl
        · rw [if_neg hn, if_neg fun hnamed => hn hnamed.2.2, rows_of_findingAt hf, rowsFor,
            if_neg hp, ho]
      · rw [if_neg fun hat => ho hat.2, if_neg fun hnamed => ho hnamed.2.1]
  · rw [if_neg hkept]
    split
    · next hnamed =>
      rw [← rows_formerStore hf hnamed]
      exact (congrArg (Option.getD · []) (not_ne_iff.1 hkept)).symm
    · rfl

/-- What a command makes of the rows of its table, it makes of the rows that the host has there. -/
theorem rowsAt_performOn_of (hf : h.findingAt place = .tables tables) (act : List Row → List Row)
    (hr : (performed settings place tables command).2.rows =
      act (formerStore settings place tables).rows) (other : List String) (name : String) :
    ((performOn settings place command (.tables tables) : StateM Host _).run h).2.rowsAt
        other name =
      if place ≠ "" ∧ other = h.locate place ∧
          Tables.folded name = Tables.folded settings.store.tableName then
        act (h.rowsAt other name)
      else h.rowsAt other name := by
  rw [rowsAt_performOn hf, hr]
  exact ite_congr rfl (fun hnamed => congrArg act (rows_formerStore hf hnamed)) fun _ => rfl

/-- No command changes the working folder. -/
theorem working_performOn (settings : Settings) (place : String) (command : Command)
    (tables : Tables) (h : Host) :
    ((performOn settings place command (.tables tables) : StateM Host _).run h).2.working =
      h.working := by
  rw [performOn_tables]
  dsimp only
  split
  · split <;> rfl
  · rfl

/-- A command that leaves the rows of its table leaves those of the host. -/
theorem performOn_spares (hf : h.findingAt place = .tables tables)
    (hr : (performed settings place tables command).2.rows =
      (formerStore settings place tables).rows) :
    h.Spares ((performOn settings place command (.tables tables) : StateM Host _).run h).2 := by
  refine ⟨working_performOn .., fun other name => ?_⟩
  rw [rowsAt_performOn_of hf id hr, id, ite_self]

/-- A host that has lost rows that a condition picks out of a table of one database, and no others.
-/
structure Loses (h h' : Host) (path table : String) (gone : Row → Bool) : Prop where
  working : h'.working = h.working
  rows : ∀ place name, h'.rowsAt place name =
    if path ≠ "" ∧ place = h.locate path ∧ Tables.folded name = Tables.folded table then
      (h.rowsAt place name).filter (!gone ·)
    else h.rowsAt place name

/-- What was spared before rows are lost makes no difference to the loss. -/
theorem Loses.of_spares {h'' : Host} {path table : String} {gone : Row → Bool} (hs : h.Spares h')
    (hl : Loses h' h'' path table gone) : Loses h h'' path table gone := by
  refine ⟨hl.working.trans hs.working, fun place name => ?_⟩
  rw [hl.rows, hs.locate, hs.rows]

/-- A command that deletes what a condition picks of its table takes these rows from the host. -/
theorem performOn_loses (hf : h.findingAt place = .tables tables) {gone : Row → Bool}
    (hr : (performed settings place tables command).2.rows =
      (formerStore settings place tables).rows.filter (!gone ·)) :
    Loses h ((performOn settings place command (.tables tables) : StateM Host _).run h).2 place
      settings.store.tableName gone :=
  ⟨working_performOn .., rowsAt_performOn_of hf _ hr⟩

/-- A look into what was found leaves all rows. -/
theorem performOn_looks (hb : settings.bounds.Consistent) {finding : Finding}
    (hf : h.findingAt place = finding) (hc : command.removal? = none) :
    h.Spares ((performOn settings place command finding : StateM Host _).run h).2 := by
  cases finding with
  | junk | nothing => exact .refl h
  | tables tables => exact performOn_spares hf (perform_looks hb (serving_formerStore _ _ _) hc)

/-- A removal from what was found removes exactly its part, and its number is told, if a database
was found and the part can be removed; if not, it fails and leaves all rows. -/
theorem performOn_removes (hb : settings.bounds.Consistent) {finding : Finding}
    (hf : h.findingAt place = finding) {text : String} {part : Part}
    (hc : command.removal? = some (text, part)) :
    (∃ id tables, finding = .tables tables ∧ StorageId.parse text = .ok id ∧
      Removable settings.store.tableName (h.rowsFor place settings.store.tableName) part id ∧
      ((performOn settings place command finding : StateM Host _).run h).1 = .ok (part.report id
        ((h.rowsFor place settings.store.tableName).filter (part.picks id)).length) ∧
      Loses h ((performOn settings place command finding : StateM Host _).run h).2 place
        settings.store.tableName (part.picks id)) ∨
    ∃ complaint,
      ((performOn settings place command finding : StateM Host _).run h).1 = .error complaint ∧
      h.Spares ((performOn settings place command finding : StateM Host _).run h).2 ∧
      ∀ id tables, finding = .tables tables → StorageId.parse text = .ok id →
        ¬ Removable settings.store.tableName (h.rowsFor place settings.store.tableName)
            part id := by
  cases finding with
  | junk =>
    obtain ⟨complaint, ho⟩ := performOnJunk_removal place hc
    rw [performOn_junk]
    exact .inr ⟨complaint, ho, .refl h, fun _ _ hfound => nomatch hfound⟩
  | nothing =>
    obtain ⟨complaint, ho⟩ := perform_barred hb (barred_missingStore settings place) hc
    rw [performOn_nothing]
    exact .inr ⟨complaint, ho, .refl h, fun _ _ hfound => nomatch hfound⟩
  | tables tables =>
    have hrows : (formerStore settings place tables).rows =
        h.rowsFor place settings.store.tableName := rows_of_findingAt hf _
    have hout := congrArg Prod.fst (performOn_tables settings place command tables h)
    rcases perform_removes hb (serving_formerStore settings place tables) hc with
      ⟨id, s', hp, hremovable, ho, hleft⟩ | ⟨complaint, s', ho, hleft, hnot⟩
    · have hperformed : performed settings place tables command = _ := ho
      rw [hperformed, hrows] at hout
      refine .inl ⟨id, tables, rfl, hp, hrows ▸ hremovable, hout, performOn_loses hf ?_⟩
      rw [hperformed]
      exact hleft
    · have hperformed : performed settings place tables command = _ := ho
      rw [hperformed] at hout
      refine .inr ⟨complaint, hout, performOn_spares hf ?_, fun id _ _ hp => hrows ▸ hnot id hp⟩
      rw [hperformed]
      exact hleft

/-! ## Runs -/

/-- The environment that a run on a host sees. -/
def environmentOf (h : Host) : Environment := ((environment : StateM Host Environment).run h).1

/-- What arguments ask for on a host. -/
def asks (h : Host) (args : List String) : Except Halt Invocation :=
  Invocation.read (environmentOf h "TIERQUEUE_CONFIG_PATH") args

/-- A run on a host. -/
def runOn (h : Host) (args : List String) : Outcome × Host := (run args : StateM Host Outcome).run h

/-- An approach on a host. -/
def approachOn (h : Host) (i : Invocation) : Except Outcome (Settings × Finding) × Host :=
  (approach (environmentOf h) i : StateM Host _).run h

/-- Reading the environment changes nothing. -/
theorem environment_run (h : Host) :
    (environment : StateM Host Environment).run h = (environmentOf h, h) := by
  have hsame : h = ((environment : StateM Host Environment).run h).2 := keeps_environment h
  exact Prod.ext_iff.2 ⟨by rw [environmentOf], hsame.symm⟩

/-- One action after another begins where the first one ended. -/
theorem run_seq (act : StateM Host α) (next : α → StateM Host β) (h : Host) :
    (act >>= next).run h = (next (act.run h).1).run (act.run h).2 := rfl

/-- A run whose arguments say nothing to do changes nothing. -/
theorem runOn_halt {args : List String} {halt : Halt} (ha : asks h args = .error halt) :
    (runOn h args).2 = h := by
  unfold asks at ha
  rw [runOn, run, run_seq, environment_run]
  dsimp only
  rw [ha]
  cases halt <;> rfl

/-- Any other run carries out what its arguments say. -/
theorem runOn_invoke {args : List String} {i : Invocation} (ha : asks h args = .ok i) :
    runOn h args = (invoke (environmentOf h) i : StateM Host Outcome).run h := by
  unfold asks at ha
  rw [runOn, run, run_seq, environment_run]
  dsimp only
  rw [ha]

/-- A run whose approach fails ends with that. -/
theorem invoke_failed {i : Invocation} {outcome : Outcome} {h' : Host}
    (hr : approachOn h i = (.error outcome, h')) :
    (invoke (environmentOf h) i : StateM Host Outcome).run h = (outcome, h') := by
  unfold approachOn at hr
  rw [invoke_eq, run_seq, hr]
  rfl

/-- A run that gets to its command ends with what this comes to. -/
theorem invoke_reached {i : Invocation} {settings : Settings} {finding : Finding} {h' : Host}
    (hr : approachOn h i = (.ok (settings, finding), h')) :
    (invoke (environmentOf h) i : StateM Host Outcome).run h =
      (conclusion ((performOn settings (databaseOf (environmentOf h) i settings) i.command finding :
          StateM Host _).run h').1,
        ((performOn settings (databaseOf (environmentOf h) i settings) i.command finding :
          StateM Host _).run h').2) := by
  unfold approachOn at hr
  rw [invoke_eq, run_seq, hr]
  rfl

/-- A run whose approach fails does not end well. -/
theorem approach_failed (env : Environment) (i : Invocation) :
    Results (fun reached _ => ∀ outcome, reached = .error outcome → outcome.code ≠ 0)
      (approach env i) := by
  have hfailure : ∀ message outcome,
      (Except.error (.failure message) : Except Outcome (Settings × Finding)) = .error outcome →
        outcome.code ≠ 0 := by
    rintro message _ ⟨⟩
    exact Nat.one_ne_zero
  refine results_after fun loaded => ?_
  cases loaded with
  | error complaint => exact results_pure fun _ => hfailure _
  | ok settings =>
    refine results_after fun started => ?_
    cases started with
    | error fault => exact results_pure fun _ => hfailure _
    | ok _ =>
      refine results_after fun opened => ?_
      cases opened with
      | error complaint => exact results_pure fun _ => hfailure _
      | ok finding => exact results_pure fun _ => nofun

/-- An approach fails, or it gets to a command with consistent settings and the database as it is
found; either way it takes no row. -/
theorem approachOn_cases (h : Host) (i : Invocation) :
    (∃ outcome h', approachOn h i = (.error outcome, h') ∧ h.Spares h' ∧ outcome.code ≠ 0) ∨
    ∃ settings finding h', approachOn h i = (.ok (settings, finding), h') ∧ h.Spares h' ∧
      settings.bounds.Consistent ∧
      h'.findingAt (databaseOf (environmentOf h) i settings) = finding := by
  have hspares : h.Spares (approachOn h i).2 := keeps_approach _ i h
  have hfound := approach_found (environmentOf h) i h
  have hfailed := approach_failed (environmentOf h) i h
  rw [show (approach (environmentOf h) i : StateM Host _).run h = approachOn h i from rfl]
    at hfound hfailed
  rcases hr : approachOn h i with ⟨outcome | ⟨settings, finding⟩, h'⟩
  · rw [hr] at hspares hfailed
    exact .inl ⟨outcome, h', rfl, hspares, hfailed outcome rfl⟩
  · rw [hr] at hspares hfound
    obtain ⟨hb, hat⟩ := hfound settings finding rfl
    exact .inr ⟨settings, finding, h', rfl, hspares, hb, hat.symm⟩

/-- A run gets to its command with some settings and a database that was opened. -/
def Reaches (h : Host) (i : Invocation) (settings : Settings) : Prop :=
  match (approachOn h i).1 with
  | .ok (reached, .tables _) => reached = settings
  | _ => False

instance (h : Host) (i : Invocation) (settings : Settings) : Decidable (Reaches h i settings) := by
  unfold Reaches
  split <;> infer_instance

/-- A run gets to its command exactly if its approach ends with a database. -/
theorem reaches_iff {i : Invocation} : Reaches h i settings ↔
    ∃ tables, (approachOn h i).1 = .ok (settings, .tables tables) := by
  unfold Reaches
  split
  · next reached tables hr =>
    rw [hr]
    constructor
    · rintro rfl
      exact ⟨tables, rfl⟩
    · rintro ⟨_, ⟨⟩⟩
      rfl
  · next hother => exact ⟨False.elim, fun ⟨tables, hr⟩ => hother settings tables hr⟩

/-- A run is to remove a part of a queue, and can. -/
structure Removes (h : Host) (i : Invocation) (text : String) (part : Part) (id : StorageId)
    (settings : Settings) : Prop where
  /-- The id that was written. -/
  parsed : StorageId.parse text = .ok id
  /-- The settings that the run gets to its command with. -/
  reached : Reaches h i settings
  /-- The part of the queue can be removed from the rows that are found. -/
  removable : Removable settings.store.tableName
    (h.rowsFor (databaseOf (environmentOf h) i settings) settings.store.tableName) part id

/-- A run that can remove something has found a database under its settings. -/
theorem Removes.found {i : Invocation} {text : String} {part : Part} {id : StorageId}
    {settings' : Settings} {finding : Finding} (hr : Removes h i text part id settings)
    (ha : approachOn h i = (.ok (settings', finding), h')) :
    settings' = settings ∧ ∃ tables, finding = .tables tables := by
  obtain ⟨tables, ht⟩ := reaches_iff.1 hr.reached
  rw [ha] at ht
  cases ht
  exact ⟨rfl, tables, rfl⟩

/-- The id is the one that was written, and the settings are those that were loaded. -/
theorem Removes.unique {i : Invocation} {text : String} {part : Part} {id id' : StorageId}
    {settings' : Settings} (hr : Removes h i text part id settings)
    (hr' : Removes h i text part id' settings') : id = id' ∧ settings = settings' := by
  constructor
  · exact Except.ok.inj (hr.parsed.symm.trans hr'.parsed)
  · obtain ⟨tables, ht⟩ := reaches_iff.1 hr.reached
    exact (hr'.found (Prod.ext ht rfl)).1

/-- What a run that can remove a part of a queue comes to: it reports the number of its rows, and
the host has lost exactly these. -/
structure Removed (h : Host) (i : Invocation) (part : Part) (id : StorageId) (settings : Settings)
    (ended : Outcome × Host) : Prop where
  outcome : ended.1 =
    { code := 0
      out := part.report id ((h.rowsFor (databaseOf (environmentOf h) i settings)
        settings.store.tableName).filter (part.picks id)).length }
  rows : Loses h ended.2 (databaseOf (environmentOf h) i settings) settings.store.tableName
    (part.picks id)

/-- A run to look leaves all rows. -/
theorem invoke_looks {i : Invocation} (hc : i.command.removal? = none) :
    h.Spares ((invoke (environmentOf h) i : StateM Host Outcome).run h).2 := by
  rcases approachOn_cases h i with
    ⟨outcome, h', hr, hspares, -⟩ | ⟨settings, finding, h', hr, hspares, hb, hat⟩
  · rw [invoke_failed hr]
    exact hspares
  · rw [invoke_reached hr]
    exact hspares.trans (performOn_looks hb hat hc)

/-- A run to remove something removes it and reports the number of rows, or fails and leaves all
rows, because it cannot be removed. -/
theorem invoke_removes {i : Invocation} {text : String} {part : Part}
    (hc : i.command.removal? = some (text, part)) :
    (∃ id settings, Removes h i text part id settings ∧
      Removed h i part id settings ((invoke (environmentOf h) i : StateM Host Outcome).run h)) ∨
    (((invoke (environmentOf h) i : StateM Host Outcome).run h).1.code ≠ 0 ∧
      h.Spares ((invoke (environmentOf h) i : StateM Host Outcome).run h).2 ∧
      ∀ id settings, ¬ Removes h i text part id settings) := by
  rcases approachOn_cases h i with
    ⟨outcome, h', hr, hspares, hfailed⟩ | ⟨settings, finding, h', hr, hspares, hb, hat⟩
  · rw [invoke_failed hr]
    refine .inr ⟨hfailed, hspares, fun id settings hremoves => ?_⟩
    obtain ⟨tables, ht⟩ := reaches_iff.1 hremoves.reached
    rw [hr] at ht
    cases ht
  · rw [invoke_reached hr]
    rcases performOn_removes hb hat hc with
      ⟨id, tables, rfl, hp, hremovable, ho, hloses⟩ | ⟨complaint, ho, hleft, hnot⟩
    · rw [hspares.rowsFor] at hremovable ho
      have hreached : Reaches h i settings := reaches_iff.2 ⟨tables, by rw [hr]⟩
      refine .inl ⟨id, settings, ⟨hp, hreached, hremovable⟩, ?_, .of_spares hspares hloses⟩
      rw [ho]
      rfl
    · refine .inr ⟨?_, hspares.trans hleft, fun id other hremoves => ?_⟩
      · rw [ho]
        exact Nat.one_ne_zero
      · obtain ⟨rfl, tables, rfl⟩ := hremoves.found hr
        have hremovable := hremoves.removable
        rw [← hspares.rowsFor] at hremovable
        exact hnot id tables rfl hremoves.parsed hremovable

/-- How the id in a command is written does not matter for what is done. -/
theorem performOn_respelled {text text' : String} {id : StorageId}
    (hc : command.idText? = some text) (hp : StorageId.parse text = .ok id)
    (hp' : StorageId.parse text' = .ok id) (finding : Finding) :
    (performOn settings place (command.respelled text') finding : StateM Host _) =
      performOn settings place command finding := by
  cases finding with
  | junk => simp only [performOn, performOnJunk_respelled hc hp hp']
  | nothing | tables _ => simp only [performOn, perform_respelled hc hp hp']

/-- A run does the same for two spellings of an id. -/
theorem invoke_respelled {i : Invocation} {text text' : String} {id : StorageId}
    (hc : i.command.idText? = some text) (hp : StorageId.parse text = .ok id)
    (hp' : StorageId.parse text' = .ok id) :
    (invoke (environmentOf h) { i with command := i.command.respelled text' } :
      StateM Host Outcome) = invoke (environmentOf h) i := by
  -- What a run does before its command does not depend on the command.
  have hsame : (approach (environmentOf h) { i with command := i.command.respelled text' } :
      StateM Host _) = approach (environmentOf h) i := rfl
  rw [invoke_eq, invoke_eq, hsame]
  refine bind_congr fun reached => ?_
  rcases reached with outcome | ⟨settings, finding⟩
  · rfl
  · exact congrArg (conclusion <$> ·) (performOn_respelled hc hp hp' finding)

/-- A run changes only what its command names. Commands that remove nothing leave each row of each
table, and so does a run that fails or that asks for nothing to be done. A command that removes a
part of a queue succeeds exactly if a database is reached, the queue can be opened in it and the
part can be removed; then exactly its rows are gone, and their number is reported. How an id is
written does not matter. -/
theorem command_lines_keep_to_their_rows (h : Host) (args : List String) :
    ((runOn h args).1.code ≠ 0 → h.Spares (runOn h args).2) ∧
      (∀ halt, asks h args = .error halt → h.Spares (runOn h args).2) ∧
      ∀ i, asks h args = .ok i →
        (i.command.removal? = none → h.Spares (runOn h args).2) ∧
        (∀ text part, i.command.removal? = some (text, part) →
          ((runOn h args).1.code = 0 ↔ ∃ id settings, Removes h i text part id settings) ∧
          ∀ id settings, Removes h i text part id settings →
            Removed h i part id settings (runOn h args)) ∧
        ∀ text text' id args', i.command.idText? = some text → StorageId.parse text = .ok id →
          StorageId.parse text' = .ok id →
          asks h args' = .ok { i with command := i.command.respelled text' } →
          runOn h args' = runOn h args := by
  have hhalted : ∀ halt, asks h args = .error halt → h.Spares (runOn h args).2 := by
    intro halt ha
    rw [runOn_halt ha]
    exact .refl h
  refine ⟨fun hcode => ?_, hhalted, fun i ha => ⟨fun hc => ?_, fun text part hc => ?_, ?_⟩⟩
  · cases ha : asks h args with
    | error halt => exact hhalted halt ha
    | ok i =>
      rw [runOn_invoke ha] at hcode ⊢
      cases hc : i.command.removal? with
      | none => exact invoke_looks hc
      | some named =>
        rcases invoke_removes hc with ⟨id, settings, -, hremoved⟩ | ⟨-, hspares, -⟩
        · rw [hremoved.outcome] at hcode
          exact absurd rfl hcode
        · exact hspares
  · rw [runOn_invoke ha]
    exact invoke_looks hc
  · rw [runOn_invoke ha]
    rcases invoke_removes hc with ⟨id, settings, hremoves, hremoved⟩ | ⟨hcode, -, hnot⟩
    · constructor
      · rw [hremoved.outcome]
        exact iff_of_true rfl ⟨id, settings, hremoves⟩
      · intro id' settings' hremoves'
        obtain ⟨rfl, rfl⟩ := hremoves.unique hremoves'
        exact hremoved
    · constructor
      · exact iff_of_false hcode fun ⟨id, settings, hremoves⟩ => hnot id settings hremoves
      · intro id settings hremoves
        exact absurd hremoves (hnot id settings)
  · intro text text' id args' hc hp hp' ha'
    rw [runOn_invoke ha', runOn_invoke ha, invoke_respelled hc hp hp']

/-- The id of a mailbox. -/
def mailbox : StorageId :=
  ⟨"letters", "joe", by decide, by decide, by decide +kernel, by decide +kernel⟩

/-- A host with a database of two mailboxes; one of the three rows need not survive a restart. -/
def mailHost : Host where
  nodes := [(["mail.db"], .database [(TableName.standard, [
    { queue := "letters:joe", id := 1, priority := 5, size := 2, persistent := true
      payload := ⟨"letter", .empty⟩ },
    { queue := "letters:joe", id := 2, priority := 9, size := 3, persistent := false
      payload := ⟨"letter", .empty⟩ },
    { queue := "letters:ann", id := 2, priority := 9, size := 3, persistent := false
      payload := ⟨"letter", .empty⟩ }])])]

/-- The purge of a mailbox. -/
def mailPurge (text : String) : Invocation where
  verbose := false
  settingsFile := none
  database := some "mail.db"
  command := .purgeTransient text

/-- A purge under an id that cannot be read, a command line that cannot be understood, a look, and a
purge under two spellings of one id. -/
theorem command_lines_on_mailHost :
    ((runOn mailHost ["--db=mail.db", "purge-transient", "joe"]).1.code ≠ 0 ∧
      mailHost.Spares (runOn mailHost ["--db=mail.db", "purge-transient", "joe"]).2) ∧
    (asks mailHost ["purge-transient"] = .error .misuse ∧
      mailHost.Spares (runOn mailHost ["purge-transient"]).2) ∧
    (asks mailHost ["queues", "--db", "mail.db"] =
        .ok { mailPurge "" with command := .queues } ∧
      mailHost.Spares (runOn mailHost ["queues", "--db", "mail.db"]).2) ∧
    Removes mailHost (mailPurge " letters : joe ") " letters : joe " .transient mailbox {} ∧
    (runOn mailHost ["--db=mail.db", "purge-transient", " letters : joe "]).1.code = 0 ∧
    Removed mailHost (mailPurge " letters : joe ") .transient mailbox {}
      (runOn mailHost ["--db=mail.db", "purge-transient", " letters : joe "]) ∧
    runOn mailHost ["purge-transient", "--db=mail.db", "letters:joe"] =
      runOn mailHost ["--db=mail.db", "purge-transient", " letters : joe "] := by
  have hcode : (runOn mailHost ["--db=mail.db", "purge-transient", "joe"]).1.code ≠ 0 := by
    decide +kernel
  have hmisuse : asks mailHost ["purge-transient"] = .error .misuse := by decide +kernel
  have hlook : asks mailHost ["queues", "--db", "mail.db"] =
      .ok { mailPurge "" with command := .queues } := by decide +kernel
  have hpurge : asks mailHost ["--db=mail.db", "purge-transient", " letters : joe "] =
      .ok (mailPurge " letters : joe ") := by decide +kernel
  have hrespelled : asks mailHost ["purge-transient", "--db=mail.db", "letters:joe"] =
      .ok (mailPurge "letters:joe") := by decide +kernel
  have hparsed : StorageId.parse " letters : joe " = .ok mailbox := by decide +kernel
  have hparsed' : StorageId.parse "letters:joe" = .ok mailbox := by decide +kernel
  have hremoves : Removes mailHost (mailPurge " letters : joe ") " letters : joe " .transient
      mailbox {} :=
    { parsed := hparsed
      reached := by decide +kernel
      removable := {
        named := by decide +kernel
        counted := ⟨⟨2, 5, 1, 2⟩, by decide +kernel⟩
        legible := fun _ => by decide +kernel } }
  obtain ⟨-, hremoval, hspelling⟩ := (command_lines_keep_to_their_rows mailHost _).2.2 _ hpurge
  obtain ⟨hsucceeds, hremoved⟩ := hremoval _ _ rfl
  exact ⟨⟨hcode, (command_lines_keep_to_their_rows mailHost _).1 hcode⟩,
    ⟨hmisuse, (command_lines_keep_to_their_rows mailHost _).2.1 _ hmisuse⟩,
    ⟨hlook, ((command_lines_keep_to_their_rows mailHost _).2.2 _ hlook).1 rfl⟩,
    hremoves, hsucceeds.2 ⟨_, _, hremoves⟩, hremoved _ _ hremoves,
    hspelling _ _ _ _ rfl hparsed hparsed' hrespelled⟩

end Spillway.Cli
