import Spillway.Document.Toml
import Spillway.Queue.Bounds
import Spillway.Settings.Sections
import Spillway.Store.Link
import Spillway.Table.Name

/-!
# Settings

Settings come in three layers, later ones winning: what is built in, a settings text, and the
environment of the process. Main statement: the bounds stay consistent through all layers.
-/

namespace Spillway

/-- What the variables of a process hold; `none` for those that are not set. -/
abbrev Environment := String → Option String

/-- The number that a variable of the environment holds, if it holds one. Blanks around it do not
matter. -/
def Environment.number? (env : Environment) (name : String) : Option Nat := do
  Text.natUpTo? Text.maxWord (Text.trim (← env name))

/-- Where the store is and how it is reached. -/
structure StoreSettings where
  /-- The database file, if it is not the built-in one. -/
  path : Option String := none
  /-- Name of the table. -/
  tableName : String := TableName.standard
  /-- How the link works, as it was set. -/
  link : LinkSettings := {}
  deriving DecidableEq, Repr

/-- How the link works in the end: it keeps at least one connection. -/
def StoreSettings.effectiveLink (s : StoreSettings) : LinkSettings :=
  s.link.withConnections s.link.connections

/-- Everything that can be set. -/
structure Settings where
  /-- Bounds of queues that are made without any. -/
  bounds : Bounds := .standard
  /-- The store. -/
  store : StoreSettings := {}
  /-- The log. -/
  log : LogSettings := {}
  deriving DecidableEq, Repr

namespace Bounds

/-- The bounds with another bound on entries, which also holds for those in memory. -/
def withEntries (b : Bounds) (n : Nat) : Bounds :=
  { b with entries := n, cacheEntries := min b.cacheEntries n }

/-- The bounds with another bound on bytes, which also holds for those in memory. -/
def withBytes (b : Bounds) (n : Nat) : Bounds :=
  { b with bytes := n, cacheBytes := min b.cacheBytes n }

/-- The bounds with other outer bounds, as far as any are given. -/
def overridden (b : Bounds) (entries bytes : Option Nat) : Bounds :=
  let b := (entries.map b.withEntries).getD b
  (bytes.map b.withBytes).getD b

theorem withEntries_consistent {b : Bounds} (h : b.Consistent) (n : Nat) :
    (b.withEntries n).Consistent := ⟨Nat.min_le_right _ _, h.2⟩

theorem withBytes_consistent {b : Bounds} (h : b.Consistent) (n : Nat) :
    (b.withBytes n).Consistent := ⟨h.1, Nat.min_le_right _ _⟩

/-- Overriding outer bounds keeps bounds consistent. -/
theorem overridden_consistent {b : Bounds} (h : b.Consistent) (entries bytes : Option Nat) :
    (b.overridden entries bytes).Consistent := by
  cases entries <;> cases bytes
  · exact h
  · exact withBytes_consistent h _
  · exact withEntries_consistent h _
  · exact withBytes_consistent (withEntries_consistent h _) _

end Bounds

namespace Settings

/-- The bounds that a section sets: outer bounds first, which limit the standard cache bounds, then
cache bounds as they are. -/
def boundsOf (s : BoundsSection) : Bounds :=
  let b := Bounds.ofOuter (s.entries.getD Bounds.standard.entries)
    (s.bytes.getD Bounds.standard.bytes)
  b.withCache (s.cacheEntries.getD b.cacheEntries) (s.cacheBytes.getD b.cacheBytes)

/-- The store settings that a section sets. -/
def storeOf (s : StoreSection) : StoreSettings :=
  let standard : LinkSettings := {}
  { path := s.path
    tableName := s.tableName.getD TableName.standard
    link := {
      connections := s.connections.getD standard.connections
      waitMillis := s.waitMillis.getD standard.waitMillis
      retryMillis := s.retryMillis.getD standard.retryMillis
      testFirst := s.testFirst.getD standard.testFirst } }

/-- The settings that the sections of a text make. -/
def ofSections (s : Sections) : Settings :=
  { bounds := boundsOf s.bounds, store := storeOf s.store, log := s.log }

/-- Read a settings text; bounds that are not consistent are refused. -/
def parse (text : String) : Except Fault Settings :=
  match Document.Toml.read? text with
  | none => .error (.settingsText .malformed)
  | some document =>
    match Sections.ofValue? document with
    | none => .error (.settingsText .unfit)
    | some sections => do
      let settings := ofSections sections
      settings.bounds.validate
      return settings

/-- Apply the environment. A variable that should hold a number and does not is passed over. -/
def withEnvironment (env : Environment) (s : Settings) : Settings :=
  let number := env.number?
  { bounds :=
      s.bounds.overridden (number "TIERQUEUE_MAX_ENTRIES") (number "TIERQUEUE_MAX_BYTES")
    store := {
      path := (env "TIERQUEUE_DB_PATH").or s.store.path
      tableName := (env "TIERQUEUE_TABLE_NAME").getD s.store.tableName
      link := { s.store.link with
        connections := (number "TIERQUEUE_MAX_CONNECTIONS").getD s.store.link.connections
        retryMillis :=
          (number "TIERQUEUE_RECONNECT_INTERVAL_MS").getD s.store.link.retryMillis } }
    log := {
      format := (env "TIERQUEUE_LOG_FORMAT").or s.log.format
      filter := (env "TIERQUEUE_LOG_FILTER").or s.log.filter
      file := (env "TIERQUEUE_LOG_FILE").or s.log.file } }

/-- The settings of the first text that makes any, or else the built-in ones. -/
def firstOf (texts : List String) : Settings :=
  (texts.findSome? fun text => (parse text).toOption).getD {}

/-- Settings that were read have consistent bounds. -/
theorem bounds_consistent_of_parse {text : String} {s : Settings} (h : parse text = .ok s) :
    s.bounds.Consistent := by
  unfold parse at h
  split at h
  · cases h
  · split at h
    · cases h
    · simp only [bind, Except.bind] at h
      split at h
      · cases h
      · next hv =>
        cases h
        exact Bounds.validate_eq_ok_iff.1 hv

/-- The environment keeps bounds consistent. -/
theorem bounds_consistent_withEnvironment (env : Environment) {s : Settings}
    (h : s.bounds.Consistent) : (s.withEnvironment env).bounds.Consistent :=
  Bounds.overridden_consistent h _ _

end Settings

end Spillway
