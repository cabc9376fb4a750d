import Spillway.Proofs.PlainTexts
import Spillway.Queue.Basic
import Spillway.Settings.Basic

/-!
# Layers of settings

What the settings come to once the environment has been heard. Each outer bound is that of the
highest layer that gives one; a cache bound is that of the settings below the environment, cut to
the outer bound that the environment gives. Whatever the layers hold, the bounds stay consistent, so
a queue of any kind can be made with them, and the link keeps a connection. Main statement:
`layers_stay_consistent`.
-/

namespace Spillway

namespace Bounds

/-- The smaller one of a number and a limit, if there is a limit. -/
def cut (limit : Option Nat) (n : Nat) : Nat := (limit.map (min n)).getD n

/-- Overriding sets outer bounds and cuts cache bounds. -/
theorem overridden_eq (b : Bounds) (entries bytes : Option Nat) :
    b.overridden entries bytes = {
      entries := entries.getD b.entries
      bytes := bytes.getD b.bytes
      cacheEntries := cut entries b.cacheEntries
      cacheBytes := cut bytes b.cacheBytes } := by
  cases entries <;> cases bytes <;> rfl

end Bounds

/-- Consistent bounds are never a reason to refuse a queue. -/
theorem Queue.create_of_consistent {b : Bounds} (h : b.Consistent) (kind : Kind) (id : StorageId) :
    ∃ q, Queue.create kind id b = .ok q := by
  have hb : b.validate = .ok () := Bounds.validate_eq_ok_iff.2 h
  have hhot : b.hot.validate = .ok () := Bounds.validate_eq_ok_iff.2 b.hot_consistent
  cases kind with
  | ram => exact ⟨_, by rw [create, Ram.create, hb]; rfl⟩
  | durable => exact ⟨_, by rw [create, Durable.create, hb]; rfl⟩
  | cached => exact ⟨_, by rw [create, Cached.create, Ram.create, Durable.create, hb, hhot]; rfl⟩

/-- The number that a variable holds is the one that its text writes between blanks, as long as it
fits a word. -/
theorem Environment.number?_eq_some_iff {env : Environment} {name : String} {n : Nat} :
    env.number? name = some n ↔
      (∃ value core, env name = some value ∧ Text.IsCore value.toList core ∧ Text.Numeral core n) ∧
        n ≤ Text.maxWord := by
  rw [number?, Option.bind_eq_bind, Option.bind_eq_some_iff]
  simp only [Text.natUpTo?_eq_some_iff]
  constructor
  · rintro ⟨value, hvalue, hn, hle⟩
    exact ⟨⟨value, _, hvalue, Text.isCore_trim value, hn⟩, hle⟩
  · rintro ⟨⟨value, core, hvalue, hcore, hn⟩, hle⟩
    refine ⟨value, hvalue, ?_, hle⟩
    rwa [Text.isCore_iff.1 (Text.isCore_trim value), ← Text.isCore_iff.1 hcore]

namespace Settings

/-- A settings text that can be read, with what it says. -/
def Says (text : String) (file : Sections) : Prop :=
  ∃ document, Document.Toml.read? text = some document ∧ Sections.ofValue? document = some file

/-- The accepted settings texts are those that can be read and say consistent bounds. -/
theorem parse_eq_ok_iff {text : String} {s : Settings} :
    parse text = .ok s ↔
      ∃ file, Says text file ∧ s = ofSections file ∧ (ofSections file).bounds.Consistent := by
  constructor
  · intro h
    unfold parse at h
    split at h
    · cases h
    · next document hread =>
      split at h
      · cases h
      · next file hfile =>
        simp only [bind, Except.bind] at h
        split at h
        · cases h
        · next hv =>
          cases h
          exact ⟨file, ⟨document, hread, hfile⟩, rfl, Bounds.validate_eq_ok_iff.1 hv⟩
  · rintro ⟨file, ⟨document, hread, hfile⟩, rfl, hc⟩
    simp only [parse, hread, hfile, Bounds.validate_eq_ok_iff.2 hc]
    rfl

/-- What the first accepted one of some texts says. If none is accepted, nothing is said. -/
inductive FirstSays : List String → Sections → Prop
  | nothing : FirstSays [] {}
  | found {text : String} {file : Sections} {s : Settings} (rest : List String) :
    Says text file → parse text = .ok s → FirstSays (text :: rest) file
  | passed {text : String} {fault : Fault} {rest : List String} {file : Sections} :
    parse text = .error fault → FirstSays rest file → FirstSays (text :: rest) file

/-- The settings of the first text that makes any are those of what it says. -/
theorem firstOf_says (texts : List String) : ∃ file, FirstSays texts file ∧
    firstOf texts = ofSections file ∧ (ofSections file).bounds.Consistent := by
  induction texts with
  | nil => exact ⟨{}, .nothing, rfl, by decide⟩
  | cons text rest ih =>
    cases hp : parse text with
    | ok s =>
      obtain ⟨file, hsays, rfl, hc⟩ := parse_eq_ok_iff.1 hp
      exact ⟨file, .found rest hsays hp, by simp [firstOf, hp, Except.toOption], hc⟩
    | error fault =>
      obtain ⟨file, hsays, hfirst, hc⟩ := ih
      refine ⟨file, .passed hp hsays, ?_, hc⟩
      rw [← hfirst]
      simp [firstOf, hp, Except.toOption]

/-- A file's outer bounds cut the standard cache bounds; its cache bounds stand as they are. -/
theorem boundsOf_eq (file : BoundsSection) :
    boundsOf file = {
      entries := file.entries.getD Bounds.standard.entries
      bytes := file.bytes.getD Bounds.standard.bytes
      cacheEntries :=
        file.cacheEntries.getD (Bounds.cut file.entries Bounds.standard.cacheEntries)
      cacheBytes := file.cacheBytes.getD (Bounds.cut file.bytes Bounds.standard.cacheBytes) } := by
  obtain ⟨entries, bytes, _, _⟩ := file
  cases entries <;> cases bytes <;> rfl

/-- How settings come out of what the file says and the settings below the environment. -/
structure Layered (file : Sections) (below : Settings) (env : Environment) (s : Settings) :
    Prop where
  /-- The bound on entries is that of the environment, or else that of the file, or else the
  standard one. -/
  entries : s.bounds.entries =
    ((env.number? "TIERQUEUE_MAX_ENTRIES").or file.bounds.entries).getD Bounds.standard.entries
  /-- So is the bound on bytes. -/
  bytes : s.bounds.bytes =
    ((env.number? "TIERQUEUE_MAX_BYTES").or file.bounds.bytes).getD Bounds.standard.bytes
  /-- The bound on entries in memory is what it was, cut to the environment's outer bound. -/
  cacheEntries : s.bounds.cacheEntries =
    Bounds.cut (env.number? "TIERQUEUE_MAX_ENTRIES") below.bounds.cacheEntries
  /-- So is the bound on bytes in memory. -/
  cacheBytes : s.bounds.cacheBytes =
    Bounds.cut (env.number? "TIERQUEUE_MAX_BYTES") below.bounds.cacheBytes
  /-- Below the environment, it was that of the file, or else the standard one, cut to the file's
  outer bound. -/
  cacheEntriesBelow : below.bounds.cacheEntries =
    file.bounds.cacheEntries.getD (Bounds.cut file.bounds.entries Bounds.standard.cacheEntries)
  /-- So was the bound on bytes in memory. -/
  cacheBytesBelow : below.bounds.cacheBytes =
    file.bounds.cacheBytes.getD (Bounds.cut file.bounds.bytes Bounds.standard.cacheBytes)
  /-- The bounds are consistent. -/
  consistent : s.bounds.Consistent
  /-- A queue of any kind can be made with them. -/
  creates : ∀ kind id, ∃ q, Queue.create kind id s.bounds = .ok q
  /-- The link keeps as many connections as the highest layer says that gives a number, and at least
  one. -/
  connections : s.store.effectiveLink.connections =
    max (((env.number? "TIERQUEUE_MAX_CONNECTIONS").or file.store.connections).getD
      ({} : LinkSettings).connections) 1

theorem layered {file : Sections} (h : (ofSections file).bounds.Consistent) (env : Environment) :
    Layered file (ofSections file) env ((ofSections file).withEnvironment env) := by
  have hc := bounds_consistent_withEnvironment env h
  have hbelow : (ofSections file).bounds = _ := boundsOf_eq file.bounds
  have habove : ((ofSections file).withEnvironment env).bounds = _ := Bounds.overridden_eq _ _ _
  refine {
    entries := ?_, bytes := ?_, cacheEntries := ?_, cacheBytes := ?_, cacheEntriesBelow := ?_
    cacheBytesBelow := ?_, consistent := hc, creates := Queue.create_of_consistent hc
    connections := ?_ }
  · rw [habove, hbelow, Option.getD_or]
  · rw [habove, hbelow, Option.getD_or]
  · rw [habove]
  · rw [habove]
  · rw [hbelow]
  · rw [hbelow]
  · rw [Option.getD_or]
    rfl

/-- The settings of an accepted text, and those of the first accepted one of some texts or the
built-in ones, come out of their layers under every environment: the environment's number, where a
variable writes one that fits a word, wins over the file's, and that over the standard one; cache
bounds are cut to the environment's outer bounds; and with consistent bounds and at least one
connection every kind of queue can be made. -/
theorem layers_stay_consistent :
    (∀ text s, parse text = .ok s → ∃ file, Says text file ∧
      ∀ env, Layered file s env (s.withEnvironment env)) ∧
    (∀ texts, ∃ file, FirstSays texts file ∧
      ∀ env, Layered file (firstOf texts) env ((firstOf texts).withEnvironment env)) ∧
    ∀ (env : Environment) name n, env.number? name = some n ↔
      (∃ value core, env name = some value ∧ Text.IsCore value.toList core ∧
        Text.Numeral core n) ∧ n ≤ Text.maxWord := by
  refine ⟨?_, ?_, fun env name n => Environment.number?_eq_some_iff⟩
  · intro text s h
    obtain ⟨file, hsays, rfl, hc⟩ := parse_eq_ok_iff.1 h
    exact ⟨file, hsays, layered hc⟩
  · intro texts
    obtain ⟨file, hsays, hfirst, hc⟩ := firstOf_says texts
    rw [hfirst]
    exact ⟨file, hsays, layered hc⟩

/-- A variable that holds a number between blanks, one that holds none, and one that holds zero. -/
def tightening : Environment := fun name => [
  ("TIERQUEUE_MAX_ENTRIES", " +020 "), ("TIERQUEUE_MAX_BYTES", "plenty"),
  ("TIERQUEUE_MAX_CONNECTIONS", "0")].lookup name

/-- A text that gives two bounds, of which the outer one cuts the other cache bound, tightened by
the environment: the cache bound follows, and one connection is kept. -/
theorem layers_of_tightening :
    let text := "[queue]\nmax_entries = 50\nmax_bytes_cache = 4096\n"
    let said : Settings := { bounds := ⟨50, 10485760, 50, 4096⟩ }
    (parse text = .ok said ∧ tightening.number? "TIERQUEUE_MAX_BYTES" = none) ∧
      (said.withEnvironment tightening).bounds = ⟨20, 10485760, 20, 4096⟩ ∧
      (said.withEnvironment tightening).store.effectiveLink.connections = 1 ∧
      ∃ file, Says text file ∧
        Layered file said tightening (said.withEnvironment tightening) := by
  intro text said
  have hparse : parse text = .ok said := by decide +kernel
  obtain ⟨file, hsays, hlayered⟩ := layers_stay_consistent.1 text said hparse
  exact ⟨⟨hparse, by decide +kernel⟩, by decide +kernel, by decide +kernel, file, hsays,
    hlayered tightening⟩

end Settings

end Spillway
