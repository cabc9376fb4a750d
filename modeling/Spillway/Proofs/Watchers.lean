import Spillway.Proofs.Announcing
import Spillway.Proofs.Capacity

/-!
# Size watchers are up to date

Since a size watcher was registered, the last totals that it was told are those of the queue; if it
was told none, they are what they were then. So it is with queues in memory and with cached queues,
whatever happens. A queue in the table whose opening finds other totals than its watcher knows does
not say so; the watcher is behind from then until it is told anything. That cannot happen to a queue
that knew what rows it has when the watcher was registered.
-/

namespace Spillway

open Desk

variable {w : String}

/-- Being told something is the same for a queue of one kind and of any kind. -/
theorem Desk.Tells.seat {Q : Type} [Contract Q] {wrap : Q → Queue} (hwrap : Wraps wrap)
    {d d' : Desk Q} (h : Tells w d d') : Tells w (d.seat wrap) (d'.seat wrap) := by
  obtain ⟨new, hc, ht⟩ := h.news
  refine ⟨?_, new, hc, ?_⟩
  · exact (hwrap.hooks d'.queue).trans (h.hooks.trans (hwrap.hooks d.queue).symm)
  · change (told w new).getD (Managed.tally (wrap d.queue)) = Managed.tally (wrap d'.queue)
    rw [hwrap.tally, hwrap.tally]
    exact ht

namespace Cached

variable {α : Type} {d : Desk Cached}

/-- The parts of a queue do not get hooks by its work. -/
theorem alone_of_living {act : Action (Desk Cached) α} (h : Proper (living True) act)
    (hq : Alone d.queue) : Alone (act.on d).2.queue :=
  h.keeps (fun _ => trivial) (fun d d' => Alone d.queue → Alone d'.queue)
    (fun h h' hq => h' (h hq)) (fun _ _ _ hturn hq =>
      ⟨hturn.2.1.hooks.trans hq.1, hturn.2.2.hooks.trans hq.2⟩) (fun _ _ _ _ hq => hq) d hq

end Cached

namespace Queue

variable {d d' d₀ d₁ : Desk Queue} {request : Request}

/-- If the queue is cached, its parts have nobody to tell. -/
def Solitary : Queue → Prop
  | .cached q => q.Alone
  | .ram _ | .durable _ => True

theorem reachable_solitary (h : Reachable d) : Solitary d.queue := by
  induction h with
  | @made kind id bounds q es s hq hp hooks calls =>
    obtain rfl := create_eq hq
    cases kind with
    | ram | durable => trivial
    | cached => exact ⟨rfl, rfl⟩
  | @asked d _ request ih =>
    obtain ⟨queue, store, calls⟩ := d
    cases queue with
    | ram | durable => trivial
    | cached q =>
      exact Cached.alone_of_living (d := ⟨q, store, calls⟩) (Cached.proper_request request) ih
  | @notified d _ ih =>
    obtain ⟨queue, store, calls⟩ := d
    cases queue with
    | ram | durable => trivial
    | cached q =>
      have hproper : Proper (Cached.living True) Cached.catchUp :=
        Cached.Proper.living Cached.proper_catchUp
      have halone := Cached.alone_of_living (d := ⟨q, store, calls⟩) hproper ih
      exact halone
  | @modified d _ e ih =>
    obtain ⟨queue, store, calls⟩ := d
    cases queue with
    | ram | durable => trivial
    | cached q => exact ih
  | meanwhile _ _ ih => exact ih
  | @hooked d _ hooks ih =>
    obtain ⟨queue, store, calls⟩ := d
    cases queue with
    | ram | durable => trivial
    | cached q => exact ih

/-! ## One step -/

/-- Whatever a queue is asked, its watchers are told; but nobody is told of the opening of a queue
in the table. -/
theorem tells_ask (h : Reachable d) (hw : w ∈ (Managed.hooks d.queue).watchers)
    (hr : request = .start → d.queue.kind ≠ .durable) : Tells w d ((ask request).on d).2 := by
  obtain ⟨l, hl⟩ := reachable_has h
  have hs := reachable_solitary h
  cases hl with
  | @ram d l =>
    have htells : Tells w d ((serve request).on d).2 := Ram.telling_serve request d hw
    rw [wraps_ram.asked]
    exact htells.seat wraps_ram
  | @durable d l =>
    have hother : request ≠ .start := fun hstart => hr hstart rfl
    have htells : Tells w d ((serve request).on d).2 := Durable.telling_serve hother d hw
    rw [wraps_durable.asked]
    exact htells.seat wraps_durable
  | @cached d l hl =>
    have htells : Tells w d ((serve request).on d).2 := Cached.tells_serve hl hs hw request
    rw [wraps_cached.asked]
    exact htells.seat wraps_cached

theorem tells_catchUp (h : Reachable d) : Tells w d (catchUp.on d).2 := by
  obtain ⟨l, hl⟩ := reachable_has h
  have hs := reachable_solitary h
  cases hl with
  | ram | durable => exact .refl _
  | @cached d l hl => exact (Cached.tells_catchUp hl hs).seat wraps_cached

theorem tells_modifyEntry (hw : w ∈ (Managed.hooks d.queue).watchers) (e : Entry) :
    Tells w d ((modifyEntry e).on d).2 := by
  obtain ⟨queue, store, calls⟩ := d
  cases queue with
  | ram | cached => exact .refl _
  | durable q =>
    have htells : Tells w ⟨q, store, calls⟩ ((Durable.modifyEntry e).on ⟨q, store, calls⟩).2 :=
      Durable.telling_modifyEntry e _ hw
    rw [show ((modifyEntry e).on ⟨.durable q, store, calls⟩).2 = _ from
      modifyEntry_seat e ⟨q, store, calls⟩]
    exact htells.seat wraps_durable

/-- A queue after it was opened, as far as that succeeded. -/
def opened (d : Desk Queue) : Desk Queue := ((ask .start).on d).2

/-- The opening of a queue in the table calls nobody and leaves the hooks as they are. -/
theorem measured_open : Measured (serve .start : Action (Desk Durable) Reply) :=
  Durable.measured_start.returning fun _ => Reply.done

/-- So its opening is heard by nobody, and the watchers are those it had. -/
theorem opened_quietly (hk : d.queue.kind = .durable) :
    (opened d).calls = d.calls ∧ Managed.hooks (opened d).queue = Managed.hooks d.queue := by
  obtain ⟨queue, store, calls⟩ := d
  cases queue with
  | ram | cached => cases hk
  | durable q =>
    have hcalls := measured_open.calls ⟨q, store, calls⟩
    have hhooks := measured_open.hooks ⟨q, store, calls⟩
    rw [opened, show (ask .start).on ⟨.durable q, store, calls⟩ = _ from
      wraps_durable.asked .start ⟨q, store, calls⟩]
    exact ⟨hcalls, hhooks⟩

/-- What can happen to a queue while a size watcher is registered. -/
inductive Happens (w : String) : Desk Queue → Desk Queue → Prop
  /-- It is asked something. -/
  | asked (d : Desk Queue) (request : Request) : Happens w d ((ask request).on d).2
  /-- It is told that the database is there again. -/
  | notified (d : Desk Queue) : Happens w d (catchUp.on d).2
  /-- It is to change an entry in place. -/
  | modified (d : Desk Queue) (e : Entry) : Happens w d ((modifyEntry e).on d).2
  /-- The link changes, others use the store. -/
  | meanwhile (d : Desk Queue) {s : Store}
      (hs : d.store.Spares (Managed.storageId d.queue).text s) : Happens w d { d with store := s }
  /-- It gets other hooks, the watcher still among them. -/
  | hooked (d : Desk Queue) {hooks : Hooks} (hw : w ∈ hooks.watchers) :
      Happens w d { d with queue := d.queue.withHooks hooks }

/-- A watcher that knew the totals knows them. -/
def Hears (w : String) (d d' : Desk Queue) : Prop :=
  ∃ new, d'.calls = d.calls ++ new ∧
    (told w new).getD (Managed.tally d.queue) = Managed.tally d'.queue

theorem Happens.reachable (h : Happens w d d') (hd : Reachable d) : Reachable d' := by
  cases h with
  | asked request => exact hd.asked request
  | notified => exact hd.notified
  | modified e => exact hd.modified e
  | meanwhile hs => exact hd.meanwhile hs
  | hooked => exact hd.hooked _

theorem Happens.kind (h : Happens w d d') : d'.queue.kind = d.queue.kind := by
  obtain ⟨queue, store, calls⟩ := d
  cases h with
  | asked | notified | modified | hooked => cases queue <;> rfl
  | meanwhile => rfl

/-- Whatever happens, a watcher stays registered and knows the totals as before, unless a queue in
the table is opened. -/
theorem Happens.hears (h : Happens w d d') (hd : Reachable d)
    (hw : w ∈ (Managed.hooks d.queue).watchers) : w ∈ (Managed.hooks d'.queue).watchers ∧
      (Hears w d d' ∨ d.queue.kind = .durable ∧ d' = opened d) := by
  have htells : Tells w d d' → w ∈ (Managed.hooks d'.queue).watchers ∧
      (Hears w d d' ∨ d.queue.kind = .durable ∧ d' = opened d) := fun ht => by
    rw [ht.hooks]
    exact ⟨hw, .inl ht.news⟩
  cases h with
  | asked request =>
    by_cases hopen : request = .start ∧ d.queue.kind = .durable
    · obtain ⟨rfl, hk⟩ := hopen
      exact ⟨(opened_quietly hk).2.symm ▸ hw, .inr ⟨hk, rfl⟩⟩
    · exact htells (tells_ask hd hw fun hr hk => hopen ⟨hr, hk⟩)
  | notified => exact htells (tells_catchUp hd)
  | modified e => exact htells (tells_modifyEntry hw e)
  | meanwhile => exact htells (tells_of_calls rfl rfl rfl)
  | @hooked hooks hnew =>
    refine ⟨?_, .inl ⟨[], (List.append_nil _).symm, ?_⟩⟩
    · obtain ⟨queue, store, calls⟩ := d
      cases queue <;> exact hnew
    · obtain ⟨queue, store, calls⟩ := d
      cases queue <;> rfl

/-! ## Since a watcher was registered -/

/-- What can have become of a queue since a size watcher was registered that is registered still. -/
inductive Since (w : String) (d₀ : Desk Queue) : Desk Queue → Prop
  /-- Nothing has happened. -/
  | registered (hw : w ∈ (Managed.hooks d₀.queue).watchers) : Since w d₀ d₀
  /-- One more thing happens. -/
  | later {d d' : Desk Queue} (h : Since w d₀ d) (hh : Happens w d d') : Since w d₀ d'

/-- The calls made since. -/
def news (d₀ d : Desk Queue) : List Call := d.calls.drop d₀.calls.length

/-- A size watcher is up to date: if the totals are not what they were when it was registered, or if
it was told anything since, then the last totals it was told are those of the queue. -/
def UpToDate (w : String) (d₀ d : Desk Queue) : Prop :=
  Managed.tally d.queue ≠ Managed.tally d₀.queue ∨ told w (news d₀ d) ≠ none →
    told w (news d₀ d) = some (Managed.tally d.queue)

/-- What a size watcher knows: what it was told last, or what it found. -/
def known (w : String) (d₀ d : Desk Queue) : Tally :=
  (told w (news d₀ d)).getD (Managed.tally d₀.queue)

/-- A queue in the table was opened when a watcher knew other totals than were found then and are
there still, and the watcher was told nothing since. -/
def Overlooked (w : String) (d₀ d : Desk Queue) : Prop :=
  ∃ d₁, Since w d₀ d₁ ∧ d₁.queue.kind = .durable ∧ Since w (opened d₁) d ∧
    told w (news (opened d₁) d) = none ∧
    Managed.tally d.queue = Managed.tally (opened d₁).queue ∧
    known w d₀ d₁ ≠ Managed.tally (opened d₁).queue

/-- A watcher is up to date if it knows the totals. -/
theorem upToDate_iff : UpToDate w d₀ d ↔ known w d₀ d = Managed.tally d.queue := by
  rw [UpToDate, known]
  cases told w (news d₀ d) with
  | none =>
    refine ⟨fun h => ?_, fun h hor => ?_⟩
    · by_contra hne
      cases h (.inl fun heq => hne heq.symm)
    · exact absurd h.symm (hor.resolve_right fun hn => hn rfl)
  | some t => exact ⟨fun h => Option.some.inj (h (.inr nofun)), fun h _ => congrArg some h⟩

theorem news_self (d : Desk Queue) : news d d = [] := List.drop_length

theorem news_of_calls {new : List Call} (h : d.calls = d₀.calls ++ new) : news d₀ d = new := by
  rw [news, h, List.drop_left]

/-- What is known after more calls. -/
theorem known_of_calls {new new' : List Call} (h : d.calls = d₀.calls ++ new)
    (h' : d'.calls = d.calls ++ new') :
    known w d₀ d' = (told w new').getD (known w d₀ d) := by
  rw [known, known, news_of_calls h, news_of_calls (h'.trans (by rw [h, List.append_assoc])),
    told_append]
  cases told w new' <;> rfl

/-- The queue has a past, the watcher is registered, and no call was taken back. -/
theorem Since.still (h : Since w d₀ d) (h₀ : Reachable d₀) : Reachable d ∧
    w ∈ (Managed.hooks d.queue).watchers ∧ ∃ new, d.calls = d₀.calls ++ new := by
  induction h with
  | registered hw => exact ⟨h₀, hw, [], (List.append_nil _).symm⟩
  | @later d d' _ hh ih =>
    obtain ⟨hd, hw, new, hc⟩ := ih
    obtain ⟨hw', hhears⟩ := hh.hears hd hw
    refine ⟨hh.reachable hd, hw', ?_⟩
    rcases hhears with ⟨new', hc', -⟩ | ⟨hk, rfl⟩
    · exact ⟨new ++ new', by rw [hc', hc, List.append_assoc]⟩
    · exact ⟨new, (opened_quietly hk).1.trans hc⟩

theorem Since.kind (h : Since w d₀ d) : d.queue.kind = d₀.queue.kind := by
  induction h with
  | registered => rfl
  | later _ hh ih => exact hh.kind.trans ih

/-- What is up to date stays so as long as it hears of what happens. -/
theorem UpToDate.hears (h : UpToDate w d₀ d) (hs : Since w d₀ d) (h₀ : Reachable d₀)
    (hh : Hears w d d') : UpToDate w d₀ d' := by
  obtain ⟨-, -, new, hc⟩ := hs.still h₀
  obtain ⟨new', hc', ht⟩ := hh
  rw [upToDate_iff, known_of_calls hc hc', upToDate_iff.1 h, ht]

/-- Whatever the kind, a watcher is up to date unless an opening was overlooked. -/
theorem Since.upToDate_or (h : Since w d₀ d) (h₀ : Reachable d₀) :
    UpToDate w d₀ d ∨ Overlooked w d₀ d := by
  induction h with
  | registered =>
    refine .inl (upToDate_iff.2 ?_)
    rw [known, news_self]
    rfl
  | @later d d' hs hh ih =>
    obtain ⟨hd, hw, new, hc⟩ := hs.still h₀
    obtain ⟨hw', hhears⟩ := hh.hears hd hw
    rcases hhears with ⟨new', hc', ht⟩ | ⟨hk, rfl⟩
    · rcases ih with hup | ⟨d₁, hs₁, hk₁, hs₂, hnone, htally, hne⟩
      · exact .inl (hup.hears hs h₀ ⟨new', hc', ht⟩)
      cases hnew : told w new' with
      | some t =>
        refine .inl (upToDate_iff.2 ?_)
        rw [known_of_calls hc hc', ← ht, hnew]
        rfl
      | none =>
        rw [hnew] at ht
        obtain ⟨hr₁, hw₁, -⟩ := hs₁.still h₀
        obtain ⟨-, -, new₂, hc₂⟩ := hs₂.still (hr₁.asked .start)
        refine .inr ⟨d₁, hs₁, hk₁, hs₂.later hh, ?_, ht.symm.trans htally, hne⟩
        rw [news_of_calls hc₂] at hnone
        rw [news_of_calls (hc'.trans (by rw [hc₂, List.append_assoc])), told_append, hnew, hnone]
        rfl
    · have hsame : known w d₀ (opened d) = known w d₀ d := by
        rw [known, known, news, news, (opened_quietly hk).1]
      by_cases hne : known w d₀ d = Managed.tally (opened d).queue
      · exact .inl (upToDate_iff.2 (hsame.trans hne))
      · refine .inr ⟨d, hs, hk, .registered hw', ?_, rfl, hne⟩
        rw [news_self]
        rfl

/-- A watcher that overlooked an opening is not up to date. -/
theorem Overlooked.not_upToDate (h : Overlooked w d₀ d) (h₀ : Reachable d₀) :
    ¬ UpToDate w d₀ d := by
  obtain ⟨d₁, hs₁, hk₁, hs₂, hnone, htally, hne⟩ := h
  obtain ⟨hr₁, -, new₁, hc₁⟩ := hs₁.still h₀
  obtain ⟨-, -, new₂, hc₂⟩ := hs₂.still (hr₁.asked .start)
  rw [news_of_calls hc₂] at hnone
  have hknown := known_of_calls (w := w) hc₁ (hc₂.trans (by rw [(opened_quietly hk₁).1]))
  rw [hnone] at hknown
  rw [upToDate_iff, hknown, htally]
  exact hne

/-! ## Queues that know their rows -/

/-- An opening makes nothing of what a queue has. -/
theorem Passes.start {b : Bounds} {l m : List Entry} {outcome : Except Fault Reply}
    (h : Passes b l .start outcome m) : m = l := by
  cases h with
  | same => rfl
  | removed hr => cases hr

/-- Changing an entry in place is counted. -/
theorem Durable.Counts.modified {d : Desk Durable} {l : List Entry} (h : Durable.Counts d l)
    (e : Entry) : ∃ m, Durable.Counts ((Durable.modifyEntry e).on d).2 m := by
  by_cases ha : d.queue.phase = .active
  · have hd : d.queue.phase ≠ .destroyed := by rw [ha]; nofun
    rcases Durable.modifyEntry_works ha (h.rests.keeps ha) e with
      ⟨found, tally, store, calls, ho, -, htally, hk, -⟩ | ⟨fault, store, ho, hm⟩
    · rw [ho]
      exact ⟨_, Durable.rests_of_keeps hk hd, htally h.tally⟩
    · rw [ho]
      exact ⟨l, h.unmoved (.of_table rfl hm.table)⟩
  · rw [Durable.modifyEntry_inactive ha]
    exact ⟨l, h⟩

theorem Counts.modified {l : List Entry} (h : Counts d l) (e : Entry) :
    ∃ m, Counts ((modifyEntry e).on d).2 m := by
  cases h with
  | ram h => exact ⟨l, .ram h⟩
  | cached h => exact ⟨l, .cached h⟩
  | @durable d l h =>
    obtain ⟨m, hm⟩ := Durable.Counts.modified h e
    exact ⟨m, (modifyEntry_seat e d).symm ▸ .durable hm⟩

/-- The bytes of what a queue has are a word whenever anything happens to it. -/
def WithinWord (w : String) (d₀ d : Desk Queue) : Prop :=
  ∀ d₁, Since w d₀ d₁ → Since w d₁ d → bytesOf (contents d₁) < 2 ^ 64

/-- A queue in the table that counted its rows when a watcher was registered goes on counting them,
and the watcher is up to date. -/
theorem Since.counts {l : List Entry} (h : Since w d₀ d) (h₀ : Reachable d₀) (hc : Counts d₀ l)
    (hb : WithinWord w d₀ d) : UpToDate w d₀ d ∧ ∃ m, Counts d m := by
  induction h with
  | registered =>
    refine ⟨upToDate_iff.2 ?_, l, hc⟩
    rw [known, news_self]
    rfl
  | @later d d' hs hh ih =>
    obtain ⟨hup, m, hm⟩ := ih fun d₁ hs₁ hs₂ => hb d₁ hs₁ (hs₂.later hh)
    obtain ⟨-, hw, new, hcalls⟩ := hs.still h₀
    have hword : (Tally.total m).bytes < 2 ^ 64 := by
      rw [Tally.bytes_total, ← hm.contents_eq]
      exact hb d hs (Since.later (.registered hw) hh)
    obtain ⟨-, hhears⟩ := hh.hears (hs.still h₀).1 hw
    constructor
    · rcases hhears with hhears | ⟨hk, rfl⟩
      · exact hup.hears hs h₀ hhears
      · obtain ⟨-, m', hm', hp⟩ := hm.asked .start fun _ _ => hword
        obtain rfl := Passes.start hp
        have hsame : Managed.tally (opened d).queue = Managed.tally d.queue :=
          hm'.tally.trans hm.tally.symm
        refine hup.hears hs h₀ ⟨[], ?_, hsame.symm⟩
        rw [(opened_quietly hk).1, List.append_nil]
    · cases hh with
      | asked request =>
        obtain ⟨-, m', hm', -⟩ := hm.asked request fun _ _ => hword
        exact ⟨m', hm'⟩
      | notified => exact ⟨m, hm.notified.2⟩
      | modified e => exact hm.modified e
      | meanwhile hs => exact ⟨m, hm.spared hs⟩
      | hooked => exact ⟨m, hm.hooked _⟩

/-- A queue in the table whose totals are those of its rows counts them. -/
theorem counts_of_exact (h : Reachable d) (hk : d.queue.kind = .durable)
    (ht : Managed.tally d.queue = Tally.total (contents d)) : ∃ l, Counts d l := by
  obtain ⟨l, hl⟩ := reachable_has h
  cases hl with
  | ram | cached => cases hk
  | @durable d l hl =>
    have hcontents : contents (d.seat .durable) = l := hl.contents
    rw [hcontents] at ht
    exact ⟨l, .durable ⟨hl, ht⟩⟩

/-- How far a size watcher can rely on what it is told. -/
structure Reliable (w : String) (d₀ d : Desk Queue) : Prop where
  /-- Unless the queue is in the table, the watcher is up to date. -/
  aloud : d₀.queue.kind ≠ .durable → UpToDate w d₀ d
  /-- It is so exactly if no opening was overlooked. -/
  overlooked : UpToDate w d₀ d ↔ ¬ Overlooked w d₀ d
  /-- If the queue knew its rows when the watcher was registered, none is, as long as their bytes
  are a word. -/
  exact : Managed.tally d₀.queue = Tally.total (contents d₀) → WithinWord w d₀ d → UpToDate w d₀ d

/-- Whatever has happened to a queue since a size watcher was registered, at any time of its life,
the watcher was told last what the totals are now, unless an opening was overlooked. -/
theorem watchers_reliable (h₀ : Reachable d₀) (h : Since w d₀ d) : Reliable w d₀ d := by
  have hloud : d₀.queue.kind ≠ .durable → UpToDate w d₀ d := fun hk => by
    refine (h.upToDate_or h₀).resolve_right ?_
    rintro ⟨d₁, hs₁, hk₁, -⟩
    exact hk (hs₁.kind.symm.trans hk₁)
  refine ⟨hloud, ⟨fun hup hover => hover.not_upToDate h₀ hup, (h.upToDate_or h₀).resolve_right⟩,
    fun ht hb => ?_⟩
  by_cases hk : d₀.queue.kind = .durable
  · obtain ⟨l, hl⟩ := counts_of_exact h₀ hk ht
    exact (h.counts h₀ hl hb).1
  · exact hloud hk

/-- A new queue of a kind, with a size watcher, over the rows that an earlier queue has left. -/
def heir (kind : Kind) : Desk Queue where
  queue := (newborn kind).withHooks { watchers := ["gauge"] }
  store := (stocked .durable).store

theorem reachable_heir (kind : Kind) : Reachable (heir kind) := by
  have hrows : Partition StorageId.mail.text (stocked .durable).store.rows
      [.blank 1 true, .blank 2 false] :=
    ⟨⟨by unfold Ascending; decide, by decide⟩, _, .refl _, by decide +kernel⟩
  exact .made (create_newborn kind) hrows _ []

theorem since_heir (kind : Kind) : Since "gauge" (heir kind) (opened (heir kind)) :=
  .later (.registered (by cases kind <;> decide)) (.asked _ .start)

/-- Queues of all kinds that are opened over two rows: the watcher of the one in memory knows that
there are none, that of the cached one was told of the row that is left, and that of the one in the
table was told nothing. -/
theorem watchers_reliable_heir :
    (∀ kind, Reachable (heir kind) ∧ Since "gauge" (heir kind) (opened (heir kind))) ∧
      (∀ kind, Reliable "gauge" (heir kind) (opened (heir kind))) ∧
      told "gauge" (opened (heir .cached)).calls = some ⟨1, 4, 1, 4⟩ ∧
      told "gauge" (opened (heir .durable)).calls = none := by
  refine ⟨fun kind => ⟨reachable_heir kind, since_heir kind⟩, fun kind => ?_, ?_, ?_⟩
  · exact watchers_reliable (reachable_heir kind) (since_heir kind)
  · decide +kernel
  · decide +kernel

/-- Opening a queue in the table over rows leaves its watcher behind. -/
theorem not_upToDate : ¬ ∀ {w : String} {d₀ d : Desk Queue}, Reachable d₀ → Since w d₀ d →
    UpToDate w d₀ d := by
  intro hall
  have hup := upToDate_iff.1 (hall (reachable_heir .durable) (since_heir .durable))
  exact absurd hup (by decide +kernel)

end Queue

end Spillway
