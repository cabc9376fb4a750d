import Spillway.Fault

/-!
# Actions

Work on a state that may fail. A failed action keeps the state that it had reached, so what a
failure leaves unchanged is a fact about each action, not about all of them.
-/

namespace Spillway

/-- Doing something for each member of a list has every property that what is done has, if doing
nothing has it, and one thing after another. -/
theorem mapM_closed {m : Type → Type} [Monad m] [LawfulMonad m] {α β : Type}
    (property : ∀ {γ : Type}, m γ → Prop) (hpure : ∀ {γ : Type} (c : γ), property (pure c))
    (hbind : ∀ {γ δ : Type} {act : m γ} {next : γ → m δ}, property act →
      (∀ c, property (next c)) → property (act >>= next))
    {act : α → m β} (h : ∀ a, property (act a)) (l : List α) : property (l.mapM act) := by
  induction l with
  | nil => exact hpure []
  | cons a l ih =>
    rw [List.mapM_cons]
    exact hbind (h a) fun b => hbind ih fun bs => hpure (b :: bs)

/-- Work on a state of type `σ` with a result of type `α`, or a fault. -/
abbrev Action (σ α : Type) := ExceptT Fault (StateM σ) α

namespace Action

variable {σ τ α β : Type}

/-- The action with the given effect. -/
def of (run : σ → Except Fault α × σ) : Action σ α := ExceptT.mk (StateT.mk run)

/-- The outcome of an action and the state it leaves. -/
def on (act : Action σ α) (s : σ) : Except Fault α × σ := (ExceptT.run act).run s

/-- Fail where a check fails. -/
def require (check : Except Fault α) : Action σ α := of fun s => (check, s)

/-- Do not fail; give the outcome as a value. -/
def attempt (act : Action σ α) : Action σ (Except Fault α) := of fun s =>
  let (outcome, s') := act.on s
  (.ok outcome, s')

/-- Work on a part of the state. -/
def focus (view : σ → τ) (back : τ → σ → σ) (act : Action τ α) : Action σ α := of fun s =>
  let (outcome, t) := act.on (view s)
  (outcome, back t s)

/-- An action has the effect that it was made of. -/
@[simp] theorem on_of (run : σ → Except Fault α × σ) (s : σ) : (of run).on s = run s := rfl

/-- Nothing is done to give a result. -/
@[simp] theorem on_pure (a : α) (s : σ) : (pure a : Action σ α).on s = (.ok a, s) := rfl

/-- Nothing is done to fail. -/
@[simp] theorem on_throw (f : Fault) (s : σ) :
    (throw f : Action σ α).on s = (.error f, s) := rfl

/-- A fault ends a sequence of actions; the state reached so far is kept. -/
theorem on_bind (act : Action σ α) (next : α → Action σ β) (s : σ) :
    (act >>= next).on s =
      match act.on s with
      | (.ok a, s') => (next a).on s'
      | (.error f, s') => (.error f, s') := by
  rcases h : act.on s with ⟨r, s'⟩
  have run : StateT.run (ExceptT.run act) s = (r, s') := h
  simp only [on, ExceptT.run_bind, StateT.run_bind]
  rw [run]
  cases r <;> rfl

/-- An action that succeeds is followed by the next one. -/
theorem on_bind_of_ok {act : Action σ α} {next : α → Action σ β} {s s' : σ} {a : α}
    (h : act.on s = (.ok a, s')) : (act >>= next).on s = (next a).on s' := by
  rw [on_bind, h]

/-- An action that fails is followed by none. -/
theorem on_bind_of_error {act : Action σ α} {next : α → Action σ β} {s s' : σ} {fault : Fault}
    (h : act.on s = (.error fault, s')) : (act >>= next).on s = (.error fault, s') := by
  rw [on_bind, h]

/-- The result of an action is seen differently. -/
theorem on_seen (act : Action σ α) (view : α → β) (s : σ) :
    (act >>= fun a => pure (view a)).on s = ((act.on s).1.map view, (act.on s).2) := by
  rw [on_bind]
  rcases act.on s with ⟨_ | _, _⟩
  · rfl
  · rfl

/-- Looking at the state leaves it. -/
@[simp] theorem on_get (s : σ) : (get : Action σ σ).on s = (.ok s, s) := rfl

/-- The state may be replaced. -/
@[simp] theorem on_set (s' s : σ) : (set s' : Action σ PUnit).on s = (.ok ⟨⟩, s') := rfl

/-- The state may be changed. -/
@[simp] theorem on_modify (f : σ → σ) (s : σ) :
    (modify f : Action σ PUnit).on s = (.ok ⟨⟩, f s) := rfl

/-- What is tried leaves the state that it leaves otherwise, and never fails. -/
@[simp] theorem on_attempt (act : Action σ α) (s : σ) :
    act.attempt.on s = (.ok (act.on s).1, (act.on s).2) := rfl

/-- So its outcome is at hand where it is known. -/
theorem on_attempt_of {act : Action σ α} {outcome : Except Fault α} {s s' : σ}
    (h : act.on s = (outcome, s')) : act.attempt.on s = (.ok outcome, s') := by
  rw [on_attempt, h]

/-- Work on a part leaves the rest of the state. -/
@[simp] theorem on_focus (view : σ → τ) (back : τ → σ → σ) (act : Action τ α) (s : σ) :
    (act.focus view back).on s = ((act.on (view s)).1, back (act.on (view s)).2 s) := rfl

/-- A check leaves the state, whatever comes of it. -/
@[simp] theorem on_require (check : Except Fault α) (s : σ) :
    (require check : Action σ α).on s = (check, s) := rfl

end Action

end Spillway
