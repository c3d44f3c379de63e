import Mathlib.Logic.Basic

/-!
Programs that change a state step by step and may fail at any of them. What was done
before a failure stays done, so a program is judged by two postconditions: one for a
result with the state that it leaves, one for an error with the state that it leaves.
The rules take a program apart into its steps; a step that cannot change the state
keeps what held before it.
-/
namespace Esdiag.FailingPrograms

variable {σ ε α β : Type}

/-- A program with its precondition and its two postconditions. -/
def Triple (P : σ → Prop) (prog : EStateM ε σ α) (Q : α → σ → Prop) (E : ε → σ → Prop) : Prop :=
  ∀ s, P s →
    match prog s with
    | .ok a s' => Q a s'
    | .error error s' => E error s'

/-- Go on only if a step has succeeded. -/
def stopUnless (ok : Bool) (error : ε) : EStateM ε σ Unit := if ok then pure () else throw error

/-- A program that is run only under a condition. -/
def whenever (condition : Bool) (prog : EStateM ε σ Unit) : EStateM ε σ Unit :=
  if condition then prog else pure ()

def liftResult : Except ε α → EStateM ε σ α
  | .ok a => pure a
  | .error error => throw error

/-- A program whose errors are reported in other words. -/
def mapError (f : ε → ε) (prog : EStateM ε σ α) : EStateM ε σ α := fun s =>
  match prog s with
  | .ok a s' => .ok a s'
  | .error error s' => .error (f error) s'

theorem bind_of_ok {prog : EStateM ε σ α} {next : α → EStateM ε σ β} {s s' : σ} {a : α}
    (h : prog s = .ok a s') : (prog >>= next) s = next a s' := by
  change EStateM.bind prog next s = _
  rw [EStateM.bind, h]

theorem bind_of_error {prog : EStateM ε σ α} {next : α → EStateM ε σ β} {s s' : σ} {error : ε}
    (h : prog s = .error error s') : (prog >>= next) s = .error error s' := by
  change EStateM.bind prog next s = _
  rw [EStateM.bind, h]

variable {P P' : σ → Prop} {Q Q' : α → σ → Prop} {E E' : ε → σ → Prop}

theorem Triple.conseq {prog : EStateM ε σ α} (h : Triple P prog Q E) (hpre : ∀ s, P' s → P s)
    (hpost : ∀ a s, Q a s → Q' a s) (herror : ∀ error s, E error s → E' error s) :
    Triple P' prog Q' E' := by
  intro s hs
  have hrun := h s (hpre s hs)
  cases hprog : prog s with
  | ok a s' =>
    rw [hprog] at hrun
    exact hpost a s' hrun
  | error error s' =>
    rw [hprog] at hrun
    exact herror error s' hrun

theorem Triple.and {prog : EStateM ε σ α} (h : Triple P prog Q E) (h' : Triple P prog Q' E') :
    Triple P prog (fun a s => Q a s ∧ Q' a s) fun error s => E error s ∧ E' error s := by
  intro s hs
  have hrun := h s hs
  have hrun' := h' s hs
  cases hprog : prog s with
  | ok a s' =>
    rw [hprog] at hrun hrun'
    exact ⟨hrun, hrun'⟩
  | error error s' =>
    rw [hprog] at hrun hrun'
    exact ⟨hrun, hrun'⟩

/-- A precondition that does not depend on the state. -/
theorem Triple.assume {p : Prop} {prog : EStateM ε σ α} (h : p → Triple P prog Q E) :
    Triple (fun s => p ∧ P s) prog Q E := fun s hs => h hs.1 s hs.2

theorem Triple.pure (a : α) (h : ∀ s, P s → Q a s) : Triple P (Pure.pure a : EStateM ε σ α) Q E := h

theorem Triple.throw (error : ε) (h : ∀ s, P s → E error s) :
    Triple P (MonadExcept.throw error : EStateM ε σ α) Q E := h

theorem Triple.bind {R : β → σ → Prop} {prog : EStateM ε σ α} {next : α → EStateM ε σ β}
    (h : Triple P prog Q E) (hnext : ∀ a, Triple (Q a) (next a) R E) :
    Triple P (prog >>= next) R E := by
  intro s hs
  have hrun := h s hs
  change match EStateM.bind prog next s with
    | .ok b s' => R b s'
    | .error error s' => E error s'
  unfold EStateM.bind
  cases hprog : prog s with
  | ok a s' =>
    rw [hprog] at hrun
    exact hnext a s' hrun
  | error error s' =>
    rw [hprog] at hrun
    exact hrun

theorem Triple.get_bind {next : σ → EStateM ε σ β} {R : β → σ → Prop}
    (h : ∀ a, Triple (fun s => s = a ∧ P s) (next a) R E) :
    Triple P (MonadState.get >>= next) R E := fun s hs => h s s ⟨rfl, hs⟩

/-- A step that only may stop the program. -/
theorem Triple.stopUnless_bind {ok : Bool} {error : ε} {next : Unit → EStateM ε σ β}
    {R : β → σ → Prop} (herror : ok = false → ∀ s, P s → E error s)
    (hnext : ok = true → Triple P (next ()) R E) :
    Triple P (stopUnless ok error >>= next) R E := by
  cases ok with
  | true => exact hnext rfl
  | false => exact herror rfl

theorem Triple.stopUnless {ok : Bool} {error : ε} {Q : Unit → σ → Prop}
    (herror : ok = false → ∀ s, P s → E error s) (hok : ok = true → ∀ s, P s → Q () s) :
    Triple P (stopUnless ok error) Q E := by
  cases ok with
  | true => exact hok rfl
  | false => exact herror rfl

theorem Triple.mapError {f : ε → ε} {prog : EStateM ε σ α}
    (h : Triple P prog Q fun error => E (f error)) : Triple P (mapError f prog) Q E := by
  intro s hs
  have hrun := h s hs
  unfold FailingPrograms.mapError
  cases hprog : prog s with
  | ok a s' =>
    rw [hprog] at hrun
    exact hrun
  | error error s' =>
    rw [hprog] at hrun
    exact hrun

theorem Triple.liftResult_bind {result : Except ε α} {next : α → EStateM ε σ β}
    {R : β → σ → Prop} (herror : ∀ error, result = .error error → ∀ s, P s → E error s)
    (hnext : ∀ a, result = .ok a → Triple P (next a) R E) :
    Triple P (liftResult result >>= next) R E := by
  cases result with
  | ok a => exact hnext a rfl
  | error error => exact herror error rfl

theorem Triple.whenever {condition : Bool} {prog : EStateM ε σ Unit} {Q : Unit → σ → Prop}
    (hskip : condition = false → ∀ s, P s → Q () s) (hrun : condition = true → Triple P prog Q E) :
    Triple P (whenever condition prog) Q E := by
  cases condition with
  | true => exact hrun rfl
  | false => exact hskip rfl

end Esdiag.FailingPrograms
