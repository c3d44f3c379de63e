import Mathlib.Data.List.Basic

/-!
Runs of a system that takes one action after another, whatever it is asked. A
condition on an action may be required along the whole run, each time in the
state in which the action is taken. An invariant kept by every action under
that condition holds wherever the run leads, and what an action does in a state
with the invariant holds of all actions of the run.
-/
namespace Esdiag.GuardedRuns

variable {σ α β : Type*} (step : σ → α → σ)

def run (s : σ) (actions : List α) : σ := actions.foldl step s

/-- Every action meets the condition in the state in which it is taken. -/
def Along (P : σ → α → Prop) : σ → List α → Prop
  | _, [] => True
  | s, action :: rest => P s action ∧ Along P (step s action) rest

def decidableAlong (P : σ → α → Prop) [∀ s action, Decidable (P s action)] :
    ∀ (s : σ) (actions : List α), Decidable (Along step P s actions)
  | _, [] => isTrue trivial
  | s, action :: rest =>
    match decidableAlong P (step s action) rest with
    | isTrue hrest => if h : P s action then isTrue ⟨h, hrest⟩ else isFalse fun hall => h hall.1
    | isFalse hrest => isFalse fun hall => hrest hall.2

instance (P : σ → α → Prop) [∀ s action, Decidable (P s action)] (s : σ) (actions : List α) :
    Decidable (Along step P s actions) := decidableAlong step P s actions

@[simp] theorem run_nil (s : σ) : run step s [] = s := rfl

@[simp] theorem run_cons (s : σ) (action : α) (rest : List α) :
    run step s (action :: rest) = run step (step s action) rest := rfl

theorem run_append (s : σ) (actions rest : List α) :
    run step s (actions ++ rest) = run step (run step s actions) rest := List.foldl_append

variable {step} {P Q : σ → α → Prop} {Inv : σ → Prop}

/-- A condition along a run is one on each of its actions. -/
theorem along_iff {s : σ} {actions : List α} :
    Along step P s actions ↔
      ∀ before action after, actions = before ++ action :: after → P (run step s before) action := by
  induction actions generalizing s with
  | nil => exact ⟨fun _ before _ _ h => absurd h (by simp), fun _ => trivial⟩
  | cons first rest ih =>
    constructor
    · rintro ⟨hfirst, hrest⟩ before action after heq
      cases before with
      | nil =>
        obtain ⟨rfl, -⟩ := List.cons.inj heq
        exact hfirst
      | cons head before =>
        obtain ⟨rfl, htail⟩ := List.cons.inj heq
        exact ih.mp hrest before action after htail
    · intro h
      refine ⟨h [] first rest rfl, ih.mpr ?_⟩
      intro before action after heq
      exact h (first :: before) action after (by rw [heq]; rfl)

theorem along_append {s : σ} {actions rest : List α} :
    Along step P s (actions ++ rest) ↔
      Along step P s actions ∧ Along step P (run step s actions) rest := by
  induction actions generalizing s with
  | nil => exact ⟨fun h => ⟨trivial, h⟩, And.right⟩
  | cons action actions ih =>
    have hrest := @ih (step s action)
    rw [List.cons_append, run_cons, Along, Along, hrest, and_assoc]

/-- The invariant rule. -/
theorem run_invariant (hstep : ∀ s action, Inv s → P s action → Inv (step s action)) {s : σ}
    {actions : List α} (hs : Inv s) (h : Along step P s actions) : Inv (run step s actions) := by
  induction actions generalizing s with
  | nil => exact hs
  | cons action rest ih => exact ih (hstep s action hs h.1) h.2

/-- What the invariant and the condition give of one action, they give of all of a run. -/
theorem along_of_invariant (hstep : ∀ s action, Inv s → P s action → Inv (step s action))
    (haction : ∀ s action, Inv s → P s action → Q s action) {s : σ} {actions : List α}
    (hs : Inv s) (h : Along step P s actions) : Along step Q s actions := by
  induction actions generalizing s with
  | nil => trivial
  | cons action rest ih => exact ⟨haction s action hs h.1, ih (hstep s action hs h.1) h.2⟩

/-- An invariant that every action keeps. -/
theorem run_of_forall (hstep : ∀ s action, Inv s → Inv (step s action)) {s : σ}
    (actions : List α) (hs : Inv s) : Inv (run step s actions) := by
  induction actions generalizing s with
  | nil => exact hs
  | cons action rest ih => exact ih (hstep s action hs)

/-- Taking out one of several pending tasks leaves the others. -/
theorem mem_eraseIdx_or {tasks : List β} {i : ℕ} {taken task : β}
    (htaken : tasks[i]? = some taken) (hmem : task ∈ tasks) :
    task = taken ∨ task ∈ tasks.eraseIdx i := by
  obtain ⟨j, hj⟩ := List.mem_iff_getElem?.mp hmem
  by_cases hji : j = i
  · subst hji
    exact Or.inl (Option.some.inj (hj.symm.trans htaken))
  · exact Or.inr (List.mem_eraseIdx_iff_getElem?.mpr ⟨j, hji, hj⟩)

/-- Replacing one element moves a count by what the element counts for. -/
theorem countP_set_add (p : β → Bool) {tasks : List β} {i : ℕ} {old : β}
    (hold : tasks[i]? = some old) (new : β) :
    (tasks.set i new).countP p + (if p old then 1 else 0) =
      tasks.countP p + if p new then 1 else 0 := by
  induction tasks generalizing i with
  | nil => simp at hold
  | cons task rest ih =>
    cases i with
    | zero =>
      obtain rfl : task = old := by simpa using hold
      simp only [List.set_cons_zero, List.countP_cons]
      omega
    | succ i =>
      have hrest := ih (by simpa using hold)
      simp only [List.set_cons_succ, List.countP_cons]
      omega

theorem countP_pos_of_get {p : β → Bool} {tasks : List β} {i : ℕ} {task : β}
    (hget : tasks[i]? = some task) (hp : p task = true) : 0 < tasks.countP p :=
  List.countP_pos_iff.mpr ⟨task, List.mem_of_getElem? hget, hp⟩

end Esdiag.GuardedRuns
