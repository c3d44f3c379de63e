import Esdiag.SharedCells

/-!
What every cell keeps to, whoever stores it and when. A program may rely on it for
all that it loads and peeks at, and has to leave it in all that it stores; what it
knows of its own copies nobody takes from it. Where every program does so, every
cell keeps to it in every run.
-/
namespace Esdiag.SharedCells

universe u

namespace Program

variable {κ : Type*} {σ : κ → Type*} {ε : Type*} {α β : Type u} [DecidableEq κ]
  {I : ∀ k, σ k → Prop}

/-- Each store of the program leaves what its cell keeps to, and the result of the program and
its copies at the end are as they are wanted. -/
inductive Keeps (I : ∀ k, σ k → Prop) (Q : α → (∀ k, σ k) → Prop) :
    Program σ ε α → (∀ k, σ k) → Prop
  | ok {a : α} {copies : ∀ k, σ k} : Q a copies → Keeps I Q (.done (.ok a)) copies
  | error (error : ε) (copies : ∀ k, σ k) : Keeps I Q (.done (.error error)) copies
  | peek {k : κ} {next : σ k → Program σ ε α} {copies : ∀ k, σ k} :
      (∀ content, I k content → Keeps I Q (next content) copies) →
        Keeps I Q (.peek k next) copies
  | load {k : κ} {next : σ k → Program σ ε α} {copies : ∀ k, σ k} :
      (∀ content, I k content → Keeps I Q (next content) (Function.update copies k content)) →
        Keeps I Q (.load k next) copies
  | store {k : κ} {change : σ k → σ k} {next : Program σ ε α} {copies : ∀ k, σ k} :
      (I k (copies k) → I k (change (copies k))) → Keeps I Q next copies →
        Keeps I Q (.store k change next) copies

theorem Keeps.bind {Q : α → (∀ k, σ k) → Prop} {R : β → (∀ k, σ k) → Prop} {p : Program σ ε α}
    {f : α → Program σ ε β} {copies : ∀ k, σ k} (hp : p.Keeps I Q copies)
    (hf : ∀ a copies, Q a copies → (f a).Keeps I R copies) : (p >>= f).Keeps I R copies := by
  change (p.bind f).Keeps I R copies
  induction hp with
  | ok ha => exact hf _ _ ha
  | error error copies => exact .error error copies
  | peek _ ih => exact .peek ih
  | load _ ih => exact .load ih
  | store hchange _ ih => exact .store hchange ih

theorem Keeps.mono {Q R : α → (∀ k, σ k) → Prop} {p : Program σ ε α} {copies : ∀ k, σ k}
    (h : p.Keeps I Q copies) (hresult : ∀ a copies, Q a copies → R a copies) :
    p.Keeps I R copies := by
  induction h with
  | ok ha => exact .ok (hresult _ _ ha)
  | error error copies => exact .error error copies
  | peek _ ih => exact .peek ih
  | load _ ih => exact .load ih
  | store hchange _ ih => exact .store hchange ih

/-- A program that leaves what the cells keep to, whatever its copies are. -/
structure Safe (I : ∀ k, σ k → Prop) (p : Program σ ε α) : Prop where
  keeps : ∀ copies, p.Keeps I (fun _ _ => True) copies

theorem Safe.error (I : ∀ k, σ k → Prop) (error : ε) :
    (.done (.error error) : Program σ ε α).Safe I := ⟨.error error⟩

theorem Safe.ok (I : ∀ k, σ k → Prop) (a : α) : (.done (.ok a) : Program σ ε α).Safe I :=
  ⟨fun _ => .ok trivial⟩

theorem Safe.bind {p : Program σ ε α} {f : α → Program σ ε β} (hp : p.Safe I)
    (hf : ∀ a, (f a).Safe I) : (p >>= f).Safe I :=
  ⟨fun copies => (hp.keeps copies).bind fun a copies _ => (hf a).keeps copies⟩

/-- A program is safe that stores only cells of which nothing is asked. -/
theorem StoresIn.safe {S : κ → Prop} {p : Program σ ε α} (hp : p.StoresIn S)
    (hfree : ∀ k, S k → ∀ content, I k content) : p.Safe I := by
  induction hp with
  | done result =>
    cases result with
    | error error => exact .error I error
    | ok a => exact .ok I a
  | peek _ ih => exact ⟨fun copies => .peek fun content _ => (ih content).keeps copies⟩
  | load _ ih => exact ⟨fun copies => .load fun content _ => (ih content).keeps _⟩
  | store hk _ ih => exact ⟨fun copies => .store (fun _ => hfree _ hk _) (ih.keeps copies)⟩

end Program

namespace State

variable {κ : Type*} {σ : κ → Type*} {ε : Type*} {α : Type u} {ι : Type*} [DecidableEq κ]
  [DecidableEq ι] {I : ∀ k, σ k → Prop} {s : State σ ε α ι}

/-- The cells and all copies keep to it, and the programs will. -/
structure Keeping (I : ∀ k, σ k → Prop) (s : State σ ε α ι) : Prop where
  cells : ∀ k, I k (s.cells k)
  copies : ∀ i k, I k ((s.tasks i).copies k)
  programs : ∀ i, (s.tasks i).program.Keeps I (fun _ _ => True) (s.tasks i).copies

omit [DecidableEq ι] in
theorem keeping_start {programs : ι → Program σ ε α} {cells : ∀ k, σ k}
    (hcells : ∀ k, I k (cells k)) (hprograms : ∀ i, (programs i).Safe I) : (start programs cells).Keeping I where
  cells := hcells
  copies _ := hcells
  programs i := (hprograms i).keeps cells

/-- A step that leaves the cells right, with one task that goes on right. -/
theorem Keeping.update (h : s.Keeping I) (i : ι) {cells : ∀ k, σ k} {task : Task σ ε α}
    (hcells : ∀ k, I k (cells k)) (hcopies : ∀ k, I k (task.copies k))
    (hprogram : task.program.Keeps I (fun _ _ => True) task.copies) :
    (⟨cells, Function.update s.tasks i task⟩ : State σ ε α ι).Keeping I where
  cells := hcells
  copies j := by
    by_cases hj : j = i
    · subst hj
      simpa only [Function.update_self] using hcopies
    · simpa only [Function.update_of_ne hj] using h.copies j
  programs j := by
    by_cases hj : j = i
    · subst hj
      simpa only [Function.update_self] using hprogram
    · simpa only [Function.update_of_ne hj] using h.programs j

theorem forall_update {copies : ∀ k, σ k} (h : ∀ k, I k (copies k)) {k : κ} {content : σ k}
    (hcontent : I k content) (other : κ) : I other (Function.update copies k content other) := by
  by_cases hother : other = k
  · subst hother
    rwa [Function.update_self]
  · rw [Function.update_of_ne hother]
    exact h other

theorem Keeping.step (h : s.Keeping I) (i : ι) : (s.step i).Keeping I := by
  have hprogram := h.programs i
  cases hnext : (s.tasks i).program with
  | done result => rwa [step_done hnext]
  | peek k next =>
    rw [hnext] at hprogram
    rw [step_peek hnext]
    cases hprogram with
    | peek hrest => exact h.update i h.cells (h.copies i) (hrest _ (h.cells k))
  | load k next =>
    rw [hnext] at hprogram
    rw [step_load hnext]
    cases hprogram with
    | load hrest =>
      exact h.update i h.cells (forall_update (h.copies i) (h.cells k)) (hrest _ (h.cells k))
  | store k change next =>
    rw [hnext] at hprogram
    rw [step_store hnext]
    cases hprogram with
    | store hchange hrest =>
      exact h.update i (forall_update h.cells (hchange (h.copies i k))) (h.copies i) hrest

theorem Keeping.run (h : s.Keeping I) (schedule : List ι) : (s.run schedule).Keeping I := by
  induction schedule generalizing s with
  | nil => exact h
  | cons i schedule ih => exact ih (h.step i)

end State

end Esdiag.SharedCells
