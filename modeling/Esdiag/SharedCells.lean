import Mathlib.Data.List.Induction
import Mathlib.Logic.Function.Basic

/-!
Programs over cells that others use at the same time. A program that changes a
cell loads it into a copy of its own, and stores the changed copy later; what it
only has to know it peeks at. Between the load and the store others may store
the cell, and what they stored is then lost. Which changes are left follows from
the order of the loads and the stores alone.
-/
namespace Esdiag.SharedCells

universe u

section Histories

variable {ι τ υ : Type*}

inductive Access (ι τ : Type*) where
  | loaded (task : ι)
  | stored (task : ι) (change : τ → τ)

/-- A cell, with the copy that each task has of it. -/
structure Shared (ι τ : Type*) where
  content : τ
  copies : ι → τ

/-- Nobody has a copy that differs from the cell. -/
def Shared.fresh (content : τ) : Shared ι τ := ⟨content, fun _ => content⟩

def Access.store? : Access ι τ → Option (ι × (τ → τ))
  | loaded _ => none
  | stored task change => some (task, change)

/-- All the changes that were stored, in the order of their stores. -/
def stores (trace : List (Access ι τ)) : List (ι × (τ → τ)) := trace.filterMap Access.store?

@[simp] theorem stores_append (trace rest : List (Access ι τ)) :
    stores (trace ++ rest) = stores trace ++ stores rest := List.filterMap_append

@[simp] theorem stores_stored (task : ι) (change : τ → τ) (rest : List (Access ι τ)) :
    stores (.stored task change :: rest) = (task, change) :: stores rest := rfl

@[simp] theorem stores_loaded (task : ι) (rest : List (Access ι τ)) :
    stores (.loaded task :: rest) = stores rest := rfl

@[simp] theorem stores_nil : stores ([] : List (Access ι τ)) = [] := rfl

variable [DecidableEq ι]

def Shared.access (s : Shared ι τ) : Access ι τ → Shared ι τ
  | .loaded task => { s with copies := Function.update s.copies task s.content }
  | .stored task change => { s with content := change (s.copies task) }

/-- An access to a cell, as one to the changes that the content of the cell is made of. -/
def Access.record : Access ι τ → Access ι (List (ι × (τ → τ)))
  | loaded task => .loaded task
  | stored task change => .stored task (· ++ [(task, change)])

/-- The changes that are left in each copy and in the cell. -/
def histories (trace : List (Access ι τ)) : Shared ι (List (ι × (τ → τ))) :=
  (trace.map Access.record).foldl Shared.access (.fresh [])

/-- The changes that are left in the cell. -/
def history (trace : List (Access ι τ)) : List (ι × (τ → τ)) := (histories trace).content

def applyAll (initial : τ) (changes : List (ι × (τ → τ))) : τ :=
  changes.foldl (fun content change => change.2 content) initial

theorem histories_append (trace rest : List (Access ι τ)) :
    histories (trace ++ rest) = (rest.map Access.record).foldl Shared.access (histories trace) := by
  rw [histories, List.map_append, List.foldl_append]
  rfl

theorem history_append_loaded (trace : List (Access ι τ)) (task : ι) :
    history (trace ++ [.loaded task]) = history trace := by
  rw [history, histories_append]
  rfl

theorem history_append_stored (trace : List (Access ι τ)) (task : ι) (change : τ → τ) :
    history (trace ++ [.stored task change]) =
      (histories trace).copies task ++ [(task, change)] := by
  rw [history, histories_append]
  rfl

def Shared.map (f : τ → υ) (s : Shared ι τ) : Shared ι υ := ⟨f s.content, f ∘ s.copies⟩

/-- The content of the cell is what the changes left in it make of the initial content. -/
theorem foldl_access_eq (initial : τ) (trace : List (Access ι τ)) :
    trace.foldl Shared.access (.fresh initial) = (histories trace).map (applyAll initial) := by
  induction trace using List.reverseRecOn with
  | nil => rfl
  | append_singleton trace access ih =>
    rw [List.foldl_append, ih, histories_append]
    cases access with
    | loaded task =>
      simp only [List.foldl_cons, List.foldl_nil, List.map_cons, List.map_nil, Access.record,
        Shared.access, Shared.map, Function.comp_update]
    | stored task change =>
      simp only [List.foldl_cons, List.foldl_nil, List.map_cons, List.map_nil, Access.record,
        Shared.access, Shared.map, Function.comp_apply, applyAll, List.foldl_append]

theorem content_eq_applyAll (initial : τ) (trace : List (Access ι τ)) :
    (trace.foldl Shared.access (.fresh initial)).content = applyAll initial (history trace) := by
  rw [foldl_access_eq]
  rfl

/-- What is left are some of the changes that were stored, in the order of their stores. -/
theorem histories_sublist (trace : List (Access ι τ)) :
    (history trace).Sublist (stores trace) ∧
      ∀ task, ((histories trace).copies task).Sublist (stores trace) := by
  induction trace using List.reverseRecOn with
  | nil => exact ⟨List.Sublist.refl _, fun _ => List.Sublist.refl _⟩
  | append_singleton trace access ih =>
    obtain ⟨hcontent, hcopies⟩ := ih
    rw [stores_append]
    cases access with
    | loaded task =>
      rw [history_append_loaded, histories_append, stores_loaded, stores_nil, List.append_nil]
      refine ⟨hcontent, fun other => ?_⟩
      show (Function.update (histories trace).copies task (history trace) other).Sublist _
      by_cases hother : other = task
      · rw [hother, Function.update_self]
        exact hcontent
      · rw [Function.update_of_ne hother]
        exact hcopies other
    | stored task change =>
      rw [history_append_stored, histories_append]
      refine ⟨(hcopies task).append (List.Sublist.refl _), fun other => ?_⟩
      exact (hcopies other).trans (List.sublist_append_left _ _)

theorem history_sublist (trace : List (Access ι τ)) : (history trace).Sublist (stores trace) :=
  (histories_sublist trace).1

/-- Some task stores the cell and has not loaded it before, since the trace began. -/
def Overtaken (after : List (Access ι τ)) : Prop :=
  ∃ between task change rest, after = between ++ .stored task change :: rest ∧
    .loaded task ∉ between

/-- A prefix of the history is left where only those store who had it when they loaded. -/
theorem prefix_foldl_record {changes : List (ι × (τ → τ))} {after : List (Access ι τ)}
    {s : Shared ι (List (ι × (τ → τ)))} (hcontent : changes <+: s.content)
    (h : ∀ between task change rest, after = between ++ .stored task change :: rest →
      .loaded task ∈ between ∨ changes <+: s.copies task) :
    changes <+: ((after.map Access.record).foldl Shared.access s).content := by
  induction after generalizing s with
  | nil => exact hcontent
  | cons access after ih =>
    cases access with
    | loaded loader =>
      refine ih (s := s.access (.loaded loader)) hcontent ?_
      intro between task change rest heq
      by_cases htask : task = loader
      · subst htask
        refine Or.inr ?_
        simpa [Shared.access] using hcontent
      · rcases h (.loaded loader :: between) task change rest (by rw [heq]; rfl) with hmem | hcopy
        · refine Or.inl ?_
          rcases List.mem_cons.mp hmem with hhead | hmem
          · exact absurd (Access.loaded.inj hhead) htask
          · exact hmem
        · refine Or.inr ?_
          simpa [Shared.access, htask] using hcopy
    | stored writer stored =>
      have hwriter : changes <+: s.copies writer := by
        rcases h [] writer stored after rfl with hmem | hcopy
        · exact absurd hmem List.not_mem_nil
        · exact hcopy
      refine ih (s := s.access (.stored writer (· ++ [(writer, stored)])))
        (hwriter.trans (List.prefix_append _ _)) ?_
      intro between task change rest heq
      rcases h (.stored writer stored :: between) task change rest (by rw [heq]; rfl) with
        hmem | hcopy
      · refine Or.inl ?_
        rcases List.mem_cons.mp hmem with hhead | hmem
        · cases hhead
        · exact hmem
      · exact Or.inr hcopy

/-- A change is lost only to a later store of a copy that was loaded before it. -/
theorem history_prefix_of_not_overtaken {before after : List (Access ι τ)} {task : ι}
    {change : τ → τ} (h : ¬ Overtaken after) :
    history (before ++ [.stored task change]) <+:
      history (before ++ .stored task change :: after) := by
  have hsplit : before ++ .stored task change :: after =
      (before ++ [.stored task change]) ++ after := by simp
  rw [hsplit, history, history, histories_append _ after]
  refine prefix_foldl_record (List.prefix_refl _) ?_
  intro between other change rest heq
  by_contra hnot
  rw [not_or] at hnot
  exact h ⟨between, other, change, rest, heq, hnot.1⟩

theorem mem_history_of_not_overtaken {before after : List (Access ι τ)} {task : ι}
    {change : τ → τ} (h : ¬ Overtaken after) :
    (task, change) ∈ history (before ++ .stored task change :: after) := by
  refine (history_prefix_of_not_overtaken h).subset ?_
  rw [history_append_stored]
  exact List.mem_append_right _ (List.mem_singleton.mpr rfl)

/-- Every store is of a copy since whose load nobody stored the cell. -/
def Undisturbed (trace : List (Access ι τ)) : Prop :=
  ∀ before task change after, trace = before ++ .stored task change :: after →
    ∃ earlier between, before = earlier ++ .loaded task :: between ∧ stores between = []

theorem history_append_of_stores_nil {trace between : List (Access ι τ)}
    (h : stores between = []) : history (trace ++ between) = history trace := by
  induction between using List.reverseRecOn with
  | nil => rw [List.append_nil]
  | append_singleton between access ih =>
    rw [stores_append, List.append_eq_nil_iff] at h
    cases access with
    | loaded task => rw [← List.append_assoc, history_append_loaded, ih h.1]
    | stored task change => exact absurd h.2 (List.cons_ne_nil _ _)

theorem copies_append_of_stores_nil {trace between : List (Access ι τ)} {task : ι}
    (h : stores between = []) (hcopy : (histories trace).copies task = history trace) :
    (histories (trace ++ between)).copies task = history trace := by
  induction between using List.reverseRecOn with
  | nil => rw [List.append_nil, hcopy]
  | append_singleton between access ih =>
    rw [stores_append, List.append_eq_nil_iff] at h
    cases access with
    | loaded loader =>
      rw [← List.append_assoc, histories_append]
      show Function.update (histories (trace ++ between)).copies loader
        (history (trace ++ between)) task = history trace
      by_cases htask : task = loader
      · rw [htask, Function.update_self, history_append_of_stores_nil h.1]
      · rw [Function.update_of_ne htask, ih h.1]
    | stored other change => exact absurd h.2 (List.cons_ne_nil _ _)

/-- Where nobody disturbs a change, all changes are left, in the order of their stores. -/
theorem history_eq_stores {trace : List (Access ι τ)} (h : Undisturbed trace) :
    history trace = stores trace := by
  induction trace using List.reverseRecOn with
  | nil => rfl
  | append_singleton trace access ih =>
    have hbefore : Undisturbed trace := by
      intro before task change after heq
      exact h before task change (after ++ [access]) (by rw [heq, List.append_assoc]; rfl)
    rw [stores_append]
    cases access with
    | loaded task => rw [history_append_loaded, ih hbefore]; simp
    | stored task change =>
      obtain ⟨earlier, between, rfl, hnone⟩ := h trace task change [] rfl
      have hloaded : history (earlier ++ [.loaded task]) = history earlier :=
        history_append_loaded earlier task
      have hcopy : (histories (earlier ++ [.loaded task])).copies task =
          history (earlier ++ [.loaded task]) := by
        rw [hloaded, histories_append]
        exact Function.update_self ..
      have hsplit : earlier ++ .loaded task :: between =
          (earlier ++ [.loaded task]) ++ between := by simp
      rw [history_append_stored, ← ih hbefore, hsplit, copies_append_of_stores_nil hnone hcopy,
        history_append_of_stores_nil hnone]
      rfl

/-- The changes that one task has stored. -/
def changesOf (i : ι) (trace : List (Access ι τ)) : List (τ → τ) :=
  (stores trace).filterMap fun change => if change.1 = i then some change.2 else none

theorem changesOf_append (i : ι) (trace rest : List (Access ι τ)) :
    changesOf i (trace ++ rest) = changesOf i trace ++ changesOf i rest := by
  rw [changesOf, stores_append, List.filterMap_append]
  rfl

theorem mem_changesOf {i : ι} {change : τ → τ} {trace : List (Access ι τ)} :
    change ∈ changesOf i trace ↔ (i, change) ∈ stores trace := by
  rw [changesOf, List.mem_filterMap]
  constructor
  · rintro ⟨⟨j, stored⟩, hmem, hsome⟩
    by_cases hj : j = i
    · rw [if_pos hj] at hsome
      obtain rfl := Option.some.inj hsome
      exact hj ▸ hmem
    · rw [if_neg hj] at hsome
      cases hsome
  · intro hmem
    exact ⟨(i, change), hmem, if_pos rfl⟩

end Histories

section Programs

variable {κ : Type*}

/-- The cells, with the copies that a program has of them. -/
structure Memory (σ : κ → Type*) where
  cells : ∀ k, σ k
  copies : ∀ k, σ k

namespace Memory

variable {σ : κ → Type*} [DecidableEq κ]

def load (memory : Memory σ) (k : κ) : Memory σ :=
  { memory with copies := Function.update memory.copies k (memory.cells k) }

def store (memory : Memory σ) (k : κ) (change : σ k → σ k) : Memory σ :=
  { memory with cells := Function.update memory.cells k (change (memory.copies k)) }

@[simp] theorem load_cells (memory : Memory σ) (k : κ) : (memory.load k).cells = memory.cells := rfl

@[simp] theorem load_copies (memory : Memory σ) (k : κ) :
    (memory.load k).copies k = memory.cells k := Function.update_self ..

/-- Storing what the cell holds changes nothing. -/
theorem store_eq_self (memory : Memory σ) {k : κ} {change : σ k → σ k}
    (h : change (memory.copies k) = memory.cells k) : memory.store k change = memory := by
  unfold store
  rw [h, Function.update_eq_self]

end Memory

/-- A program that loads cells into its own copies and stores changed copies. -/
inductive Program (σ : κ → Type*) (ε α : Type*) where
  | done (result : Except ε α)
  | peek (k : κ) (next : σ k → Program σ ε α)
  | load (k : κ) (next : σ k → Program σ ε α)
  | store (k : κ) (change : σ k → σ k) (next : Program σ ε α)

namespace Program

variable {σ : κ → Type*} {ε : Type*} {α β : Type u}

def bind : Program σ ε α → (α → Program σ ε β) → Program σ ε β
  | .done (.ok a), f => f a
  | .done (.error error), _ => .done (.error error)
  | .peek k next, f => .peek k fun content => (next content).bind f
  | .load k next, f => .load k fun content => (next content).bind f
  | .store k change next, f => .store k change (next.bind f)

instance : Monad (Program σ ε) where
  pure a := .done (.ok a)
  bind := Program.bind

/-- What a program that ends with a result has stored into one cell. -/
inductive Finishes (k : κ) : Program σ ε α → List (σ k → σ k) → Except ε α → Prop
  | done (result : Except ε α) : Finishes k (.done result) [] result
  | peek {other : κ} {next : σ other → Program σ ε α} {writes : List (σ k → σ k)}
      {result : Except ε α} (content : σ other) :
      Finishes k (next content) writes result → Finishes k (.peek other next) writes result
  | load {other : κ} {next : σ other → Program σ ε α} {writes : List (σ k → σ k)}
      {result : Except ε α} (content : σ other) :
      Finishes k (next content) writes result → Finishes k (.load other next) writes result
  | store {change : σ k → σ k} {next : Program σ ε α} {writes : List (σ k → σ k)}
      {result : Except ε α} :
      Finishes k next writes result → Finishes k (.store k change next) (change :: writes) result
  | other {other : κ} {change : σ other → σ other} {next : Program σ ε α}
      {writes : List (σ k → σ k)} {result : Except ε α} (hother : other ≠ k) :
      Finishes k next writes result → Finishes k (.store other change next) writes result

theorem finishes_done_iff {k : κ} {result result' : Except ε α} {writes : List (σ k → σ k)} :
    Finishes k (.done result) writes result' ↔ writes = [] ∧ result' = result := by
  constructor
  · intro h
    cases h
    exact ⟨rfl, rfl⟩
  · rintro ⟨rfl, rfl⟩
    exact .done result'

/-- A result comes of the parts of a program one after the other. -/
theorem Finishes.of_bind {k : κ} {p : Program σ ε α} {f : α → Program σ ε β}
    {writes : List (σ k → σ k)} {b : β} (h : Finishes k (p >>= f) writes (.ok b)) :
    ∃ a first rest, writes = first ++ rest ∧ Finishes k p first (.ok a) ∧
      Finishes k (f a) rest (.ok b) := by
  change Finishes k (p.bind f) writes (.ok b) at h
  induction p generalizing writes with
  | done result =>
    cases result with
    | error error => cases h
    | ok a => exact ⟨a, [], writes, rfl, .done _, h⟩
  | peek other next ih =>
    cases h with
    | peek content h =>
      obtain ⟨a, first, rest, heq, hfirst, hrest⟩ := ih content h
      exact ⟨a, first, rest, heq, hfirst.peek content, hrest⟩
  | load other next ih =>
    cases h with
    | load content h =>
      obtain ⟨a, first, rest, heq, hfirst, hrest⟩ := ih content h
      exact ⟨a, first, rest, heq, hfirst.load content, hrest⟩
  | store stored change next ih =>
    cases h with
    | store h =>
      obtain ⟨a, first, rest, rfl, hfirst, hrest⟩ := ih h
      exact ⟨a, _ :: first, rest, rfl, hfirst.store, hrest⟩
    | other hother h =>
      obtain ⟨a, first, rest, heq, hfirst, hrest⟩ := ih h
      exact ⟨a, first, rest, heq, hfirst.other hother, hrest⟩

/-- Every store of the program is to a cell of a kind. -/
inductive StoresIn (S : κ → Prop) : Program σ ε α → Prop
  | done (result : Except ε α) : StoresIn S (.done result)
  | peek {k : κ} {next : σ k → Program σ ε α} :
      (∀ content, StoresIn S (next content)) → StoresIn S (.peek k next)
  | load {k : κ} {next : σ k → Program σ ε α} :
      (∀ content, StoresIn S (next content)) → StoresIn S (.load k next)
  | store {k : κ} {change : σ k → σ k} {next : Program σ ε α} :
      S k → StoresIn S next → StoresIn S (.store k change next)

theorem StoresIn.bind {S : κ → Prop} {p : Program σ ε α} {f : α → Program σ ε β}
    (hp : p.StoresIn S) (hf : ∀ a, (f a).StoresIn S) : (p >>= f).StoresIn S := by
  change (p.bind f).StoresIn S
  induction hp with
  | done result =>
    cases result with
    | error error => exact .done _
    | ok a => exact hf a
  | peek _ ih => exact .peek ih
  | load _ ih => exact .load ih
  | store hk _ ih => exact .store hk ih

theorem StoresIn.mono {S T : κ → Prop} {p : Program σ ε α} (hp : p.StoresIn S)
    (h : ∀ k, S k → T k) : p.StoresIn T := by
  induction hp with
  | done result => exact .done result
  | peek _ ih => exact .peek ih
  | load _ ih => exact .load ih
  | store hk _ ih => exact .store (h _ hk) ih

/-- A cell of another kind is not stored. -/
theorem StoresIn.writes_eq_nil {S : κ → Prop} {k : κ} {p : Program σ ε α}
    {writes : List (σ k → σ k)} {result : Except ε α} (hp : p.StoresIn S) (hk : ¬ S k)
    (h : Finishes k p writes result) : writes = [] := by
  induction h with
  | done result => rfl
  | peek content _ ih =>
    cases hp with
    | peek hnext => exact ih (hnext content)
  | load content _ ih =>
    cases hp with
    | load hnext => exact ih (hnext content)
  | store _ _ =>
    cases hp with
    | store hstored _ => exact absurd hstored hk
  | other _ _ ih =>
    cases hp with
    | store _ hnext => exact ih hnext

/-- A first part that does not store the cell leaves the writes to the rest. -/
theorem Finishes.of_quiet_bind {S : κ → Prop} {k : κ} {p : Program σ ε α} {f : α → Program σ ε β}
    {writes : List (σ k → σ k)} {b : β} (hp : p.StoresIn S) (hk : ¬ S k)
    (h : Finishes k (p >>= f) writes (.ok b)) :
    ∃ a, Finishes k p [] (.ok a) ∧ Finishes k (f a) writes (.ok b) := by
  obtain ⟨a, first, rest, rfl, hfirst, hrest⟩ := Finishes.of_bind h
  obtain rfl := hp.writes_eq_nil hk hfirst
  exact ⟨a, hfirst, hrest⟩

/-- A rest that does not store the cell leaves the writes to the first part. -/
theorem Finishes.of_bind_quiet {S : κ → Prop} {k : κ} {p : Program σ ε α} {f : α → Program σ ε β}
    {writes : List (σ k → σ k)} {b : β} (hf : ∀ a, (f a).StoresIn S) (hk : ¬ S k)
    (h : Finishes k (p >>= f) writes (.ok b)) : ∃ a, Finishes k p writes (.ok a) := by
  obtain ⟨a, first, rest, rfl, hfirst, hrest⟩ := Finishes.of_bind h
  obtain rfl := (hf a).writes_eq_nil hk hrest
  rw [List.append_nil]
  exact ⟨a, hfirst⟩

variable [DecidableEq κ]

/-- The program without any other: its result, and what it leaves. -/
def alone : Program σ ε α → Memory σ → Except ε α × Memory σ
  | .done result, memory => (result, memory)
  | .peek k next, memory => (next (memory.cells k)).alone memory
  | .load k next, memory => (next (memory.cells k)).alone (memory.load k)
  | .store k change next, memory => next.alone (memory.store k change)

theorem alone_bind (p : Program σ ε α) (f : α → Program σ ε β) (memory : Memory σ) :
    (p >>= f).alone memory =
      match p.alone memory with
      | (.error error, memory) => (.error error, memory)
      | (.ok a, memory) => (f a).alone memory := by
  change (p.bind f).alone memory = _
  induction p generalizing memory with
  | done result => cases result <;> rfl
  | peek k next ih => exact ih (memory.cells k) memory
  | load k next ih => exact ih (memory.cells k) (memory.load k)
  | store k change next ih => exact ih (memory.store k change)

theorem alone_bind_of_ok {p : Program σ ε α} {f : α → Program σ ε β} {memory left : Memory σ}
    {a : α} (h : p.alone memory = (.ok a, left)) : (p >>= f).alone memory = (f a).alone left := by
  rw [alone_bind, h]

theorem alone_bind_of_error {p : Program σ ε α} {f : α → Program σ ε β} {memory left : Memory σ}
    {error : ε} (h : p.alone memory = (.error error, left)) :
    (p >>= f).alone memory = (.error error, left) := by
  rw [alone_bind, h]

/-- What the next step of a task does with one cell. -/
def access {ι : Type*} (k : κ) (task : ι) : Program σ ε α → Option (Access ι (σ k))
  | .done _ | .peek .. => none
  | .load other _ => if other = k then some (.loaded task) else none
  | .store other change _ => if h : other = k then some (.stored task (h ▸ change)) else none

end Program

variable (σ : κ → Type*) (ε α ι : Type*)

/-- A program on its way, with its copies. -/
structure Task where
  program : Program σ ε α
  copies : ∀ k, σ k

structure State where
  cells : ∀ k, σ k
  tasks : ι → Task σ ε α

variable {σ ε α ι} [DecidableEq κ] [DecidableEq ι]

namespace State

def start (programs : ι → Program σ ε α) (cells : ∀ k, σ k) : State σ ε α ι :=
  ⟨cells, fun task => ⟨programs task, cells⟩⟩

/-- The next step of one task; a task that is done takes none. -/
def step (s : State σ ε α ι) (i : ι) : State σ ε α ι :=
  let task := s.tasks i
  match task.program with
  | .done _ => s
  | .peek k next =>
    { s with tasks := Function.update s.tasks i { task with program := next (s.cells k) } }
  | .load k next =>
    { s with
      tasks := Function.update s.tasks i
        ⟨next (s.cells k), Function.update task.copies k (s.cells k)⟩ }
  | .store k change next =>
    { cells := Function.update s.cells k (change (task.copies k))
      tasks := Function.update s.tasks i { task with program := next } }

def run (s : State σ ε α ι) (schedule : List ι) : State σ ε α ι := schedule.foldl step s

@[simp] theorem run_nil (s : State σ ε α ι) : s.run [] = s := rfl

@[simp] theorem run_cons (s : State σ ε α ι) (i : ι) (schedule : List ι) :
    s.run (i :: schedule) = (s.step i).run schedule := rfl

/-- The accesses to one cell in the order in which they are made. -/
def trace (k : κ) : State σ ε α ι → List ι → List (Access ι (σ k))
  | _, [] => []
  | s, i :: schedule => ((s.tasks i).program.access k i).toList ++ (s.step i).trace k schedule

def shared (s : State σ ε α ι) (k : κ) : Shared ι (σ k) :=
  ⟨s.cells k, fun i => (s.tasks i).copies k⟩

variable {s : State σ ε α ι} {i : ι}

theorem step_done {result : Except ε α} (h : (s.tasks i).program = .done result) :
    s.step i = s := by
  simp only [step, h]

theorem step_peek {k : κ} {next : σ k → Program σ ε α} (h : (s.tasks i).program = .peek k next) :
    s.step i = { s with
      tasks := Function.update s.tasks i { s.tasks i with program := next (s.cells k) } } := by
  simp only [step, h]

theorem step_load {k : κ} {next : σ k → Program σ ε α} (h : (s.tasks i).program = .load k next) :
    s.step i = { s with
      tasks := Function.update s.tasks i
        ⟨next (s.cells k), Function.update (s.tasks i).copies k (s.cells k)⟩ } := by
  simp only [step, h]

theorem step_store {k : κ} {change : σ k → σ k} {next : Program σ ε α}
    (h : (s.tasks i).program = .store k change next) :
    s.step i =
      { cells := Function.update s.cells k (change ((s.tasks i).copies k))
        tasks := Function.update s.tasks i { s.tasks i with program := next } } := by
  simp only [step, h]

theorem tasks_step_of_ne {j : ι} (hj : j ≠ i) : (s.step i).tasks j = s.tasks j := by
  cases h : (s.tasks i).program with
  | done result => rw [step_done h]
  | peek k next => rw [step_peek h]; exact Function.update_of_ne hj ..
  | load k next => rw [step_load h]; exact Function.update_of_ne hj ..
  | store k change next => rw [step_store h]; exact Function.update_of_ne hj ..

omit [DecidableEq κ] in
/-- A task that moves on with the copies it has. -/
theorem copies_update_program (tasks : ι → Task σ ε α) (i : ι) (program : Program σ ε α) (k : κ) :
    (fun j => (Function.update tasks i { tasks i with program } j).copies k) =
      fun j => (tasks j).copies k := by
  funext j
  by_cases hj : j = i
  · rw [hj, Function.update_self]
  · rw [Function.update_of_ne hj]

theorem copies_update_load (tasks : ι → Task σ ε α) (i : ι) (program : Program σ ε α) (k : κ)
    (content : σ k) :
    (fun j => (Function.update tasks i
      ⟨program, Function.update (tasks i).copies k content⟩ j).copies k) =
      Function.update (fun j => (tasks j).copies k) i content := by
  funext j
  by_cases hj : j = i
  · rw [hj, Function.update_self, Function.update_self]
    exact Function.update_self ..
  · rw [Function.update_of_ne hj, Function.update_of_ne hj]

theorem copies_update_load_of_ne (tasks : ι → Task σ ε α) (i : ι) (program : Program σ ε α)
    {k other : κ} (hk : k ≠ other) (content : σ other) :
    (fun j => (Function.update tasks i
      ⟨program, Function.update (tasks i).copies other content⟩ j).copies k) =
      fun j => (tasks j).copies k := by
  funext j
  by_cases hj : j = i
  · rw [hj, Function.update_self]
    exact Function.update_of_ne hk ..
  · rw [Function.update_of_ne hj]

/-- A step, seen by one cell, is the access that it makes to this cell. -/
theorem shared_step (s : State σ ε α ι) (i : ι) (k : κ) :
    (s.step i).shared k =
      ((s.tasks i).program.access k i).toList.foldl Shared.access (s.shared k) := by
  cases h : (s.tasks i).program with
  | done result => rw [step_done h]; rfl
  | peek other next =>
    rw [step_peek h, shared, copies_update_program]
    rfl
  | load other next =>
    rw [step_load h, Program.access]
    by_cases hk : k = other
    · subst hk
      rw [shared, copies_update_load, if_pos rfl]
      rfl
    · rw [shared, copies_update_load_of_ne _ _ _ hk, if_neg (Ne.symm hk)]
      rfl
  | store other change next =>
    rw [step_store h, shared, copies_update_program, Program.access]
    by_cases hk : k = other
    · subst hk
      rw [dif_pos rfl]
      simp only [Function.update_self]
      rfl
    · rw [dif_neg (Ne.symm hk)]
      simp only [Function.update_of_ne hk]
      rfl

theorem shared_run (s : State σ ε α ι) (schedule : List ι) (k : κ) :
    (s.run schedule).shared k = (s.trace k schedule).foldl Shared.access (s.shared k) := by
  induction schedule generalizing s with
  | nil => rfl
  | cons i schedule ih => rw [run_cons, ih, trace, List.foldl_append, shared_step]

/-- The content of a cell is what the changes that are left make of it. -/
theorem cells_run_start (programs : ι → Program σ ε α) (cells : ∀ k, σ k) (schedule : List ι)
    (k : κ) :
    ((start programs cells).run schedule).cells k =
      applyAll (cells k) (history ((start programs cells).trace k schedule)) := by
  have h := shared_run (start programs cells) schedule k
  have hcontent := congrArg Shared.content h
  rw [← content_eq_applyAll]
  exact hcontent

/-- The step of another task is no change of this one. -/
theorem changesOf_access_of_ne {j : ι} (hj : j ≠ i) (program : Program σ ε α) (k : κ) :
    changesOf i (program.access k j).toList = [] := by
  cases program with
  | done result => rfl
  | peek other next => rfl
  | load other next =>
    rw [Program.access]
    split <;> rfl
  | store other change next =>
    rw [Program.access]
    split
    · simp [changesOf, hj]
    · rfl

/-- What is stored from a step on is what the step stores, and then the rest. -/
theorem finishes_of_step {k : κ} {writes : List (σ k → σ k)} {result : Except ε α}
    (h : ((s.step i).tasks i).program.Finishes k writes result) :
    (s.tasks i).program.Finishes k
      (changesOf i ((s.tasks i).program.access k i).toList ++ writes) result := by
  cases hprogram : (s.tasks i).program with
  | done other =>
    rw [step_done hprogram, hprogram] at h
    exact h
  | peek other next =>
    simp only [step_peek hprogram, Function.update_self] at h
    exact h.peek (s.cells other)
  | load other next =>
    simp only [step_load hprogram, Function.update_self] at h
    rw [Program.access]
    split <;> exact h.load (s.cells other)
  | store other change next =>
    simp only [step_store hprogram, Function.update_self] at h
    rw [Program.access]
    by_cases hk : other = k
    · subst hk
      simpa [changesOf] using h.store
    · rw [dif_neg hk]
      exact h.other hk

/-- A task that is done has stored what its program stores on its way to the result. -/
theorem finishes_of_done {schedule : List ι} {result : Except ε α} (k : κ)
    (h : ((s.run schedule).tasks i).program = .done result) :
    (s.tasks i).program.Finishes k (changesOf i (s.trace k schedule)) result := by
  induction schedule generalizing s with
  | nil =>
    rw [run_nil] at h
    rw [h]
    exact .done result
  | cons j schedule ih =>
    have hrest := ih h
    rw [trace, changesOf_append]
    by_cases hj : j = i
    · subst hj
      exact finishes_of_step hrest
    · rw [tasks_step_of_ne (Ne.symm hj)] at hrest
      rw [changesOf_access_of_ne hj]
      exact hrest

end State

end Programs

end Esdiag.SharedCells
