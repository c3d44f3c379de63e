import Esdiag.SavedJobStore

/-!
When no update of the saved jobs is lost. A write is fresh when nobody else has
written since its client last accessed the file. Along a run of fresh writes the
file is what the saved operations produce one after another in the order of
their commits, with loads in between that at most bring a legacy file into its
present form. A write that is not fresh overwrites the update it has not seen.
-/
namespace Esdiag.SavedJobUpdates

open KeyedMaps YamlValues JobModel SavedJobFiles SavedJobStore World

/-- One entry of a serial history. -/
inductive Event where
  | loaded
  | applied (client : ℕ)

def commitsOf (log : List Event) : List ℕ :=
  log.filterMap fun
    | .loaded => none
    | .applied client => some client

section History

variable (env : Environment) (operations : ℕ → Operation)

def replay (file : JobsFile) : Event → JobsFile
  | .loaded => (loadSavedJobsFromPath env file).2
  | .applied client => runAlone env (operations client) file

/-- The file after the events of a history, one after another. -/
def serial (file : JobsFile) (log : List Event) : JobsFile :=
  log.foldl (replay env operations) file

/-- The saved operations, each once and in the order of their commits, produce
the file. -/
def NoUpdateLost (start : JobsFile) (w : World) : Prop :=
  w.commits.Nodup ∧ (∀ c, c ∈ w.commits ↔ (w.clients c).phase = .finished .saved) ∧
    ∃ log, commitsOf log = w.commits ∧ serial env operations start log = w.file

/-- A step that writes the file comes before any other write since the last
access of its client. -/
def FreshWrite (w : World) (turn : ℕ × Bool) : Prop :=
  w.canEnter turn.1 = true → turn.2 = false → ∀ jobs readAt,
    (w.clients turn.1).phase = .migrating jobs readAt ∨
      (w.clients turn.1).phase = .writing jobs readAt → readAt = w.writes

def FreshRun (w : World) : List (ℕ × Bool) → Prop
  | [] => True
  | turn :: rest => FreshWrite w turn ∧ FreshRun (w.step env turn) rest

/-- What is known of a client from where it is. A map waiting for a write that
is still fresh is the change of what the file held when it was loaded. -/
def PhaseInv (start : JobsFile) (w : World) (c : ℕ) : Phase → Prop
  | .ready => c ∉ w.commits
  | .migrating jobs readAt =>
    c ∉ w.commits ∧ (operations c).precheck = .ok () ∧ readAt ≤ w.writes ∧
      (readAt = w.writes → readJobsFile env w.file = .ok (jobs, true))
  | .writing jobs readAt =>
    c ∉ w.commits ∧ (operations c).precheck = .ok () ∧ readAt ≤ w.writes ∧
      (readAt = w.writes → ∃ log loaded, commitsOf log = w.commits ∧
        loadSavedJobsFromPath env (serial env operations start log) = (.ok loaded, w.file) ∧
        (operations c).change loaded = .ok (jobs, true))
  | .finished .saved => c ∈ w.commits
  | .finished _ => c ∉ w.commits

structure Inv (start : JobsFile) (w : World) : Prop where
  operation : ∀ c, (w.clients c).operation = operations c
  nodup : w.commits.Nodup
  history : ∃ log, commitsOf log = w.commits ∧ serial env operations start log = w.file
  phases : ∀ c, PhaseInv env operations start w c (w.clients c).phase

variable {env operations} {start : JobsFile} {w : World}

theorem inv_initial (processes : ℕ → ℕ) :
    Inv env operations start (initial start fun c => (processes c, operations c)) where
  operation _ := rfl
  nodup := List.nodup_nil
  history := ⟨[], rfl, rfl⟩
  phases _ := List.not_mem_nil

/-- A step that moves one client and nothing else. -/
theorem Inv.advance (h : Inv env operations start w) (c : ℕ) {phase : Phase} (locked : Bool)
    (hphase : PhaseInv env operations start w c phase) :
    Inv env operations start (w.advance c phase locked) where
  operation other := by
    by_cases hother : other = c
    · subst hother
      simpa [World.advance] using h.operation other
    · simpa [World.advance, hother] using h.operation other
  nodup := h.nodup
  history := h.history
  phases other := by
    by_cases hother : other = c
    · subst hother
      simp only [World.advance, Function.update_self]
      cases phase <;> exact hphase
    · simp only [World.advance, Function.update_of_ne hother]
      have hold := h.phases other
      cases hp : (w.clients other).phase <;> rw [hp] at hold <;> exact hold

theorem commitsOf_append (left right : List Event) :
    commitsOf (left ++ right) = commitsOf left ++ commitsOf right :=
  List.filterMap_append

theorem serial_append (file : JobsFile) (left right : List Event) :
    serial env operations file (left ++ right) =
      serial env operations (serial env operations file left) right := List.foldl_append

/-- After a write the earlier loads of all other clients are stale. -/
theorem PhaseInv.of_replaceFile {c : ℕ} {phase : Phase}
    (h : PhaseInv env operations start w c phase) (file : JobsFile) :
    PhaseInv env operations start (w.replaceFile file) c phase := by
  cases phase with
  | ready => exact h
  | migrating jobs readAt =>
    obtain ⟨hcommits, hcheck, hle, -⟩ := h
    refine ⟨hcommits, hcheck, Nat.le_succ_of_le hle, fun heq => ?_⟩
    have hwrites : (w.replaceFile file).writes = w.writes + 1 := rfl
    omega
  | writing jobs readAt =>
    obtain ⟨hcommits, hcheck, hle, -⟩ := h
    refine ⟨hcommits, hcheck, Nat.le_succ_of_le hle, fun heq => ?_⟩
    have hwrites : (w.replaceFile file).writes = w.writes + 1 := rfl
    omega
  | finished outcome => cases outcome <;> exact h

theorem Inv.replaceFile (h : Inv env operations start w) {file : JobsFile}
    (hfile : ∃ log, commitsOf log = w.commits ∧ serial env operations start log = file) :
    Inv env operations start (w.replaceFile file) where
  operation := h.operation
  nodup := h.nodup
  history := hfile
  phases c := (h.phases c).of_replaceFile file

/-- A client whose load is in the history moves on. -/
theorem Inv.afterLoad (h : Inv env operations start w) (c : ℕ) {jobs : SavedJobs}
    (hcommits : c ∉ w.commits) (hcheck : (operations c).precheck = .ok ())
    (hload : ∃ log, commitsOf log = w.commits ∧
      loadSavedJobsFromPath env (serial env operations start log) = (.ok jobs, w.file)) :
    Inv env operations start (w.afterLoad c jobs) := by
  obtain ⟨log, hlog, hload⟩ := hload
  unfold World.afterLoad
  rw [h.operation c]
  cases hchange : (operations c).change jobs with
  | error error => exact h.advance c false hcommits
  | ok result =>
    obtain ⟨changed, write⟩ := result
    cases write with
    | false => exact h.advance c false hcommits
    | true =>
      exact h.advance c _ ⟨hcommits, hcheck, Nat.le_refl _, fun _ =>
        ⟨log, jobs, hlog, hload, hchange⟩⟩

theorem Inv.begin (h : Inv env operations start w) (c : ℕ) (ioFails : Bool)
    (hphase : (w.clients c).phase = .ready) :
    Inv env operations start (w.begin env c ioFails) := by
  have hcommits : c ∉ w.commits := by
    have hready := h.phases c
    rwa [hphase] at hready
  obtain ⟨log, hlog, hserial⟩ := h.history
  unfold World.begin
  rw [h.operation c]
  cases hcheck : (operations c).precheck with
  | error error => exact h.advance c false hcommits
  | ok _ =>
    cases ioFails with
    | true => exact h.advance c false hcommits
    | false =>
      cases hread : readJobsFile env w.file with
      | error error => exact h.advance c false hcommits
      | ok result =>
        obtain ⟨jobs, rewrite⟩ := result
        cases rewrite with
        | false =>
          refine h.afterLoad c hcommits hcheck ⟨log, hlog, ?_⟩
          rw [hserial, loadSavedJobsFromPath, hread]
        | true => exact h.advance c true ⟨hcommits, hcheck, Nat.le_refl _, fun _ => hread⟩

theorem writeFile_eq_ok {jobs : SavedJobs} {ioFails : Bool} {file : JobsFile}
    (h : writeFile env jobs ioFails = .ok file) :
    ioFails = false ∧ writeSavedJobsDocument env jobs = .ok file := by
  unfold writeFile at h
  cases ioFails with
  | true => simp at h
  | false =>
    cases hwrite : writeSavedJobsDocument env jobs with
    | error error => simp [hwrite, Except.mapError] at h
    | ok written => simpa [hwrite, Except.mapError] using h

/-- The rewrite of a legacy file is the second half of a load. -/
theorem Inv.migrate (h : Inv env operations start w) (c : ℕ) (ioFails : Bool) {jobs : SavedJobs}
    {readAt : ℕ} (hphase : (w.clients c).phase = .migrating jobs readAt)
    (hfresh : ioFails = false → readAt = w.writes) :
    Inv env operations start (w.migrate env c jobs ioFails) := by
  have hmigrating := h.phases c
  rw [hphase] at hmigrating
  obtain ⟨hcommits, hcheck, -, hread⟩ := hmigrating
  unfold World.migrate
  cases hwrite : writeFile env jobs ioFails with
  | error error => exact h.advance c false hcommits
  | ok file =>
    obtain ⟨hio, hfile⟩ := writeFile_eq_ok hwrite
    obtain ⟨log, hlog, hserial⟩ := h.history
    have hload : loadSavedJobsFromPath env (serial env operations start log) =
        (.ok jobs, file) := by
      rw [hserial, loadSavedJobsFromPath, hread (hfresh hio)]
      simp only [hfile]
    have hreplaced : Inv env operations start (w.replaceFile file) := by
      apply h.replaceFile
      refine ⟨log ++ [.loaded], ?_, ?_⟩
      · rw [commitsOf_append, hlog]
        exact List.append_nil _
      · rw [serial_append]
        show (loadSavedJobsFromPath env (serial env operations start log)).2 = file
        rw [hload]
    exact hreplaced.afterLoad c hcommits hcheck ⟨log, hlog, hload⟩

/-- A commit does not concern the clients that have not committed. -/
theorem PhaseInv.of_commit {c other : ℕ} {phase : Phase} (hother : other ≠ c)
    (h : PhaseInv env operations start w other phase) (file : JobsFile) :
    PhaseInv env operations start { w.replaceFile file with commits := w.commits ++ [c] }
      other phase := by
  have hmem : other ∈ w.commits ++ [c] ↔ other ∈ w.commits := by simp [hother]
  cases phase with
  | ready => exact fun hcommit => h (hmem.mp hcommit)
  | migrating jobs readAt =>
    obtain ⟨hcommits, hcheck, hle, -⟩ := h
    refine ⟨fun hcommit => hcommits (hmem.mp hcommit), hcheck, Nat.le_succ_of_le hle, fun heq => ?_⟩
    have hwrites : readAt = w.writes + 1 := heq
    omega
  | writing jobs readAt =>
    obtain ⟨hcommits, hcheck, hle, -⟩ := h
    refine ⟨fun hcommit => hcommits (hmem.mp hcommit), hcheck, Nat.le_succ_of_le hle, fun heq => ?_⟩
    have hwrites : readAt = w.writes + 1 := heq
    omega
  | finished outcome =>
    cases outcome with
    | saved => exact hmem.mpr h
    | failed error => exact fun hcommit => h (hmem.mp hcommit)
    | unchanged => exact fun hcommit => h (hmem.mp hcommit)

/-- A fresh commit applies its operation to what its client loaded. -/
theorem Inv.commit (h : Inv env operations start w) (c : ℕ) (ioFails : Bool) {jobs : SavedJobs}
    {readAt : ℕ} (hphase : (w.clients c).phase = .writing jobs readAt)
    (hfresh : ioFails = false → readAt = w.writes) :
    Inv env operations start (w.commit env c jobs ioFails) := by
  have hwriting := h.phases c
  rw [hphase] at hwriting
  obtain ⟨hcommits, hcheck, -, hloaded⟩ := hwriting
  unfold World.commit
  cases hwrite : writeFile env jobs ioFails with
  | error error => exact h.advance c false hcommits
  | ok file =>
    obtain ⟨hio, hfile⟩ := writeFile_eq_ok hwrite
    obtain ⟨log, loaded, hlog, hload, hchange⟩ := hloaded (hfresh hio)
    refine ⟨fun other => ?_, ?_, ?_, fun other => ?_⟩
    · by_cases hother : other = c
      · subst hother
        simpa [World.finish, World.advance, World.replaceFile] using h.operation other
      · simpa [World.finish, World.advance, World.replaceFile, hother] using h.operation other
    · show (w.commits ++ [c]).Nodup
      rw [List.nodup_append]
      refine ⟨h.nodup, List.nodup_singleton c, ?_⟩
      intro a ha b hb heq
      rw [List.mem_singleton] at hb
      exact hcommits (hb ▸ heq ▸ ha)
    · refine ⟨log ++ [.applied c], ?_, ?_⟩
      · rw [commitsOf_append, hlog]
        rfl
      · rw [serial_append]
        show runAlone env (operations c) (serial env operations start log) = file
        simp only [runAlone, hcheck, hload, hchange, hfile]
    · by_cases hother : other = c
      · subst hother
        simp [World.finish, World.advance, PhaseInv]
      · have hold := (h.phases other).of_commit hother file
        simp only [World.finish, World.advance, World.replaceFile, Function.update_of_ne hother]
        cases hp : (w.clients other).phase <;> rw [hp] at hold <;> exact hold

theorem Inv.step (h : Inv env operations start w) {turn : ℕ × Bool}
    (hfresh : FreshWrite w turn) : Inv env operations start (w.step env turn) := by
  unfold World.step
  by_cases henter : w.canEnter turn.1 = true
  · rw [if_pos henter]
    cases hphase : (w.clients turn.1).phase with
    | ready => exact h.begin turn.1 turn.2 hphase
    | migrating jobs readAt =>
      exact h.migrate turn.1 turn.2 hphase fun hio => hfresh henter hio jobs readAt (Or.inl hphase)
    | writing jobs readAt =>
      exact h.commit turn.1 turn.2 hphase fun hio => hfresh henter hio jobs readAt (Or.inr hphase)
    | finished outcome => exact h
  · rw [if_neg henter]
    exact h

theorem Inv.run (h : Inv env operations start w) (schedule : List (ℕ × Bool))
    (hfresh : FreshRun env w schedule) : Inv env operations start (w.run env schedule) := by
  induction schedule generalizing w with
  | nil => exact h
  | cons turn rest ih => exact ih (h.step hfresh.1) hfresh.2

theorem Inv.noUpdateLost (h : Inv env operations start w) :
    NoUpdateLost env operations start w := by
  refine ⟨h.nodup, fun c => ?_, h.history⟩
  have hphase := h.phases c
  cases hp : (w.clients c).phase with
  | finished outcome =>
    rw [hp] at hphase
    cases outcome with
    | saved => exact ⟨fun _ => rfl, fun _ => hphase⟩
    | failed error => exact ⟨fun hc => absurd hc hphase, fun heq => by simp at heq⟩
    | unchanged => exact ⟨fun hc => absurd hc hphase, fun heq => by simp at heq⟩
  | ready => simpa [hp, PhaseInv] using hphase
  | migrating jobs readAt =>
    rw [hp] at hphase
    simpa [hp] using hphase.1
  | writing jobs readAt =>
    rw [hp] at hphase
    simpa [hp] using hphase.1

end History

section OneProcess

variable (env : Environment) {w : World}

/-- Whether a client has read the file and still has to write it. -/
def Phase.InSection : Phase → Prop
  | .migrating .. | .writing .. => True
  | .ready | .finished _ => False

/-- All clients are updates of one process, and whoever has still to write holds
the lock and has seen the last write. -/
structure Locked (w : World) : Prop where
  process : ∀ c c', (w.clients c).process = (w.clients c').process
  update : ∀ c, (w.clients c).operation.holdsLock = true
  holder : ∀ c, Phase.InSection (w.clients c).phase →
    w.lockHolder (w.clients c).process = some c
  seen : ∀ c jobs readAt, (w.clients c).phase = .migrating jobs readAt ∨
    (w.clients c).phase = .writing jobs readAt → readAt = w.writes

/-- Who may enter is alone: no other client has still to write. -/
theorem Locked.alone (h : Locked w) {c other : ℕ} (henter : w.canEnter c = true)
    (hother : other ≠ c) : ¬ Phase.InSection (w.clients other).phase := by
  intro hsection
  have hholder := h.holder other hsection
  rw [h.process other c] at hholder
  unfold World.canEnter at henter
  rw [hholder] at henter
  exact hother (by simpa using henter)

/-- The client that entered moves on, after a write or without one. -/
theorem Locked.advance (h : Locked w) {c : ℕ} (henter : w.canEnter c = true) (file : JobsFile)
    (writes : ℕ) (commits : List ℕ) {phase : Phase} (locked : Bool)
    (hlocked : Phase.InSection phase → locked = true)
    (hseen : ∀ jobs readAt, phase = .migrating jobs readAt ∨ phase = .writing jobs readAt →
      readAt = writes) :
    Locked { w.advance c phase locked with file := file, writes := writes, commits := commits } where
  process a b := by
    have hsame : ∀ d, ((w.advance c phase locked).clients d).process = (w.clients d).process := by
      intro d
      by_cases hd : d = c
      · subst hd
        simp [World.advance]
      · simp [World.advance, hd]
    show ((w.advance c phase locked).clients a).process = _
    rw [hsame a]
    exact (h.process a b).trans (hsame b).symm
  update a := by
    by_cases ha : a = c
    · subst ha
      simpa [World.advance] using h.update a
    · simpa [World.advance, ha] using h.update a
  holder a hsection := by
    by_cases ha : a = c
    · subst ha
      have hphase : Phase.InSection phase := by simpa [World.advance] using hsection
      simp [World.advance, hlocked hphase]
    · have hphase : Phase.InSection (w.clients a).phase := by
        simpa [World.advance, ha] using hsection
      exact absurd hphase (h.alone henter ha)
  seen a jobs readAt hphase := by
    by_cases ha : a = c
    · subst ha
      exact hseen jobs readAt (by simpa [World.advance] using hphase)
    · have hold : (w.clients a).phase = .migrating jobs readAt ∨
          (w.clients a).phase = .writing jobs readAt := by
        simpa [World.advance, ha] using hphase
      refine absurd ?_ (h.alone henter ha)
      rcases hold with hold | hold <;> rw [hold] <;> trivial

theorem Locked.afterLoad (h : Locked w) {c : ℕ} (henter : w.canEnter c = true) (file : JobsFile)
    (writes : ℕ) (jobs : SavedJobs) :
    Locked (World.afterLoad { w with file := file, writes := writes } c jobs) := by
  have hfinish : ∀ outcome, Locked (World.finish { w with file := file, writes := writes } c outcome) :=
    fun outcome => h.advance henter file writes w.commits false False.elim (by simp)
  unfold World.afterLoad
  cases hchange : (w.clients c).operation.change jobs with
  | error error => exact hfinish _
  | ok result =>
    obtain ⟨changed, write⟩ := result
    cases write with
    | false => exact hfinish _
    | true =>
      rw [h.update c]
      refine h.advance henter file writes w.commits true (fun _ => rfl) ?_
      intro other readAt hphase
      rcases hphase with hphase | hphase
      · simp at hphase
      · exact (Phase.writing.inj hphase).2.symm

theorem Locked.step (h : Locked w) (turn : ℕ × Bool) : Locked (w.step env turn) := by
  obtain ⟨c, ioFails⟩ := turn
  unfold World.step
  by_cases henter : w.canEnter c = true
  · rw [if_pos henter]
    have hfinish : ∀ outcome, Locked (w.finish c outcome) := fun outcome =>
      h.advance henter w.file w.writes w.commits false False.elim (by simp)
    cases hphase : (w.clients c).phase with
    | ready =>
      show Locked (w.begin env c ioFails)
      unfold World.begin
      cases hcheck : (w.clients c).operation.precheck with
      | error error => exact hfinish _
      | ok _ =>
        cases ioFails with
        | true => exact hfinish _
        | false =>
          cases hread : readJobsFile env w.file with
          | error error => exact hfinish _
          | ok result =>
            obtain ⟨jobs, rewrite⟩ := result
            cases rewrite with
            | false => exact h.afterLoad henter w.file w.writes jobs
            | true =>
              refine h.advance henter w.file w.writes w.commits true (fun _ => rfl) ?_
              intro other readAt hphase
              rcases hphase with hphase | hphase
              · exact (Phase.migrating.inj hphase).2.symm
              · simp at hphase
    | migrating jobs readAt =>
      show Locked (w.migrate env c jobs ioFails)
      unfold World.migrate
      cases hwrite : writeFile env jobs ioFails with
      | error error => exact hfinish _
      | ok file => exact h.afterLoad henter file (w.writes + 1) jobs
    | writing jobs readAt =>
      show Locked (w.commit env c jobs ioFails)
      unfold World.commit
      cases hwrite : writeFile env jobs ioFails with
      | error error => exact hfinish _
      | ok file =>
        exact h.advance henter file (w.writes + 1) (w.commits ++ [c]) false False.elim (by simp)
    | finished outcome => exact h
  · rw [if_neg henter]
    exact h

/-- Updates of one process write only what they have just read. -/
theorem Locked.freshRun (h : Locked w) (schedule : List (ℕ × Bool)) :
    FreshRun env w schedule := by
  induction schedule generalizing w with
  | nil => trivial
  | cons turn rest ih => exact ⟨fun _ _ => h.seen turn.1, ih (h.step env turn)⟩

theorem updates_of_one_process_fresh (process : ℕ) (start : JobsFile)
    (updates : ℕ → SavedJobs → Except String (SavedJobs × Bool)) (schedule : List (ℕ × Bool)) :
    FreshRun env (initial start fun c => (process, .withSavedJobs (updates c))) schedule := by
  apply Locked.freshRun
  refine ⟨fun _ _ => rfl, fun _ => rfl, fun _ hsection => hsection.elim, ?_⟩
  intro c jobs readAt hphase
  rcases hphase with hphase | hphase <;> simp [initial] at hphase

end OneProcess

/-- In a run whose writes are all fresh no update is lost. -/
theorem no_update_lost_of_fresh (env : Environment) (operations : ℕ → Operation)
    (processes : ℕ → ℕ) (start : JobsFile) (schedule : List (ℕ × Bool))
    (hfresh : FreshRun env (initial start fun c => (processes c, operations c)) schedule) :
    NoUpdateLost env operations start
      ((initial start fun c => (processes c, operations c)).run env schedule) :=
  ((inv_initial processes).run schedule hfresh).noUpdateLost

section Samples

theorem serial_loads {env : Environment} {operations : ℕ → Operation} {file : JobsFile}
    (hfixed : replay env operations file .loaded = file) (log : List Event)
    (hlog : commitsOf log = []) : serial env operations file log = file := by
  induction log with
  | nil => rfl
  | cons event rest ih =>
    cases event with
    | loaded =>
      show serial env operations (replay env operations file .loaded) rest = file
      rw [hfixed]
      exact ih hlog
    | applied client => simp [commitsOf] at hlog

/-- A history is its first commit, with loads before it and the rest after it. -/
theorem serial_of_commits_cons {env : Environment} {operations : ℕ → Operation}
    {file : JobsFile} (hfixed : replay env operations file .loaded = file) {log : List Event}
    {c : ℕ} {commits : List ℕ} (hlog : commitsOf log = c :: commits) :
    ∃ rest, commitsOf rest = commits ∧ serial env operations file log =
      serial env operations (runAlone env (operations c) file) rest := by
  induction log with
  | nil => simp [commitsOf] at hlog
  | cons event rest ih =>
    cases event with
    | loaded =>
      obtain ⟨after, hafter, hserial⟩ := ih hlog
      refine ⟨after, hafter, ?_⟩
      show serial env operations (replay env operations file .loaded) rest = _
      rw [hfixed]
      exact hserial
    | applied client =>
      obtain ⟨rfl, hrest⟩ : client = c ∧ commitsOf rest = commits := List.cons.inj hlog
      exact ⟨rest, hrest, rfl⟩

def sampleEnvironment : Environment :=
  { registry := .empty, uris := ⟨fun _ => none, fun _ => none⟩, ambientUser := none }

def sampleJob : Job :=
  { identifiers := .default none
    input := .collect "prod" "standard" none none
    save := some (.retained (.ofString "/tmp"))
    process := none
    send := none
    valid := rfl }

/-- Updates that add a job each, in an order that makes the second one wait. -/
theorem waiting_updates_kept :
    NoUpdateLost sampleEnvironment
      (fun c => .withSavedJobs fun jobs => .ok (jobs.insert (toString c) sampleJob, true)) .absent
      ((initial .absent fun c =>
        (7, .withSavedJobs fun jobs => .ok (jobs.insert (toString c) sampleJob, true))).run
          sampleEnvironment [(0, false), (1, false), (0, false), (1, false), (1, false)]) :=
  no_update_lost_of_fresh sampleEnvironment _ (fun _ => 7) .absent _
    (updates_of_one_process_fresh sampleEnvironment 7 .absent _ _)

def saves (c : ℕ) : Operation := .saveJob (if c = 0 then "first" else "second") sampleJob

/-- Both clients have loaded the file when the first of them writes it. -/
def overlapping : World :=
  (initial .absent fun c => (c, saves c)).run sampleEnvironment
    [(0, false), (1, false), (0, false), (1, false)]

def fileWith (names : List String) : JobsFile :=
  .document (.mapping [("schema_version", .int 2), ("jobs", .mapping (names.map fun name =>
    (name, .mapping [
      ("input", .mapping [("type", .string "collect"), ("host", .string "prod"),
        ("diagnostic_type", .string "standard")]),
      ("save", .mapping [("dir", .string "/tmp")])])))])

def jobNames : JobsFile → List String
  | .document (.mapping [_, (_, .mapping jobs)]) => jobs.map Prod.fst
  | _ => []

theorem overlapping_file : overlapping.file = fileWith ["second"] := rfl

theorem first_alone : runAlone sampleEnvironment (saves 0) .absent = fileWith ["first"] := rfl

theorem second_after_first :
    runAlone sampleEnvironment (saves 1) (fileWith ["first"]) = fileWith ["first", "second"] := rfl

theorem replay_fileWith_first :
    replay sampleEnvironment saves (fileWith ["first"]) .loaded = fileWith ["first"] := rfl

theorem replay_fileWith_both :
    replay sampleEnvironment saves (fileWith ["first", "second"]) .loaded =
      fileWith ["first", "second"] := rfl

/-- The second save writes the jobs it loaded before the first one was saved. -/
theorem overlapping_saves_lose_update :
    ¬ NoUpdateLost sampleEnvironment saves .absent overlapping := by
  rintro ⟨-, -, log, hlog, hserial⟩
  have hcommits : overlapping.commits = [0, 1] := rfl
  rw [hcommits] at hlog
  have habsent : replay sampleEnvironment saves .absent .loaded = .absent := rfl
  obtain ⟨rest, hrest, hfirst⟩ := serial_of_commits_cons habsent hlog
  rw [first_alone] at hfirst
  obtain ⟨last, hlast, hsecond⟩ := serial_of_commits_cons replay_fileWith_first hrest
  rw [second_after_first, serial_loads replay_fileWith_both last hlast] at hsecond
  rw [hfirst, hsecond, overlapping_file] at hserial
  have hnames : ["first", "second"] = ["second"] := congrArg jobNames hserial
  exact absurd hnames (by decide)

end Samples

end Esdiag.SavedJobUpdates
