import Esdiag.ChildJobs
import Esdiag.GuardedRuns

/-!
Job slots and job statistics of the server. A request that may run takes a slot
of its owner under one lock and is counted as active under another; when it
ends, the statistics are updated first and the slot is given back afterwards.
Requests of the web runner and of the synchronous API go through the same few
records, interleaved at every lock. Slots and caps exist in service mode only.
-/
namespace Esdiag.JobSlots

open GuardedRuns KeyedMaps Reports ExecutionOutcomes

inductive RuntimeMode where
  | user
  | service
  deriving DecidableEq

structure JobConcurrencyCaps where
  global : ℕ
  perOwner : ℕ
  deriving DecidableEq

def JobConcurrencyCaps.default : JobConcurrencyCaps := ⟨8, 2⟩

structure ServerPolicy where
  mode : RuntimeMode
  jobCaps : JobConcurrencyCaps
  deriving DecidableEq

inductive JobAdmissionError where
  | globalCapReached (active cap : ℕ)
  | ownerCapReached (owner : String) (active cap : ℕ)
  deriving DecidableEq

def JobAdmissionError.message : JobAdmissionError → String
  | globalCapReached active cap =>
    "Service mode concurrent job cap reached (" ++ toString active ++ "/" ++ toString cap ++ ")"
  | ownerCapReached owner active cap =>
    "Service mode per-owner concurrent job cap reached for " ++ owner ++ " (" ++
      toString active ++ "/" ++ toString cap ++ ")"

structure DocStats where
  total : ℕ
  errors : ℕ
  deriving DecidableEq

structure JobStats where
  total : ℕ
  success : ℕ
  failed : ℕ
  active : ℕ
  deriving DecidableEq

structure Stats where
  docs : DocStats
  jobs : JobStats
  deriving DecidableEq

/-- How the end of a job is recorded. -/
inductive Recording where
  | success (docs errors : ℕ)
  | outcome (verdict : DiagnosticOutcome) (docs errors : ℕ)
  | failure
  deriving DecidableEq

namespace Recording

/-- Only a failed outcome counts as a failed job; partial and skipped ones do not. -/
def succeeds : Recording → Bool
  | success _ _ => true
  | outcome verdict _ _ => verdict ≠ .failed
  | failure => false

def docs : Recording → ℕ × ℕ
  | success docs errors | outcome _ docs errors => (docs, errors)
  | failure => (0, 0)

end Recording

/-- What an execution of a processing job returns: without a failure there is a report. -/
structure ProcessedJob where
  outcome : ExecutionOutcome
  reported : outcome.failed = false → outcome.report.isSome = true

/-- What a web request meets on its way: its validation, the steps before a slot is
asked for, those after it, the execution and the copy of the retained bundle. -/
structure WebRun where
  validation : Except String Unit
  preparation : Except String Unit
  setup : Except String Unit
  outcome : ExecutionOutcome
  retention : Except String Unit

/-- The same of a synchronous request, whose checks precede every record. -/
structure SyncRun where
  receiver : Except String Unit
  setup : Except String Unit
  processed : ProcessedJob

inductive Request where
  | web (owner : String) (run : WebRun)
  | sync (owner : String) (run : SyncRun)

namespace Request

def owner : Request → String
  | web owner _ | sync owner _ => owner

/-- Errors for which a request never asks for a slot. -/
def earlyError : Request → Option String
  | web _ run =>
    match run.validation, run.preparation with
    | .error error, _ => some error
    | .ok (), .error error => some error
    | .ok (), .ok () => none
  | sync _ _ => none

/-- The end of a web job that was started. A report is recorded as the outcome, also
when the outputs failed; every other error is a failure. -/
def webRecording (run : WebRun) : Recording :=
  match run.setup, run.retention with
  | .error _, _ => .failure
  | .ok (), .error _ => .failure
  | .ok (), .ok () =>
    match run.outcome.report with
    | some report =>
      .outcome (if run.outcome.failed then .failed else report.outcome)
        report.docs.created.toNat report.docs.errors.toNat
    | none => if run.outcome.failed then .failure else .success 0 0

def syncRecording (run : SyncRun) : Recording :=
  match run.receiver, run.setup with
  | .error _, _ => .failure
  | .ok (), .error _ => .failure
  | .ok (), .ok () =>
    if h : run.processed.outcome.failed = false then
      let report := run.processed.outcome.report.get (run.processed.reported h)
      .outcome report.outcome report.docs.created.toNat report.docs.errors.toNat
    else .failure

def recording : Request → Recording
  | web _ run => webRecording run
  | sync _ run => syncRecording run

end Request

/-- Where a request is between two locks. -/
inductive Phase where
  | arrived
  | refused
  | counting
  | running
  | releasing
  | finished
  | rejected
  deriving DecidableEq

/-- A request with its phase, and how often it has taken and given back a slot. -/
structure Handler where
  request : Request
  phase : Phase
  taken : ℕ
  released : ℕ

structure ServerState where
  activeJobsByOwner : KeyedMap String ℕ
  stats : Stats
  handlers : List Handler

namespace ServerState

def start : ServerState := ⟨.empty, ⟨⟨0, 0⟩, ⟨0, 0, 0, 0⟩⟩, []⟩

variable (policy : ServerPolicy) (s : ServerState)

def activeJobs : ℕ := s.activeJobsByOwner.total id

def ownerActive (owner : String) : ℕ := (s.activeJobsByOwner.find? owner).getD 0

/-- Why no slot is free for an owner. -/
def admissionError (owner : String) : Option JobAdmissionError :=
  if policy.jobCaps.global ≤ s.activeJobs then
    some (.globalCapReached s.activeJobs policy.jobCaps.global)
  else if policy.jobCaps.perOwner ≤ s.ownerActive owner then
    some (.ownerCapReached owner (s.ownerActive owner) policy.jobCaps.perOwner)
  else none

def takeSlot (owner : String) : ServerState :=
  { s with activeJobsByOwner := s.activeJobsByOwner.upsert owner fun old => old.getD 0 + 1 }

def recordActive : ServerState :=
  { s with stats.jobs.active := s.stats.jobs.active + 1 }

def recordRejected : ServerState :=
  { s with stats.jobs := { s.stats.jobs with
      total := s.stats.jobs.total + 1, failed := s.stats.jobs.failed + 1 } }

/-- The statistics at the end of a job, by the record its handler makes. -/
def recordEnd (recording : Recording) : ServerState :=
  { s with stats :=
    { docs := ⟨s.stats.docs.total + recording.docs.1, s.stats.docs.errors + recording.docs.2⟩
      jobs :=
        { total := s.stats.jobs.total + 1
          success := s.stats.jobs.success + (if recording.succeeds then 1 else 0)
          failed := s.stats.jobs.failed + (if recording.succeeds then 0 else 1)
          active := if 0 < s.stats.jobs.active then s.stats.jobs.active - 1
            else s.stats.jobs.active } } }

def recordJobFinishedForOwner (owner : String) : ServerState :=
  match s.activeJobsByOwner.find? owner with
  | none => s
  | some active =>
    let left := active - 1
    { s with activeJobsByOwner :=
        if left = 0 then s.activeJobsByOwner.remove owner
        else s.activeJobsByOwner.insert owner left }

/-- One request up to its next lock. -/
def advance (handler : Handler) : ServerState × Handler :=
  match handler.phase with
  | .arrived =>
    if handler.request.earlyError.isSome then (s.recordRejected, { handler with phase := .rejected })
    else match policy.mode with
      | .user => (s.recordActive, { handler with phase := .running })
      | .service =>
        if (s.admissionError policy handler.request.owner).isSome then
          (s, { handler with phase := .refused })
        else (s.takeSlot handler.request.owner,
          { handler with phase := .counting, taken := handler.taken + 1 })
  | .refused => (s.recordRejected, { handler with phase := .rejected })
  | .counting => (s.recordActive, { handler with phase := .running })
  | .running =>
    (s.recordEnd handler.request.recording,
      { handler with phase := match policy.mode with
        | .user => .finished
        | .service => .releasing })
  | .releasing =>
    (s.recordJobFinishedForOwner handler.request.owner,
      { handler with phase := .finished, released := handler.released + 1 })
  | .finished | .rejected => (s, handler)

end ServerState

inductive Action where
  | arrive (request : Request)
  | resume (handler : ℕ)

def step (policy : ServerPolicy) (s : ServerState) : Action → ServerState
  | .arrive request => { s with handlers := s.handlers ++ [⟨request, .arrived, 0, 0⟩] }
  | .resume i =>
    match s.handlers[i]? with
    | none => s
    | some handler =>
      let advanced := s.advance policy handler
      { advanced.1 with handlers := s.handlers.set i advanced.2 }

/-! The invariant counts the handlers by phase. -/

namespace Handler

def isRunning (handler : Handler) : Bool := handler.phase = .running

/-- Between taking a slot and giving it back. -/
def holdsSlot (handler : Handler) : Bool :=
  match handler.phase with
  | .counting | .running | .releasing => true
  | .arrived | .refused | .finished | .rejected => false

def holdsSlotOf (owner : String) (handler : Handler) : Bool :=
  handler.holdsSlot && handler.request.owner = owner

def isRecorded (handler : Handler) : Bool :=
  match handler.phase with
  | .releasing | .finished => true
  | .arrived | .refused | .counting | .running | .rejected => false

def hasSucceeded (handler : Handler) : Bool :=
  handler.isRecorded && handler.request.recording.succeeds

def hasFailed (handler : Handler) : Bool :=
  handler.phase = .rejected || (handler.isRecorded && !handler.request.recording.succeeds)

/-- The job was admitted, in this or an earlier step. -/
def isAdmitted (handler : Handler) : Bool :=
  match handler.phase with
  | .counting | .running | .releasing | .finished => true
  | .arrived | .refused | .rejected => false

end Handler

/-- Counts and sums of the whole server. -/
structure Counted (s : ServerState) : Prop where
  active : s.stats.jobs.active = s.handlers.countP Handler.isRunning
  total : s.stats.jobs.total = s.stats.jobs.success + s.stats.jobs.failed
  success : s.stats.jobs.success = s.handlers.countP Handler.hasSucceeded
  failed : s.stats.jobs.failed = s.handlers.countP Handler.hasFailed

/-- In service mode the map of owners counts who holds a slot, within the caps. -/
structure Capped (caps : JobConcurrencyCaps) (s : ServerState) : Prop where
  slots : s.activeJobs = s.handlers.countP Handler.holdsSlot
  ownerSlots : ∀ owner, s.ownerActive owner = s.handlers.countP (Handler.holdsSlotOf owner)
  withinGlobal : s.activeJobs ≤ caps.global
  withinOwner : ∀ owner, s.ownerActive owner ≤ caps.perOwner

/-- A handler takes its slot once and gives it back once, where there are slots. -/
def Handler.SlotsOnce (mode : RuntimeMode) (handler : Handler) : Prop :=
  match mode with
  | .service =>
    handler.taken = (if handler.isAdmitted then 1 else 0) ∧
      handler.released = if handler.phase = .finished then 1 else 0
  | .user =>
    handler.taken = 0 ∧ handler.released = 0 ∧ handler.phase ≠ .counting ∧
      handler.phase ≠ .releasing ∧ handler.phase ≠ .refused

structure Accounted (policy : ServerPolicy) (s : ServerState) : Prop where
  counted : Counted s
  capped : policy.mode = .service → Capped policy.jobCaps s
  uncapped : policy.mode = .user → s.activeJobsByOwner = .empty
  slotsOnce : ∀ handler ∈ s.handlers, handler.SlotsOnce policy.mode

theorem start_accounted (policy : ServerPolicy) : Accounted policy .start where
  counted := ⟨rfl, rfl, rfl, rfl⟩
  capped _ := ⟨rfl, fun _ => rfl, Nat.zero_le _, fun _ => Nat.zero_le _⟩
  uncapped _ := rfl
  slotsOnce _ h := absurd h (by simp [ServerState.start])

section Counting

/-- Where one handler changes, a counter follows its count if it moves as the handler does. -/
theorem count_follows (p : Handler → Bool) {handlers : List Handler} {i : ℕ}
    {old new : Handler} {before after : ℕ} (hold : handlers[i]? = some old)
    (hbefore : before = handlers.countP p)
    (hmove : after + (if p old then 1 else 0) = before + if p new then 1 else 0) :
    after = (handlers.set i new).countP p := by
  have hset := countP_set_add p hold new
  omega

end Counting

section Steps

variable {policy : ServerPolicy} {s : ServerState} {i : ℕ} {handler : Handler}

/-- What one request does between two locks. -/
inductive Advance (policy : ServerPolicy) (s : ServerState) (handler : Handler) :
    ServerState × Handler → Prop
  | reject (hphase : handler.phase = .arrived ∨ handler.phase = .refused) :
      Advance policy s handler (s.recordRejected, { handler with phase := .rejected })
  | admitUser (hphase : handler.phase = .arrived) (hmode : policy.mode = .user) :
      Advance policy s handler (s.recordActive, { handler with phase := .running })
  | refuse (hphase : handler.phase = .arrived) (hmode : policy.mode = .service) :
      Advance policy s handler (s, { handler with phase := .refused })
  | take (hphase : handler.phase = .arrived) (hmode : policy.mode = .service)
      (hfree : s.admissionError policy handler.request.owner = none) :
      Advance policy s handler (s.takeSlot handler.request.owner,
        { handler with phase := .counting, taken := handler.taken + 1 })
  | count (hphase : handler.phase = .counting) :
      Advance policy s handler (s.recordActive, { handler with phase := .running })
  | endUser (hphase : handler.phase = .running) (hmode : policy.mode = .user) :
      Advance policy s handler
        (s.recordEnd handler.request.recording, { handler with phase := .finished })
  | endService (hphase : handler.phase = .running) (hmode : policy.mode = .service) :
      Advance policy s handler
        (s.recordEnd handler.request.recording, { handler with phase := .releasing })
  | release (hphase : handler.phase = .releasing) :
      Advance policy s handler (s.recordJobFinishedForOwner handler.request.owner,
        { handler with phase := .finished, released := handler.released + 1 })
  | stay (hphase : handler.phase = .finished ∨ handler.phase = .rejected) :
      Advance policy s handler (s, handler)

theorem advance_cases (policy : ServerPolicy) (s : ServerState) (handler : Handler) :
    Advance policy s handler (s.advance policy handler) := by
  unfold ServerState.advance
  split
  · rename_i hphase
    split
    · exact .reject (Or.inl hphase)
    · split
      · rename_i hmode
        exact .admitUser hphase hmode
      · rename_i hmode
        split
        · exact .refuse hphase hmode
        · rename_i hfree
          exact .take hphase hmode (Option.not_isSome_iff_eq_none.mp hfree)
  · rename_i hphase
    exact .reject (Or.inr hphase)
  · rename_i hphase
    exact .count hphase
  · rename_i hphase
    cases hmode : policy.mode with
    | user => exact .endUser hphase hmode
    | service => exact .endService hphase hmode
  · rename_i hphase
    exact .release hphase
  · rename_i hphase
    exact .stay (Or.inl hphase)
  · rename_i hphase
    exact .stay (Or.inr hphase)

theorem counted_of_advance {after : ServerState × Handler} (hs : Counted s)
    (hget : s.handlers[i]? = some handler) (h : Advance policy s handler after) :
    Counted { after.1 with handlers := s.handlers.set i after.2 } := by
  obtain ⟨hactive, htotal, hsuccess, hfailed⟩ := hs
  cases h with
  | reject hphase =>
    rcases hphase with hphase | hphase
    all_goals
      refine ⟨count_follows _ hget hactive ?_, ?_, count_follows _ hget hsuccess ?_,
        count_follows _ hget hfailed ?_⟩
      · simp [ServerState.recordRejected, Handler.isRunning, hphase]
      · simp only [ServerState.recordRejected]
        omega
      · simp [ServerState.recordRejected, Handler.hasSucceeded, Handler.isRecorded, hphase]
      · simp [ServerState.recordRejected, Handler.hasFailed, Handler.isRecorded, hphase]
  | admitUser hphase hmode =>
    refine ⟨count_follows _ hget hactive ?_, htotal, count_follows _ hget hsuccess ?_,
      count_follows _ hget hfailed ?_⟩
    · simp [ServerState.recordActive, Handler.isRunning, hphase]
    · simp [ServerState.recordActive, Handler.hasSucceeded, Handler.isRecorded, hphase]
    · simp [ServerState.recordActive, Handler.hasFailed, Handler.isRecorded, hphase]
  | refuse hphase hmode =>
    refine ⟨count_follows _ hget hactive ?_, htotal, count_follows _ hget hsuccess ?_,
      count_follows _ hget hfailed ?_⟩
    · simp [Handler.isRunning, hphase]
    · simp [Handler.hasSucceeded, Handler.isRecorded, hphase]
    · simp [Handler.hasFailed, Handler.isRecorded, hphase]
  | take hphase hmode hfree =>
    refine ⟨count_follows _ hget hactive ?_, htotal, count_follows _ hget hsuccess ?_,
      count_follows _ hget hfailed ?_⟩
    · simp [ServerState.takeSlot, Handler.isRunning, hphase]
    · simp [ServerState.takeSlot, Handler.hasSucceeded, Handler.isRecorded, hphase]
    · simp [ServerState.takeSlot, Handler.hasFailed, Handler.isRecorded, hphase]
  | count hphase =>
    refine ⟨count_follows _ hget hactive ?_, htotal, count_follows _ hget hsuccess ?_,
      count_follows _ hget hfailed ?_⟩
    · simp [ServerState.recordActive, Handler.isRunning, hphase]
    · simp [ServerState.recordActive, Handler.hasSucceeded, Handler.isRecorded, hphase]
    · simp [ServerState.recordActive, Handler.hasFailed, Handler.isRecorded, hphase]
  | release hphase =>
    have hstats : (s.recordJobFinishedForOwner handler.request.owner).stats = s.stats := by
      unfold ServerState.recordJobFinishedForOwner
      split <;> rfl
    refine ⟨count_follows _ hget hactive ?_, ?_, count_follows _ hget hsuccess ?_,
      count_follows _ hget hfailed ?_⟩
    · simp [hstats, Handler.isRunning, hphase]
    · simpa only [hstats] using htotal
    · simp [hstats, Handler.hasSucceeded, Handler.isRecorded, hphase]
    · simp [hstats, Handler.hasFailed, Handler.isRecorded, hphase]
  | stay hphase =>
    exact ⟨count_follows _ hget hactive rfl, htotal, count_follows _ hget hsuccess rfl,
      count_follows _ hget hfailed rfl⟩
  | endUser hphase hmode | endService hphase hmode =>
    -- the handler itself is counted as active, so the guarded decrement takes place
    have hpositive : 0 < s.stats.jobs.active := by
      rw [hactive]
      exact countP_pos_of_get hget (by simp [Handler.isRunning, hphase])
    cases hsucceeds : handler.request.recording.succeeds
    all_goals
      refine ⟨count_follows _ hget hactive ?_, ?_, count_follows _ hget hsuccess ?_,
        count_follows _ hget hfailed ?_⟩
      · simp only [ServerState.recordEnd, if_pos hpositive, Handler.isRunning, hphase]
        simp
        omega
      · simp only [ServerState.recordEnd, hsucceeds]
        simp
        omega
      · simp [ServerState.recordEnd, Handler.hasSucceeded, Handler.isRecorded, hphase, hsucceeds]
      · simp [ServerState.recordEnd, Handler.hasFailed, Handler.isRecorded, hphase, hsucceeds]

theorem activeJobs_takeSlot (s : ServerState) (owner : String) :
    (s.takeSlot owner).activeJobs = s.activeJobs + 1 := by
  have htotal := KeyedMap.total_upsert id s.activeJobsByOwner owner fun old => old.getD 0 + 1
  unfold ServerState.activeJobs ServerState.takeSlot
  cases hfind : s.activeJobsByOwner.find? owner with
  | none =>
    simp only [hfind, Option.elim_none, Option.getD_none, id] at htotal
    simp only
    omega
  | some active =>
    simp only [hfind, Option.elim_some, Option.getD_some, id] at htotal
    simp only
    omega

theorem ownerActive_takeSlot (s : ServerState) (owner other : String) :
    (s.takeSlot owner).ownerActive other =
      s.ownerActive other + if owner = other then 1 else 0 := by
  unfold ServerState.ownerActive ServerState.takeSlot
  by_cases hother : other = owner
  · subst hother
    simp only [KeyedMap.find?_upsert_self, Option.getD_some, if_true]
  · simp only [KeyedMap.find?_upsert_of_ne _ hother, if_neg (Ne.symm hother)]
    omega

/-- Giving a slot back takes one from the total and from the owner that has one. -/
theorem recordJobFinishedForOwner_active {s : ServerState} {owner : String}
    (hpositive : 0 < s.ownerActive owner) :
    (s.recordJobFinishedForOwner owner).activeJobs + 1 = s.activeJobs ∧
      ∀ other, (s.recordJobFinishedForOwner owner).ownerActive other +
        (if owner = other then 1 else 0) = s.ownerActive other := by
  unfold ServerState.ownerActive at hpositive
  cases hfind : s.activeJobsByOwner.find? owner with
  | none =>
    rw [hfind] at hpositive
    exact absurd hpositive (Nat.lt_irrefl 0)
  | some active =>
    rw [hfind, Option.getD_some] at hpositive
    unfold ServerState.recordJobFinishedForOwner
    simp only [hfind, ServerState.activeJobs, ServerState.ownerActive]
    by_cases hlast : active - 1 = 0
    · have htotal := KeyedMap.total_remove id s.activeJobsByOwner owner
      simp only [hfind, Option.elim_some, id] at htotal
      simp only [if_pos hlast]
      refine ⟨by omega, fun other => ?_⟩
      rw [KeyedMap.find?_remove]
      by_cases hother : other = owner
      · subst hother
        simp only [if_true, hfind, Option.getD_none, Option.getD_some]
        omega
      · simp only [if_neg hother, if_neg (Ne.symm hother)]
        omega
    · have htotal := KeyedMap.total_upsert id s.activeJobsByOwner owner fun _ => active - 1
      simp only [hfind, Option.elim_some, id] at htotal
      simp only [if_neg hlast, KeyedMap.insert]
      refine ⟨by omega, fun other => ?_⟩
      by_cases hother : other = owner
      · subst hother
        simp only [KeyedMap.find?_upsert_self, if_true, hfind, Option.getD_some]
        omega
      · simp only [KeyedMap.find?_upsert_of_ne _ hother, if_neg (Ne.symm hother)]
        omega

theorem capped_of_advance {after : ServerState × Handler} (hs : Capped policy.jobCaps s)
    (hmode : policy.mode = .service) (hget : s.handlers[i]? = some handler)
    (h : Advance policy s handler after) :
    Capped policy.jobCaps { after.1 with handlers := s.handlers.set i after.2 } := by
  obtain ⟨hslots, howners, hglobal, howner⟩ := hs
  -- a step that moves neither the map nor who holds a slot
  have hsame : ∀ t : ServerState, ∀ new : Handler,
      t.activeJobsByOwner = s.activeJobsByOwner → new.holdsSlot = handler.holdsSlot →
      new.request = handler.request →
      Capped policy.jobCaps { t with handlers := s.handlers.set i new } := by
    intro t new hmap hholds hrequest
    have hactive : t.activeJobs = s.activeJobs := by
      rw [ServerState.activeJobs, hmap, ServerState.activeJobs]
    have hown : ∀ owner, t.ownerActive owner = s.ownerActive owner := by
      intro owner
      rw [ServerState.ownerActive, hmap, ServerState.ownerActive]
    refine ⟨count_follows _ hget hslots ?_, fun owner => count_follows _ hget (howners owner) ?_,
      hactive.trans_le hglobal, fun owner => (hown owner).trans_le (howner owner)⟩
    · exact (congrArg (· + _) hactive).trans (by rw [hholds])
    · have hholdsOf : new.holdsSlotOf owner = handler.holdsSlotOf owner := by
        rw [Handler.holdsSlotOf, hholds, hrequest, Handler.holdsSlotOf]
      exact (congrArg (· + _) (hown owner)).trans (by rw [hholdsOf])
  cases h with
  | reject hphase =>
    exact hsame _ _ rfl (by rcases hphase with h | h <;> simp [Handler.holdsSlot, h]) rfl
  | admitUser hphase huser => rw [hmode] at huser; cases huser
  | refuse hphase hservice => exact hsame _ _ rfl (by simp [Handler.holdsSlot, hphase]) rfl
  | count hphase => exact hsame _ _ rfl (by simp [Handler.holdsSlot, hphase]) rfl
  | endUser hphase huser => rw [hmode] at huser; cases huser
  | endService hphase hservice => exact hsame _ _ rfl (by simp [Handler.holdsSlot, hphase]) rfl
  | stay hphase => exact hsame _ _ rfl rfl rfl
  | take hphase hservice hfree =>
    have hroom : s.activeJobs < policy.jobCaps.global ∧
        s.ownerActive handler.request.owner < policy.jobCaps.perOwner := by
      unfold ServerState.admissionError at hfree
      split at hfree
      · cases hfree
      · split at hfree
        · cases hfree
        · omega
    have htotal := activeJobs_takeSlot s handler.request.owner
    have hown := ownerActive_takeSlot s handler.request.owner
    refine ⟨count_follows _ hget hslots ?_, fun owner => count_follows _ hget (howners owner) ?_,
      ?_, fun owner => ?_⟩
    · show (s.takeSlot handler.request.owner).activeJobs + _ = _
      simp [htotal, Handler.holdsSlot, hphase]
    · show (s.takeSlot handler.request.owner).ownerActive owner + _ = _
      simp [hown, Handler.holdsSlotOf, Handler.holdsSlot, hphase]
    · show (s.takeSlot handler.request.owner).activeJobs ≤ _
      omega
    · show (s.takeSlot handler.request.owner).ownerActive owner ≤ _
      have hle := howner owner
      rw [hown]
      split
      · rename_i heq
        subst heq
        omega
      · omega
  | release hphase =>
    have hpositive : 0 < s.ownerActive handler.request.owner := by
      rw [howners]
      exact countP_pos_of_get hget (by simp [Handler.holdsSlotOf, Handler.holdsSlot, hphase])
    obtain ⟨htotal, hown⟩ := recordJobFinishedForOwner_active hpositive
    refine ⟨count_follows _ hget hslots ?_, fun owner => count_follows _ hget (howners owner) ?_,
      ?_, fun owner => ?_⟩
    · show (s.recordJobFinishedForOwner handler.request.owner).activeJobs + _ = _
      simpa [Handler.holdsSlot, hphase] using htotal
    · show (s.recordJobFinishedForOwner handler.request.owner).ownerActive owner + _ = _
      simpa [Handler.holdsSlotOf, Handler.holdsSlot, hphase] using hown owner
    · show (s.recordJobFinishedForOwner handler.request.owner).activeJobs ≤ _
      omega
    · show (s.recordJobFinishedForOwner handler.request.owner).ownerActive owner ≤ _
      have hle := howner owner
      have hless := hown owner
      omega

theorem slotsOnce_of_advance {after : ServerState × Handler}
    (hs : handler.SlotsOnce policy.mode) (h : Advance policy s handler after) :
    after.2.SlotsOnce policy.mode := by
  unfold Handler.SlotsOnce at hs ⊢
  cases hmode : policy.mode with
  | user =>
    simp only [hmode] at hs ⊢
    obtain ⟨htaken, hreleased, hcounting, hreleasing, hrefused⟩ := hs
    cases h with
    | refuse hphase hservice => rw [hmode] at hservice; cases hservice
    | take hphase hservice hfree => rw [hmode] at hservice; cases hservice
    | endService hphase hservice => rw [hmode] at hservice; cases hservice
    | release hphase => exact absurd hphase hreleasing
    | stay hphase => exact ⟨htaken, hreleased, hcounting, hreleasing, hrefused⟩
    | reject hphase => simp [htaken, hreleased]
    | admitUser hphase huser => simp [htaken, hreleased]
    | count hphase => simp [htaken, hreleased]
    | endUser hphase huser => simp [htaken, hreleased]
  | service =>
    simp only [hmode] at hs ⊢
    obtain ⟨htaken, hreleased⟩ := hs
    cases h with
    | admitUser hphase huser => rw [hmode] at huser; cases huser
    | endUser hphase huser => rw [hmode] at huser; cases huser
    | stay hphase => exact ⟨htaken, hreleased⟩
    | reject hphase =>
      rcases hphase with hphase | hphase <;>
        simp [htaken, hreleased, Handler.isAdmitted, hphase]
    | refuse hphase hservice => simp [htaken, hreleased, Handler.isAdmitted, hphase]
    | take hphase hservice hfree => simp [htaken, hreleased, Handler.isAdmitted, hphase]
    | count hphase => simp [htaken, hreleased, Handler.isAdmitted, hphase]
    | endService hphase hservice => simp [htaken, hreleased, Handler.isAdmitted, hphase]
    | release hphase => simp [htaken, hreleased, Handler.isAdmitted, hphase]

/-- In user mode the map of owners is never written. -/
theorem uncapped_of_advance {after : ServerState × Handler} (hmode : policy.mode = .user)
    (hs : handler.SlotsOnce policy.mode) (h : Advance policy s handler after) :
    after.1.activeJobsByOwner = s.activeJobsByOwner := by
  simp only [Handler.SlotsOnce, hmode] at hs
  cases h with
  | take hphase hservice hfree => rw [hmode] at hservice; cases hservice
  | release hphase => exact absurd hphase hs.2.2.2.1
  | _ => rfl

theorem step_resume (policy : ServerPolicy) (hget : s.handlers[i]? = some handler) :
    step policy s (.resume i) = { (s.advance policy handler).1 with
      handlers := s.handlers.set i (s.advance policy handler).2 } := by
  simp only [step, hget]

/-- A request that arrives is counted nowhere yet. -/
theorem arrive_accounted (hs : Accounted policy s) (request : Request) :
    Accounted policy (step policy s (.arrive request)) := by
  have hcount : ∀ p : Handler → Bool, p ⟨request, .arrived, 0, 0⟩ = false →
      (s.handlers ++ [(⟨request, .arrived, 0, 0⟩ : Handler)]).countP p =
        s.handlers.countP p := by
    intro p hp
    rw [List.countP_append, List.countP_singleton, hp]
    rfl
  constructor
  · obtain ⟨hactive, htotal, hsuccess, hfailed⟩ := hs.counted
    exact ⟨hactive.trans (hcount _ rfl).symm, htotal, hsuccess.trans (hcount _ rfl).symm,
      hfailed.trans (hcount _ rfl).symm⟩
  · intro hmode
    obtain ⟨hslots, howners, hglobal, howner⟩ := hs.capped hmode
    exact ⟨hslots.trans (hcount _ rfl).symm,
      fun owner => (howners owner).trans (hcount _ rfl).symm, hglobal, howner⟩
  · exact hs.uncapped
  · intro handler hmem
    rcases List.mem_append.mp hmem with hold | hnew
    · exact hs.slotsOnce handler hold
    · rw [List.mem_singleton.mp hnew]
      unfold Handler.SlotsOnce
      cases policy.mode <;> simp [Handler.isAdmitted]

/-- The step lemma. -/
theorem step_accounted (hs : Accounted policy s) (action : Action) :
    Accounted policy (step policy s action) := by
  cases action with
  | arrive request => exact arrive_accounted hs request
  | resume i =>
    cases hget : s.handlers[i]? with
    | none =>
      have hstays : step policy s (.resume i) = s := by simp only [step, hget]
      rw [hstays]
      exact hs
    | some handler =>
      have hadvance := advance_cases policy s handler
      have honce := hs.slotsOnce handler (List.mem_of_getElem? hget)
      rw [step_resume policy hget]
      refine ⟨counted_of_advance hs.counted hget hadvance,
        fun hmode => capped_of_advance (hs.capped hmode) hmode hget hadvance,
        fun hmode => (uncapped_of_advance hmode honce hadvance).trans (hs.uncapped hmode), ?_⟩
      intro other hmem
      rcases List.mem_or_eq_of_mem_set hmem with hold | rfl
      · exact hs.slotsOnce other hold
      · exact slotsOnce_of_advance honce hadvance

end Steps

theorem run_accounted (policy : ServerPolicy) (actions : List Action) :
    Accounted policy (run (step policy) .start actions) := by
  have hstep : ∀ s action, Accounted policy s → Accounted policy (step policy s action) :=
    fun _ action hs => step_accounted hs action
  exact run_of_forall hstep actions (start_accounted policy)

/-! Every request comes to its end. -/

/-- How many locks a request still has to take at most. -/
def Phase.remaining : Phase → ℕ
  | .arrived => 4
  | .counting => 3
  | .running => 2
  | .releasing | .refused => 1
  | .finished | .rejected => 0

theorem remaining_of_advance {policy : ServerPolicy} {s : ServerState} {handler : Handler}
    {after : ServerState × Handler} (h : Advance policy s handler after) :
    after.2.phase.remaining ≤ handler.phase.remaining - 1 := by
  cases h with
  | reject hphase => rcases hphase with hphase | hphase <;> simp [Phase.remaining]
  | stay hphase => rcases hphase with hphase | hphase <;> simp [Phase.remaining, hphase]
  | admitUser hphase hmode => simp [Phase.remaining, hphase]
  | refuse hphase hmode => simp [Phase.remaining, hphase]
  | take hphase hmode hfree => simp [Phase.remaining, hphase]
  | count hphase => simp [Phase.remaining, hphase]
  | endUser hphase hmode => simp [Phase.remaining]
  | endService hphase hmode => simp [Phase.remaining, hphase]
  | release hphase => simp [Phase.remaining]

/-- Whoever goes on often enough is done, whatever state the server is in. -/
theorem remaining_of_resumed (policy : ServerPolicy) (n : ℕ) {s : ServerState} {i : ℕ}
    {handler : Handler} (hget : s.handlers[i]? = some handler) :
    ∃ later, (run (step policy) s (List.replicate n (.resume i))).handlers[i]? = some later ∧
      later.phase.remaining ≤ handler.phase.remaining - n := by
  induction n generalizing s handler with
  | zero => exact ⟨handler, hget, Nat.le_refl _⟩
  | succ n ih =>
    have hless := remaining_of_advance (advance_cases policy s handler)
    have hnext : (step policy s (.resume i)).handlers[i]? = some (s.advance policy handler).2 := by
      rw [step_resume policy hget]
      exact List.getElem?_set_self (List.getElem?_eq_some_iff.mp hget).1
    obtain ⟨later, hlater, hremaining⟩ := ih hnext
    rw [List.replicate_succ, run_cons]
    exact ⟨later, hlater, by omega⟩

/-! A synchronous job processes, so its execution has a report unless it failed. -/

section Reported

open Executor JobModel ChildJobs

variable {R X : Type}

/-- A failure is on record, or processing has no status yet. -/
def Unanswered (execution : Execution) : Prop :=
  execution.outcome.succeeded = false ∨ Stage.process ∉ execution.outcome.recorded

variable {execution : Execution} (identity : ExecutionIdentity)

theorem succeeded_recordStage_of_false (h : execution.outcome.succeeded = false) (stage : Stage)
    (status : StageStatus) :
    (execution.recordStage identity stage status).outcome.succeeded = false := by
  rw [Execution.outcome_recordStage]
  split
  · exact h
  · unfold ExecutionOutcome.succeeded ExecutionOutcome.record at *
    simp only [Bool.not_eq_false', List.any_append, Bool.or_eq_true] at h ⊢
    exact Or.inl h

theorem unanswered_recordStage (h : Unanswered execution) (stage : Stage) (status : StageStatus)
    (hstage : stage ≠ .process) : Unanswered (execution.recordStage identity stage status) := by
  rcases h with hfailed | hfresh
  · exact Or.inl (succeeded_recordStage_of_false identity hfailed stage status)
  · refine Or.inr ?_
    rw [Execution.outcome_recordStage]
    split
    · exact hfresh
    · rw [ExecutionOutcome.recorded_record, List.mem_append, List.mem_singleton, not_or]
      exact ⟨hfresh, Ne.symm hstage⟩

theorem succeeded_recordStage_process (h : Unanswered execution) {status : StageStatus}
    (hstatus : status.isUnsuccessful = true) :
    (execution.recordStage identity .process status).outcome.succeeded = false := by
  rcases h with hfailed | hfresh
  · exact succeeded_recordStage_of_false identity hfailed .process status
  · have hnone : (execution.outcome.stage .process).isSome = false := by
      rw [ExecutionOutcome.isSome_stage]
      exact decide_eq_false hfresh
    simp [Execution.recordStage, hnone, ExecutionOutcome.succeeded, ExecutionOutcome.record,
      hstatus]

theorem succeeded_recordBlocked_of_false (h : execution.outcome.succeeded = false)
    (reason : String) (stage : Stage) :
    (execution.recordBlocked identity reason stage).outcome.succeeded = false := by
  unfold Execution.recordBlocked
  split
  · exact succeeded_recordStage_of_false identity h stage _
  · exact h

/-- Blocking the outputs of a processing job leaves a failure on record. -/
theorem succeeded_recordBlockedOutputs (h : Unanswered execution) {job : Job}
    (hprocess : job.process.isSome = true) (reason : String) :
    (execution.recordBlockedOutputs identity job reason).outcome.succeeded = false := by
  have hblocked : (execution.recordBlocked identity reason .process).outcome.succeeded =
      false := by
    unfold Execution.recordBlocked
    split
    · exact succeeded_recordStage_process identity h rfl
    · rename_i hsome
      rcases h with hfailed | hfresh
      · exact hfailed
      · rw [Option.isNone_iff_eq_none, ← Option.not_isSome_iff_eq_none, not_not,
          ExecutionOutcome.isSome_stage] at hsome
        exact absurd (of_decide_eq_true hsome) hfresh
  have hexport := succeeded_recordBlocked_of_false identity hblocked reason .export
  unfold Execution.recordBlockedOutputs
  simp only [hprocess, if_true]
  split
  · exact succeeded_recordBlocked_of_false identity hexport reason .send
  · exact hexport

/-- An execution that failed or has a report. -/
def Answered (execution : Execution) : Prop :=
  execution.outcome.succeeded = false ∨ execution.outcome.report.isSome = true

theorem report_recordStage (stage : Stage) (status : StageStatus) :
    (execution.recordStage identity stage status).outcome.report = execution.outcome.report :=
  congrArg (fun all => all.2.1) (results_recordStage execution identity stage status)

theorem answered_recordStage (h : Answered execution) (stage : Stage) (status : StageStatus) :
    Answered (execution.recordStage identity stage status) := by
  rcases h with hfailed | hreport
  · exact Or.inl (succeeded_recordStage_of_false identity hfailed stage status)
  · exact Or.inr (by rw [report_recordStage]; exact hreport)

theorem answered_applyProcessResult (h : Unanswered execution)
    (result : Except String ProcessExecution) :
    Answered (applyProcessResult identity execution (some result)) := by
  cases result with
  | error error =>
    exact answered_recordStage identity (Or.inl (succeeded_recordStage_process identity h rfl)) _ _
  | ok processed =>
    have hreported : Answered { execution with
        outcome :=
          { execution.outcome with
            report := some processed.report
            children := processed.children } } := Or.inr rfl
    have hrecorded := answered_recordStage identity hreported .process .succeeded
    cases hexport : processed.exportError with
    | none =>
      simp only [applyProcessResult, hexport]
      exact answered_recordStage identity hrecorded _ _
    | some error =>
      simp only [applyProcessResult, hexport]
      exact answered_recordStage identity hrecorded _ _

theorem answered_applySendResult (h : Answered execution)
    (result : Option (Except String SendResult)) :
    Answered (applySendResult identity execution result) := by
  cases result with
  | none => exact h
  | some result =>
    cases result with
    | error error => exact answered_recordStage identity h _ _
    | ok upload =>
      have hsent : Answered { execution with
          outcome := { execution.outcome with send := some upload } } := h
      exact answered_recordStage identity hsent _ _

theorem unanswered_append (h : Unanswered execution) (trace : List TraceEntry) :
    Unanswered (execution.append trace) := h

variable (adapters : Adapters R X) (job : Job) (context : ExecutionContext R X)

/-- A phase that ends in a failure or goes on before anything is processed. -/
def Undecided : Except Execution (Execution × ResolvedInput R) → Prop
  | .error ended => ended.outcome.succeeded = false
  | .ok (staged, _) => Unanswered staged

theorem undecided_blocked (hprocess : job.process.isSome = true) (h : Unanswered execution)
    (reason : String) :
    Undecided (R := R) (.error (execution.recordBlockedOutputs identity job reason)) :=
  succeeded_recordBlockedOutputs identity h hprocess reason

theorem collectArchive_undecided (hprocess : job.process.isSome = true) (save : SaveTarget)
    (outputDir : PathBuf) (receiver : R) (application : Deployments.Application)
    (h : Unanswered execution) :
    Undecided (collectArchive adapters context job save outputDir receiver application
      execution) := by
  have hrunning : Unanswered ((execution.run context.identity.jobId .collect).run
      context.identity.jobId .save) := h
  have hrecorded := fun first second =>
    unanswered_recordStage context.identity
      (unanswered_recordStage context.identity hrunning .collect first (by decide)) .save second
      (by decide)
  unfold collectArchive
  simp only
  split
  · exact undecided_blocked context.identity job hprocess (hrecorded _ _) _
  · have hcollected : ∀ collection retained, Unanswered
        { (((execution.run context.identity.jobId .collect).run context.identity.jobId
            .save).recordStage context.identity .collect .succeeded).recordStage context.identity
            .save .succeeded with
          outcome :=
            { ((((execution.run context.identity.jobId .collect).run context.identity.jobId
                .save).recordStage context.identity .collect .succeeded).recordStage
                context.identity .save .succeeded).outcome with
              collection := collection
              retainedBundle := retained } } := fun _ _ => hrecorded .succeeded .succeeded
    split
    · exact undecided_blocked context.identity job hprocess (hcollected _ _) _
    · exact hcollected _ _

theorem stagedCollection_undecided (hprocess : job.process.isSome = true)
    (resolved : ResolvedInput R) (h : Unanswered execution) :
    Undecided (stagedCollection adapters context job resolved execution) := by
  have hsaving : Unanswered ((execution.observe context.identity .save .queued).observe
      context.identity .save .started) := h
  have hended := fun {one : Execution} (hone : Unanswered one) stage status
      (hstage : stage ≠ Stage.process) reason =>
    undecided_blocked (R := R) context.identity job hprocess
      (unanswered_recordStage context.identity hone stage status hstage) reason
  unfold stagedCollection
  simp only
  split
  · exact hended h _ _ (by decide) _
  · split
    · exact hended h _ _ (by decide) _
    · split
      · exact hended hsaving _ _ (by decide) _
      · split
        · exact hended hsaving _ _ (by decide) _
        · exact collectArchive_undecided adapters job context hprocess _ _ _ _ hsaving

theorem stagedInput_undecided (hprocess : job.process.isSome = true) (resolved : ResolvedInput R)
    (h : Unanswered execution) :
    Undecided (stagedInput adapters context job resolved execution) := by
  unfold stagedInput
  split
  · exact stagedCollection_undecided adapters job context hprocess resolved h
  · exact unanswered_recordStage context.identity h .load .succeeded (by decide)

theorem answered_executeWith (runChild : Job → ExecutionContext R X → Execution)
    (hprocess : job.process.isSome = true) :
    Answered (executeWith runChild adapters job context) := by
  have hbegun : Unanswered (inputBegun job context) := Or.inr List.not_mem_nil
  obtain ⟨process, hsome⟩ := Option.isSome_iff_exists.mp hprocess
  have hinput : inputStage job ≠ .process := by
    unfold inputStage
    split <;> decide
  unfold executeWith
  simp only
  cases resolveInput adapters context job with
  | error error =>
    exact Or.inl (succeeded_recordBlockedOutputs _
      (unanswered_recordStage _ hbegun _ _ hinput) hprocess _)
  | ok resolved =>
    simp only
    cases job.executionMode with
    | streaming =>
      have hcollected := unanswered_recordStage context.identity hbegun .collect .succeeded
        (by decide)
      simp only [executeStreaming, hsome]
      cases derivedSelection adapters job resolved with
      | error error =>
        exact answered_recordStage _
          (Or.inl (succeeded_recordStage_process _ hcollected rfl)) _ _
      | ok derived =>
        exact answered_applyProcessResult context.identity (unanswered_append hcollected _) _
    | staged =>
      have hstaged := stagedInput_undecided adapters job context hprocess resolved hbegun
      simp only [executeStaged]
      cases hinput : stagedInput adapters context job resolved (inputBegun job context) with
      | error ended =>
        rw [hinput] at hstaged
        exact Or.inl hstaged
      | ok staged =>
        rw [hinput] at hstaged
        simp only [runIndependentOutputs]
        apply answered_applySendResult
        have hresult : ∃ result, (processFuture runChild adapters context staged.2.receiver job
            (derivedSelection adapters job resolved)).result = some result := by
          unfold processFuture
          rw [hsome]
          cases derivedSelection adapters job resolved with
          | error error => exact ⟨_, rfl⟩
          | ok derived => exact ⟨_, rfl⟩
        obtain ⟨result, hresult⟩ := hresult
        rw [hresult]
        exact answered_applyProcessResult context.identity (unanswered_append hstaged _) result

/-- The execution behind a synchronous request. -/
def ProcessedJob.ofExecution (hprocess : job.process.isSome = true) : ProcessedJob where
  outcome := (execute adapters job context).outcome
  reported := by
    intro hfailed
    have hanswered : Answered (execute adapters job context) :=
      answered_executeWith adapters job context _ hprocess
    rcases hanswered with hfailure | hreport
    · simp [ExecutionOutcome.failed, hfailure] at hfailed
    · exact hreport

end Reported

/-- Between the two locks of an admission or of a release. -/
def Handler.isBetweenLocks (handler : Handler) : Bool :=
  handler.phase = .counting || handler.phase = .releasing

theorem countP_holdsSlot (handlers : List Handler) :
    handlers.countP Handler.holdsSlot =
      handlers.countP Handler.isRunning + handlers.countP Handler.isBetweenLocks := by
  induction handlers with
  | nil => rfl
  | cons handler rest ih =>
    have hone : (if handler.holdsSlot then 1 else 0) =
        (if handler.isRunning then 1 else 0) + if handler.isBetweenLocks then 1 else 0 := by
      unfold Handler.holdsSlot Handler.isRunning Handler.isBetweenLocks
      cases handler.phase <;> rfl
    simp only [List.countP_cons]
    omega

/-- Statistics and slots balance at every point of every run. In service mode the
slots in use are the active jobs and those between the two updates of an
admission or a release; in user mode there are none. -/
theorem slots_balance (policy : ServerPolicy) (actions : List Action) :
    let s := run (step policy) .start actions
    (s.stats.jobs.active = s.handlers.countP Handler.isRunning ∧
      s.stats.jobs.total = s.stats.jobs.success + s.stats.jobs.failed ∧
      s.stats.jobs.success = s.handlers.countP Handler.hasSucceeded ∧
      s.stats.jobs.failed = s.handlers.countP Handler.hasFailed) ∧
    (policy.mode = .user → s.activeJobs = 0) ∧
    (policy.mode = .service →
      s.activeJobs = s.stats.jobs.active + s.handlers.countP Handler.isBetweenLocks ∧
      s.activeJobs ≤ policy.jobCaps.global ∧
      ∀ owner, s.ownerActive owner = s.handlers.countP (Handler.holdsSlotOf owner) ∧
        s.ownerActive owner ≤ policy.jobCaps.perOwner) ∧
    (∀ handler ∈ s.handlers, handler.SlotsOnce policy.mode) ∧
    ∀ i handler, s.handlers[i]? = some handler →
      ∃ later, (run (step policy) s (List.replicate 4 (.resume i))).handlers[i]? = some later ∧
        later.phase.remaining = 0 := by
  intro s
  have hs : Accounted policy s := run_accounted policy actions
  refine ⟨⟨hs.counted.active, hs.counted.total, hs.counted.success, hs.counted.failed⟩,
    fun hmode => ?_, fun hmode => ?_, hs.slotsOnce, fun i handler hget => ?_⟩
  · rw [ServerState.activeJobs, hs.uncapped hmode, KeyedMap.total_empty]
  · obtain ⟨hslots, howners, hglobal, howner⟩ := hs.capped hmode
    refine ⟨?_, hglobal, fun owner => ⟨howners owner, howner owner⟩⟩
    rw [hslots, countP_holdsSlot, hs.counted.active]
  · obtain ⟨later, hlater, hremaining⟩ := remaining_of_resumed policy 4 hget
    have hfour : handler.phase.remaining ≤ 4 := by
      cases handler.phase <;> simp [Phase.remaining]
    exact ⟨later, hlater, by omega⟩

/-- A web request whose exporter cannot be set up once the job has started. -/
def unexported (owner : String) : Request :=
  .web owner ⟨.ok (), .ok (), .error "no exporter", .new ⟨1, owner, none⟩, .ok ()⟩

/-- Three jobs of one owner, of which the third finds the owner's cap reached. -/
def threeJobs : List Action :=
  [.arrive (unexported "alice"), .arrive (unexported "alice"), .arrive (unexported "alice"),
    .resume 0, .resume 1, .resume 2, .resume 2, .resume 0, .resume 0, .resume 0]

set_option maxRecDepth 20000 in
theorem slots_balance_threeJobs :
    (run (step ⟨.service, .default⟩) .start threeJobs).activeJobs = 1 ∧
      (run (step ⟨.service, .default⟩) .start threeJobs).stats.jobs = ⟨2, 0, 2, 0⟩ ∧
      (run (step ⟨.service, .default⟩) .start threeJobs).handlers.countP
        Handler.isBetweenLocks = 1 := by
  have hbalance := (slots_balance ⟨.service, .default⟩ threeJobs).2.2.1 rfl
  have hactive : (run (step ⟨.service, .default⟩) .start threeJobs).activeJobs = 1 := by rfl
  have hjobs : (run (step ⟨.service, .default⟩) .start threeJobs).stats.jobs = ⟨2, 0, 2, 0⟩ := by
    rfl
  refine ⟨hactive, hjobs, ?_⟩
  have hslots := hbalance.1
  rw [hactive, hjobs] at hslots
  exact (Nat.zero_add _).symm.trans hslots.symm

/-- The balance as one would have it at every point, whatever the mode. -/
def Balanced (policy : ServerPolicy) (s : ServerState) : Prop :=
  s.stats.jobs.active = s.handlers.countP Handler.isRunning ∧
    s.stats.jobs.active = s.activeJobs ∧ s.stats.jobs.active ≤ policy.jobCaps.global

/-- User mode has no slots, and service mode takes one before it counts the job. -/
theorem slots_without_balance :
    ¬Balanced ⟨.user, .default⟩
        (run (step ⟨.user, .default⟩) .start [.arrive (unexported "alice"), .resume 0]) ∧
      ¬Balanced ⟨.service, .default⟩
        (run (step ⟨.service, .default⟩) .start [.arrive (unexported "alice"), .resume 0]) := by
  constructor
  · rintro ⟨-, hslots, -⟩
    exact absurd hslots (by decide)
  · rintro ⟨-, hslots, -⟩
    exact absurd hslots (by decide)

end Esdiag.JobSlots
