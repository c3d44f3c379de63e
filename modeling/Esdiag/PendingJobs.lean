import Esdiag.GuardedRuns
import Esdiag.KnownHosts

/-!
Jobs that wait to be started. An upload is staged in a file of its own, a link or a
key is put aside as it is, and each waits under a number until a request of its
owner asks for it. A timer takes back an upload that nobody asked for. All of this
is interleaved at every lock and at every operation on a file. A job may panic and an
upload may lose its connection; nothing is run for a task that ends so.
-/
namespace Esdiag.PendingJobs

open KeyedMaps Deployments KnownHosts GuardedRuns

/-- The temporary file of an upload, named by the number of the job and a random part. -/
structure UploadPath where
  jobId : ℕ
  uuid : String
  deriving DecidableEq

inductive JobInput (Url : Type) where
  | localArchive (source filename : String) (path : UploadPath) (cleanupPath : Option UploadPath)
  | fromServiceLink (source uri : String)
  | fromRemoteHost (source : String) (host : KnownHost Url) (diagnosticType : String)

def JobInput.cleanupPath? {Url : Type} : JobInput Url → Option UploadPath
  | .localArchive _ _ _ cleanupPath => cleanupPath
  | .fromServiceLink .. | .fromRemoteHost .. => none

structure JobRequest (Url : Type) where
  owner : String
  identifiers : Identifiers
  input : JobInput Url

def defaultOwner : String := "Anonymous"

section Requests

variable {Url : Type}

def uploadRequest (owner : String) (account : Option String) (filename : String)
    (path : UploadPath) : JobRequest Url where
  owner := owner
  identifiers := ⟨account, none, none, none, some owner, none, none⟩
  input := .localArchive filename filename path (some path)

def linkRequest (identifiers : Identifiers) (filename uri : String) : JobRequest Url where
  owner := identifiers.user.getD defaultOwner
  identifiers := identifiers
  input := .fromServiceLink filename uri

/-- A host without an address of its own is not put aside. -/
def keyRequest (lib : UrlLibrary Url) (identifiers : Identifiers) (host : KnownHost Url)
    (diagnosticType : String) : Option (JobRequest Url) :=
  host.url.map fun url =>
    { owner := identifiers.user.getD defaultOwner
      identifiers := identifiers
      input := .fromRemoteHost (lib.display url) host diagnosticType }

end Requests

/-- What the server has begun and not finished. -/
inductive Task (Url : Type) where
  | staging (jobId : ℕ) (user : String) (account : Option String) (filename : String)
      (path : UploadPath)
  | sleeping (jobId : ℕ)
  | running (jobId : ℕ) (job : JobRequest Url)
  | cleaning (jobId : ℕ) (job : JobRequest Url)
  | ended

structure ServerState (Url : Type) where
  nextJobId : ℕ
  jobRequests : KeyedMap ℕ (JobRequest Url)
  disk : KeyedMap UploadPath (List UInt8)
  tasks : List (Task Url)

/-- What is seen of a step. -/
inductive Event where
  | queued (jobId : ℕ) (owner : String) (upload : Option (List UInt8))
  | claimed (jobId : ℕ) (user : String)
  | read (jobId : ℕ) (content : Option (List UInt8))
  | leftBehind (path : UploadPath)
  | abandoned (path : UploadPath)

inductive Action (Url : Type) where
  | newJobId
  | submit (user : String) (account : Option String) (filename uuid : String)
  | stage (task : ℕ) (received : Option (List UInt8)) (removed : Bool)
  | pushLink (identifiers : Identifiers) (filename uri : String)
  | pushKey (identifiers : Identifiers) (host : KnownHost Url) (diagnosticType : String)
  | wake (task : ℕ)
  | claim (jobId : ℕ) (user : String)
  | readInput (task : ℕ)
  | finish (task : ℕ)
  | cleanUp (task : ℕ) (removed : Bool)
  | disconnect (task : ℕ) (written : List UInt8)
  | crash (task : ℕ)

namespace ServerState

variable {Url : Type} (s : ServerState Url)

def start : ServerState Url := ⟨1, .empty, .empty, []⟩

def takeJobId : ServerState Url := { s with nextJobId := s.nextJobId + 1 }

def spawn (task : Task Url) : ServerState Url := { s with tasks := s.tasks ++ [task] }

/-- Another state of a task. -/
def become (i : ℕ) (task : Task Url) : ServerState Url := { s with tasks := s.tasks.set i task }

def write (path : UploadPath) (bytes : List UInt8) : ServerState Url :=
  { s with disk := s.disk.insert path bytes }

def pushJobRequest (jobId : ℕ) (job : JobRequest Url) : ServerState Url :=
  { s with jobRequests := s.jobRequests.insert jobId job }

def popJobRequest (jobId : ℕ) : ServerState Url × Option (JobRequest Url) :=
  ({ s with jobRequests := s.jobRequests.remove jobId }, s.jobRequests.find? jobId)

def popJobRequestForOwner (jobId : ℕ) (owner : String) :
    ServerState Url × Option (JobRequest Url) :=
  match s.jobRequests.find? jobId with
  | some job => if job.owner = owner then s.popJobRequest jobId else (s, none)
  | none => (s, none)

/-- A file that cannot be removed stays, and nobody is told. -/
def removeFile (path : UploadPath) (removed : Bool) : ServerState Url × Option Event :=
  if removed then ({ s with disk := s.disk.remove path }, none)
  else (s, some (.leftBehind path))

/-- A job that is put aside under a number of its own. -/
def queue (job : JobRequest Url) : ServerState Url × Option Event :=
  (s.takeJobId.pushJobRequest s.nextJobId job, some (.queued s.nextJobId job.owner none))

/-- `submit`, up to the first bytes of the file. -/
def submit (user : String) (account : Option String) (filename uuid : String) :
    ServerState Url :=
  if Texts.endsWith filename ".zip" then
    let path : UploadPath := ⟨s.nextJobId, uuid⟩
    (s.takeJobId.write path []).spawn (.staging s.nextJobId user account filename path)
  else s.takeJobId

/-- The end of `stage_upload_field`: the upload waits and a timer is set, or the partial file
is removed. -/
def stage (i : ℕ) (received : Option (List UInt8)) (removed : Bool) :
    ServerState Url × Option Event :=
  match s.tasks[i]? with
  | some (.staging jobId user account filename path) =>
    match received with
    | some bytes =>
      (((s.write path bytes).pushJobRequest jobId
        (uploadRequest user account filename path)).become i (.sleeping jobId),
        some (.queued jobId user (some bytes)))
    | none => (s.become i .ended).removeFile path removed
  | _ => (s, none)

/-- The timer of an upload goes off. -/
def wake (i : ℕ) : ServerState Url :=
  match s.tasks[i]? with
  | some (.sleeping jobId) =>
    match s.popJobRequest jobId with
    | (popped, some job) => popped.become i (.cleaning jobId job)
    | (popped, none) => popped.become i .ended
  | _ => s

/-- A request with a number: `run_upload_job`, `run_service_link_id` or `run_api_key_id`. -/
def claim (jobId : ℕ) (user : String) : ServerState Url × Option Event :=
  match s.popJobRequestForOwner jobId user with
  | (popped, some job) => (popped.spawn (.running jobId job), some (.claimed jobId user))
  | (popped, none) => (popped, none)

/-- The job reads its archive, as often as it likes. -/
def readInput (i : ℕ) : Option Event :=
  match s.tasks[i]? with
  | some (.running jobId job) =>
    match job.input with
    | .localArchive _ _ path _ => some (.read jobId (s.disk.find? path))
    | .fromServiceLink .. | .fromRemoteHost .. => none
  | _ => none

/-- The job was refused, has failed or is done. -/
def finish (i : ℕ) : ServerState Url :=
  match s.tasks[i]? with
  | some (.running jobId job) => s.become i (.cleaning jobId job)
  | _ => s

/-- `JobInput::cleanup`. -/
def cleanUp (i : ℕ) (removed : Bool) : ServerState Url × Option Event :=
  match s.tasks[i]? with
  | some (.cleaning _ job) =>
    match job.input with
    | .localArchive _ _ _ (some path) => (s.become i .ended).removeFile path removed
    | .localArchive _ _ _ none | .fromServiceLink .. | .fromRemoteHost .. =>
      (s.become i .ended, none)
  | _ => (s, none)

/-- The handler of an upload is dropped with its connection, with a part of the file written. -/
def disconnect (i : ℕ) (written : List UInt8) : ServerState Url × Option Event :=
  match s.tasks[i]? with
  | some (.staging _ _ _ _ path) =>
    ((s.write path written).become i .ended, some (.abandoned path))
  | _ => (s, none)

/-- The task of a job panics. Its cleanup is its last statement, which nothing else runs. -/
def crash (i : ℕ) : ServerState Url × Option Event :=
  match s.tasks[i]? with
  | some (.running _ job) | some (.cleaning _ job) =>
    (s.become i .ended, job.input.cleanupPath?.map .abandoned)
  | _ => (s, none)

def act (lib : UrlLibrary Url) : Action Url → ServerState Url × Option Event
  | .newJobId => (s.takeJobId, none)
  | .submit user account filename uuid => (s.submit user account filename uuid, none)
  | .stage i received removed => s.stage i received removed
  | .pushLink identifiers filename uri => s.queue (linkRequest identifiers filename uri)
  | .pushKey identifiers host diagnosticType =>
    match keyRequest lib identifiers host diagnosticType with
    | some job => s.queue job
    | none => (s.takeJobId, none)
  | .wake i => (s.wake i, none)
  | .claim jobId user => s.claim jobId user
  | .readInput i => (s, s.readInput i)
  | .finish i => (s.finish i, none)
  | .cleanUp i removed => s.cleanUp i removed
  | .disconnect i written => s.disconnect i written
  | .crash i => s.crash i

end ServerState

/-- The server with all that was seen of it. -/
structure History (Url : Type) where
  server : ServerState Url
  log : List Event

def History.start {Url : Type} : History Url := ⟨.start, []⟩

def step {Url : Type} (lib : UrlLibrary Url) (h : History Url) (action : Action Url) :
    History Url where
  server := (h.server.act lib action).1
  log := h.log ++ (h.server.act lib action).2.toList

/-- What was put aside under a number, and for whom. -/
def queuedUnder (jobId : ℕ) (log : List Event) : List (String × Option (List UInt8)) :=
  log.filterMap fun
    | .queued id owner upload => if id = jobId then some (owner, upload) else none
    | _ => none

/-- Who has started the job of a number. -/
def claimsOf (jobId : ℕ) (log : List Event) : List String :=
  log.filterMap fun
    | .claimed id user => if id = jobId then some user else none
    | _ => none

/-- The files that are there for good: one that could not be removed, or that of a task that
died. -/
def strandedFiles (log : List Event) : List UploadPath :=
  log.filterMap fun
    | .leftBehind path | .abandoned path => some path
    | _ => none

theorem mem_strandedFiles {path : UploadPath} {log : List Event} :
    path ∈ strandedFiles log ↔ .leftBehind path ∈ log ∨ .abandoned path ∈ log := by
  unfold strandedFiles
  rw [List.mem_filterMap]
  constructor
  · rintro ⟨event, hevent, hpath⟩
    cases event with
    | leftBehind other =>
      obtain rfl := Option.some.inj hpath
      exact Or.inl hevent
    | abandoned other =>
      obtain rfl := Option.some.inj hpath
      exact Or.inr hevent
    | queued jobId owner upload => cases hpath
    | claimed jobId user => cases hpath
    | read jobId content => cases hpath
  · rintro (hevent | hevent) <;> exact ⟨_, hevent, rfl⟩

theorem strandedFiles_append (log events : List Event) :
    strandedFiles (log ++ events) = strandedFiles log ++ strandedFiles events :=
  List.filterMap_append

section Stories

variable {Url : Type}

/-- Where the job of a number is. -/
inductive Stage (Url : Type) where
  | unknown
  | staging (task : ℕ)
  | pending (job : JobRequest Url)
  | running (task : ℕ) (job : JobRequest Url)
  | cleaning (task : ℕ) (job : JobRequest Url)
  | settled

/-- All that has become of one number. -/
structure Story (Url : Type) where
  stage : Stage Url
  queued : List (String × Option (List UInt8))
  claims : List String
  file : Option (UploadPath × List UInt8)

def Story.untold : Story Url := ⟨.unknown, [], [], none⟩

def Stage.request? : Stage Url → Option (JobRequest Url)
  | .pending job => some job
  | _ => none

def Stage.task? : Stage Url → Option ℕ
  | .staging task | .running task _ | .cleaning task _ => some task
  | _ => none

/-- What the file with this name holds. -/
def Story.content (story : Story Url) (path : UploadPath) : Option (List UInt8) :=
  story.file.bind fun file => if file.1 = path then some file.2 else none

/-- The job was put aside once, with the file it has. -/
def Story.Holds (story : Story Url) (job : JobRequest Url) : Prop :=
  ∃ upload, story.queued = [(job.owner, upload)] ∧
    match job.input with
    | .localArchive _ _ path cleanupPath =>
      cleanupPath = some path ∧ ∃ bytes, upload = some bytes ∧ story.file = some (path, bytes)
    | .fromServiceLink .. | .fromRemoteHost .. => story.file = none

def Story.StageSound (story : Story Url) : Prop :=
  match story.stage with
  | .unknown => story = .untold
  | .staging _ => story.queued = [] ∧ story.claims = []
  | .pending job => story.claims = [] ∧ story.Holds job
  | .running _ job => story.claims = [job.owner] ∧ story.Holds job
  | .cleaning _ job => story.Holds job
  | .settled => True

structure Story.Sound (jobId : ℕ) (story : Story Url) : Prop where
  once : story.queued.length ≤ 1
  claims : story.claims <+: story.queued.map Prod.fst
  file : ∀ file, story.file = some file → file.1.jobId = jobId
  stage : story.StageSound

def Task.jobId? : Task Url → Option ℕ
  | .staging jobId .. | .running jobId _ | .cleaning jobId _ => some jobId
  | .sleeping _ | .ended => none

def Task.Fits (i : ℕ) (story : Story Url) : Task Url → Prop
  | .staging _ _ _ _ path => story.stage = .staging i ∧ story.file = some (path, [])
  | .running _ job => story.stage = .running i job
  | .cleaning _ job => story.stage = .cleaning i job
  | .sleeping _ | .ended => True

/-- A task is about a number, or waits for it. -/
def Task.Concerns (jobId : ℕ) (task : Task Url) : Prop :=
  task.jobId? = some jobId ∨ task = .sleeping jobId

def Event.jobId : Event → ℕ
  | .queued jobId .. | .claimed jobId _ | .read jobId _ => jobId
  | .leftBehind path | .abandoned path => path.jobId

/-- The story is over, and its file was not removed. -/
def Story.Strands (story : Story Url) (path : UploadPath) : Prop :=
  story.stage = .settled ∧ ∃ bytes, story.file = some (path, bytes)

/-- The server and what was seen of it are told by the stories of all numbers. -/
structure Follows (h : History Url) (stories : ℕ → Story Url) : Prop where
  fresh : ∀ jobId, h.server.nextJobId ≤ jobId → stories jobId = .untold
  sound : ∀ jobId, (stories jobId).Sound jobId
  requests : ∀ jobId, h.server.jobRequests.find? jobId = (stories jobId).stage.request?
  disk : ∀ path, h.server.disk.find? path = (stories path.jobId).content path
  tasks : ∀ (i : ℕ) (task : Task Url) jobId, h.server.tasks[i]? = some task →
    task.jobId? = some jobId → task.Fits i (stories jobId)
  hands : ∀ jobId (i : ℕ), (stories jobId).stage.task? = some i →
    ∃ task : Task Url, h.server.tasks[i]? = some task ∧ task.jobId? = some jobId
  timers : ∀ jobId job, (stories jobId).stage = .pending job → (stories jobId).file.isSome →
    ∃ i : ℕ, h.server.tasks[i]? = some (Task.sleeping jobId)
  queued : ∀ jobId, queuedUnder jobId h.log = (stories jobId).queued
  claims : ∀ jobId, claimsOf jobId h.log = (stories jobId).claims
  reads : ∀ jobId content, Event.read jobId content ∈ h.log →
    ∃ owner bytes, (stories jobId).queued = [(owner, some bytes)] ∧ content = some bytes
  stranded : ∀ path, path ∈ strandedFiles h.log ↔ (stories path.jobId).Strands path

theorem follows_start : Follows (.start : History Url) fun _ => .untold where
  fresh _ _ := rfl
  sound _ := ⟨Nat.zero_le _, List.nil_prefix, fun _ h => (nomatch h), rfl⟩
  requests _ := rfl
  disk _ := rfl
  tasks _ _ _ h := nomatch h
  hands _ _ h := nomatch h
  timers _ _ h := nomatch h
  queued _ := rfl
  claims _ := rfl
  reads _ _ h := nomatch h
  stranded _ := iff_of_false List.not_mem_nil fun h => nomatch h.1

/-- The tasks after a step that is about one number. -/
structure TasksRetold (s t : ServerState Url) (jobId : ℕ) (new : Story Url) : Prop where
  fits : ∀ (i : ℕ) (task : Task Url), t.tasks[i]? = some task → task.jobId? = some jobId →
    task.Fits i new
  others : ∀ (i : ℕ) (task : Task Url) other, other ≠ jobId → task.Concerns other →
    (t.tasks[i]? = some task ↔ s.tasks[i]? = some task)
  hands : ∀ i : ℕ, new.stage.task? = some i →
    ∃ task : Task Url, t.tasks[i]? = some task ∧ task.jobId? = some jobId

/-- What is seen of such a step. -/
structure SeenRetold (events : List Event) (jobId : ℕ) (story new : Story Url) : Prop where
  about : ∀ event ∈ events, event.jobId = jobId
  kept : story.queued = [] ∨ new.queued = story.queued
  queued : story.queued ++ queuedUnder jobId events = new.queued
  claims : story.claims ++ claimsOf jobId events = new.claims
  reads : ∀ content, Event.read jobId content ∈ events →
    ∃ owner bytes, new.queued = [(owner, some bytes)] ∧ content = some bytes
  live : story.stage ≠ .settled
  stranded : ∀ path, path.jobId = jobId → (path ∈ strandedFiles events ↔ new.Strands path)

/-- A step that is about one number. -/
structure Retold (s t : ServerState Url) (events : List Event) (jobId : ℕ)
    (story new : Story Url) : Prop where
  next : s.nextJobId ≤ t.nextJobId
  known : jobId < t.nextJobId
  sound : new.Sound jobId
  requests : ∀ other, t.jobRequests.find? other =
    if other = jobId then new.stage.request? else s.jobRequests.find? other
  disk : ∀ path, t.disk.find? path =
    if path.jobId = jobId then new.content path else s.disk.find? path
  tasks : TasksRetold s t jobId new
  timer : ∀ job, new.stage = .pending job → new.file.isSome →
    ∃ i : ℕ, t.tasks[i]? = some (Task.sleeping jobId)
  seen : SeenRetold events jobId story new

theorem seenRetold_nil {jobId : ℕ} {story new : Story Url} (hlive : story.stage ≠ .settled)
    (hqueued : new.queued = story.queued) (hclaims : new.claims = story.claims)
    (hgone : new.stage = .settled → new.file = none) :
    SeenRetold [] jobId story new where
  about _ h := nomatch h
  kept := .inr hqueued
  queued := by rw [hqueued]; exact List.append_nil _
  claims := by rw [hclaims]; exact List.append_nil _
  reads _ h := nomatch h
  live := hlive
  stranded path _ := by
    refine iff_of_false List.not_mem_nil ?_
    rintro ⟨hstage, bytes, hfile⟩
    rw [hgone hstage] at hfile
    cases hfile

theorem not_strands {new : Story Url} (hlive : new.stage ≠ .settled) (path : UploadPath) :
    path ∈ strandedFiles [] ↔ new.Strands path :=
  iff_of_false List.not_mem_nil fun h => hlive h.1

theorem queuedUnder_append (jobId : ℕ) (log events : List Event) :
    queuedUnder jobId (log ++ events) = queuedUnder jobId log ++ queuedUnder jobId events :=
  List.filterMap_append

theorem claimsOf_append (jobId : ℕ) (log events : List Event) :
    claimsOf jobId (log ++ events) = claimsOf jobId log ++ claimsOf jobId events :=
  List.filterMap_append

/-- What is seen of one number says nothing of another. -/
theorem unseen_of_ne {jobId other : ℕ} (hother : other ≠ jobId) {events : List Event}
    (hevents : ∀ event ∈ events, event.jobId = jobId) :
    queuedUnder other events = [] ∧ claimsOf other events = [] := by
  constructor <;>
  · refine List.filterMap_eq_nil_iff.mpr fun event hevent => ?_
    have hjobId := hevents event hevent
    cases event <;> simp_all [Event.jobId, Ne.symm hother]

theorem Follows.retell {h : History Url} {stories : ℕ → Story Url} (hfollows : Follows h stories)
    {t : ServerState Url} {events : List Event} {jobId : ℕ} {new : Story Url}
    (hretold : Retold h.server t events jobId (stories jobId) new) :
    Follows ⟨t, h.log ++ events⟩ (Function.update stories jobId new) where
  fresh other hother := by
    have hne : other ≠ jobId := by
      rintro rfl
      exact absurd hretold.known (Nat.not_lt.mpr hother)
    rw [Function.update_of_ne hne]
    exact hfollows.fresh other (hretold.next.trans hother)
  sound other := by
    by_cases hother : other = jobId
    · subst hother
      rw [Function.update_self]
      exact hretold.sound
    · rw [Function.update_of_ne hother]
      exact hfollows.sound other
  requests other := by
    rw [hretold.requests other]
    by_cases hother : other = jobId
    · subst hother
      rw [if_pos rfl, Function.update_self]
    · rw [if_neg hother, Function.update_of_ne hother, hfollows.requests]
  disk path := by
    rw [hretold.disk path]
    by_cases hpath : path.jobId = jobId
    · rw [if_pos hpath, hpath, Function.update_self]
    · rw [if_neg hpath, Function.update_of_ne hpath, hfollows.disk]
  tasks i task other htask hjobId := by
    by_cases hother : other = jobId
    · subst hother
      rw [Function.update_self]
      exact hretold.tasks.fits i task htask hjobId
    · rw [Function.update_of_ne hother]
      exact hfollows.tasks i task other
        ((hretold.tasks.others i task other hother (.inl hjobId)).mp htask) hjobId
  hands other i hi := by
    by_cases hother : other = jobId
    · subst hother
      rw [Function.update_self] at hi
      exact hretold.tasks.hands i hi
    · rw [Function.update_of_ne hother] at hi
      obtain ⟨task, htask, hjobId⟩ := hfollows.hands other i hi
      exact ⟨task, (hretold.tasks.others i task other hother (.inl hjobId)).mpr htask, hjobId⟩
  timers other job hstage hfile := by
    by_cases hother : other = jobId
    · subst hother
      rw [Function.update_self] at hstage hfile
      exact hretold.timer job hstage hfile
    · rw [Function.update_of_ne hother] at hstage hfile
      obtain ⟨i, hi⟩ := hfollows.timers other job hstage hfile
      exact ⟨i, (hretold.tasks.others i _ other hother (.inr rfl)).mpr hi⟩
  queued other := by
    rw [queuedUnder_append, hfollows.queued]
    by_cases hother : other = jobId
    · subst hother
      rw [Function.update_self, hretold.seen.queued]
    · rw [Function.update_of_ne hother, (unseen_of_ne hother hretold.seen.about).1, List.append_nil]
  claims other := by
    rw [claimsOf_append, hfollows.claims]
    by_cases hother : other = jobId
    · subst hother
      rw [Function.update_self, hretold.seen.claims]
    · rw [Function.update_of_ne hother, (unseen_of_ne hother hretold.seen.about).2, List.append_nil]
  reads other content hmem := by
    by_cases hother : other = jobId
    · subst hother
      rw [Function.update_self]
      rcases List.mem_append.mp hmem with hmem | hmem
      · obtain ⟨owner, bytes, hqueued, hcontent⟩ := hfollows.reads other content hmem
        rcases hretold.seen.kept with hnone | hkept
        · rw [hnone] at hqueued
          cases hqueued
        · exact ⟨owner, bytes, hkept.trans hqueued, hcontent⟩
      · exact hretold.seen.reads content hmem
    · rw [Function.update_of_ne hother]
      rcases List.mem_append.mp hmem with hmem | hmem
      · exact hfollows.reads other content hmem
      · exact absurd (hretold.seen.about _ hmem) hother
  stranded path := by
    rw [strandedFiles_append, List.mem_append, hfollows.stranded]
    by_cases hpath : path.jobId = jobId
    · have hlive : ¬ (stories path.jobId).Strands path := by
        rw [hpath]
        exact fun h => hretold.seen.live h.1
      rw [or_iff_right hlive, hretold.seen.stranded path hpath, hpath, Function.update_self]
    · have hunseen : path ∉ strandedFiles events := by
        intro hmem
        rcases mem_strandedFiles.mp hmem with hevent | hevent <;>
          exact hpath (hretold.seen.about _ hevent)
      rw [or_iff_left hunseen, Function.update_of_ne hpath]

theorem Task.Fits.task?_eq {i jobId : ℕ} {story : Story Url} {task : Task Url}
    (h : task.Fits i story) (hjobId : task.jobId? = some jobId) : story.stage.task? = some i := by
  cases task with
  | staging id user account filename path => rw [h.1]; rfl
  | running id job => rw [show story.stage = _ from h]; rfl
  | cleaning id job => rw [show story.stage = _ from h]; rfl
  | sleeping id => cases hjobId
  | ended => cases hjobId

theorem Follows.no_task {h : History Url} {stories : ℕ → Story Url} (hfollows : Follows h stories)
    {jobId : ℕ} (hnone : (stories jobId).stage.task? = none) (i : ℕ) (task : Task Url)
    (htask : h.server.tasks[i]? = some task) : task.jobId? ≠ some jobId := by
  intro hjobId
  rw [(hfollows.tasks i task jobId htask hjobId).task?_eq hjobId] at hnone
  cases hnone

/-- There is one task at most about a number. -/
theorem Follows.task_unique {h : History Url} {stories : ℕ → Story Url}
    (hfollows : Follows h stories) {jobId i j : ℕ} {task other : Task Url}
    (htask : h.server.tasks[i]? = some task) (hother : h.server.tasks[j]? = some other)
    (hjobId : task.jobId? = some jobId) (hother' : other.jobId? = some jobId) : j = i := by
  have hi := (hfollows.tasks i task jobId htask hjobId).task?_eq hjobId
  have hj := (hfollows.tasks j other jobId hother hother').task?_eq hother'
  exact Option.some.inj (hj.symm.trans hi)

section Tasks

variable {s : ServerState Url} {i jobId : ℕ} {old task : Task Url}

theorem getElem?_become (hget : s.tasks[i]? = some old) (j : ℕ) :
    (s.become i task).tasks[j]? = if j = i then some task else s.tasks[j]? := by
  obtain ⟨hlt, -⟩ := List.getElem?_eq_some_iff.mp hget
  show (s.tasks.set i task)[j]? = _
  rw [List.getElem?_set]
  by_cases hj : i = j
  · rw [if_pos hj, if_pos hj.symm, if_pos hlt]
  · rw [if_neg hj, if_neg (Ne.symm hj)]

theorem getElem?_spawn (j : ℕ) :
    (s.spawn task).tasks[j]? = if j = s.tasks.length then some task else s.tasks[j]? := by
  show (s.tasks ++ [task])[j]? = _
  rw [List.getElem?_append]
  by_cases hj : j < s.tasks.length
  · rw [if_pos hj, if_neg (by omega)]
  · rw [if_neg hj]
    by_cases heq : j = s.tasks.length
    · simp [heq]
    · rw [if_neg heq, List.getElem?_eq_none (by simp; omega), List.getElem?_eq_none (by omega)]

/-- A task that is about one number before and after is about no other. -/
theorem others_of_update {t : ServerState Url}
    (ht : ∀ j, t.tasks[j]? = if j = i then some task else s.tasks[j]?)
    (hold : ∀ old, s.tasks[i]? = some old → ∀ other, old.Concerns other → other = jobId)
    (hnew : ∀ other, task.Concerns other → other = jobId) (j : ℕ) (concerned : Task Url)
    (other : ℕ) (hother : other ≠ jobId) (hconcerned : concerned.Concerns other) :
    t.tasks[j]? = some concerned ↔ s.tasks[j]? = some concerned := by
  rw [ht j]
  by_cases hj : j = i
  · subst hj
    rw [if_pos rfl]
    constructor
    · intro h
      obtain rfl := Option.some.inj h
      exact absurd (hnew other hconcerned) hother
    · intro h
      exact absurd (hold concerned h other hconcerned) hother
  · rw [if_neg hj]

theorem concerns_jobId {other : ℕ} (hjobId : task.jobId? = some jobId) (h : task.Concerns other) :
    other = jobId := by
  rcases h with h | rfl
  · exact Option.some.inj (h.symm.trans hjobId)
  · cases hjobId

theorem concerns_sleeping {other : ℕ} (h : (Task.sleeping jobId : Task Url).Concerns other) :
    other = jobId := by
  rcases h with h | h
  · cases h
  · exact (Task.sleeping.inj h).symm

theorem not_concerns_ended {other : ℕ} (h : (Task.ended : Task Url).Concerns other) :
    other = jobId := by
  rcases h with h | h <;> cases h

theorem tasksRetold_of_update {t : ServerState Url} {new : Story Url}
    (ht : ∀ j, t.tasks[j]? = if j = i then some task else s.tasks[j]?)
    (hold : ∀ old, s.tasks[i]? = some old → ∀ other, old.Concerns other → other = jobId)
    (hnew : ∀ other, task.Concerns other → other = jobId)
    (honly : ∀ (j : ℕ) (other : Task Url), s.tasks[j]? = some other →
      other.jobId? = some jobId → j = i)
    (hfits : task.jobId? = some jobId → task.Fits i new)
    (hhands : ∀ j, new.stage.task? = some j → j = i ∧ task.jobId? = some jobId) :
    TasksRetold s t jobId new where
  fits j other hother hjobId := by
    rw [ht j] at hother
    by_cases hj : j = i
    · subst hj
      rw [if_pos rfl] at hother
      obtain rfl := Option.some.inj hother
      exact hfits hjobId
    · rw [if_neg hj] at hother
      exact absurd (honly j other hother hjobId) hj
  others := others_of_update ht hold hnew
  hands j hj := by
    obtain ⟨rfl, hjobId⟩ := hhands j hj
    exact ⟨task, by rw [ht, if_pos rfl], hjobId⟩

end Tasks

section Steps

variable {h : History Url} {stories : ℕ → Story Url}

/-- Nothing is told of a number that was not given out. -/
theorem Follows.untold (hfollows : Follows h stories) :
    stories h.server.nextJobId = .untold := hfollows.fresh _ le_rfl

theorem Follows.known (hfollows : Follows h stories) {jobId : ℕ}
    (htold : (stories jobId).stage ≠ .unknown) : jobId < h.server.nextJobId := by
  by_contra hnot
  rw [hfollows.fresh jobId (by omega)] at htold
  exact htold rfl

theorem follows_takeJobId (hfollows : Follows h stories) :
    Follows ⟨h.server.takeJobId, h.log ++ []⟩ stories := by
  rw [List.append_nil]
  exact { hfollows with
    fresh := fun jobId hjobId => hfollows.fresh jobId ((Nat.le_succ _).trans hjobId) }

/-- A file that is written belongs to one number, which has no other file. -/
theorem disk_of_write {m : KeyedMap UploadPath (List UInt8)} {path : UploadPath}
    {bytes : List UInt8} {new : Story Url} (hnew : new.file = some (path, bytes))
    (hone : ∀ other, other.jobId = path.jobId → other ≠ path → m.find? other = none)
    (other : UploadPath) : (m.insert path bytes).find? other =
      if other.jobId = path.jobId then new.content other else m.find? other := by
  rw [KeyedMap.find?_insert]
  unfold Story.content
  rw [hnew]
  by_cases hother : other = path
  · subst hother
    simp
  · rw [if_neg hother]
    by_cases hjobId : other.jobId = path.jobId
    · rw [if_pos hjobId, hone other hjobId hother]
      simp [Ne.symm hother]
    · rw [if_neg hjobId]

theorem requests_same (hfollows : Follows h stories) {jobId : ℕ} {new : Story Url}
    (hnew : new.stage.request? = (stories jobId).stage.request?) (other : ℕ) :
    h.server.jobRequests.find? other =
      if other = jobId then new.stage.request? else h.server.jobRequests.find? other := by
  by_cases hother : other = jobId
  · rw [if_pos hother, hnew, hother, hfollows.requests]
  · rw [if_neg hother]

theorem requests_of_insert {m : KeyedMap ℕ (JobRequest Url)} {jobId : ℕ} {job : JobRequest Url}
    {new : Story Url} (hnew : new.stage = .pending job) (other : ℕ) :
    (m.insert jobId job).find? other =
      if other = jobId then new.stage.request? else m.find? other := by
  rw [KeyedMap.find?_insert, hnew]
  rfl

theorem requests_of_remove {m : KeyedMap ℕ (JobRequest Url)} {jobId : ℕ} {new : Story Url}
    (hnew : new.stage.request? = none) (other : ℕ) :
    (m.remove jobId).find? other = if other = jobId then new.stage.request? else m.find? other := by
  rw [KeyedMap.find?_remove, hnew]

theorem disk_same (hfollows : Follows h stories) {jobId : ℕ} {new : Story Url}
    (hnew : new.file = (stories jobId).file) (path : UploadPath) :
    h.server.disk.find? path =
      if path.jobId = jobId then new.content path else h.server.disk.find? path := by
  by_cases hpath : path.jobId = jobId
  · rw [if_pos hpath, hfollows.disk, hpath]
    unfold Story.content
    rw [hnew]
  · rw [if_neg hpath]

/-- There is no file of a number but the one its story tells of. -/
theorem Follows.no_other_file (hfollows : Follows h stories) {path : UploadPath}
    (hfile : ∀ file, (stories path.jobId).file = some file → file.1 = path) (other : UploadPath)
    (hjobId : other.jobId = path.jobId) (hother : other ≠ path) :
    h.server.disk.find? other = none := by
  rw [hfollows.disk, hjobId]
  unfold Story.content
  cases hstory : (stories path.jobId).file with
  | none => rfl
  | some file => simp [hfile file hstory, Ne.symm hother]

theorem disk_of_remove (hfollows : Follows h stories) {path : UploadPath} {new : Story Url}
    (hfile : ∀ file, (stories path.jobId).file = some file → file.1 = path)
    (hnew : new.file = none) (other : UploadPath) :
    (h.server.disk.remove path).find? other =
      if other.jobId = path.jobId then new.content other else h.server.disk.find? other := by
  rw [KeyedMap.find?_remove]
  unfold Story.content
  rw [hnew]
  by_cases hother : other = path
  · rw [if_pos hother, hother, if_pos rfl]
    rfl
  · rw [if_neg hother]
    by_cases hjobId : other.jobId = path.jobId
    · rw [if_pos hjobId, hfollows.no_other_file hfile other hjobId hother]
      rfl
    · rw [if_neg hjobId]

/-- A task that is spawned for a number that nobody works at. -/
theorem Follows.tasks_spawn (hfollows : Follows h stories) {t : ServerState Url} {jobId : ℕ}
    {task : Task Url} {new : Story Url}
    (ht : ∀ j, t.tasks[j]? = if j = h.server.tasks.length then some task else h.server.tasks[j]?)
    (hnone : (stories jobId).stage.task? = none) (hjobId : task.jobId? = some jobId)
    (hfits : task.Fits h.server.tasks.length new) : TasksRetold h.server t jobId new := by
  refine tasksRetold_of_update ht (fun old hold => ?_) (fun _ => concerns_jobId hjobId)
    (fun j other hother hother' => ?_) (fun _ => hfits) (fun j hj => ⟨?_, hjobId⟩)
  · rw [List.getElem?_eq_none le_rfl] at hold
    cases hold
  · exact absurd hother' (hfollows.no_task hnone j other hother)
  · exact (Option.some.inj ((hfits.task?_eq hjobId).symm.trans hj)).symm

/-- The task that works at a number goes on to another state. -/
theorem Follows.tasks_become (hfollows : Follows h stories) {i jobId : ℕ} {old task : Task Url}
    {t : ServerState Url} {new : Story Url} (hget : h.server.tasks[i]? = some old)
    (hold : old.jobId? = some jobId)
    (ht : ∀ j, t.tasks[j]? = if j = i then some task else h.server.tasks[j]?)
    (hnew : ∀ other, task.Concerns other → other = jobId)
    (hfits : task.jobId? = some jobId → task.Fits i new)
    (hhands : ∀ j, new.stage.task? = some j → task.jobId? = some jobId) :
    TasksRetold h.server t jobId new := by
  refine tasksRetold_of_update ht (fun found hfound => ?_) hnew (fun j other hother hother' => ?_)
    hfits (fun j hj => ⟨?_, hhands j hj⟩)
  · obtain rfl := Option.some.inj (hget.symm.trans hfound)
    exact fun _ => concerns_jobId hold
  · exact hfollows.task_unique hget hother hold hother'
  · have hjobId := hhands j hj
    exact Option.some.inj (hj.symm.trans ((hfits hjobId).task?_eq hjobId))

theorem follows_submit (hfollows : Follows h stories) (user : String) (account : Option String)
    (filename uuid : String) :
    ∃ stories, Follows ⟨h.server.submit user account filename uuid, h.log ++ []⟩ stories := by
  unfold ServerState.submit
  split
  · have huntold := hfollows.untold
    have hnone : (stories h.server.nextJobId).stage.task? = none := by rw [huntold]; rfl
    have hretold : Retold h.server
        ((h.server.takeJobId.write ⟨h.server.nextJobId, uuid⟩ []).spawn
          (.staging h.server.nextJobId user account filename ⟨h.server.nextJobId, uuid⟩))
        [] h.server.nextJobId (stories h.server.nextJobId)
        ⟨.staging h.server.tasks.length, [], [], some (⟨h.server.nextJobId, uuid⟩, [])⟩ := by
      refine ⟨Nat.le_succ _, Nat.lt_succ_self _, ?_, ?_, ?_, ?_, ?_, ?_⟩
      · exact ⟨Nat.zero_le _, List.nil_prefix, fun _ hfile => by cases hfile; rfl, rfl, rfl⟩
      · exact requests_same hfollows (by rw [huntold]; rfl)
      · refine disk_of_write rfl (hfollows.no_other_file fun file hfile => ?_)
        rw [huntold] at hfile
        cases hfile
      · exact hfollows.tasks_spawn getElem?_spawn hnone rfl ⟨rfl, rfl⟩
      · intro job hstage
        cases hstage
      · rw [huntold]
        exact seenRetold_nil (fun hover => nomatch hover) rfl rfl fun hover => nomatch hover
    exact ⟨_, hfollows.retell hretold⟩
  · exact ⟨stories, follows_takeJobId hfollows⟩

/-- A link or a key is put aside. -/
theorem follows_queue (hfollows : Follows h stories) {job : JobRequest Url}
    (hjob : Story.Holds ⟨.pending job, [(job.owner, none)], [], none⟩ job) :
    ∃ stories, Follows ⟨(h.server.queue job).1,
      h.log ++ (h.server.queue job).2.toList⟩ stories := by
  have huntold := hfollows.untold
  have hnone : (stories h.server.nextJobId).stage.task? = none := by rw [huntold]; rfl
  have hretold : Retold h.server (h.server.takeJobId.pushJobRequest h.server.nextJobId job)
      [.queued h.server.nextJobId job.owner none] h.server.nextJobId
      (stories h.server.nextJobId) ⟨.pending job, [(job.owner, none)], [], none⟩ := by
    refine ⟨Nat.le_succ _, Nat.lt_succ_self _, ?_, ?_, ?_, ?_, ?_, ?_⟩
    · exact ⟨le_rfl, List.nil_prefix, fun _ hfile => (nomatch hfile), rfl, hjob⟩
    · exact requests_of_insert rfl
    · exact disk_same hfollows (by rw [huntold]; rfl)
    · refine ⟨fun i task htask hjobId => ?_, fun _ _ _ _ _ => Iff.rfl, fun i hi => nomatch hi⟩
      exact absurd hjobId (hfollows.no_task hnone i task htask)
    · intro _ _ hfile
      cases hfile
    · rw [huntold]
      refine ⟨?_, .inl rfl, ?_, rfl, ?_, fun hover => (nomatch hover),
        fun path _ => not_strands (by simp) path⟩
      · intro event hevent
        obtain rfl := List.mem_singleton.mp hevent
        rfl
      · simp [queuedUnder, Story.untold]
      · intro content hcontent
        cases List.mem_singleton.mp hcontent
  exact ⟨_, hfollows.retell hretold⟩

theorem Follows.sound_of (hfollows : Follows h stories) {jobId : ℕ} {stage : Stage Url}
    (hstage : (stories jobId).stage = stage) :
    { stories jobId with stage }.StageSound := by
  have hsound := (hfollows.sound jobId).stage
  subst hstage
  exact hsound

/-- The file of a job is the one that its story tells of. -/
theorem Story.Holds.file {story : Story Url} {job : JobRequest Url} (hholds : story.Holds job)
    {path : UploadPath} {source filename : String} {cleanupPath : Option UploadPath}
    (hinput : job.input = .localArchive source filename path cleanupPath) :
    cleanupPath = some path ∧ ∃ bytes, story.queued = [(job.owner, some bytes)] ∧
      story.file = some (path, bytes) := by
  obtain ⟨upload, hqueued, hfile⟩ := hholds
  rw [hinput] at hfile
  obtain ⟨hcleanup, bytes, rfl, hfile⟩ := hfile
  exact ⟨hcleanup, bytes, hqueued, hfile⟩

theorem Story.Holds.no_file {story : Story Url} {job : JobRequest Url} (hholds : story.Holds job)
    (hinput : ∀ source filename path cleanupPath,
      job.input ≠ .localArchive source filename path cleanupPath) : story.file = none := by
  obtain ⟨upload, -, hfile⟩ := hholds
  cases hjob : job.input with
  | localArchive source filename path cleanupPath =>
    exact absurd hjob (hinput source filename path cleanupPath)
  | fromServiceLink source uri => rwa [hjob] at hfile
  | fromRemoteHost source host diagnosticType => rwa [hjob] at hfile

theorem Follows.find?_of_file (hfollows : Follows h stories) {jobId : ℕ} {path : UploadPath}
    {bytes : List UInt8} (hfile : (stories jobId).file = some (path, bytes)) :
    h.server.disk.find? path = some bytes := by
  obtain rfl := (hfollows.sound jobId).file _ hfile
  rw [hfollows.disk]
  unfold Story.content
  rw [hfile]
  exact if_pos rfl

/-- What is known of a number that a task works at. -/
theorem Follows.worked_at (hfollows : Follows h stories) {i jobId : ℕ} {old : Task Url}
    (hget : h.server.tasks[i]? = some old) (hold : old.jobId? = some jobId) :
    jobId < h.server.nextJobId ∧ (stories jobId).stage.request? = none ∧
      (stories jobId).stage ≠ .settled := by
  have htask := (hfollows.tasks i old _ hget hold).task?_eq hold
  refine ⟨hfollows.known fun hunknown => ?_, ?_, fun hover => ?_⟩
  · rw [hunknown] at htask
    cases htask
  · cases hstage : (stories jobId).stage with
    | pending job =>
      rw [hstage] at htask
      cases htask
    | _ => rfl
  · rw [hover] at htask
    cases htask

theorem Follows.tasks_ended (hfollows : Follows h stories) {i jobId : ℕ} {old : Task Url}
    {t : ServerState Url} {new : Story Url} (hget : h.server.tasks[i]? = some old)
    (hold : old.jobId? = some jobId) (ht : t.tasks = (h.server.become i .ended).tasks)
    (hnew : new.stage = .settled) : TasksRetold h.server t jobId new := by
  have hended : ∀ j, t.tasks[j]? = if j = i then some .ended else h.server.tasks[j]? := by
    rw [ht]
    exact getElem?_become hget
  refine hfollows.tasks_become hget hold hended (fun _ => not_concerns_ended)
    (fun hjobId => nomatch hjobId) fun j hj => ?_
  rw [hnew] at hj
  cases hj

/-- The end of a task that had no file. -/
theorem follows_ended (hfollows : Follows h stories) {i jobId : ℕ} {old : Task Url}
    (hget : h.server.tasks[i]? = some old) (hold : old.jobId? = some jobId)
    (hfile : (stories jobId).file = none) :
    ∃ stories, Follows ⟨h.server.become i .ended, h.log ++ []⟩ stories := by
  obtain ⟨hknown, hrequest, hlive⟩ := hfollows.worked_at hget hold
  have hsound := hfollows.sound jobId
  have hretold : Retold h.server (h.server.become i .ended) [] jobId (stories jobId)
      { stories jobId with stage := .settled } := by
    refine ⟨le_rfl, hknown, ?_, ?_, disk_same hfollows rfl, ?_, fun _ hover => (nomatch hover), ?_⟩
    · exact ⟨hsound.once, hsound.claims, hsound.file, trivial⟩
    · exact requests_same hfollows hrequest.symm
    · exact hfollows.tasks_ended hget hold rfl rfl
    · exact seenRetold_nil hlive rfl rfl fun _ => hfile
  exact ⟨_, hfollows.retell hretold⟩

/-- The end of a task whose file stays, as it is or with what was written last. -/
theorem follows_stranded (hfollows : Follows h stories) {i : ℕ} {old : Task Url}
    {path : UploadPath} {bytes : List UInt8} {t : ServerState Url} {event : Event}
    (hget : h.server.tasks[i]? = some old) (hold : old.jobId? = some path.jobId)
    (hevent : event = .leftBehind path ∨ event = .abandoned path)
    (hnext : t.nextJobId = h.server.nextJobId) (hrequests : t.jobRequests = h.server.jobRequests)
    (htasks : t.tasks = (h.server.become i .ended).tasks)
    (hdisk : ∀ other, t.disk.find? other =
      if other.jobId = path.jobId then
        { stories path.jobId with file := some (path, bytes) }.content other
      else h.server.disk.find? other) :
    ∃ stories, Follows ⟨t, h.log ++ [event]⟩ stories := by
  obtain ⟨hknown, hrequest, hlive⟩ := hfollows.worked_at hget hold
  have hsound := hfollows.sound path.jobId
  have hfound : ∀ other, other ∈ strandedFiles [event] ↔ path = other := by
    intro other
    rw [mem_strandedFiles]
    rcases hevent with rfl | rfl <;> simp [eq_comm]
  have hretold : Retold h.server t [event] path.jobId (stories path.jobId)
      { stories path.jobId with stage := .settled, file := some (path, bytes) } := by
    refine ⟨hnext.ge, hnext ▸ hknown, ?_, ?_, hdisk, hfollows.tasks_ended hget hold htasks rfl,
      fun _ hover => (nomatch hover), ?_⟩
    · refine ⟨hsound.once, hsound.claims, fun file hother => ?_, trivial⟩
      rw [← Option.some.inj hother]
    · rw [hrequests]
      exact requests_same hfollows hrequest.symm
    · refine ⟨?_, .inr rfl, ?_, ?_, ?_, hlive, fun other _ => ?_⟩
      · intro one hone
        obtain rfl := List.mem_singleton.mp hone
        rcases hevent with rfl | rfl <;> rfl
      · rcases hevent with rfl | rfl <;> exact List.append_nil _
      · rcases hevent with rfl | rfl <;> exact List.append_nil _
      · intro content hcontent
        rcases hevent with rfl | rfl <;> cases List.mem_singleton.mp hcontent
      · rw [hfound]
        constructor
        · rintro rfl
          exact ⟨rfl, bytes, rfl⟩
        · rintro ⟨-, other', hother⟩
          exact (Prod.mk.inj (Option.some.inj hother)).1
  exact ⟨_, hfollows.retell hretold⟩

/-- The end of a task that had a file: the file is removed, or it stays behind. -/
theorem follows_removeFile (hfollows : Follows h stories) {i : ℕ} {old : Task Url}
    {path : UploadPath} {bytes : List UInt8} (hget : h.server.tasks[i]? = some old)
    (hold : old.jobId? = some path.jobId) (hfile : (stories path.jobId).file = some (path, bytes))
    (removed : Bool) :
    ∃ stories, Follows ⟨((h.server.become i .ended).removeFile path removed).1,
      h.log ++ ((h.server.become i .ended).removeFile path removed).2.toList⟩ stories := by
  obtain ⟨hknown, hrequest, hlive⟩ := hfollows.worked_at hget hold
  have hsound := hfollows.sound path.jobId
  cases removed with
  | true =>
    have hretold : Retold h.server
        { h.server.become i .ended with disk := h.server.disk.remove path } [] path.jobId
        (stories path.jobId) { stories path.jobId with stage := .settled, file := none } := by
      refine ⟨le_rfl, hknown, ?_, ?_, ?_, ?_, fun _ hstage => (nomatch hstage), ?_⟩
      · exact ⟨hsound.once, hsound.claims, fun _ hnone => (nomatch hnone), trivial⟩
      · exact requests_same hfollows hrequest.symm
      · refine disk_of_remove hfollows (fun file hother => ?_) rfl
        rw [hfile] at hother
        rw [← Option.some.inj hother]
      · exact hfollows.tasks_ended hget hold rfl rfl
      · exact seenRetold_nil hlive rfl rfl fun _ => rfl
    exact ⟨_, hfollows.retell hretold⟩
  | false =>
    exact follows_stranded hfollows hget hold (.inl rfl) rfl rfl rfl
      (disk_same hfollows hfile.symm)

theorem follows_same (hfollows : Follows h stories) :
    ∃ stories, Follows ⟨h.server, h.log ++ []⟩ stories := by
  rw [List.append_nil]
  exact ⟨stories, hfollows⟩

theorem follows_stage (hfollows : Follows h stories) (i : ℕ) (received : Option (List UInt8))
    (removed : Bool) :
    ∃ stories, Follows ⟨(h.server.stage i received removed).1,
      h.log ++ (h.server.stage i received removed).2.toList⟩ stories := by
  unfold ServerState.stage
  split
  · next jobId user account filename path hget =>
    obtain ⟨hstage, hfile⟩ := hfollows.tasks i _ jobId hget rfl
    obtain ⟨hqueued, hclaims⟩ := hfollows.sound_of hstage
    obtain rfl : path.jobId = jobId := (hfollows.sound jobId).file _ hfile
    split
    · next bytes =>
      have hretold : Retold h.server
          (((h.server.write path bytes).pushJobRequest path.jobId
            (uploadRequest user account filename path)).become i (.sleeping path.jobId))
          [.queued path.jobId user (some bytes)] path.jobId (stories path.jobId)
          ⟨.pending (uploadRequest user account filename path), [(user, some bytes)], [],
            some (path, bytes)⟩ := by
        refine ⟨le_rfl, ?_, ?_, requests_of_insert rfl, ?_, ?_, ?_, ?_⟩
        · exact hfollows.known fun hunknown => by rw [hunknown] at hstage; cases hstage
        · refine ⟨le_rfl, List.nil_prefix, fun file hother => ?_, rfl, ?_⟩
          · obtain rfl := Option.some.inj hother
            rfl
          · exact ⟨some bytes, rfl, rfl, bytes, rfl, rfl⟩
        · refine disk_of_write rfl (hfollows.no_other_file fun file hother => ?_)
          rw [hfile] at hother
          rw [← Option.some.inj hother]
        · exact hfollows.tasks_become hget rfl (getElem?_become hget) (fun _ => concerns_sleeping)
            (fun hjobId => nomatch hjobId) fun j hj => nomatch hj
        · exact fun _ _ _ => ⟨i, (getElem?_become hget i).trans (if_pos rfl)⟩
        · refine ⟨?_, .inl hqueued, ?_, ?_, ?_, ?_,
            fun other _ => not_strands (by simp) other⟩
          · intro event hevent
            obtain rfl := List.mem_singleton.mp hevent
            rfl
          · rw [hqueued]
            simp [queuedUnder]
          · rw [hclaims]
            rfl
          · intro content hcontent
            cases List.mem_singleton.mp hcontent
          · rw [hstage]
            exact fun hover => nomatch hover
      exact ⟨_, hfollows.retell hretold⟩
    · exact follows_removeFile hfollows hget rfl hfile removed
  · exact follows_same hfollows

/-- A job that waits under a number is what the story of the number tells of. -/
theorem Follows.pending (hfollows : Follows h stories) {jobId : ℕ} {job : JobRequest Url}
    (hfind : h.server.jobRequests.find? jobId = some job) :
    (stories jobId).stage = .pending job := by
  rw [hfollows.requests] at hfind
  cases hstage : (stories jobId).stage with
  | pending other =>
    rw [hstage] at hfind
    rw [show other = job from Option.some.inj hfind]
  | _ =>
    rw [hstage] at hfind
    cases hfind

/-- A timer that finds nothing under its number. -/
theorem follows_slept (hfollows : Follows h stories) {i jobId : ℕ}
    (hget : h.server.tasks[i]? = some (.sleeping jobId))
    (hnone : (stories jobId).stage.request? = none) :
    Follows ⟨ServerState.become
      { h.server with jobRequests := h.server.jobRequests.remove jobId } i .ended, h.log⟩
        stories := by
  have hended : ∀ j, (h.server.become i .ended).tasks[j]? =
      if j = i then some .ended else h.server.tasks[j]? := getElem?_become hget
  have hother : ∀ (j : ℕ) (task : Task Url), h.server.tasks[j]? = some task →
      task ≠ .sleeping jobId → (h.server.become i .ended).tasks[j]? = some task := by
    intro j task htask hne
    rw [hended, if_neg, htask]
    rintro rfl
    exact hne (Option.some.inj (htask.symm.trans hget))
  refine { hfollows with requests := ?_, tasks := ?_, hands := ?_, timers := ?_ }
  · intro other
    refine (requests_of_remove hnone other).trans ?_
    by_cases heq : other = jobId
    · rw [if_pos heq, heq]
    · rw [if_neg heq, hfollows.requests]
  · intro j task other htask hjobId
    have htask : (h.server.become i .ended).tasks[j]? = some task := htask
    rw [hended] at htask
    by_cases hj : j = i
    · rw [if_pos hj] at htask
      obtain rfl := Option.some.inj htask
      cases hjobId
    · rw [if_neg hj] at htask
      exact hfollows.tasks j task other htask hjobId
  · intro other j hj
    obtain ⟨task, htask, hjobId⟩ := hfollows.hands other j hj
    exact ⟨task, hother j task htask (by rintro rfl; cases hjobId), hjobId⟩
  · intro other job hstage hfile
    obtain ⟨j, hj⟩ := hfollows.timers other job hstage hfile
    refine ⟨j, hother j _ hj fun heq => ?_⟩
    obtain rfl := Task.sleeping.inj heq
    rw [hstage] at hnone
    cases hnone

theorem follows_wake (hfollows : Follows h stories) (i : ℕ) :
    ∃ stories, Follows ⟨h.server.wake i, h.log ++ []⟩ stories := by
  unfold ServerState.wake ServerState.popJobRequest
  split
  · next jobId hget =>
    have hconcerns : ∀ old, h.server.tasks[i]? = some old →
        ∀ other, old.Concerns other → other = jobId := by
      intro old hold
      obtain rfl := Option.some.inj (hget.symm.trans hold)
      exact fun _ => concerns_sleeping
    have hsound := hfollows.sound jobId
    cases hfind : h.server.jobRequests.find? jobId with
    | some job =>
      have hstage := hfollows.pending hfind
      have hholds := (hfollows.sound_of hstage).2
      have hretold : Retold h.server
          (ServerState.become { h.server with jobRequests := h.server.jobRequests.remove jobId } i
            (.cleaning jobId job)) [] jobId (stories jobId)
          { stories jobId with stage := .cleaning i job } := by
        refine ⟨le_rfl, ?_, ?_, requests_of_remove rfl, disk_same hfollows rfl, ?_,
          fun _ hother => (nomatch hother), ?_⟩
        · exact hfollows.known fun hunknown => by rw [hunknown] at hstage; cases hstage
        · exact ⟨hsound.once, hsound.claims, hsound.file, hholds⟩
        · refine tasksRetold_of_update (getElem?_become hget) hconcerns
            (fun _ => concerns_jobId rfl) (fun j other hother hjobId => ?_) (fun _ => rfl)
            fun j hj => ?_
          · exact absurd hjobId (hfollows.no_task (by rw [hstage]; rfl) j other hother)
          · exact ⟨(Option.some.inj hj).symm, rfl⟩
        · refine seenRetold_nil ?_ rfl rfl fun hover => nomatch hover
          rw [hstage]
          exact fun hover => nomatch hover
      exact ⟨_, hfollows.retell hretold⟩
    | none =>
      have hnone : (stories jobId).stage.request? = none := by rw [← hfollows.requests, hfind]
      rw [List.append_nil]
      exact ⟨stories, follows_slept hfollows hget hnone⟩
  · exact follows_same hfollows

theorem follows_claim (hfollows : Follows h stories) (jobId : ℕ) (user : String) :
    ∃ stories, Follows ⟨(h.server.claim jobId user).1,
      h.log ++ (h.server.claim jobId user).2.toList⟩ stories := by
  unfold ServerState.claim ServerState.popJobRequestForOwner ServerState.popJobRequest
  cases hfind : h.server.jobRequests.find? jobId with
  | none => exact follows_same hfollows
  | some job =>
    dsimp only
    by_cases howner : job.owner = user
    · rw [if_pos howner]
      have hstage := hfollows.pending hfind
      have hsound := hfollows.sound jobId
      obtain ⟨hclaims, hholds⟩ := hfollows.sound_of hstage
      have hretold : Retold h.server
          (ServerState.spawn { h.server with jobRequests := h.server.jobRequests.remove jobId }
            (.running jobId job)) [.claimed jobId user] jobId (stories jobId)
          { stories jobId with stage := .running h.server.tasks.length job, claims := [user] } := by
        refine ⟨le_rfl, ?_, ?_, requests_of_remove rfl, disk_same hfollows rfl, ?_,
          fun _ hother => (nomatch hother), ?_⟩
        · exact hfollows.known fun hunknown => by rw [hunknown] at hstage; cases hstage
        · refine ⟨hsound.once, ?_, hsound.file, by rw [howner], hholds⟩
          obtain ⟨upload, hqueued, -⟩ := hholds
          show [user] <+: (stories jobId).queued.map Prod.fst
          rw [show (stories jobId).queued = _ from hqueued, ← howner]
          exact List.prefix_refl _
        · exact hfollows.tasks_spawn getElem?_spawn (by rw [hstage]; rfl) rfl rfl
        · refine ⟨?_, .inr rfl, List.append_nil _, ?_, ?_, ?_,
            fun other _ => not_strands (by simp) other⟩
          · intro event hevent
            obtain rfl := List.mem_singleton.mp hevent
            rfl
          · rw [show (stories jobId).claims = [] from hclaims]
            simp [claimsOf]
          · intro content hcontent
            cases List.mem_singleton.mp hcontent
          · rw [hstage]
            exact fun hover => nomatch hover
      exact ⟨_, hfollows.retell hretold⟩
    · rw [if_neg howner]
      exact follows_same hfollows

theorem follows_readInput (hfollows : Follows h stories) (i : ℕ) :
    ∃ stories, Follows ⟨h.server, h.log ++ (h.server.readInput i).toList⟩ stories := by
  unfold ServerState.readInput
  split
  · next jobId job hget =>
    have hstage : (stories jobId).stage = .running i job := hfollows.tasks i _ jobId hget rfl
    have hsound := hfollows.sound jobId
    obtain ⟨-, hholds⟩ := hfollows.sound_of hstage
    split
    · next source filename path cleanupPath hinput =>
      obtain ⟨-, bytes, hqueued, hfile⟩ := hholds.file hinput
      have hcontent := hfollows.find?_of_file hfile
      have hretold : Retold h.server h.server [.read jobId (h.server.disk.find? path)] jobId
          (stories jobId) (stories jobId) := by
        refine ⟨le_rfl, ?_, hsound, requests_same hfollows rfl, disk_same hfollows rfl, ?_, ?_, ?_⟩
        · exact hfollows.known fun hunknown => by rw [hunknown] at hstage; cases hstage
        · exact ⟨fun j task htask => hfollows.tasks j task jobId htask, fun _ _ _ _ _ => Iff.rfl,
            hfollows.hands jobId⟩
        · exact hfollows.timers jobId
        · have hlive : (stories jobId).stage ≠ .settled := by
            rw [hstage]
            exact fun hover => nomatch hover
          refine ⟨?_, .inr rfl, List.append_nil _, List.append_nil _, ?_, hlive,
            fun other _ => not_strands hlive other⟩
          · intro event hevent
            obtain rfl := List.mem_singleton.mp hevent
            rfl
          · intro content hread
            obtain ⟨-, rfl⟩ := Event.read.inj (List.mem_singleton.mp hread)
            exact ⟨job.owner, bytes, hqueued, hcontent⟩
      exact ⟨_, hfollows.retell hretold⟩
    · exact follows_same hfollows
    · exact follows_same hfollows
  · exact follows_same hfollows

theorem follows_finish (hfollows : Follows h stories) (i : ℕ) :
    ∃ stories, Follows ⟨h.server.finish i, h.log ++ []⟩ stories := by
  unfold ServerState.finish
  split
  · next jobId job hget =>
    have hstage : (stories jobId).stage = .running i job := hfollows.tasks i _ jobId hget rfl
    have hsound := hfollows.sound jobId
    obtain ⟨-, hholds⟩ := hfollows.sound_of hstage
    have hretold : Retold h.server (h.server.become i (.cleaning jobId job)) [] jobId
        (stories jobId) { stories jobId with stage := .cleaning i job } := by
      refine ⟨le_rfl, ?_, ?_, ?_, disk_same hfollows rfl, ?_, fun _ hother => (nomatch hother), ?_⟩
      · exact hfollows.known fun hunknown => by rw [hunknown] at hstage; cases hstage
      · exact ⟨hsound.once, hsound.claims, hsound.file, hholds⟩
      · exact requests_same hfollows (by rw [hstage]; rfl)
      · exact hfollows.tasks_become hget rfl (getElem?_become hget) (fun _ => concerns_jobId rfl)
          (fun _ => rfl) fun _ _ => rfl
      · refine seenRetold_nil ?_ rfl rfl fun hover => nomatch hover
        rw [hstage]
        exact fun hover => nomatch hover
    exact ⟨_, hfollows.retell hretold⟩
  · exact follows_same hfollows

theorem follows_cleanUp (hfollows : Follows h stories) (i : ℕ) (removed : Bool) :
    ∃ stories, Follows ⟨(h.server.cleanUp i removed).1,
      h.log ++ (h.server.cleanUp i removed).2.toList⟩ stories := by
  unfold ServerState.cleanUp
  split
  · next jobId job hget =>
    have hstage : (stories jobId).stage = .cleaning i job := hfollows.tasks i _ jobId hget rfl
    have hsound := hfollows.sound jobId
    have hholds : (stories jobId).Holds job := hfollows.sound_of hstage
    split
    · next source filename stored path hinput =>
      obtain ⟨hcleanup, bytes, -, hfile⟩ := hholds.file hinput
      obtain rfl := Option.some.inj hcleanup
      obtain rfl := hsound.file _ hfile
      exact follows_removeFile hfollows hget rfl hfile removed
    · next source filename stored hinput =>
      obtain ⟨hcleanup, -⟩ := hholds.file hinput
      cases hcleanup
    · next source uri hinput =>
      exact follows_ended hfollows hget rfl (hholds.no_file fun _ _ _ _ heq => by
        rw [hinput] at heq; cases heq)
    · next source host diagnosticType hinput =>
      exact follows_ended hfollows hget rfl (hholds.no_file fun _ _ _ _ heq => by
        rw [hinput] at heq; cases heq)
  · exact follows_same hfollows

theorem follows_disconnect (hfollows : Follows h stories) (i : ℕ) (written : List UInt8) :
    ∃ stories, Follows ⟨(h.server.disconnect i written).1,
      h.log ++ (h.server.disconnect i written).2.toList⟩ stories := by
  unfold ServerState.disconnect
  split
  · next jobId user account filename path hget =>
    obtain ⟨-, hfile⟩ := hfollows.tasks i _ jobId hget rfl
    obtain rfl : path.jobId = jobId := (hfollows.sound jobId).file _ hfile
    refine follows_stranded hfollows hget rfl (.inr rfl) rfl rfl rfl
      (disk_of_write rfl (hfollows.no_other_file fun file hother => ?_))
    rw [hfile] at hother
    rw [← Option.some.inj hother]
  · exact follows_same hfollows

/-- A task with a job that ends in the middle. -/
theorem follows_died (hfollows : Follows h stories) {i jobId : ℕ} {old : Task Url}
    {job : JobRequest Url} (hget : h.server.tasks[i]? = some old)
    (hold : old.jobId? = some jobId) (hholds : (stories jobId).Holds job) :
    ∃ stories, Follows ⟨h.server.become i .ended,
      h.log ++ (job.input.cleanupPath?.map Event.abandoned).toList⟩ stories := by
  cases hinput : job.input with
  | localArchive source filename path cleanupPath =>
    obtain ⟨rfl, bytes, -, hfile⟩ := hholds.file hinput
    obtain rfl : path.jobId = jobId := (hfollows.sound jobId).file _ hfile
    exact follows_stranded hfollows hget hold (.inr rfl) rfl rfl rfl
      (disk_same hfollows hfile.symm)
  | fromServiceLink source uri =>
    exact follows_ended hfollows hget hold (hholds.no_file fun _ _ _ _ heq => by
      rw [hinput] at heq; cases heq)
  | fromRemoteHost source host diagnosticType =>
    exact follows_ended hfollows hget hold (hholds.no_file fun _ _ _ _ heq => by
      rw [hinput] at heq; cases heq)

theorem follows_crash (hfollows : Follows h stories) (i : ℕ) :
    ∃ stories, Follows ⟨(h.server.crash i).1, h.log ++ (h.server.crash i).2.toList⟩ stories := by
  unfold ServerState.crash
  split
  · next jobId job hget =>
    have hstage : (stories jobId).stage = .running i job := hfollows.tasks i _ jobId hget rfl
    exact follows_died hfollows hget rfl (hfollows.sound_of hstage).2
  · next jobId job hget =>
    have hstage : (stories jobId).stage = .cleaning i job := hfollows.tasks i _ jobId hget rfl
    exact follows_died hfollows hget rfl (hfollows.sound_of hstage)
  · exact follows_same hfollows

theorem follows_step (lib : UrlLibrary Url) (hfollows : Follows h stories) (action : Action Url) :
    ∃ stories, Follows (step lib h action) stories := by
  cases action with
  | newJobId => exact ⟨stories, follows_takeJobId hfollows⟩
  | submit user account filename uuid => exact follows_submit hfollows user account filename uuid
  | stage i received removed => exact follows_stage hfollows i received removed
  | pushLink identifiers filename uri => exact follows_queue hfollows ⟨none, rfl, rfl⟩
  | pushKey identifiers host diagnosticType =>
    cases hkey : keyRequest lib identifiers host diagnosticType with
    | none =>
      have hact : h.server.act lib (.pushKey identifiers host diagnosticType) =
          (h.server.takeJobId, none) := by simp only [ServerState.act, hkey]
      unfold step
      rw [hact]
      exact ⟨stories, follows_takeJobId hfollows⟩
    | some job =>
      have hact : h.server.act lib (.pushKey identifiers host diagnosticType) =
          h.server.queue job := by simp only [ServerState.act, hkey]
      unfold step
      rw [hact]
      refine follows_queue hfollows ⟨none, rfl, ?_⟩
      obtain ⟨url, -, rfl⟩ := Option.map_eq_some_iff.mp hkey
      rfl
  | wake i => exact follows_wake hfollows i
  | claim jobId user => exact follows_claim hfollows jobId user
  | readInput i => exact follows_readInput hfollows i
  | finish i => exact follows_finish hfollows i
  | cleanUp i removed => exact follows_cleanUp hfollows i removed
  | disconnect i written => exact follows_disconnect hfollows i written
  | crash i => exact follows_crash hfollows i

end Steps

/-- Every run is told by stories. -/
theorem follows_run (lib : UrlLibrary Url) (actions : List (Action Url)) :
    ∃ stories, Follows (run (step lib) .start actions) stories := by
  have hstep : ∀ (h : History Url) (action : Action Url), (∃ stories, Follows h stories) →
      True → ∃ stories, Follows (step lib h action) stories := by
    rintro h action ⟨stories, hfollows⟩ -
    exact follows_step lib hfollows action
  exact run_invariant hstep ⟨_, follows_start⟩ (along_iff.mpr fun _ _ _ _ => trivial)

/-- Somebody is still to remove the file: the task that works at its number, or the timer of
the job that waits. -/
def ServerState.InHand (s : ServerState Url) (path : UploadPath) : Prop :=
  (∃ (i : ℕ) (task : Task Url), s.tasks[i]? = some task ∧ task.jobId? = some path.jobId) ∨
    ∃ (i : ℕ) (job : JobRequest Url), s.jobRequests.find? path.jobId = some job ∧
      s.tasks[i]? = some (.sleeping path.jobId)

/-- What becomes of the jobs that are put aside, and of their files. -/
structure Accounted (h : History Url) : Prop where
  once : ∀ jobId, (queuedUnder jobId h.log).length ≤ 1
  byOwner : ∀ jobId, claimsOf jobId h.log <+: (queuedUnder jobId h.log).map Prod.fst
  waiting : ∀ jobId job, h.server.jobRequests.find? jobId = some job → claimsOf jobId h.log = []
  running : ∀ (i jobId : ℕ) (job : JobRequest Url),
    h.server.tasks[i]? = some (.running jobId job) → claimsOf jobId h.log = [job.owner] ∧
      ∀ source filename path cleanupPath,
        job.input = .localArchive source filename path cleanupPath →
          ∃ bytes, queuedUnder jobId h.log = [(job.owner, some bytes)] ∧
            h.server.disk.find? path = some bytes
  reads : ∀ jobId content, .read jobId content ∈ h.log →
    ∃ owner bytes, queuedUnder jobId h.log = [(owner, some bytes)] ∧ content = some bytes
  files : ∀ path, (h.server.disk.find? path).isSome →
    h.server.InHand path ∨ .leftBehind path ∈ h.log ∨ .abandoned path ∈ h.log
  stranded : ∀ path, .leftBehind path ∈ h.log ∨ .abandoned path ∈ h.log →
    (h.server.disk.find? path).isSome ∧ ¬ h.server.InHand path

/-- A file that is there is in hand, or it is there for good. -/
theorem Follows.inHand {h : History Url} {stories : ℕ → Story Url} (hfollows : Follows h stories)
    {path : UploadPath} (hpath : (h.server.disk.find? path).isSome) :
    h.server.InHand path ∨ .leftBehind path ∈ h.log ∨ .abandoned path ∈ h.log := by
  rw [hfollows.disk] at hpath
  unfold Story.content at hpath
  cases hfile : (stories path.jobId).file with
  | none => simp [hfile] at hpath
  | some file =>
    obtain rfl : file.1 = path := by
      by_contra hne
      simp [hfile, hne] at hpath
    have hworked : ∀ i, (stories file.1.jobId).stage.task? = some i →
        h.server.InHand file.1 := by
      intro i hi
      obtain ⟨task, htask, hjobId⟩ := hfollows.hands _ i hi
      exact .inl ⟨i, task, htask, hjobId⟩
    cases hstage : (stories file.1.jobId).stage with
    | unknown =>
      have huntold := (hfollows.sound file.1.jobId).stage
      unfold Story.StageSound at huntold
      rw [hstage] at huntold
      rw [show stories file.1.jobId = .untold from huntold] at hfile
      cases hfile
    | staging i => exact .inl (hworked i (by rw [hstage]; rfl))
    | pending job =>
      obtain ⟨i, hi⟩ := hfollows.timers _ job hstage (by rw [hfile]; rfl)
      exact .inl (.inr ⟨i, job, by rw [hfollows.requests, hstage]; rfl, hi⟩)
    | running i job => exact .inl (hworked i (by rw [hstage]; rfl))
    | cleaning i job => exact .inl (hworked i (by rw [hstage]; rfl))
    | settled =>
      exact .inr (mem_strandedFiles.mp ((hfollows.stranded _).mpr ⟨hstage, file.2, hfile⟩))

/-- A file that was left or abandoned stays, and nobody is to remove it. -/
theorem Follows.stays {h : History Url} {stories : ℕ → Story Url} (hfollows : Follows h stories)
    {path : UploadPath} (hpath : .leftBehind path ∈ h.log ∨ .abandoned path ∈ h.log) :
    (h.server.disk.find? path).isSome ∧ ¬ h.server.InHand path := by
  obtain ⟨hstage, bytes, hfile⟩ := (hfollows.stranded path).mp (mem_strandedFiles.mpr hpath)
  constructor
  · rw [hfollows.find?_of_file hfile]
    rfl
  · rintro (⟨i, task, htask, hjobId⟩ | ⟨i, job, hfind, -⟩)
    · exact (hfollows.worked_at htask hjobId).2.2 hstage
    · rw [hfollows.pending hfind] at hstage
      cases hstage

/-- A job is started once at most, by the user it was put aside for, and never after the timer
took it back; it reads what was uploaded for it; and a file that nobody is to remove is one
that could not be removed or whose task died, and no other. -/
theorem pending_jobs_accounted (lib : UrlLibrary Url) (actions : List (Action Url)) :
    Accounted (run (step lib) .start actions) := by
  obtain ⟨stories, hfollows⟩ := follows_run lib actions
  generalize run (step lib) .start actions = h at hfollows
  refine ⟨?_, ?_, ?_, ?_, ?_, fun path hpath => hfollows.inHand hpath,
    fun path hpath => hfollows.stays hpath⟩
  · intro jobId
    rw [hfollows.queued]
    exact (hfollows.sound jobId).once
  · intro jobId
    rw [hfollows.queued, hfollows.claims]
    exact (hfollows.sound jobId).claims
  · intro jobId job hfind
    rw [hfollows.claims]
    exact (hfollows.sound_of (hfollows.pending hfind)).1
  · intro i jobId job htask
    have hstage : (stories jobId).stage = .running i job := hfollows.tasks i _ jobId htask rfl
    obtain ⟨hclaims, hholds⟩ := hfollows.sound_of hstage
    rw [hfollows.claims, hfollows.queued]
    refine ⟨hclaims, fun source filename path cleanupPath hinput => ?_⟩
    obtain ⟨-, bytes, hqueued, hfile⟩ := hholds.file hinput
    exact ⟨bytes, hqueued, hfollows.find?_of_file hfile⟩
  · intro jobId content hread
    rw [hfollows.queued]
    exact hfollows.reads jobId content hread

end Stories

end Esdiag.PendingJobs
