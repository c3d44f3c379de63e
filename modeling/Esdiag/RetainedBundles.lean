import Esdiag.GuardedRuns
import Esdiag.KeyedMaps
import Esdiag.Texts
import Mathlib.Tactic.Push

/-!
Bundles retained for download. A browser names the token under which its job
will leave a bundle, so two users may name the same one. Accepting, rejecting
and publishing write the entry of that token; a download reads it, and a
scheduled cleanup removes it once it has expired. Every step below ends where
the server awaits: what a download or a cleanup read is acted upon later, after
any number of steps of others.
-/
namespace Esdiag.RetainedBundles

open GuardedRuns KeyedMaps

/-- A file in the directory that the numbered job has to itself. -/
structure BundlePath where
  directory : ℕ
  filename : String
  deriving DecidableEq

/-- What a job wrote, and whose job it was. -/
structure BundleFile where
  jobOwner : String
  bytes : List UInt8
  deriving DecidableEq

structure RetainedBundle where
  owner : String
  accepted : Bool
  error : Option String
  filename : Option String
  path : Option BundlePath
  cleanupPath : Option ℕ
  expiresAtEpoch : ℤ
  deriving DecidableEq

/-- An answer without a bundle. -/
inductive Refusal where
  | notFound
  | forbidden
  | conflict (error : String)
  | gone
  | notReady
  | noLongerAvailable
  deriving DecidableEq

def Refusal.status : Refusal → ℕ
  | notFound | noLongerAvailable => 404
  | forbidden => 403
  | conflict _ => 409
  | gone => 410
  | notReady => 202

/-- The text of an answer; the error of a file that cannot be opened follows its text. -/
def Refusal.message : Refusal → String
  | notFound => "Download not found"
  | forbidden => "Download does not belong to this user"
  | conflict error => error
  | gone => "Download has expired"
  | notReady => "Download not ready"
  | noLongerAvailable => "Download is no longer available: "

inductive Response where
  | refused (refusal : Refusal)
  | zip (filename : String) (file : BundleFile)
  deriving DecidableEq

/-- What is left to do of a download, of a failed job or of a cleanup. -/
inductive Continuation where
  | opening (token : String) (path : BundlePath) (filename : Option String)
  | touching (token : String) (file : BundleFile) (filename : Option String)
  | discarding (token : String) (refusal : Option Refusal)
  | removing (path : Option BundlePath) (cleanupPath : Option ℕ) (refusal : Option Refusal)
  | rejecting (token error : String)
  | sleeping (token : String) (wakesAt : ℤ)
  deriving DecidableEq

structure Task where
  user : String
  next : Continuation
  deriving DecidableEq

structure ServerState where
  nowEpochSeconds : ℤ
  nextJob : ℕ
  retainedBundles : KeyedMap String RetainedBundle
  disk : KeyedMap BundlePath BundleFile
  tasks : List Task

inductive Action where
  | elapse (seconds : ℕ)
  | accept (user token : String)
  | reject (user token error : String) (ttl : ℕ)
  | publish (user token uuid filename : String) (bytes : List UInt8)
  | download (user token : String)
  | failJob (user token error : String)
  | resume (task : ℕ)

def retainedBundleTtl : ℤ := 3600

def postDownloadTtl : ℤ := 300

def isSafeFilenameChar (c : Char) : Bool :=
  c.isAlphanum || c == '.' || c == '-' || c == '_' || c == ' '

def sanitizeDownloadFilename (filename : String) : String :=
  let sanitized := Texts.trim <| String.ofList <|
    filename.toList.map fun c => if isSafeFilenameChar c then c else '_'
  if sanitized.toList.isEmpty then "diagnostic.zip" else sanitized

namespace ServerState

def start : ServerState := ⟨0, 1, .empty, .empty, []⟩

variable (s : ServerState)

def spawn (task : Task) : ServerState := { s with tasks := s.tasks ++ [task] }

def write (token : String) (bundle : RetainedBundle) : ServerState :=
  { s with retainedBundles := s.retainedBundles.insert token bundle }

/-- The entry that accepting or rejecting starts from. -/
def entryFor (token owner : String) (ttl : ℤ) : RetainedBundle :=
  (s.retainedBundles.find? token).getD
    ⟨owner, false, none, none, none, none, s.nowEpochSeconds + ttl⟩

def acceptRetainedBundle (token owner : String) (ttl : ℤ) : ServerState :=
  if Texts.isBlank token then s
  else s.write token { s.entryFor token owner ttl with
    owner := owner, accepted := true, error := none, expiresAtEpoch := s.nowEpochSeconds + ttl }

def rejectRetainedBundle (token owner error : String) (ttl : ℤ) : ServerState :=
  if Texts.isBlank token then s
  else s.write token { s.entryFor token owner ttl with
    owner := owner, accepted := false, error := some error,
    expiresAtEpoch := s.nowEpochSeconds + ttl }

def scheduleRetainedBundleCleanup (user token : String) (delay : ℤ) : ServerState :=
  s.spawn ⟨user, .sleeping token (s.nowEpochSeconds + delay)⟩

/-- The token an insertion writes under. -/
def insertionToken (token uuid : String) : String := if Texts.isBlank token then uuid else token

/-- The job leaves its bundle in its own directory, which nobody knows of yet,
and inserts the entry. -/
def publishRetainedDownload (user token uuid filename : String) (bytes : List UInt8) :
    ServerState :=
  let path : BundlePath := ⟨s.nextJob, filename⟩
  let written : ServerState :=
    { s with nextJob := s.nextJob + 1, disk := s.disk.insert path ⟨user, bytes⟩ }
  let inserted := written.write (insertionToken token uuid)
    ⟨user, true, none, some filename, some path, some s.nextJob,
      s.nowEpochSeconds + retainedBundleTtl⟩
  inserted.scheduleRetainedBundleCleanup user (insertionToken token uuid) retainedBundleTtl

/-- The checks of a download, up to where it awaits again. -/
def downloadRetainedBundle (user token : String) : ServerState × Option Response :=
  match s.retainedBundles.find? token with
  | none => (s, some (.refused .notFound))
  | some bundle =>
    if bundle.owner ≠ user then (s, some (.refused .forbidden))
    else match bundle.error with
      | some error => (s.spawn ⟨user, .discarding token (some (.conflict error))⟩, none)
      | none =>
        if bundle.expiresAtEpoch ≤ s.nowEpochSeconds then
          (s.spawn ⟨user, .discarding token (some .gone)⟩, none)
        else match bundle.path with
          | none => (s, some (.refused .notReady))
          | some path => (s.spawn ⟨user, .opening token path bundle.filename⟩, none)

/-- A failed job rejects its token unless the token has a bundle. -/
def rejectUnlessPublished (user token error : String) : ServerState :=
  if ((s.retainedBundles.find? token).bind RetainedBundle.path).isSome then s
  else s.spawn ⟨user, .rejecting token error⟩

def touchRetainedBundle (token : String) (ttl : ℤ) : ServerState :=
  match s.retainedBundles.find? token with
  | none => s
  | some bundle => s.write token { bundle with expiresAtEpoch := s.nowEpochSeconds + ttl }

/-- Remove the entry of a token; its files are removed afterwards. -/
def discardEntry (user token : String) (refusal : Option Refusal) : ServerState :=
  match s.retainedBundles.find? token with
  | none => s.spawn ⟨user, .removing none none refusal⟩
  | some bundle =>
    { s with retainedBundles := s.retainedBundles.remove token }.spawn
      ⟨user, .removing bundle.path bundle.cleanupPath refusal⟩

def removeFiles (path : Option BundlePath) (cleanupPath : Option ℕ) : ServerState :=
  { s with disk := s.disk.filterMap fun other file =>
      if some other = path ∨ some other.directory = cleanupPath then none else some file }

/-- Go on with a task that has been taken from the pending ones. -/
def perform (task : Task) : ServerState × Option Response :=
  match task.next with
  | .opening token path filename =>
    match s.disk.find? path with
    | none => (s.spawn ⟨task.user, .discarding token (some .noLongerAvailable)⟩, none)
    | some file => (s.spawn ⟨task.user, .touching token file filename⟩, none)
  | .touching token file filename =>
    ((s.touchRetainedBundle token postDownloadTtl).scheduleRetainedBundleCleanup task.user token
      postDownloadTtl,
      some (.zip (sanitizeDownloadFilename (filename.getD "diagnostic.zip")) file))
  | .discarding token refusal => (s.discardEntry task.user token refusal, none)
  | .removing path cleanupPath refusal =>
    (s.removeFiles path cleanupPath, refusal.map Response.refused)
  | .rejecting token error =>
    (s.rejectRetainedBundle token task.user error retainedBundleTtl, none)
  | .sleeping token _ =>
    match s.retainedBundles.find? token with
    | none => (s, none)
    | some bundle =>
      if bundle.expiresAtEpoch ≤ s.nowEpochSeconds then
        (s.spawn ⟨task.user, .discarding token none⟩, none)
      else (s, none)

/-- A cleanup sleeps until its delay is over; everything else may go on. -/
def isReady (task : Task) : Bool :=
  match task.next with
  | .sleeping _ wakesAt => wakesAt ≤ s.nowEpochSeconds
  | _ => true

/-- The pending task with this number, if it can go on. -/
def readyTask (i : ℕ) : Option Task := (s.tasks[i]?).filter s.isReady

def act : Action → ServerState × Option Response
  | .elapse seconds => ({ s with nowEpochSeconds := s.nowEpochSeconds + seconds }, none)
  | .accept user token =>
    ((s.acceptRetainedBundle token user retainedBundleTtl).scheduleRetainedBundleCleanup user token
      retainedBundleTtl, none)
  | .reject user token error ttl => (s.rejectRetainedBundle token user error ttl, none)
  | .publish user token uuid filename bytes =>
    (s.publishRetainedDownload user token uuid filename bytes, none)
  | .download user token => s.downloadRetainedBundle user token
  | .failJob user token error => (s.rejectUnlessPublished user token error, none)
  | .resume i =>
    match s.readyTask i with
    | none => (s, none)
    | some task => { s with tasks := s.tasks.eraseIdx i }.perform task

/-- The user on whose behalf an action is taken; time passes for everybody. -/
def actor : Action → Option String
  | .elapse _ => none
  | .accept user _ | .reject user _ _ _ | .publish user _ _ _ _ | .download user _
  | .failJob user _ _ => some user
  | .resume i => (s.readyTask i).map Task.user

end ServerState

def step (s : ServerState) (action : Action) : ServerState := (s.act action).1

theorem sanitizeDownloadFilename_safe (filename : String) :
    ∀ c ∈ (sanitizeDownloadFilename filename).toList, isSafeFilenameChar c = true := by
  intro c hc
  unfold sanitizeDownloadFilename at hc
  simp only at hc
  split at hc
  · revert c
    exact List.all_eq_true.mp rfl
  · have hmem := Texts.mem_of_mem_trim hc
    rw [String.toList_ofList] at hmem
    obtain ⟨original, -, rfl⟩ := List.mem_map.mp hmem
    by_cases hsafe : isSafeFilenameChar original = true
    · rw [if_pos hsafe]
      exact hsafe
    · rw [if_neg hsafe]
      rfl

/-! What isolation asks of one action. -/

/-- Somebody is about to remove this file. -/
def Continuation.Removes (path : BundlePath) : Continuation → Prop
  | removing (some removed) _ _ => removed = path
  | _ => False

/-- This will remove the entry of a token that expires then, if nothing changes it before. -/
def Continuation.Cleans (token : String) (expiresAtEpoch : ℤ) : Continuation → Prop
  | discarding other _ => other = token
  | sleeping other wakesAt => other = token ∧ expiresAtEpoch ≤ wakesAt
  | _ => False

/-- A file that is gone, about to be removed, or named by an entry that is due to be removed. -/
def CleanedUp (s : ServerState) (path : BundlePath) : Prop :=
  s.disk.find? path = none ∨ (∃ task ∈ s.tasks, task.next.Removes path) ∨
    ∃ token bundle, s.retainedBundles.find? token = some bundle ∧ bundle.path = some path ∧
      ∃ task ∈ s.tasks, task.next.Cleans token bundle.expiresAtEpoch

/-- A download gives its user a bundle of a job of that user. -/
def OwnBytes (s : ServerState) (action : Action) : Prop :=
  ∀ filename file, (s.act action).2 = some (.zip filename file) →
    s.actor action = some file.jobOwner

/-- The unexpired bundles of other users stay available, with their files. -/
def OthersAvailable (s : ServerState) (action : Action) : Prop :=
  ∀ token bundle path, s.retainedBundles.find? token = some bundle → bundle.path = some path →
    s.actor action ≠ some bundle.owner → s.nowEpochSeconds < bundle.expiresAtEpoch →
    (step s action).retainedBundles.find? token = some bundle ∧
      (step s action).disk.find? path = s.disk.find? path

/-- The files of other users are still cleaned up. -/
def OthersCleanedUp (s : ServerState) (action : Action) : Prop :=
  ∀ token bundle path, s.retainedBundles.find? token = some bundle → bundle.path = some path →
    s.actor action ≠ some bundle.owner → CleanedUp s path → CleanedUp (step s action) path

def Isolated (s : ServerState) (action : Action) : Prop :=
  OwnBytes s action ∧ OthersAvailable s action ∧ OthersCleanedUp s action

/-! When the server meets it: nobody writes under the token of another user's bundle. -/

/-- The token names no bundle, or one of this user. -/
def ClearFor (s : ServerState) (user token : String) : Prop :=
  ∀ bundle ∈ s.retainedBundles.find? token, bundle.owner = user ∨ bundle.path = none

/-- The token names no bundle, one of this user or an expired one. -/
def ClearOrExpired (s : ServerState) (user token : String) : Prop :=
  ∀ bundle ∈ s.retainedBundles.find? token,
    bundle.owner = user ∨ bundle.path = none ∨ bundle.expiresAtEpoch ≤ s.nowEpochSeconds

instance (s : ServerState) (user token : String) : Decidable (ClearFor s user token) :=
  inferInstanceAs (Decidable (∀ _ ∈ _, _))

instance (s : ServerState) (user token : String) : Decidable (ClearOrExpired s user token) :=
  inferInstanceAs (Decidable (∀ _ ∈ _, _))

def Task.Respects (s : ServerState) (task : Task) : Prop :=
  match task.next with
  | .touching token _ _ | .discarding token _ => ClearOrExpired s task.user token
  | .rejecting token _ => ClearFor s task.user token
  | .opening _ _ _ | .removing _ _ _ | .sleeping _ _ => True

instance (s : ServerState) : (task : Task) → Decidable (task.Respects s)
  | ⟨user, .touching token _ _⟩ => inferInstanceAs (Decidable (ClearOrExpired s user token))
  | ⟨user, .discarding token _⟩ => inferInstanceAs (Decidable (ClearOrExpired s user token))
  | ⟨user, .rejecting token _⟩ => inferInstanceAs (Decidable (ClearFor s user token))
  | ⟨_, .opening _ _ _⟩ => isTrue trivial
  | ⟨_, .removing _ _ _⟩ => isTrue trivial
  | ⟨_, .sleeping _ _⟩ => isTrue trivial

def Respects (s : ServerState) : Action → Prop
  | .elapse _ | .download _ _ | .failJob _ _ _ => True
  | .accept user token | .reject user token _ _ => ClearFor s user token
  | .publish user token uuid _ _ => ClearFor s user (ServerState.insertionToken token uuid)
  | .resume i => ∀ task ∈ s.readyTask i, task.Respects s

instance (s : ServerState) : (action : Action) → Decidable (Respects s action)
  | .accept user token => inferInstanceAs (Decidable (ClearFor s user token))
  | .reject user token _ _ => inferInstanceAs (Decidable (ClearFor s user token))
  | .publish user token uuid _ _ =>
    inferInstanceAs (Decidable (ClearFor s user (ServerState.insertionToken token uuid)))
  | .resume i => inferInstanceAs (Decidable (∀ task ∈ s.readyTask i, task.Respects s))
  | .elapse _ => isTrue trivial
  | .download _ _ => isTrue trivial
  | .failJob _ _ _ => isTrue trivial

/-! The invariant: whose file an entry names, and that no two of them share a directory. -/

/-- The directories a removal is about to clear. -/
def Continuation.clears : Continuation → List ℕ
  | removing path cleanupPath _ => path.toList.map BundlePath.directory ++ cleanupPath.toList
  | _ => []

/-- What a pending task may rely on. -/
def Task.Sound (s : ServerState) (task : Task) : Prop :=
  match task.next with
  | .opening _ path _ =>
    path.directory < s.nextJob ∧ ∀ file, s.disk.find? path = some file → file.jobOwner = task.user
  | .touching _ file _ => file.jobOwner = task.user
  | .removing path cleanupPath refusal =>
    ∀ directory ∈ (Continuation.removing path cleanupPath refusal).clears,
      directory < s.nextJob ∧ ∀ token bundle named, s.retainedBundles.find? token = some bundle →
        bundle.path = some named → named.directory ≠ directory
  | .discarding _ _ | .rejecting _ _ | .sleeping _ _ => True

structure RetainedBundle.Sound (nextJob : ℕ) (disk : KeyedMap BundlePath BundleFile)
    (bundle : RetainedBundle) : Prop where
  fresh : ∀ path, bundle.path = some path → path.directory < nextJob
  cleanup : ∀ directory, bundle.cleanupPath = some directory →
    ∃ path, bundle.path = some path ∧ path.directory = directory
  owned : ∀ path file, bundle.path = some path → disk.find? path = some file →
    file.jobOwner = bundle.owner

structure Consistent (s : ServerState) : Prop where
  entries : ∀ token bundle, s.retainedBundles.find? token = some bundle →
    bundle.Sound s.nextJob s.disk
  apart : ∀ token token' bundle bundle' path path',
    s.retainedBundles.find? token = some bundle → s.retainedBundles.find? token' = some bundle' →
    bundle.path = some path → bundle'.path = some path' → path.directory = path'.directory →
    token = token'
  disk : ∀ path file, s.disk.find? path = some file → path.directory < s.nextJob
  tasks : ∀ task ∈ s.tasks, task.Sound s

theorem start_consistent : Consistent .start where
  entries _ _ h := absurd h (by simp [ServerState.start, KeyedMap.find?, KeyedMap.empty, findEntry])
  apart _ _ _ _ _ _ h := absurd h
    (by simp [ServerState.start, KeyedMap.find?, KeyedMap.empty, findEntry])
  disk _ _ h := absurd h (by simp [ServerState.start, KeyedMap.find?, KeyedMap.empty, findEntry])
  tasks _ h := absurd h (by simp [ServerState.start])

namespace Consistent

variable {s : ServerState}

theorem spawn {task : Task} (hs : Consistent s) (htask : task.Sound s) :
    Consistent (s.spawn task) where
  entries := hs.entries
  apart := hs.apart
  disk := hs.disk
  tasks other hmem := by
    rcases List.mem_append.mp hmem with hold | hnew
    · exact hs.tasks other hold
    · rw [List.mem_singleton.mp hnew]
      exact htask

theorem schedule (hs : Consistent s) (user token : String) (delay : ℤ) :
    Consistent (s.scheduleRetainedBundleCleanup user token delay) := hs.spawn trivial

theorem eraseTask (hs : Consistent s) (i : ℕ) :
    Consistent { s with tasks := s.tasks.eraseIdx i } where
  entries := hs.entries
  apart := hs.apart
  disk := hs.disk
  tasks task hmem := hs.tasks task (List.mem_of_mem_eraseIdx hmem)

/-- The entry of a token may be rewritten as long as it names the same file for the same owner. -/
theorem write {token : String} {bundle : RetainedBundle} (hs : Consistent s)
    (hentry : bundle.Sound s.nextJob s.disk)
    (hsame : ∀ path, bundle.path = some path →
      ∃ old, s.retainedBundles.find? token = some old ∧ old.path = some path) :
    Consistent (s.write token bundle) := by
  -- every file named afterwards was named before, under the same token
  have hnamed : ∀ other b path, (s.write token bundle).retainedBundles.find? other = some b →
      b.path = some path →
      ∃ old, s.retainedBundles.find? other = some old ∧ old.path = some path := by
    intro other b path hfind hpath
    by_cases hother : other = token
    · subst hother
      have hb : bundle = b := by
        simpa [ServerState.write, KeyedMap.find?_insert_self] using hfind
      exact hsame path (hb ▸ hpath)
    · refine ⟨b, ?_, hpath⟩
      simpa [ServerState.write, KeyedMap.find?_insert_of_ne _ hother] using hfind
  constructor
  · intro other b hfind
    by_cases hother : other = token
    · subst hother
      have hb : bundle = b := by
        simpa [ServerState.write, KeyedMap.find?_insert_self] using hfind
      exact hb ▸ hentry
    · have hold : s.retainedBundles.find? other = some b := by
        simpa [ServerState.write, KeyedMap.find?_insert_of_ne _ hother] using hfind
      exact hs.entries other b hold
  · intro t t' b b' path path' hfind hfind' hpath hpath' hdir
    obtain ⟨old, hold, holdPath⟩ := hnamed t b path hfind hpath
    obtain ⟨old', hold', holdPath'⟩ := hnamed t' b' path' hfind' hpath'
    exact hs.apart t t' old old' path path' hold hold' holdPath holdPath' hdir
  · exact hs.disk
  · intro task hmem
    have hsound := hs.tasks task hmem
    unfold Task.Sound at hsound ⊢
    split at hsound
    · exact hsound
    · exact hsound
    · intro directory hdirectory
      refine ⟨(hsound directory hdirectory).1, ?_⟩
      intro other b named hfind hpath
      obtain ⟨old, hold, holdPath⟩ := hnamed other b named hfind hpath
      exact (hsound directory hdirectory).2 other old named hold holdPath
    all_goals trivial

/-- Accepting and rejecting keep the file of the entry, and its owner if it has one. -/
theorem writeEntry {token owner : String} {ttl : ℤ} {bundle : RetainedBundle} (hs : Consistent s)
    (hclear : ClearFor s owner token) (howner : bundle.owner = owner)
    (hpath : bundle.path = (s.entryFor token owner ttl).path)
    (hcleanup : bundle.cleanupPath = (s.entryFor token owner ttl).cleanupPath) :
    Consistent (s.write token bundle) := by
  unfold ServerState.entryFor at hpath hcleanup
  cases hold : s.retainedBundles.find? token with
  | none =>
    simp only [hold, Option.getD_none] at hpath hcleanup
    apply hs.write
    · exact ⟨fun _ h => by simp [hpath] at h, fun _ h => by simp [hcleanup] at h,
        fun _ _ h => by simp [hpath] at h⟩
    · intro path h
      simp [hpath] at h
  | some old =>
    simp only [hold, Option.getD_some] at hpath hcleanup
    have hsound := hs.entries token old hold
    apply hs.write
    · refine ⟨fun path h => hsound.fresh path (hpath ▸ h), fun directory h => ?_,
        fun path file h hfile => ?_⟩
      · rw [hpath]
        exact hsound.cleanup directory (hcleanup ▸ h)
      · have hnamed : old.path = some path := hpath ▸ h
        rw [hsound.owned path file hnamed hfile, howner]
        rcases hclear old hold with hmine | hnone
        · exact hmine
        · rw [hnone] at hnamed
          cases hnamed
    · intro path h
      exact ⟨old, hold, hpath ▸ h⟩

theorem accept {token owner : String} {ttl : ℤ} (hs : Consistent s)
    (hclear : ClearFor s owner token) : Consistent (s.acceptRetainedBundle token owner ttl) := by
  unfold ServerState.acceptRetainedBundle
  split
  · exact hs
  · exact hs.writeEntry hclear rfl rfl rfl

theorem reject {token owner error : String} {ttl : ℤ} (hs : Consistent s)
    (hclear : ClearFor s owner token) :
    Consistent (s.rejectRetainedBundle token owner error ttl) := by
  unfold ServerState.rejectRetainedBundle
  split
  · exact hs
  · exact hs.writeEntry hclear rfl rfl rfl

theorem touch (hs : Consistent s) (token : String) (ttl : ℤ) :
    Consistent (s.touchRetainedBundle token ttl) := by
  unfold ServerState.touchRetainedBundle
  split
  · exact hs
  · rename_i bundle hfind
    have hsound := hs.entries token bundle hfind
    exact hs.write ⟨hsound.fresh, hsound.cleanup, hsound.owned⟩ fun path h => ⟨bundle, hfind, h⟩

/-- A job's file is the first in its directory. -/
theorem writeFile (hs : Consistent s) (user filename : String) (bytes : List UInt8) :
    Consistent { s with
      nextJob := s.nextJob + 1, disk := s.disk.insert ⟨s.nextJob, filename⟩ ⟨user, bytes⟩ } := by
  have hkept : ∀ path : BundlePath, path.directory < s.nextJob →
      (s.disk.insert ⟨s.nextJob, filename⟩ ⟨user, bytes⟩).find? path = s.disk.find? path := by
    intro path hpath
    apply KeyedMap.find?_insert_of_ne
    rintro rfl
    exact absurd hpath (Nat.lt_irrefl _)
  constructor
  · intro token bundle hfind
    have hsound := hs.entries token bundle hfind
    refine ⟨fun path h => Nat.lt_succ_of_lt (hsound.fresh path h), hsound.cleanup, ?_⟩
    intro path file hpath hfile
    rw [hkept path (hsound.fresh path hpath)] at hfile
    exact hsound.owned path file hpath hfile
  · exact hs.apart
  · intro path file hfile
    by_cases hpath : path = ⟨s.nextJob, filename⟩
    · subst hpath
      exact Nat.lt_succ_self _
    · rw [KeyedMap.find?_insert_of_ne _ hpath] at hfile
      exact Nat.lt_succ_of_lt (hs.disk path file hfile)
  · intro task hmem
    have hsound := hs.tasks task hmem
    unfold Task.Sound at hsound ⊢
    split at hsound
    · refine ⟨Nat.lt_succ_of_lt hsound.1, ?_⟩
      intro file hfile
      rw [hkept _ hsound.1] at hfile
      exact hsound.2 file hfile
    · exact hsound
    · intro directory hdirectory
      exact ⟨Nat.lt_succ_of_lt (hsound directory hdirectory).1, (hsound directory hdirectory).2⟩
    all_goals trivial

/-- A new file, in a directory that neither an entry nor a removal knows. -/
theorem writeFresh {token : String} {bundle : RetainedBundle} {path : BundlePath}
    (hs : Consistent s) (hentry : bundle.Sound s.nextJob s.disk) (hpath : bundle.path = some path)
    (hentries : ∀ token b named, s.retainedBundles.find? token = some b → b.path = some named →
      named.directory ≠ path.directory)
    (htasks : ∀ task ∈ s.tasks, path.directory ∉ task.next.clears) :
    Consistent (s.write token bundle) := by
  have hfind : ∀ other b, (s.write token bundle).retainedBundles.find? other = some b →
      (other = token ∧ b = bundle) ∨ (other ≠ token ∧ s.retainedBundles.find? other = some b) := by
    intro other b h
    by_cases hother : other = token
    · subst hother
      have hb : bundle = b := by
        simpa [ServerState.write, KeyedMap.find?_insert_self] using h
      exact Or.inl ⟨rfl, hb.symm⟩
    · refine Or.inr ⟨hother, ?_⟩
      simpa [ServerState.write, KeyedMap.find?_insert_of_ne _ hother] using h
  constructor
  · intro other b h
    rcases hfind other b h with ⟨-, rfl⟩ | ⟨-, hold⟩
    · exact hentry
    · exact hs.entries other b hold
  · intro t t' b b' named named' h h' hnamed hnamed' hdir
    rcases hfind t b h with ⟨rfl, rfl⟩ | ⟨-, hold⟩
    · rcases hfind t' b' h' with ⟨rfl, rfl⟩ | ⟨-, hold'⟩
      · rfl
      · obtain rfl : path = named := Option.some.inj (hpath.symm.trans hnamed)
        exact absurd hdir.symm (hentries t' b' named' hold' hnamed')
    · rcases hfind t' b' h' with ⟨rfl, rfl⟩ | ⟨-, hold'⟩
      · obtain rfl : path = named' := Option.some.inj (hpath.symm.trans hnamed')
        exact absurd hdir (hentries t b named hold hnamed)
      · exact hs.apart t t' b b' named named' hold hold' hnamed hnamed' hdir
  · exact hs.disk
  · intro task hmem
    have hsound := hs.tasks task hmem
    have hclears := htasks task hmem
    unfold Task.Sound at hsound ⊢
    split at hsound
    · exact hsound
    · exact hsound
    · rename_i removed cleanupPath refusal hnext
      intro directory hdirectory
      refine ⟨(hsound directory hdirectory).1, ?_⟩
      intro other b named h hnamed
      rcases hfind other b h with ⟨-, rfl⟩ | ⟨-, hold⟩
      · obtain rfl : path = named := Option.some.inj (hpath.symm.trans hnamed)
        rintro rfl
        exact hclears (hnext ▸ hdirectory)
      · exact (hsound directory hdirectory).2 other b named hold hnamed
    all_goals trivial

theorem clears_lt (hs : Consistent s) {task : Task} (hmem : task ∈ s.tasks) :
    ∀ directory ∈ task.next.clears, directory < s.nextJob := by
  have hsound := hs.tasks task hmem
  unfold Task.Sound at hsound
  split at hsound
  · rename_i hnext
    rw [hnext]
    exact fun _ h => absurd h (by simp [Continuation.clears])
  · rename_i hnext
    rw [hnext]
    exact fun _ h => absurd h (by simp [Continuation.clears])
  · rename_i hnext
    rw [hnext]
    exact fun directory hdirectory => (hsound directory hdirectory).1
  all_goals
    rename_i hnext
    rw [hnext]
    exact fun _ h => absurd h (by simp [Continuation.clears])

theorem publish (hs : Consistent s) (user token uuid filename : String) (bytes : List UInt8) :
    Consistent (s.publishRetainedDownload user token uuid filename bytes) := by
  apply Consistent.schedule
  apply (hs.writeFile user filename bytes).writeFresh _ rfl
  · intro other b named hfind hnamed
    exact Nat.ne_of_lt ((hs.entries other b hfind).fresh named hnamed)
  · intro task hmem hclears
    exact absurd (hs.clears_lt hmem _ hclears) (Nat.lt_irrefl _)
  · refine ⟨?_, ?_, ?_⟩
    · rintro path ⟨rfl⟩
      exact Nat.lt_succ_self _
    · rintro directory ⟨rfl⟩
      exact ⟨_, rfl, rfl⟩
    · rintro path file ⟨rfl⟩ hfile
      rw [KeyedMap.find?_insert_self] at hfile
      rw [← Option.some.inj hfile]

theorem discard (hs : Consistent s) (user token : String) (refusal : Option Refusal) :
    Consistent (s.discardEntry user token refusal) := by
  unfold ServerState.discardEntry
  cases hfind : s.retainedBundles.find? token with
  | none =>
    apply hs.spawn
    intro directory hdirectory
    exact absurd hdirectory (by simp [Continuation.clears])
  | some bundle =>
    have hsound := hs.entries token bundle hfind
    have hkept : ∀ other b, (s.retainedBundles.remove token).find? other = some b →
        other ≠ token ∧ s.retainedBundles.find? other = some b := by
      intro other b h
      rw [KeyedMap.find?_remove] at h
      split at h
      · cases h
      · rename_i hother
        exact ⟨hother, h⟩
    apply Consistent.spawn
    · constructor
      · intro other b h
        exact hs.entries other b (hkept other b h).2
      · intro t t' b b' path path' h h'
        exact hs.apart t t' b b' path path' (hkept t b h).2 (hkept t' b' h').2
      · exact hs.disk
      · intro task hmem
        have htask := hs.tasks task hmem
        unfold Task.Sound at htask ⊢
        split at htask
        · exact htask
        · exact htask
        · intro directory hdirectory
          refine ⟨(htask directory hdirectory).1, ?_⟩
          intro other b named h hnamed
          exact (htask directory hdirectory).2 other b named (hkept other b h).2 hnamed
        all_goals trivial
    · intro directory hdirectory
      -- both parts of the removal are in the directory of the removed entry
      have hdir : ∃ path, bundle.path = some path ∧ path.directory = directory := by
        rcases List.mem_append.mp hdirectory with hnamed | hcleanup
        · obtain ⟨path, hpath, rfl⟩ := List.mem_map.mp hnamed
          exact ⟨path, Option.mem_toList.mp hpath, rfl⟩
        · exact hsound.cleanup directory (Option.mem_toList.mp hcleanup)
      obtain ⟨path, hpath, rfl⟩ := hdir
      refine ⟨hsound.fresh path hpath, ?_⟩
      intro other b named h hnamed hsame
      obtain ⟨hother, hold⟩ := hkept other b h
      exact hother (hs.apart other token b bundle named path hold hfind hnamed hpath hsame)

theorem removeFiles (hs : Consistent s) (path : Option BundlePath) (cleanupPath : Option ℕ) :
    Consistent (s.removeFiles path cleanupPath) := by
  have hkept : ∀ other file, (s.removeFiles path cleanupPath).disk.find? other = some file →
      s.disk.find? other = some file := by
    intro other file h
    rw [ServerState.removeFiles, KeyedMap.find?_filterMap] at h
    obtain ⟨found, hfound, hsome⟩ := Option.bind_eq_some_iff.mp h
    split at hsome
    · cases hsome
    · rw [← Option.some.inj hsome]
      exact hfound
  constructor
  · intro token bundle hfind
    have hsound := hs.entries token bundle hfind
    exact ⟨hsound.fresh, hsound.cleanup,
      fun path file hpath hfile => hsound.owned path file hpath (hkept path file hfile)⟩
  · exact hs.apart
  · exact fun other file hfile => hs.disk other file (hkept other file hfile)
  · intro task hmem
    have htask := hs.tasks task hmem
    unfold Task.Sound at htask ⊢
    split at htask
    · exact ⟨htask.1, fun file hfile => htask.2 file (hkept _ file hfile)⟩
    · exact htask
    · exact htask
    all_goals trivial

theorem download (hs : Consistent s) (user token : String) :
    Consistent (s.downloadRetainedBundle user token).1 := by
  unfold ServerState.downloadRetainedBundle
  cases hfind : s.retainedBundles.find? token with
  | none => exact hs
  | some bundle =>
    have hsound := hs.entries token bundle hfind
    simp only
    split
    · exact hs
    · rename_i howner
      split
      · exact hs.spawn trivial
      · split
        · exact hs.spawn trivial
        · split
          · exact hs
          · rename_i path hpath
            apply hs.spawn
            refine ⟨hsound.fresh path hpath, fun file hfile => ?_⟩
            rw [hsound.owned path file hpath hfile]
            exact not_not.mp howner

theorem perform (hs : Consistent s) {task : Task} (htask : task.Sound s)
    (hrespects : task.Respects s) : Consistent (s.perform task).1 := by
  unfold Task.Sound at htask
  unfold Task.Respects at hrespects
  unfold ServerState.perform
  split at htask
  · rename_i token path filename hnext
    simp only [hnext]
    split
    · exact hs.spawn trivial
    · rename_i file hfile
      exact hs.spawn (htask.2 file hfile)
  · rename_i hnext
    simp only [hnext]
    exact (hs.touch _ _).schedule _ _ _
  · rename_i hnext
    simp only [hnext]
    exact hs.removeFiles _ _
  · rename_i hnext
    simp only [hnext]
    exact hs.discard _ _ _
  · rename_i hnext
    simp only [hnext] at hrespects ⊢
    exact hs.reject hrespects
  · rename_i hnext
    simp only [hnext]
    split
    · exact hs
    · split
      · exact hs.spawn trivial
      · exact hs

end Consistent

/-- A ready task is one of the pending ones. -/
theorem readyTask_eq_some {s : ServerState} {i : ℕ} {task : Task}
    (h : s.readyTask i = some task) : s.tasks[i]? = some task ∧ s.isReady task = true :=
  Option.filter_eq_some_iff.mp h

/-- The step lemma of the invariant. -/
theorem step_consistent {s : ServerState} {action : Action} (hs : Consistent s)
    (h : Respects s action) : Consistent (step s action) := by
  unfold step ServerState.act
  cases action with
  | elapse seconds => exact ⟨hs.entries, hs.apart, hs.disk, hs.tasks⟩
  | accept user token => exact (hs.accept h).schedule _ _ _
  | reject user token error ttl =>
    simp only
    exact hs.reject h
  | publish user token uuid filename bytes => exact hs.publish _ _ _ _ _
  | download user token => exact hs.download _ _
  | failJob user token error =>
    simp only [ServerState.rejectUnlessPublished]
    split
    · exact hs
    · exact hs.spawn trivial
  | resume i =>
    simp only
    cases hready : s.readyTask i with
    | none => exact hs
    | some task =>
      have hmem := List.mem_of_getElem? (readyTask_eq_some hready).1
      exact (hs.eraseTask i).perform (hs.tasks task hmem) (h task hready)

/-! What a step leaves alone. -/

/-- The entry of a token, a file and the pending tasks are as before. -/
structure Frame (token : String) (path : BundlePath) (s t : ServerState) : Prop where
  entry : t.retainedBundles.find? token = s.retainedBundles.find? token
  file : t.disk.find? path = s.disk.find? path
  tasks : ∀ task ∈ s.tasks, task ∈ t.tasks

namespace Frame

variable {token : String} {path : BundlePath} {s t u : ServerState}

theorem refl (token : String) (path : BundlePath) (s : ServerState) : Frame token path s s :=
  ⟨rfl, rfl, fun _ h => h⟩

theorem trans (h : Frame token path s t) (h' : Frame token path t u) : Frame token path s u :=
  ⟨h'.entry.trans h.entry, h'.file.trans h.file, fun task hmem => h'.tasks task (h.tasks task hmem)⟩

theorem spawn (task : Task) : Frame token path s (s.spawn task) :=
  ⟨rfl, rfl, fun _ h => List.mem_append_left _ h⟩

theorem write {other : String} (hne : token ≠ other) (bundle : RetainedBundle) :
    Frame token path s (s.write other bundle) :=
  ⟨KeyedMap.find?_insert_of_ne _ hne _, rfl, fun _ h => h⟩

theorem accept {other owner : String} {ttl : ℤ} (hne : token ≠ other) :
    Frame token path s (s.acceptRetainedBundle other owner ttl) := by
  unfold ServerState.acceptRetainedBundle
  split
  · exact refl _ _ _
  · exact write hne _

theorem reject {other owner error : String} {ttl : ℤ} (hne : token ≠ other) :
    Frame token path s (s.rejectRetainedBundle other owner error ttl) := by
  unfold ServerState.rejectRetainedBundle
  split
  · exact refl _ _ _
  · exact write hne _

theorem touch {other : String} {ttl : ℤ} (hne : token ≠ other) :
    Frame token path s (s.touchRetainedBundle other ttl) := by
  unfold ServerState.touchRetainedBundle
  split
  · exact refl _ _ _
  · exact write hne _

theorem publish {user other uuid filename : String} {bytes : List UInt8}
    (hne : token ≠ ServerState.insertionToken other uuid) (hfresh : path.directory < s.nextJob) :
    Frame token path s (s.publishRetainedDownload user other uuid filename bytes) := by
  have hpath : path ≠ ⟨s.nextJob, filename⟩ := by
    rintro rfl
    exact absurd hfresh (Nat.lt_irrefl _)
  have hwritten : Frame token path s { s with
      nextJob := s.nextJob + 1, disk := s.disk.insert ⟨s.nextJob, filename⟩ ⟨user, bytes⟩ } :=
    ⟨rfl, KeyedMap.find?_insert_of_ne _ hpath _, fun _ h => h⟩
  exact (hwritten.trans (write hne _)).trans (spawn _)

theorem discard {user other : String} {refusal : Option Refusal} (hne : token ≠ other) :
    Frame token path s (s.discardEntry user other refusal) := by
  unfold ServerState.discardEntry
  split
  · exact spawn _
  · have hremoved : Frame token path s
        { s with retainedBundles := s.retainedBundles.remove other } :=
      ⟨by rw [KeyedMap.find?_remove, if_neg hne], rfl, fun _ h => h⟩
    exact hremoved.trans (spawn _)

theorem removeFiles {removed : Option BundlePath} {cleanupPath : Option ℕ}
    (hne : ∀ directory ∈ removed.toList.map BundlePath.directory ++ cleanupPath.toList,
      path.directory ≠ directory) :
    Frame token path s (s.removeFiles removed cleanupPath) := by
  refine ⟨rfl, ?_, fun _ h => h⟩
  have hkept : ¬(some path = removed ∨ some path.directory = cleanupPath) := by
    rintro (hpath | hdirectory)
    · apply hne path.directory (List.mem_append_left _ _) rfl
      rw [← hpath]
      exact List.mem_singleton_self _
    · apply hne path.directory (List.mem_append_right _ _) rfl
      rw [← hdirectory]
      exact List.mem_singleton_self _
  rw [ServerState.removeFiles, KeyedMap.find?_filterMap]
  simp only [if_neg hkept, Option.bind_fun_some]

theorem download (user other : String) :
    Frame token path s (s.downloadRetainedBundle user other).1 := by
  unfold ServerState.downloadRetainedBundle
  split
  · exact refl _ _ _
  · split
    · exact refl _ _ _
    · split
      · exact spawn _
      · split
        · exact spawn _
        · split
          · exact refl _ _ _
          · exact spawn _

end Frame

/-- The task will write or remove the entry of this token. -/
def Task.Names (token : String) (task : Task) : Prop :=
  match task.next with
  | .touching other _ _ | .discarding other _ | .rejecting other _ => other = token
  | .opening _ _ _ | .removing _ _ _ | .sleeping _ _ => False

theorem perform_frame {s : ServerState} {task : Task} {token : String} {bundle : RetainedBundle}
    {path : BundlePath} (htask : task.Sound s)
    (hfind : s.retainedBundles.find? token = some bundle) (hpath : bundle.path = some path)
    (hnames : ¬task.Names token) : Frame token path s (s.perform task).1 := by
  unfold Task.Sound at htask
  unfold Task.Names at hnames
  unfold ServerState.perform
  split at htask
  · rename_i hnext
    simp only [hnext]
    split
    · exact .spawn _
    · exact .spawn _
  · rename_i hnext
    simp only [hnext] at hnames ⊢
    exact (Frame.touch (Ne.symm hnames)).trans (.spawn _)
  · rename_i hnext
    simp only [hnext]
    exact .removeFiles fun directory hdirectory =>
      (htask directory hdirectory).2 token bundle path hfind hpath
  · rename_i hnext
    simp only [hnext] at hnames ⊢
    exact .discard (Ne.symm hnames)
  · rename_i hnext
    simp only [hnext] at hnames ⊢
    exact .reject (Ne.symm hnames)
  · rename_i hnext
    simp only [hnext]
    split
    · exact .refl _ _ _
    · split
      · exact .spawn _
      · exact .refl _ _ _

/-! Isolation of one action in a consistent state. -/

theorem ownBytes_of_consistent {s : ServerState} (hs : Consistent s) (action : Action) :
    OwnBytes s action := by
  intro filename file h
  unfold ServerState.act at h
  cases action with
  | elapse seconds => cases h
  | accept user token => cases h
  | reject user token error ttl => cases h
  | publish user token uuid filename bytes => cases h
  | failJob user token error => cases h
  | download user token =>
    simp only [ServerState.downloadRetainedBundle] at h
    repeat' split at h
    all_goals simp at h
  | resume i =>
    simp only at h
    cases hready : s.readyTask i with
    | none => simp [hready] at h
    | some task =>
      have hsound := hs.tasks task (List.mem_of_getElem? (readyTask_eq_some hready).1)
      simp only [hready, ServerState.perform] at h
      unfold Task.Sound at hsound
      -- only a download that has opened its file answers with one
      split at h
      · split at h <;> cases h
      · rename_i hnext
        simp only [hnext] at hsound
        obtain ⟨-, rfl⟩ := Response.zip.inj (Option.some.inj h)
        simp only [ServerState.actor, hready, Option.map_some, hsound]
      · cases h
      · obtain ⟨_, -, hrefused⟩ := Option.map_eq_some_iff.mp h
        cases hrefused
      · cases h
      · split at h
        · cases h
        · split at h <;> cases h

theorem ClearFor.ne {s : ServerState} {user other token : String} {bundle : RetainedBundle}
    {path : BundlePath} (h : ClearFor s user other)
    (hfind : s.retainedBundles.find? token = some bundle) (hpath : bundle.path = some path)
    (howner : bundle.owner ≠ user) : token ≠ other := by
  rintro rfl
  rcases h bundle hfind with hmine | hnone
  · exact howner hmine
  · rw [hnone] at hpath
    cases hpath

/-- Whoever respects others names the token of their bundle only to clean it up. -/
theorem Task.Respects.expired {s : ServerState} {task : Task} {token : String}
    {bundle : RetainedBundle} {path : BundlePath} (h : task.Respects s)
    (hfind : s.retainedBundles.find? token = some bundle) (hpath : bundle.path = some path)
    (howner : bundle.owner ≠ task.user) (hnames : task.Names token) :
    bundle.expiresAtEpoch ≤ s.nowEpochSeconds ∧ ∀ error, task.next ≠ .rejecting token error := by
  have hexpired : ClearOrExpired s task.user token → bundle.expiresAtEpoch ≤ s.nowEpochSeconds := by
    intro hclear
    rcases hclear bundle hfind with hmine | hnone | hexpired
    · exact absurd hmine howner
    · rw [hnone] at hpath
      cases hpath
    · exact hexpired
  unfold Task.Respects at h
  unfold Task.Names at hnames
  split at hnames
  · rename_i hnext
    simp only [hnext, hnames] at h
    exact ⟨hexpired h, by simp [hnext]⟩
  · rename_i hnext
    simp only [hnext, hnames] at h
    exact ⟨hexpired h, by simp [hnext]⟩
  · rename_i hnext
    simp only [hnext, hnames] at h
    exact absurd rfl (h.ne hfind hpath howner)
  all_goals exact hnames.elim

section Others

variable {s : ServerState} {action : Action} {token : String} {bundle : RetainedBundle}
  {path : BundlePath}

/-- Everything but the step of a pending task leaves the bundles of others alone. -/
theorem act_frame (hs : Consistent s) (hrespects : Respects s action)
    (hfind : s.retainedBundles.find? token = some bundle) (hpath : bundle.path = some path)
    (hactor : s.actor action ≠ some bundle.owner) (hresume : ∀ i, action ≠ .resume i) :
    Frame token path s (step s action) := by
  have hother : ∀ user, s.actor action = some user → bundle.owner ≠ user := by
    rintro user huser rfl
    exact hactor huser
  unfold step ServerState.act
  cases action with
  | elapse seconds => exact ⟨rfl, rfl, fun _ h => h⟩
  | accept user other =>
    exact (Frame.accept (ClearFor.ne hrespects hfind hpath (hother user rfl))).trans (.spawn _)
  | reject user other error ttl =>
    simp only
    exact .reject (ClearFor.ne hrespects hfind hpath (hother user rfl))
  | publish user other uuid filename bytes =>
    exact .publish (ClearFor.ne hrespects hfind hpath (hother user rfl))
      ((hs.entries token bundle hfind).fresh path hpath)
  | download user other => exact .download user other
  | failJob user other error =>
    simp only [ServerState.rejectUnlessPublished]
    split
    · exact .refl _ _ _
    · exact .spawn _
  | resume i => exact absurd rfl (hresume i)

theorem step_resume {i : ℕ} {task : Task} (hready : s.readyTask i = some task) :
    step s (.resume i) = ({ s with tasks := s.tasks.eraseIdx i }.perform task).1 := by
  simp only [step, ServerState.act, hready]

theorem step_resume_none {i : ℕ} (hready : s.readyTask i = none) : step s (.resume i) = s := by
  simp only [step, ServerState.act, hready]

theorem othersAvailable_of_consistent (hs : Consistent s) (hrespects : Respects s action) :
    OthersAvailable s action := by
  intro token bundle path hfind hpath hactor hunexpired
  have hframe : ∀ t : ServerState, t.retainedBundles = s.retainedBundles → t.disk = s.disk →
      Frame token path t (step s action) →
      (step s action).retainedBundles.find? token = some bundle ∧
        (step s action).disk.find? path = s.disk.find? path := by
    intro t hentries hdisk h
    exact ⟨by rw [h.entry, hentries, hfind], by rw [h.file, hdisk]⟩
  by_cases hresume : ∀ i, action ≠ .resume i
  · exact hframe s rfl rfl (act_frame hs hrespects hfind hpath hactor hresume)
  · push Not at hresume
    obtain ⟨i, rfl⟩ := hresume
    cases hready : s.readyTask i with
    | none =>
      rw [step_resume_none hready]
      exact ⟨hfind, rfl⟩
    | some task =>
      have howner : bundle.owner ≠ task.user := by
        rintro heq
        exact hactor (by simp only [ServerState.actor, hready, Option.map_some, heq])
      have hmem := List.mem_of_getElem? (readyTask_eq_some hready).1
      have hnames : ¬task.Names token := by
        intro hnames
        have hexpired := (hrespects task hready).expired hfind hpath howner hnames
        omega
      rw [step_resume hready] at hframe ⊢
      have htask := perform_frame (s := { s with tasks := s.tasks.eraseIdx i })
        (hs.tasks task hmem) hfind hpath hnames
      exact hframe { s with tasks := s.tasks.eraseIdx i } rfl rfl htask

/-- A file stays cleaned up if its entry stays and what was to clean it up is still to do so. -/
theorem CleanedUp.of_kept {t : ServerState} (hs : Consistent s)
    (hfind : s.retainedBundles.find? token = some bundle) (hpath : bundle.path = some path)
    (hentry : t.retainedBundles.find? token = s.retainedBundles.find? token)
    (hfile : t.disk.find? path = s.disk.find? path)
    (htasks : ∀ task ∈ s.tasks,
      task.next.Removes path ∨ task.next.Cleans token bundle.expiresAtEpoch →
      ∃ task' ∈ t.tasks,
        task'.next.Removes path ∨ task'.next.Cleans token bundle.expiresAtEpoch)
    (h : CleanedUp s path) : CleanedUp t path := by
  have hclean : (∃ task' ∈ t.tasks,
      task'.next.Removes path ∨ task'.next.Cleans token bundle.expiresAtEpoch) →
      CleanedUp t path := by
    rintro ⟨task, hmem, hremoves | hcleans⟩
    · exact Or.inr (Or.inl ⟨task, hmem, hremoves⟩)
    · exact Or.inr (Or.inr ⟨token, bundle, hentry.trans hfind, hpath, task, hmem, hcleans⟩)
  rcases h with hgone | ⟨task, hmem, hremoves⟩ | ⟨other, b, hother, hnamed, task, hmem, hcleans⟩
  · exact Or.inl (hfile.trans hgone)
  · exact hclean (htasks task hmem (Or.inl hremoves))
  · -- no other entry names this file
    obtain rfl : other = token :=
      hs.apart other token b bundle path path hother hfind hnamed hpath rfl
    obtain rfl : b = bundle := Option.some.inj (hother.symm.trans hfind)
    exact hclean (htasks task hmem (Or.inr hcleans))

/-- A cleanup that wakes after the expiry goes on to discard the entry. -/
theorem perform_sleeping {user : String} {wakesAt : ℤ}
    (hfind : s.retainedBundles.find? token = some bundle)
    (hexpired : bundle.expiresAtEpoch ≤ s.nowEpochSeconds) :
    (s.perform ⟨user, .sleeping token wakesAt⟩).1 = s.spawn ⟨user, .discarding token none⟩ := by
  simp only [ServerState.perform, hfind, if_pos hexpired]

/-- A step of a pending task that leaves the entry alone also leaves its cleanup to be done. -/
theorem cleanedUp_of_frame {i : ℕ} {task : Task} (hs : Consistent s)
    (hready : s.readyTask i = some task)
    (hfind : s.retainedBundles.find? token = some bundle) (hpath : bundle.path = some path)
    (hnames : ¬task.Names token) (h : CleanedUp s path) :
    CleanedUp ({ s with tasks := s.tasks.eraseIdx i }.perform task).1 path := by
  obtain ⟨hget, hwakes⟩ := readyTask_eq_some hready
  have hsound := hs.tasks task (List.mem_of_getElem? hget)
  have hframe := perform_frame (s := { s with tasks := s.tasks.eraseIdx i }) hsound hfind hpath
    hnames
  refine CleanedUp.of_kept hs hfind hpath hframe.entry hframe.file ?_ h
  intro other hmem hcleaning
  rcases mem_eraseIdx_or hget hmem with rfl | hkept
  · -- the task itself was to clean up: it is a cleanup that now finds the entry expired
    obtain ⟨user, next⟩ := other
    unfold Task.Sound at hsound
    unfold Task.Names at hnames
    rcases hcleaning with hremoves | hcleans
    · cases next with
      | removing removed cleanupPath refusal =>
        cases removed with
        | none => exact hremoves.elim
        | some removed =>
          obtain rfl : removed = path := hremoves
          exact absurd rfl ((hsound removed.directory (List.mem_append_left _
            (List.mem_singleton_self _))).2 token bundle removed hfind hpath)
      | _ => exact hremoves.elim
    · cases next with
      | discarding other refusal => exact absurd hcleans hnames
      | sleeping other wakesAt =>
        obtain ⟨rfl, hexpires⟩ := hcleans
        have hnow : wakesAt ≤ s.nowEpochSeconds := of_decide_eq_true hwakes
        refine ⟨⟨user, .discarding other none⟩, ?_, Or.inr rfl⟩
        rw [perform_sleeping (s := { s with tasks := s.tasks.eraseIdx i }) hfind
          (hexpires.trans hnow)]
        exact List.mem_append_right _ (List.mem_singleton_self _)
      | _ => exact hcleans.elim
  · exact ⟨other, hframe.tasks other hkept, hcleaning⟩

/-- Touching an entry puts off its cleanup; discarding it leaves its file to be removed. -/
theorem cleanedUp_of_names {task : Task}
    (hfind : s.retainedBundles.find? token = some bundle) (hpath : bundle.path = some path)
    (hnames : task.Names token) (hrejects : ∀ error, task.next ≠ .rejecting token error) :
    CleanedUp (s.perform task).1 path := by
  obtain ⟨user, next⟩ := task
  unfold Task.Names at hnames
  cases next with
  | touching other file filename =>
    obtain rfl : other = token := hnames
    refine Or.inr (Or.inr ⟨other,
      { bundle with expiresAtEpoch := s.nowEpochSeconds + postDownloadTtl }, ?_, hpath,
      ⟨user, .sleeping other (s.nowEpochSeconds + postDownloadTtl)⟩, ?_, rfl, le_refl _⟩)
    · simp only [ServerState.perform, ServerState.touchRetainedBundle, hfind]
      exact KeyedMap.find?_insert_self _ _ _
    · simp only [ServerState.perform, ServerState.touchRetainedBundle, hfind]
      exact List.mem_append_right _ (List.mem_singleton_self _)
  | discarding other refusal =>
    obtain rfl : other = token := hnames
    refine Or.inr (Or.inl ⟨⟨user, .removing bundle.path bundle.cleanupPath refusal⟩, ?_, ?_⟩)
    · simp only [ServerState.perform, ServerState.discardEntry, hfind]
      exact List.mem_append_right _ (List.mem_singleton_self _)
    · show Continuation.Removes path (.removing bundle.path bundle.cleanupPath refusal)
      rw [hpath]
      rfl
  | rejecting other error =>
    obtain rfl : other = token := hnames
    exact absurd rfl (hrejects error)
  | _ => exact hnames.elim

theorem othersCleanedUp_of_consistent (hs : Consistent s) (hrespects : Respects s action) :
    OthersCleanedUp s action := by
  intro token bundle path hfind hpath hactor hcleaned
  by_cases hresume : ∀ i, action ≠ .resume i
  · have hframe := act_frame hs hrespects hfind hpath hactor hresume
    exact hcleaned.of_kept hs hfind hpath hframe.entry hframe.file
      fun task hmem hcleaning => ⟨task, hframe.tasks task hmem, hcleaning⟩
  · push Not at hresume
    obtain ⟨i, rfl⟩ := hresume
    cases hready : s.readyTask i with
    | none =>
      rw [step_resume_none hready]
      exact hcleaned
    | some task =>
      have howner : bundle.owner ≠ task.user := by
        rintro heq
        exact hactor (by simp only [ServerState.actor, hready, Option.map_some, heq])
      rw [step_resume hready]
      by_cases hnames : task.Names token
      · have hrejects := ((hrespects task hready).expired hfind hpath howner hnames).2
        exact cleanedUp_of_names (s := { s with tasks := s.tasks.eraseIdx i }) hfind hpath hnames
          hrejects
      · exact cleanedUp_of_frame hs hready hfind hpath hnames hcleaned

end Others

/-- As long as nobody writes under the token of another user's bundle, no step of
one user reads, takes away or leaves behind a bundle of another. -/
theorem bundles_isolated (actions : List Action)
    (h : Along step Respects ServerState.start actions) :
    Along step Isolated ServerState.start actions :=
  along_of_invariant (fun _ _ hs hrespects => step_consistent hs hrespects)
    (fun _ action hs hrespects => ⟨ownBytes_of_consistent hs action,
      othersAvailable_of_consistent hs hrespects, othersCleanedUp_of_consistent hs hrespects⟩)
    start_consistent h

/-- Two users with a token each: both publish, one downloads and the other is refused. -/
def separateTokens : List Action :=
  [.publish "alice" "a" "u1" "alice.zip" [80, 75], .accept "bob" "b",
    .publish "bob" "b" "u2" "bob.zip" [80, 76], .download "bob" "a", .download "alice" "a",
    .resume 3, .resume 3, .elapse 300, .resume 3, .resume 3, .resume 3]

set_option maxRecDepth 20000 in
theorem bundles_isolated_separateTokens :
    Along step Respects ServerState.start separateTokens ∧
      Along step Isolated ServerState.start separateTokens := by
  have hrespects : Along step Respects ServerState.start separateTokens := by decide
  exact ⟨hrespects, bundles_isolated separateTokens hrespects⟩

/-- The user that a write is for, and the token it names. -/
def Action.writes : Action → Option (String × String)
  | accept user token | reject user token _ _ =>
    if Texts.isBlank token then none else some (user, token)
  | publish user token uuid _ _ => some (user, ServerState.insertionToken token uuid)
  | elapse _ | download _ _ | failJob _ _ _ | resume _ => none

theorem owner_of_writes {s : ServerState} {action : Action} {user token : String}
    (h : action.writes = some (user, token)) :
    s.actor action = some user ∧
      ∃ bundle, (step s action).retainedBundles.find? token = some bundle ∧
        bundle.owner = user := by
  cases action with
  | accept user' token' =>
    simp only [Action.writes] at h
    by_cases hblank : Texts.isBlank token' = true
    · simp [hblank] at h
    · rw [if_neg hblank] at h
      obtain ⟨rfl, rfl⟩ := Prod.mk.inj (Option.some.inj h)
      simp only [step, ServerState.act, ServerState.acceptRetainedBundle, if_neg hblank]
      exact ⟨rfl, _, KeyedMap.find?_insert_self _ _ _, rfl⟩
  | reject user' token' error ttl =>
    simp only [Action.writes] at h
    by_cases hblank : Texts.isBlank token' = true
    · simp [hblank] at h
    · rw [if_neg hblank] at h
      obtain ⟨rfl, rfl⟩ := Prod.mk.inj (Option.some.inj h)
      simp only [step, ServerState.act, ServerState.rejectRetainedBundle, if_neg hblank]
      exact ⟨rfl, _, KeyedMap.find?_insert_self _ _ _, rfl⟩
  | publish user' token' uuid filename bytes =>
    simp only [Action.writes] at h
    obtain ⟨rfl, rfl⟩ := Prod.mk.inj (Option.some.inj h)
    exact ⟨rfl, _, KeyedMap.find?_insert_self _ _ _, rfl⟩
  | elapse seconds => simp [Action.writes] at h
  | download user' token' => simp [Action.writes] at h
  | failJob user' token' error => simp [Action.writes] at h
  | resume i => simp [Action.writes] at h

/-- Writing under the token of an unexpired bundle of somebody else always breaks isolation. -/
theorem not_isolated_of_writes {s : ServerState} {action : Action} {user token : String}
    {bundle : RetainedBundle} {path : BundlePath} (h : action.writes = some (user, token))
    (hfind : s.retainedBundles.find? token = some bundle) (hpath : bundle.path = some path)
    (howner : bundle.owner ≠ user) (hunexpired : s.nowEpochSeconds < bundle.expiresAtEpoch) :
    ¬Isolated s action := by
  rintro ⟨-, havailable, -⟩
  obtain ⟨hactor, written, hwritten, rfl⟩ := owner_of_writes (s := s) h
  have hkept := (havailable token bundle path hfind hpath
    (by rw [hactor]; exact fun heq => howner (Option.some.inj heq).symm) hunexpired).1
  rw [hwritten] at hkept
  exact howner (by rw [Option.some.inj hkept])

/-- Another user takes over a published bundle by having a job accepted under its token. -/
def takeover : List Action :=
  [.publish "alice" "t" "u1" "alice.zip" [80, 75], .accept "mallory" "t",
    .download "mallory" "t", .resume 2]

set_option maxRecDepth 20000 in
theorem takeover_discloses :
    ((run step ServerState.start takeover).act (.resume 2)).2 =
        some (.zip "alice.zip" ⟨"alice", [80, 75]⟩) ∧
      (run step ServerState.start takeover).actor (.resume 2) = some "mallory" ∧
      ¬∀ actions, Along step Isolated ServerState.start actions := by
  have hzip : ((run step ServerState.start takeover).act (.resume 2)).2 =
      some (.zip "alice.zip" ⟨"alice", [80, 75]⟩) := by rfl
  have hactor : (run step ServerState.start takeover).actor (.resume 2) = some "mallory" := by rfl
  refine ⟨hzip, hactor, fun hall => ?_⟩
  have hisolated := along_iff.mp (hall (takeover ++ [.resume 2])) takeover (.resume 2) [] rfl
  have howner := hisolated.1 _ _ hzip
  rw [hactor] at howner
  exact absurd (Option.some.inj howner) (by decide)

end Esdiag.RetainedBundles
