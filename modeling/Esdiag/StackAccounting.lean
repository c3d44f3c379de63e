import Esdiag.DepthFirstClosure
import Esdiag.StackCollection

/-!
What a collection from Elasticsearch or Logstash accounts for. The doubling delays
pass the deadline by the tenth attempt, so every API comes to a last attempt; the
entry of the manifest sums up the attempts until then. An API touches the archive
only when it is answered, and a zip file takes each name once, so that neither the
order of saving nor the order of finishing is left in the counts.
-/
namespace Esdiag.StackAccounting

open KeyedMaps BundleReceivers StackCollection DepthFirstClosure
open KibanaCollection (RequestedApi ArchiveExporter Path)

section Attempts

variable (collector : Collector) (script : ApiScript)

/-- The delay after an attempt. -/
def delayMs : ℕ → ℕ
  | 0 => firstDelayMs
  | n + 1 => min (delayMs n * 2) maxDelayMs

/-- The time at which an attempt starts. -/
def startMs : ℕ → ℕ
  | 0 => 0
  | n + 1 =>
    startMs n + (script.attempts n).tookMs + (script.attempts n).checkedMs + delayMs n +
      (script.attempts n).oversleptMs

/-- An attempt after which the loop ends. -/
def endsAt (n : ℕ) : Bool :=
  match (script.attempts n).answer with
  | .ok _ => true
  | .error failure =>
    !collector.shouldRetry failure ||
      decide (maxDurationMs <
        startMs script n + (script.attempts n).tookMs + (script.attempts n).checkedMs)

def LastAttempt (n : ℕ) : Prop :=
  endsAt collector script n = true ∧ ∀ i < n, endsAt collector script i = false

theorem sum_delayMs_le (n : ℕ) : ((List.range n).map delayMs).sum ≤ startMs script n := by
  induction n with
  | zero => exact Nat.zero_le _
  | succ n ih =>
    rw [List.range_succ, List.map_append, List.sum_append, List.map_singleton,
      List.sum_singleton, startMs]
    omega

/-- The delays alone pass the deadline. -/
theorem deadline_lt_startMs : maxDurationMs < startMs script 9 := by
  have hsum : maxDurationMs < ((List.range 9).map delayMs).sum := by decide
  have hstart := sum_delayMs_le script 9
  omega

theorem exists_lastAttempt : ∃ n, LastAttempt collector script n ∧ n ≤ 9 := by
  have hnine : endsAt collector script 9 = true := by
    unfold endsAt
    cases (script.attempts 9).answer with
    | ok response => rfl
    | error failure =>
      have hlate := deadline_lt_startMs script
      simp only [Bool.or_eq_true, decide_eq_true_eq]
      exact Or.inr (by omega)
  have hexists : ∃ n, endsAt collector script n = true := ⟨9, hnine⟩
  refine ⟨Nat.find hexists, ⟨Nat.find_spec hexists, ?_⟩, Nat.find_min' hexists hnine⟩
  intro i hi
  simpa using Nat.find_min hexists hi

theorem LastAttempt.unique {collector : Collector} {script : ApiScript} {n m : ℕ}
    (hn : LastAttempt collector script n) (hm : LastAttempt collector script m) : n = m := by
  rcases Nat.lt_trichotomy n m with hlt | heq | hgt
  · exact absurd hn.1 (by rw [hm.2 n hlt]; exact Bool.false_ne_true)
  · exact heq
  · exact absurd hm.1 (by rw [hn.2 m hgt]; exact Bool.false_ne_true)

end Attempts

section Summaries

def attemptStatus (attempt : Attempt) : Option ℕ :=
  match attempt.answer with
  | .ok response => response.status
  | .error failure => (requestMetrics failure).1

/-- The time of an attempt: as measured with its response, else as long as it took. -/
def attemptTimeMs (attempt : Attempt) : ℕ :=
  match attempt.answer with
  | .ok response => response.responseTimeMs
  | .error failure =>
    if (requestMetrics failure).2.1 = 0 then attempt.tookMs else (requestMetrics failure).2.1

def attemptSizeBytes (attempt : Attempt) : ℕ :=
  match attempt.answer with
  | .ok response => response.responseSizeBytes
  | .error failure => (requestMetrics failure).2.2

variable (script : ApiScript)

def timeUntil (n : ℕ) : ℕ := ((List.range n).map fun i => attemptTimeMs (script.attempts i)).sum

def sizeUntil (n : ℕ) : ℕ :=
  ((List.range n).map fun i => attemptSizeBytes (script.attempts i)).sum

/-- The entry of an API whose last attempt is known: the status of that attempt, the number of
attempts before it, and the sums over all of them. -/
def summary (n : ℕ) : RequestedApi :=
  ⟨attemptStatus (script.attempts n), n, timeUntil script (n + 1), sizeUntil script (n + 1)⟩

theorem timeUntil_succ (n : ℕ) :
    timeUntil script (n + 1) = timeUntil script n + attemptTimeMs (script.attempts n) := by
  unfold timeUntil
  rw [List.range_succ, List.map_append, List.sum_append, List.map_singleton, List.sum_singleton]

theorem sizeUntil_succ (n : ℕ) :
    sizeUntil script (n + 1) = sizeUntil script n + attemptSizeBytes (script.attempts n) := by
  unfold sizeUntil
  rw [List.range_succ, List.map_append, List.sum_append, List.map_singleton, List.sum_singleton]

/-- The source of an API has a request path for the version. -/
def supports : Bool := script.source.any fun source => source.url.isSome

/-- The name under which the archive takes the file of an answered attempt. -/
def savedName (n : ℕ) : Option Path :=
  match (script.attempts n).answer with
  | .ok _ =>
    if (script.attempts n).writable then
      script.source.bind fun source => ArchiveExporter.zip.entryName (filePath source script.name)
    else none
  | .error _ => none

def addFile (name : Option Path) (files : List Path) : List Path :=
  name.elim files (insertNew files)

theorem zip_save (path : Path) (writable : Bool) (files : List Path) :
    let name := if writable then ArchiveExporter.zip.entryName path else none
    (ArchiveExporter.zip.save path writable files).2 = addFile name files ∧
      (if (ArchiveExporter.zip.save path writable files).1.isSome then 1 else 0) + files.length =
        (addFile name files).length := by
  unfold ArchiveExporter.save addFile insertNew
  cases hname : ArchiveExporter.zip.entryName path with
  | none => cases writable <;> simp
  | some name =>
    cases writable with
    | false => simp
    | true =>
      by_cases hmem : name ∈ files
      · simp [hmem]
      · simp only [hmem, and_false, or_false, if_true, if_false, Option.elim_some]
        refine ⟨rfl, ?_⟩
        simp [Nat.add_comm]

end Summaries

section Retrying

variable {collector : Collector} {script : ApiScript}

/-- What the loop has carried over to an attempt. -/
def retriedAt (script : ApiScript) (n : ℕ) : Retried := ⟨n, timeUntil script n, sizeUntil script n⟩

theorem add_retriedAt {n : ℕ} {failure : KibanaCollection.Failure}
    (hanswer : (script.attempts n).answer = .error failure) :
    (retriedAt script n).add failure (script.attempts n).tookMs =
      { retriedAt script (n + 1) with retries := n } := by
  have htime : attemptTimeMs (script.attempts n) =
      if (requestMetrics failure).2.1 = 0 then (script.attempts n).tookMs
      else (requestMetrics failure).2.1 := by
    unfold attemptTimeMs
    rw [hanswer]
  have hsize : attemptSizeBytes (script.attempts n) = (requestMetrics failure).2.2 := by
    unfold attemptSizeBytes
    rw [hanswer]
  unfold Retried.add retriedAt
  rw [timeUntil_succ, sizeUntil_succ, htime, hsize]

theorem exists_source_of_supports (h : supports script = true) :
    ∃ source url, script.source = some source ∧ source.url = some url := by
  unfold supports at h
  cases hsource : script.source with
  | none =>
    rw [hsource] at h
    cases h
  | some source =>
    rw [hsource, Option.any_some] at h
    obtain ⟨url, hurl⟩ := Option.isSome_iff_exists.mp h
    exact ⟨source, url, rfl, hurl⟩

theorem saveApi_of_error (h : supports script = true) {attempt : Attempt}
    {failure : KibanaCollection.Failure} (hanswer : attempt.answer = .error failure)
    (files : List Path) : saveApi script attempt files = (.error failure, files) := by
  obtain ⟨source, url, hsource, hurl⟩ := exists_source_of_supports h
  simp only [saveApi, saveRaw, hsource, hurl, hanswer, Except.map]

theorem saveApi_of_ok (h : supports script = true) {n : ℕ} {response : RawResponse}
    (hanswer : (script.attempts n).answer = .ok response) (files : List Path) :
    ∃ saved, saved + files.length = (addFile (savedName script n) files).length ∧
      saveApi script (script.attempts n) files =
        (.ok (.success script.name
          ⟨response.status, 0, response.responseTimeMs, response.responseSizeBytes⟩ 0 saved),
          addFile (savedName script n) files) := by
  obtain ⟨source, url, hsource, hurl⟩ := exists_source_of_supports h
  obtain ⟨hfiles, hcount⟩ := zip_save (filePath source script.name) (script.attempts n).writable
    files
  have hname : savedName script n =
      if (script.attempts n).writable then
        ArchiveExporter.zip.entryName (filePath source script.name) else none := by
    simp only [savedName, hanswer, hsource, Option.bind_some]
  rw [← hname] at hfiles hcount
  refine ⟨_, hcount, ?_⟩
  simp only [saveApi, saveRaw, hsource, hurl, hanswer, Except.map, hfiles]

theorem endsAt_of_error {n : ℕ} {failure : KibanaCollection.Failure}
    (hanswer : (script.attempts n).answer = .error failure) :
    endsAt collector script n =
      (!collector.shouldRetry failure || decide (maxDurationMs <
        startMs script n + (script.attempts n).tookMs + (script.attempts n).checkedMs)) := by
  simp only [endsAt, hanswer]

/-- The loop of a supported API goes on to its last attempt. -/
theorem saveApiWithRetry_of_last (hsupports : supports script = true) {n : ℕ}
    (hlast : LastAttempt collector script n) (files : List Path) (k number : ℕ)
    (hn : n = number + k) (fuel : ℕ) (hfuel : k < fuel) :
    ∃ saved, saved + files.length = (addFile (savedName script n) files).length ∧
      saveApiWithRetry collector script files fuel number (startMs script number)
          (delayMs number) (retriedAt script number) =
        some (⟨some (script.name, summary script n), saved⟩,
          addFile (savedName script n) files) := by
  induction k generalizing number fuel with
  | zero =>
    obtain rfl : n = number := by omega
    obtain ⟨fuel, rfl⟩ : ∃ rest, fuel = rest + 1 := ⟨fuel - 1, by omega⟩
    cases hanswer : (script.attempts n).answer with
    | ok response =>
      obtain ⟨saved, hcount, hsave⟩ := saveApi_of_ok hsupports hanswer files
      refine ⟨saved, hcount, ?_⟩
      rw [saveApiWithRetry]
      simp only [hsave, ApiCollectOutcome.success, ApiCollectOutcome.withRetried,
        Option.map_some, summary, retriedAt, timeUntil_succ, sizeUntil_succ, attemptStatus,
        attemptTimeMs, attemptSizeBytes, hanswer, Nat.add_comm]
    | error failure =>
      have hends := hlast.1
      rw [endsAt_of_error hanswer, Bool.or_eq_true, decide_eq_true_eq] at hends
      have hname : savedName script n = none := by
        simp only [savedName, hanswer]
      have hsummary : summary script n =
          ⟨(requestMetrics failure).1, n, timeUntil script (n + 1), sizeUntil script (n + 1)⟩ := by
        simp only [summary, attemptStatus, hanswer]
      refine ⟨0, ?_, ?_⟩
      · rw [hname]
        exact Nat.zero_add _
      · rw [saveApiWithRetry]
        simp only [saveApi_of_error hsupports hanswer, add_retriedAt hanswer, hname, hsummary]
        cases hretry : collector.shouldRetry failure with
        | false => rfl
        | true =>
          have hlate := hends.resolve_left (by rw [hretry]; exact Bool.false_ne_true)
          rw [if_neg (by simp), if_pos hlate]
          rfl
  | succ k ih =>
    obtain ⟨fuel, rfl⟩ : ∃ rest, fuel = rest + 1 := ⟨fuel - 1, by omega⟩
    have hgoesOn := hlast.2 number (by omega)
    cases hanswer : (script.attempts number).answer with
    | ok response =>
      simp only [endsAt, hanswer] at hgoesOn
      cases hgoesOn
    | error failure =>
      rw [endsAt_of_error hanswer, Bool.or_eq_false_iff, decide_eq_false_iff_not] at hgoesOn
      obtain ⟨saved, hcount, hrest⟩ := ih (number + 1) (by omega) fuel (by omega)
      refine ⟨saved, hcount, ?_⟩
      rw [saveApiWithRetry]
      simp only [saveApi_of_error hsupports hanswer, add_retriedAt hanswer]
      rw [if_neg (by simp [hgoesOn.1]), if_neg hgoesOn.2]
      exact hrest

end Retrying

section Running

variable (collector : Collector)

def lastAttempt (script : ApiScript) : ℕ :=
  ((List.range 10).find? (endsAt collector script)).getD 9

theorem lastAttempt_spec (script : ApiScript) :
    LastAttempt collector script (lastAttempt collector script) ∧
      lastAttempt collector script < 10 := by
  obtain ⟨n, hlast, hn⟩ := exists_lastAttempt collector script
  have hfind : (List.range 10).find? (endsAt collector script) = some n := by
    rw [List.find?_range_eq_some]
    refine ⟨hlast.1, List.mem_range.mpr (by omega), fun j hj => ?_⟩
    rw [hlast.2 j hj]
    rfl
  have heq : lastAttempt collector script = n := by
    unfold lastAttempt
    rw [hfind]
    rfl
  rw [heq]
  exact ⟨hlast, by omega⟩

/-- The entry of an API in the manifest. -/
def entryOf (script : ApiScript) : Option RequestedApi :=
  if supports script then some (summary script (lastAttempt collector script)) else none

/-- The file of an API in the archive. -/
def fileOf (script : ApiScript) : Option Path :=
  if supports script then savedName script (lastAttempt collector script) else none

def outcomeOf (script : ApiScript) (files : List Path) : ApiCollectOutcome :=
  ⟨(entryOf collector script).map fun entry => (script.name, entry),
    (addFile (fileOf collector script) files).length - files.length⟩

variable {collector} {fuel : ℕ} (hfuel : 10 ≤ fuel)

include hfuel in
theorem saveApiWithRetry_eq (script : ApiScript) (files : List Path) :
    saveApiWithRetry collector script files fuel 0 0 firstDelayMs ⟨0, 0, 0⟩ =
      some (outcomeOf collector script files, addFile (fileOf collector script) files) := by
  obtain ⟨hlast, hlt⟩ := lastAttempt_spec collector script
  unfold outcomeOf entryOf fileOf
  cases hsupports : supports script with
  | true =>
    obtain ⟨saved, hcount, hrun⟩ := saveApiWithRetry_of_last hsupports hlast files
      (lastAttempt collector script) 0 (by omega) fuel (by omega)
    have hsaved : saved =
        (addFile (savedName script (lastAttempt collector script)) files).length -
          files.length := by omega
    rw [if_pos rfl, if_pos rfl, ← hsaved]
    exact hrun
  | false =>
    obtain ⟨fuel, rfl⟩ : ∃ rest, fuel = rest + 1 := ⟨fuel - 1, by omega⟩
    have hskipped : saveApi script (script.attempts 0) files = (.ok .skipped, files) := by
      unfold supports at hsupports
      unfold saveApi saveRaw
      cases hsource : script.source with
      | none => rfl
      | some source =>
        rw [hsource, Option.any_some, Option.isSome_eq_false_iff, Option.isNone_iff_eq_none]
          at hsupports
        simp only [hsupports, Except.map]
    rw [if_neg Bool.false_ne_true, if_neg Bool.false_ne_true, saveApiWithRetry]
    simp only [hskipped]
    rw [addFile, Option.elim_none, Nat.sub_self]
    rfl

variable (collector) in
def filesOf (scripts : List ApiScript) (files : List Path) : List Path :=
  scripts.foldl (fun files script => addFile (fileOf collector script) files) files

variable (collector) in
def outcomesOf : List ApiScript → List Path → List ApiCollectOutcome
  | [], _ => []
  | script :: rest, files =>
    outcomeOf collector script files :: outcomesOf rest (addFile (fileOf collector script) files)

include hfuel in
theorem runApis_eq (scripts : List ApiScript) (files : List Path) :
    runApis collector fuel scripts files =
      some (outcomesOf collector scripts files, filesOf collector scripts files) := by
  induction scripts generalizing files with
  | nil => rfl
  | cons script rest ih =>
    rw [runApis, saveApiWithRetry_eq hfuel]
    dsimp only
    rw [ih]
    rfl

end Running

section Files

variable (collector : Collector)

theorem length_addFile (name : Option Path) (files : List Path) :
    files.length ≤ (addFile name files).length ∧
      (addFile name files).length ≤ files.length + 1 := by
  unfold addFile insertNew
  cases name with
  | none => exact ⟨le_rfl, Nat.le_succ _⟩
  | some name =>
    rw [Option.elim_some]
    split
    · exact ⟨le_rfl, Nat.le_succ _⟩
    · rw [List.length_append, List.length_singleton]
      exact ⟨Nat.le_succ _, le_rfl⟩

theorem mem_filesOf {scripts : List ApiScript} {files : List Path} {name : Path} :
    name ∈ filesOf collector scripts files ↔
      name ∈ files ∨ ∃ script ∈ scripts, fileOf collector script = some name := by
  induction scripts generalizing files with
  | nil => simp [filesOf]
  | cons script rest ih =>
    have hstep : name ∈ addFile (fileOf collector script) files ↔
        name ∈ files ∨ fileOf collector script = some name := by
      unfold addFile
      cases fileOf collector script with
      | none => simp
      | some other => simp [eq_comm]
    have hrest := @ih (addFile (fileOf collector script) files)
    unfold filesOf at hrest ⊢
    rw [List.foldl_cons, hrest, hstep]
    simp [or_assoc]

theorem nodup_filesOf (scripts : List ApiScript) {files : List Path} (h : files.Nodup) :
    (filesOf collector scripts files).Nodup := by
  induction scripts generalizing files with
  | nil => exact h
  | cons script rest ih =>
    apply ih
    change (addFile (fileOf collector script) files).Nodup
    cases fileOf collector script with
    | none => exact h
    | some name => exact nodup_insertNew name h

theorem sum_saved_outcomesOf (scripts : List ApiScript) (files : List Path) :
    ((outcomesOf collector scripts files).map ApiCollectOutcome.saved).sum + files.length =
      (filesOf collector scripts files).length := by
  induction scripts generalizing files with
  | nil => exact Nat.zero_add _
  | cons script rest ih =>
    have hrest := ih (addFile (fileOf collector script) files)
    have hadd := length_addFile (fileOf collector script) files
    have hsaved : (outcomeOf collector script files).saved =
        (addFile (fileOf collector script) files).length - files.length := rfl
    rw [outcomesOf, List.map_cons, List.sum_cons, hsaved]
    change _ = (filesOf collector rest (addFile (fileOf collector script) files)).length
    omega

theorem length_filesOf_le (scripts : List ApiScript) (files : List Path) :
    (filesOf collector scripts files).length ≤ files.length + scripts.length := by
  induction scripts generalizing files with
  | nil => exact le_rfl
  | cons script rest ih =>
    have hrest := ih (addFile (fileOf collector script) files)
    have hadd := length_addFile (fileOf collector script) files
    rw [List.length_cons]
    change (filesOf collector rest (addFile (fileOf collector script) files)).length ≤ _
    omega

/-- The same APIs fill the archive with the same files, in whatever order they save them. -/
theorem perm_filesOf {scripts scripts' : List ApiScript} (h : scripts.Perm scripts') :
    (filesOf collector scripts []).Perm (filesOf collector scripts' []) := by
  rw [List.perm_ext_iff_of_nodup (nodup_filesOf collector scripts List.nodup_nil)
    (nodup_filesOf collector scripts' List.nodup_nil)]
  intro name
  rw [mem_filesOf, mem_filesOf]
  simp only [h.mem_iff]

theorem filesOf_append (scripts rest : List ApiScript) (files : List Path) :
    filesOf collector (scripts ++ rest) files =
      filesOf collector rest (filesOf collector scripts files) := List.foldl_append

end Files

section Tallies

variable (collector : Collector)

theorem success_foldl_add (outcomes : List ApiCollectOutcome) (tally : Tally) :
    (outcomes.foldl Tally.add tally).success =
      tally.success + (outcomes.map ApiCollectOutcome.saved).sum := by
  induction outcomes generalizing tally with
  | nil => rfl
  | cons outcome rest ih =>
    have hadd : (tally.add outcome).success = tally.success + outcome.saved := rfl
    rw [List.foldl_cons, ih, hadd, List.map_cons, List.sum_cons]
    omega

/-- An API that no outcome names has the entry that it had. -/
theorem find?_foldl_add_of_absent {outcomes : List ApiCollectOutcome} {name : String}
    (habsent : ∀ outcome ∈ outcomes, ∀ entry, outcome.requestedApi ≠ some (name, entry))
    (tally : Tally) :
    (outcomes.foldl Tally.add tally).requestedApis.find? name =
      tally.requestedApis.find? name := by
  induction outcomes generalizing tally with
  | nil => rfl
  | cons outcome rest ih =>
    rw [List.foldl_cons, ih (fun one hone => habsent one (List.mem_cons_of_mem _ hone))]
    unfold Tally.add
    cases hrequested : outcome.requestedApi with
    | none => rfl
    | some requested =>
      have hne : name ≠ requested.1 := by
        rintro rfl
        exact habsent outcome List.mem_cons_self requested.2 hrequested
      exact KeyedMap.find?_insert_of_ne _ hne _

/-- An API that outcomes name with one entry has that entry. -/
theorem find?_foldl_add_of_present {outcomes : List ApiCollectOutcome} {name : String}
    {entry : RequestedApi}
    (hpresent : ∃ outcome ∈ outcomes, outcome.requestedApi = some (name, entry))
    (hsame : ∀ outcome ∈ outcomes, ∀ other,
      outcome.requestedApi = some (name, other) → other = entry) (tally : Tally) :
    (outcomes.foldl Tally.add tally).requestedApis.find? name = some entry := by
  induction outcomes generalizing tally with
  | nil =>
    obtain ⟨outcome, hmem, -⟩ := hpresent
    cases hmem
  | cons outcome rest ih =>
    have hrest := fun one hone => hsame one (List.mem_cons_of_mem outcome hone)
    rw [List.foldl_cons]
    by_cases hlater : ∃ one ∈ rest, one.requestedApi = some (name, entry)
    · exact ih hlater hrest _
    · have habsent : ∀ one ∈ rest, ∀ other, one.requestedApi ≠ some (name, other) := by
        intro one hone other hother
        obtain rfl := hrest one hone other hother
        exact hlater ⟨one, hone, hother⟩
      obtain ⟨one, hone, hentry⟩ := hpresent
      have hfirst : outcome.requestedApi = some (name, entry) := by
        rcases List.mem_cons.mp hone with rfl | hone
        · exact hentry
        · exact absurd hentry (habsent one hone entry)
      rw [find?_foldl_add_of_absent habsent, Tally.add, hfirst]
      exact KeyedMap.find?_insert_self _ _ _

theorem requestedApi_of_mem_outcomesOf {scripts : List ApiScript} {files : List Path}
    {outcome : ApiCollectOutcome} (h : outcome ∈ outcomesOf collector scripts files) :
    ∃ script ∈ scripts, outcome.requestedApi =
      (entryOf collector script).map fun entry => (script.name, entry) := by
  induction scripts generalizing files with
  | nil => cases h
  | cons script rest ih =>
    rcases List.mem_cons.mp h with rfl | hrest
    · exact ⟨script, List.mem_cons_self, rfl⟩
    · obtain ⟨one, hone, hrequested⟩ := ih hrest
      exact ⟨one, List.mem_cons_of_mem _ hone, hrequested⟩

theorem exists_mem_outcomesOf {scripts : List ApiScript} {script : ApiScript}
    (h : script ∈ scripts) (files : List Path) :
    ∃ outcome ∈ outcomesOf collector scripts files, outcome.requestedApi =
      (entryOf collector script).map fun entry => (script.name, entry) := by
  induction scripts generalizing files with
  | nil => cases h
  | cons first rest ih =>
    rcases List.mem_cons.mp h with rfl | hrest
    · exact ⟨_, List.mem_cons_self, rfl⟩
    · obtain ⟨outcome, hmem, hrequested⟩ := ih hrest (addFile (fileOf collector first) files)
      exact ⟨outcome, List.mem_cons_of_mem _ hmem, hrequested⟩

end Tallies

section Collections

variable {collector : Collector} {policy : CollectConcurrencyPolicy} {schedule : Schedule}
  {apis : List ApiScript}

/-- The APIs in the order in which they save. -/
def savingOrder (policy : CollectConcurrencyPolicy) (schedule : Schedule)
    (apis : List ApiScript) : List ApiScript :=
  schedule.saves (apis.filter fun script => !policy.isSequential script.weight) ++
    apis.filter fun script => policy.isSequential script.weight

/-- The outcomes in the order in which they are folded. -/
def foldedOutcomes (collector : Collector) (policy : CollectConcurrencyPolicy)
    (schedule : Schedule) (apis : List ApiScript) : List ApiCollectOutcome :=
  let light := schedule.saves (apis.filter fun script => !policy.isSequential script.weight)
  schedule.finishes (outcomesOf collector light []) ++
    outcomesOf collector (apis.filter fun script => policy.isSequential script.weight)
      (filesOf collector light [])

variable (policy schedule apis) in
theorem savingOrder_perm : (savingOrder policy schedule apis).Perm apis := by
  refine ((schedule.saves_perm _).append_right _).trans ?_
  have hsplit := List.filter_append_perm (fun script => policy.isSequential script.weight) apis
  exact List.perm_append_comm.trans hsplit

variable (collector policy schedule apis) in
theorem foldedOutcomes_perm :
    (foldedOutcomes collector policy schedule apis).Perm
      (outcomesOf collector (savingOrder policy schedule apis) []) := by
  have happend : ∀ (scripts rest : List ApiScript) (files : List Path),
      outcomesOf collector (scripts ++ rest) files =
        outcomesOf collector scripts files ++
          outcomesOf collector rest (filesOf collector scripts files) := by
    intro scripts rest
    induction scripts with
    | nil => exact fun _ => rfl
    | cons script scripts ih =>
      intro files
      rw [List.cons_append, outcomesOf, ih]
      rfl
  unfold foldedOutcomes savingOrder
  rw [happend]
  exact (schedule.finishes_perm _).append_right _

/-- The tally of a collection. -/
def tallyOf (collector : Collector) (policy : CollectConcurrencyPolicy) (schedule : Schedule)
    (apis : List ApiScript) : Tally :=
  (foldedOutcomes collector policy schedule apis).foldl Tally.add ⟨0, .empty⟩

theorem success_tallyOf :
    (tallyOf collector policy schedule apis).success =
      (filesOf collector (savingOrder policy schedule apis) []).length := by
  have hsum := sum_saved_outcomesOf collector (savingOrder policy schedule apis) []
  have hperm := (foldedOutcomes_perm collector policy schedule apis).map ApiCollectOutcome.saved
  unfold tallyOf
  rw [success_foldl_add, hperm.sum_eq]
  rw [List.length_nil, Nat.add_zero] at hsum
  rw [hsum]
  exact Nat.zero_add _

theorem mem_foldedOutcomes {outcome : ApiCollectOutcome}
    (h : outcome ∈ foldedOutcomes collector policy schedule apis) :
    ∃ script ∈ apis, outcome.requestedApi =
      (entryOf collector script).map fun entry => (script.name, entry) := by
  obtain ⟨script, hscript, hrequested⟩ :=
    requestedApi_of_mem_outcomesOf collector ((foldedOutcomes_perm _ _ _ _).mem_iff.mp h)
  exact ⟨script, (savingOrder_perm _ _ _).mem_iff.mp hscript, hrequested⟩

variable (collector policy schedule) in
/-- The tally has the entry of each API, if it has one. -/
theorem find?_tallyOf (hdistinct : (apis.map ApiScript.name).Nodup) {script : ApiScript}
    (hscript : script ∈ apis) :
    (tallyOf collector policy schedule apis).requestedApis.find? script.name =
      entryOf collector script := by
  have hsame : ∀ outcome ∈ foldedOutcomes collector policy schedule apis, ∀ entry,
      outcome.requestedApi = some (script.name, entry) →
        entryOf collector script = some entry := by
    intro outcome houtcome entry hentry
    obtain ⟨other, hother, hrequested⟩ := mem_foldedOutcomes houtcome
    rw [hentry] at hrequested
    obtain ⟨found, hfound, heq⟩ := Option.map_eq_some_iff.mp hrequested.symm
    obtain ⟨hname, rfl⟩ := Prod.mk.inj heq
    obtain rfl := List.inj_on_of_nodup_map hdistinct hother hscript hname
    exact hfound
  unfold tallyOf
  cases hentry : entryOf collector script with
  | none =>
    rw [find?_foldl_add_of_absent]
    · rfl
    · intro outcome houtcome entry hrequested
      have hnone := hsame outcome houtcome entry hrequested
      rw [hentry] at hnone
      cases hnone
  | some entry =>
    refine find?_foldl_add_of_present ?_ ?_ _
    · obtain ⟨outcome, houtcome, hrequested⟩ :=
        exists_mem_outcomesOf collector ((savingOrder_perm _ _ _).mem_iff.mpr hscript) []
      refine ⟨outcome, (foldedOutcomes_perm _ _ _ _).mem_iff.mpr houtcome, ?_⟩
      rw [hrequested, hentry]
      rfl
    · intro outcome houtcome other hrequested
      have hother := hsame outcome houtcome other hrequested
      rw [hentry, Option.some.injEq] at hother
      exact hother.symm

theorem find?_tallyOf_of_absent {name : String} (h : name ∉ apis.map ApiScript.name) :
    (tallyOf collector policy schedule apis).requestedApis.find? name = none := by
  unfold tallyOf
  rw [find?_foldl_add_of_absent]
  · rfl
  · intro outcome houtcome entry hrequested
    obtain ⟨script, hscript, hentry⟩ := mem_foldedOutcomes houtcome
    rw [hrequested] at hentry
    obtain ⟨found, -, heq⟩ := Option.map_eq_some_iff.mp hentry.symm
    exact h ((Prod.mk.inj heq).1 ▸ List.mem_map_of_mem hscript)

/-- Membership of paths is decided by comparing their segments. -/
instance : LawfulBEq Path := inferInstance

/-- What a collection comes to. -/
def collected (collector : Collector) (policy : CollectConcurrencyPolicy) (schedule : Schedule)
    (manifestWritable finalizes : Bool) (apis : List ApiScript) :
    Except CollectError CollectionResult :=
  let files := filesOf collector (savingOrder policy schedule apis) []
  if manifestWritable = false ∨ manifestFilename ∈ files then .error .manifest
  else if finalizes then
    .ok
      { success := (tallyOf collector policy schedule apis).success + 1
        total := apis.length + 1
        manifest := withRequestedApis (tallyOf collector policy schedule apis).requestedApis
        files := files ++ [manifestFilename] }
  else .error .finalize

theorem collect_eq {fuel : ℕ} (hfuel : 10 ≤ fuel) (manifestWritable finalizes : Bool) :
    collect collector fuel policy schedule manifestWritable finalizes apis =
      some (collected collector policy schedule manifestWritable finalizes apis) := by
  have hentryName : ArchiveExporter.zip.entryName manifestFilename = some manifestFilename := by
    decide
  unfold collect collected
  dsimp only
  rw [runApis_eq hfuel]
  dsimp only
  rw [runApis_eq hfuel]
  dsimp only
  rw [ArchiveExporter.save, hentryName]
  dsimp only
  have horder : schedule.saves (apis.filter fun script => !policy.isSequential script.weight) ++
      apis.filter (fun script => policy.isSequential script.weight) =
        savingOrder policy schedule apis := rfl
  rw [← filesOf_append, horder, ← List.foldl_append]
  by_cases hrefused : manifestWritable = false ∨
      manifestFilename ∈ filesOf collector (savingOrder policy schedule apis) []
  · have hcondition : manifestWritable = false ∨ ArchiveExporter.zip = .zip ∧
        manifestFilename ∈ filesOf collector (savingOrder policy schedule apis) [] :=
      hrefused.imp_right fun hmem => ⟨rfl, hmem⟩
    rw [if_pos hrefused, if_pos hcondition]
  · have hcondition : ¬(manifestWritable = false ∨ ArchiveExporter.zip = .zip ∧
        manifestFilename ∈ filesOf collector (savingOrder policy schedule apis) []) :=
      fun h => hrefused (h.imp_right And.right)
    have hfresh := not_or.mp hrefused
    rw [if_neg hrefused, if_neg hcondition, if_neg hfresh.2]
    cases finalizes with
    | true => rfl
    | false => rfl

/-- How a collection accounts for its APIs. -/
structure Accounts (collector : Collector) (apis : List ApiScript) (result : CollectionResult) :
    Prop where
  listed : ∀ script ∈ apis, supports script = true → ∃ n, LastAttempt collector script n ∧
    result.manifest.requestedApis.find? script.name = some (summary script n)
  onlyListed : ∀ name entry, result.manifest.requestedApis.find? name = some entry →
    ∃ script ∈ apis, script.name = name ∧ supports script = true
  counted : result.success = result.files.length
  nodup : result.files.Nodup
  bounded : result.success ≤ result.total
  total_eq : result.total = apis.length + 1

theorem collected_accounts (hdistinct : (apis.map ApiScript.name).Nodup)
    {manifestWritable finalizes : Bool} {result : CollectionResult}
    (h : collected collector policy schedule manifestWritable finalizes apis = .ok result) :
    Accounts collector apis result := by
  unfold collected at h
  dsimp only at h
  by_cases hrefused : manifestWritable = false ∨
      manifestFilename ∈ filesOf collector (savingOrder policy schedule apis) []
  · rw [if_pos hrefused] at h
    cases h
  rw [if_neg hrefused] at h
  cases finalizes with
  | false => cases h
  | true =>
    rw [if_pos rfl, Except.ok.injEq] at h
    subst h
    have hfresh := (not_or.mp hrefused).2
    have hnodup := nodup_filesOf collector (savingOrder policy schedule apis) List.nodup_nil
    have hlength := length_filesOf_le collector (savingOrder policy schedule apis) []
    rw [(savingOrder_perm policy schedule apis).length_eq,
      List.length_nil] at hlength
    refine ⟨?_, ?_, ?_, ?_, ?_, rfl⟩
    · intro script hscript hsupports
      refine ⟨_, (lastAttempt_spec collector script).1, ?_⟩
      have hentry := find?_tallyOf collector policy schedule hdistinct hscript
      rw [entryOf, if_pos hsupports] at hentry
      exact hentry
    · intro name entry hfind
      change (tallyOf collector policy schedule apis).requestedApis.find? name = some entry at hfind
      by_cases hname : name ∈ apis.map ApiScript.name
      · obtain ⟨script, hscript, rfl⟩ := List.mem_map.mp hname
        refine ⟨script, hscript, rfl, ?_⟩
        rw [find?_tallyOf _ _ _ hdistinct hscript, entryOf] at hfind
        by_contra hsupports
        rw [if_neg hsupports] at hfind
        cases hfind
      · rw [find?_tallyOf_of_absent hname] at hfind
        cases hfind
    · change _ + 1 = _
      rw [success_tallyOf, List.length_append, List.length_singleton]
    · rw [List.nodup_append]
      refine ⟨hnodup, List.nodup_singleton _, ?_⟩
      intro file hfile other hother heq
      rw [List.mem_singleton] at hother
      exact hfresh (hother ▸ heq ▸ hfile)
    · change _ + 1 ≤ _ + 1
      rw [success_tallyOf]
      omega

/-- What a collection reports: its counts, the entries of its manifest in their order and the
APIs among them that were collected. -/
def CollectionResult.reported (result : CollectionResult) :
    ℕ × ℕ × List (String × RequestedApi) × List String :=
  (result.success, result.total, result.manifest.requestedApis.inOrder,
    result.manifest.collectedApis)

theorem collected_of_any_order (hdistinct : (apis.map ApiScript.name).Nodup)
    (schedule' : Schedule) (manifestWritable finalizes : Bool) :
    (collected collector policy schedule manifestWritable finalizes apis).map
        CollectionResult.reported =
      (collected collector policy schedule' manifestWritable finalizes apis).map
        CollectionResult.reported := by
  have hfiles := perm_filesOf collector
    ((savingOrder_perm policy schedule apis).trans (savingOrder_perm policy schedule' apis).symm)
  have hsuccess : (tallyOf collector policy schedule apis).success =
      (tallyOf collector policy schedule' apis).success := by
    rw [success_tallyOf, success_tallyOf, hfiles.length_eq]
  have hinOrder : (tallyOf collector policy schedule apis).requestedApis.inOrder =
      (tallyOf collector policy schedule' apis).requestedApis.inOrder := by
    apply KeyedMap.inOrder_congr
    intro name
    by_cases hname : name ∈ apis.map ApiScript.name
    · obtain ⟨script, hscript, rfl⟩ := List.mem_map.mp hname
      rw [find?_tallyOf _ _ _ hdistinct hscript, find?_tallyOf _ _ _ hdistinct hscript]
    · rw [find?_tallyOf_of_absent hname, find?_tallyOf_of_absent hname]
  have hrefused : (manifestWritable = false ∨
      manifestFilename ∈ filesOf collector (savingOrder policy schedule apis) []) ↔
      (manifestWritable = false ∨
        manifestFilename ∈ filesOf collector (savingOrder policy schedule' apis) []) := by
    rw [hfiles.mem_iff]
  unfold collected
  dsimp only
  simp only [hrefused]
  split
  · rfl
  · cases finalizes with
    | false => rfl
    | true =>
      simp only [if_true, Except.map, CollectionResult.reported, withRequestedApis, hsuccess,
        hinOrder]

/-- A collection comes to an end, accounts for each of its APIs, and reports the same in any
order of saving and finishing. -/
theorem collection_accounts (collector : Collector) (policy : CollectConcurrencyPolicy)
    (manifestWritable finalizes : Bool) (apis : List ApiScript)
    (hdistinct : (apis.map ApiScript.name).Nodup) :
    (∀ schedule, ∃ outcome,
      (∀ fuel ≥ 10, collect collector fuel policy schedule manifestWritable finalizes apis =
        some outcome) ∧
      ∀ result, outcome = .ok result → Accounts collector apis result) ∧
    ∀ schedule schedule' fuel, 10 ≤ fuel →
      (collect collector fuel policy schedule manifestWritable finalizes apis).map
          (Except.map CollectionResult.reported) =
        (collect collector fuel policy schedule' manifestWritable finalizes apis).map
          (Except.map CollectionResult.reported) := by
  constructor
  · intro schedule
    refine ⟨_, fun fuel hfuel => collect_eq hfuel _ _, ?_⟩
    intro result hresult
    exact collected_accounts hdistinct hresult
  · intro schedule schedule' fuel hfuel
    rw [collect_eq hfuel, collect_eq hfuel, Option.map_some, Option.map_some,
      collected_of_any_order hdistinct schedule']

/-- An API that is first refused with 503 and then answered. -/
def answeredLater (name : String) : ApiScript where
  name := name
  source := some ⟨⟨none, none, none⟩, some ("/_" ++ name)⟩
  weight := 1
  attempts
    | 0 => ⟨.error (.http 503 12 40), true, 15, 0, 1⟩
    | _ => ⟨.ok ⟨some 200, 20, 300⟩, true, 21, 0, 0⟩

theorem collection_accounts_answeredLater :
    (∀ schedule, ∃ outcome,
      (∀ fuel ≥ 10, collect .elasticsearch fuel ⟨3⟩ schedule true true
        [answeredLater "nodes", answeredLater "licenses"] = some outcome) ∧
      ∀ result, outcome = .ok result →
        Accounts .elasticsearch [answeredLater "nodes", answeredLater "licenses"] result) ∧
    ∀ schedule schedule' fuel, 10 ≤ fuel →
      (collect .elasticsearch fuel ⟨3⟩ schedule true true
          [answeredLater "nodes", answeredLater "licenses"]).map
          (Except.map CollectionResult.reported) =
        (collect .elasticsearch fuel ⟨3⟩ schedule' true true
          [answeredLater "nodes", answeredLater "licenses"]).map
          (Except.map CollectionResult.reported) :=
  collection_accounts .elasticsearch ⟨3⟩ true true
    [answeredLater "nodes", answeredLater "licenses"] (by decide)

end Collections

end Esdiag.StackAccounting
