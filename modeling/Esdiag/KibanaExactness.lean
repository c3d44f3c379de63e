import Esdiag.KibanaPages

/-!
What a collection from Kibana counts and measures. Every reported page of every
space is asked for. The rest is exact as far as the sanitizing keeps the spaces
apart, no attempt leaves files behind that the last one does not count, every
failed attempt ends with an answer that took time, and there are no more files
than APIs.
-/
namespace Esdiag.KibanaExactness

open KibanaCollection KibanaAttempts KibanaPages

section Statements

variable (exporter : ArchiveExporter)

/-- An API was collected completely, and is reported as it was collected. -/
structure ApiExact (script : ApiScript) (earlier : List Attempt) (last : Attempt)
    (run : ApiRun) : Prop where
  fetched : run.succeeded = true → last.version = .ok true →
    List.Forall₂ (Covers script.paginate) last.scopes run.visits
  named : ∀ visit ∈ run.visits.flatten, ∀ other ∈ run.visits.flatten,
    (visit.space, visit.page) ≠ (other.space, other.page) →
      fileName script.baseFilePath visit ≠ fileName script.baseFilePath other
  counted : run.outcome.saved.Nodup ∧ ∀ name, name ∈ run.outcome.saved ↔ name ∈ run.files
  measured : ∀ api, run.outcome.requestedApi = some api →
    api.2.responseTimeMs = totalTime script.paginate (earlier ++ [last]) ∧
      api.2.responseSizeBytes = totalSize script.paginate (earlier ++ [last])

def RunExact (script : ApiScript) (run : ApiRun) : Prop :=
  ∃ earlier last, history script.paginate script.attempts = some (earlier, last, run.succeeded) ∧
    ApiExact script earlier last run

structure Exact (scripts : List ApiScript) (result : CollectionResult) (runs : List ApiRun) :
    Prop where
  apis : List.Forall₂ RunExact scripts runs
  bounded : result.success ≤ result.total

/-- Of two spaces that are sanitized to the same segment one has several pages, the other not. -/
def SpacesApart (visits : List Visit) : Prop :=
  ∀ visit ∈ visits, ∀ other ∈ visits, visit.space ≠ other.space →
    spaceKey visit.space = spaceKey other.space →
      visit.pageScope.isSome ≠ other.pageScope.isSome

/-- No file is left behind by an attempt, or replaced, that is not counted once. -/
def SavesOnce (script : ApiScript) (earlier : List Attempt) (last : Attempt) (succeeded : Bool) :
    Prop :=
  let names := fun attempts : List Attempt =>
    written exporter script.baseFilePath (attempts.flatMap (received script.paginate))
  match exporter, succeeded with
  | .zip, true => names earlier = []
  | .zip, false => True
  | .directory, true => (names [last]).Nodup ∧ names earlier ⊆ names [last]
  | .directory, false => (names (earlier ++ [last])).Nodup

/-- Every attempt that fails is measured, or nothing is reported. -/
def AllMeasured (script : ApiScript) (earlier : List Attempt) (last : Attempt)
    (succeeded : Bool) : Prop :=
  succeeded = true ∧ (ask script.paginate last).1 = [] ∨
    ∀ attempt ∈ earlier ++ [last],
      (ask script.paginate attempt).2 = .done ∨ IsMeasured script.paginate attempt

structure AttemptsOrderly (script : ApiScript) (earlier : List Attempt) (last : Attempt)
    (succeeded : Bool) : Prop where
  apart : SpacesApart (received script.paginate last)
  once : SavesOnce exporter script earlier last succeeded
  measured : AllMeasured script earlier last succeeded

def ApiOrderly (script : ApiScript) : Prop :=
  ∀ earlier last succeeded,
    history script.paginate script.attempts = some (earlier, last, succeeded) →
      AttemptsOrderly exporter script earlier last succeeded

/-- The number of different files that the answers of an API come to. -/
def distinctFiles (script : ApiScript) : ℕ :=
  match history script.paginate script.attempts with
  | none => 0
  | some (earlier, last, _) =>
    (written exporter script.baseFilePath
      ((earlier ++ [last]).flatMap (received script.paginate))).dedup.length

structure Orderly (scripts : List ApiScript) : Prop where
  apis : ∀ script ∈ scripts, ApiOrderly exporter script
  few : (scripts.map (distinctFiles exporter)).sum ≤ scripts.length

end Statements

section Apis

variable {exporter : ArchiveExporter} {script : ApiScript} {earlier : List Attempt}
  {last : Attempt} {run : ApiRun}

theorem done_of_history {paginate : Option String} {attempts : List Attempt}
    (h : history paginate attempts = some (earlier, last, true)) :
    (ask paginate last).2 = .done := by
  induction attempts generalizing earlier with
  | nil => cases h
  | cons attempt rest ih =>
    unfold history at h
    split at h
    · cases h
    · rename_i hdone
      cases h
      exact hdone
    · split at h
      · cases h
      · obtain ⟨⟨later, final, succeeded⟩, hrest, heq⟩ := Option.map_eq_some_iff.mp h
        cases heq
        exact ih hrest

theorem fetched_of_collected
    (hhistory : history script.paginate script.attempts = some (earlier, last, run.succeeded))
    (h : Collected exporter script.baseFilePath script.paginate .none [] earlier last run)
    (hsucceeded : run.succeeded = true) (hversion : last.version = .ok true) :
    List.Forall₂ (Covers script.paginate) last.scopes run.visits := by
  rw [hsucceeded] at hhistory
  have hdone := done_of_history hhistory
  have hask : ask script.paginate last = askScopes script.paginate last.scopes := by
    unfold ask
    rw [hversion]
  rw [hask] at hdone
  rw [h.answers, hask]
  exact askScopes_covers hdone

/-- The names are apart exactly if the spaces are. -/
theorem named_iff (baseFilePath : Path) (attempt : Attempt) (paginate : Option String) :
    (∀ visit ∈ received paginate attempt, ∀ other ∈ received paginate attempt,
        (visit.space, visit.page) ≠ (other.space, other.page) →
          fileName baseFilePath visit ≠ fileName baseFilePath other) ↔
      SpacesApart (received paginate attempt) := by
  constructor
  · intro h visit hvisit other hother hspace hkey hsome
    by_cases hseveral : visit.pageScope.isSome = true
    · obtain ⟨first, hfirst, hfirstSpace, -, hfirstPage⟩ :=
        exists_first_of_received hvisit hseveral
      obtain ⟨next, hnext, hnextSpace, -, hnextPage⟩ :=
        exists_first_of_received hother (hsome ▸ hseveral)
      refine h first hfirst next hnext (fun heq => hspace ?_) ?_
      · rw [← hfirstSpace, ← hnextSpace]
        exact congrArg Prod.fst heq
      · rw [fileName_eq_iff, hfirstSpace, hnextSpace, hfirstPage, hnextPage]
        exact ⟨hkey, rfl⟩
    · refine h visit hvisit other hother (fun heq => hspace (congrArg Prod.fst heq)) ?_
      have hnone := Option.not_isSome_iff_eq_none.mp hseveral
      rw [hsome] at hseveral
      rw [fileName_eq_iff, hnone, Option.not_isSome_iff_eq_none.mp hseveral]
      exact ⟨hkey, rfl⟩
  · intro h visit hvisit other hother hpair hname
    obtain ⟨hkey, hpage⟩ := (fileName_eq_iff baseFilePath visit other).mp hname
    by_cases hspace : visit.space = other.space
    · refine hpair (Prod.ext hspace ?_)
      rcases keepsPage_of_received hvisit with ⟨hnone, hfirst⟩ | hsome
      · rcases keepsPage_of_received hother with ⟨-, hfirst'⟩ | hsome'
        · rw [hfirst, hfirst']
        · rw [hpage, hsome'] at hnone
          cases hnone
      · rcases keepsPage_of_received hother with ⟨hnone', -⟩ | hsome'
        · rw [hpage, hnone'] at hsome
          cases hsome
        · rw [hpage, hsome'] at hsome
          exact (Option.some.inj hsome).symm
    · exact h visit hvisit other hother hspace hkey (by rw [hpage])

theorem written_flatMap_append (baseFilePath : Path) (paginate : Option String)
    (attempts rest : List Attempt) :
    written exporter baseFilePath ((attempts ++ rest).flatMap (received paginate)) =
      written exporter baseFilePath (attempts.flatMap (received paginate)) ++
        written exporter baseFilePath (rest.flatMap (received paginate)) := by
  rw [List.flatMap_append, written_append]

/-- The files are those of all attempts. -/
theorem mem_files_iff
    (h : Collected exporter script.baseFilePath script.paginate .none [] earlier last run)
    (name : Path) :
    name ∈ run.files ↔ name ∈ written exporter script.baseFilePath
      ((earlier ++ [last]).flatMap (received script.paginate)) := by
  rw [h.present, mem_saveVisits_files]
  simp only [List.not_mem_nil, false_or]

theorem counted_iff
    (h : Collected exporter script.baseFilePath script.paginate .none [] earlier last run) :
    (run.outcome.saved.Nodup ∧ ∀ name, name ∈ run.outcome.saved ↔ name ∈ run.files) ↔
      SavesOnce exporter script earlier last run.succeeded := by
  have hfiles := mem_files_iff h
  have hsaved := h.saved
  have hlast : [last].flatMap (received script.paginate) = received script.paginate last := by
    rw [List.flatMap_singleton]
  unfold SavesOnce
  cases exporter with
  | zip =>
    cases hsucceeded : run.succeeded with
    | true =>
      simp only [hsucceeded, if_true] at hsaved ⊢
      have hmem : ∀ name, name ∈ run.outcome.saved ↔
          name ∈ written .zip script.baseFilePath (received script.paginate last) ∧
            name ∉ written .zip script.baseFilePath
              (earlier.flatMap (received script.paginate)) := by
        intro name
        rw [hsaved, mem_saveVisits_zip, mem_saveVisits_files]
        simp only [List.not_mem_nil, false_or]
      constructor
      · rintro ⟨-, hsame⟩
        refine List.eq_nil_iff_forall_not_mem.mpr fun name hname => ?_
        have hpresent : name ∈ run.files := by
          rw [hfiles, written_flatMap_append]
          exact List.mem_append_left _ hname
        exact ((hmem name).mp ((hsame name).mpr hpresent)).2 hname
      · intro hnone
        refine ⟨?_, fun name => ?_⟩
        · rw [hsaved]
          exact nodup_saveVisits_zip _ _
        · rw [hmem, hfiles, written_flatMap_append, hnone, hlast]
          simp only [List.not_mem_nil, not_false_eq_true, and_true, List.nil_append]
    | false =>
      simp only [hsucceeded, Bool.false_eq_true, if_false, iff_true] at hsaved ⊢
      have hnone : Retried.none.saved = [] := rfl
      rw [hnone, List.nil_append] at hsaved
      refine ⟨?_, fun name => ?_⟩
      · rw [hsaved]
        exact nodup_saveVisits_zip _ _
      · rw [hsaved, mem_saveVisits_zip, hfiles]
        simp only [List.not_mem_nil, not_false_eq_true, and_true]
  | directory =>
    cases hsucceeded : run.succeeded with
    | true =>
      simp only [hsucceeded, if_true, saveVisits_directory] at hsaved ⊢
      rw [hlast, ← hsaved]
      refine and_congr_right fun _ => ?_
      have hmem : ∀ name, name ∈ run.files ↔
          name ∈ written .directory script.baseFilePath
              (earlier.flatMap (received script.paginate)) ∨ name ∈ run.outcome.saved := by
        intro name
        rw [hfiles, written_flatMap_append, hlast, List.mem_append, hsaved]
      constructor
      · intro hsame name hname
        exact (hsame name).mpr ((hmem name).mpr (Or.inl hname))
      · intro hsubset name
        rw [hmem]
        exact ⟨Or.inr, fun h => h.elim (fun hearlier => hsubset hearlier) id⟩
    | false =>
      simp only [hsucceeded, Bool.false_eq_true, if_false, saveVisits_directory] at hsaved ⊢
      have hnone : Retried.none.saved = [] := rfl
      rw [hnone, List.nil_append] at hsaved
      rw [← hsaved]
      refine and_iff_left fun name => ?_
      rw [hfiles, hsaved]

/-- The reported time is never too short, and exact if every failed attempt is measured. -/
theorem reportedTime_iff (paginate : Option String) (attempts : List Attempt) :
    (attempts.map (reportedTime paginate)).sum = totalTime paginate attempts ↔
      ∀ attempt ∈ attempts, (ask paginate attempt).2 = .done ∨ IsMeasured paginate attempt := by
  have hle : ∀ attempt ∈ attempts, responseTime (received paginate attempt) +
      (failingMetrics (ask paginate attempt).2).1 ≤ reportedTime paginate attempt := by
    intro attempt _
    have hadded := addedTime_ge paginate attempt
    unfold reportedTime
    split
    · rename_i hdone
      rw [hdone]
      exact Nat.le_refl _
    · omega
  unfold totalTime
  rw [sum_map_eq_iff hle]
  refine forall₂_congr fun attempt _ => ?_
  unfold reportedTime
  split
  · rename_i hdone
    rw [hdone]
    exact ⟨fun _ => Or.inl rfl, fun _ => rfl⟩
  · rename_i hfailed
    rw [Nat.add_left_cancel_iff, addedTime_eq_iff]
    exact (or_iff_right hfailed).symm

theorem measured_iff
    (h : Collected exporter script.baseFilePath script.paginate .none [] earlier last run) :
    (∀ api, run.outcome.requestedApi = some api →
        api.2.responseTimeMs = totalTime script.paginate (earlier ++ [last]) ∧
          api.2.responseSizeBytes = totalSize script.paginate (earlier ++ [last])) ↔
      AllMeasured script earlier last run.succeeded := by
  have hzero : Retried.none.responseTimeMs = 0 ∧ Retried.none.responseSizeBytes = 0 := ⟨rfl, rfl⟩
  unfold AllMeasured
  rw [← h.answers, ← h.requested, ← reportedTime_iff]
  cases hrequested : run.outcome.requestedApi with
  | none => exact ⟨fun _ => Or.inl rfl, fun _ => nofun⟩
  | some api =>
    obtain ⟨htime, hsize⟩ := h.measured api hrequested
    rw [hzero.1, Nat.zero_add] at htime
    rw [hzero.2, Nat.zero_add] at hsize
    constructor
    · intro hexact
      right
      rw [← htime]
      exact (hexact api rfl).1
    · rintro (hnone | hmeasured) one hone
      · cases hnone
      · cases hone
        exact ⟨htime.trans hmeasured, hsize⟩

theorem runExact_iff
    (h : saveApiWithRetry exporter script.baseFilePath script.name script.paginate .none []
      script.attempts = some run) :
    RunExact script run ↔ ApiOrderly exporter script := by
  obtain ⟨earlier, last, hhistory, hcollected⟩ := saveApiWithRetry_spec h
  have hreceived : run.visits.flatten = received script.paginate last := by
    rw [hcollected.answers]
    rfl
  have hnamed := named_iff script.baseFilePath last script.paginate
  rw [← hreceived] at hnamed
  constructor
  · rintro ⟨earlier', last', hhistory', hexact⟩ earlier'' last'' succeeded hhistory''
    rw [hhistory] at hhistory' hhistory''
    cases hhistory'
    cases hhistory''
    refine ⟨?_, (counted_iff hcollected).mp hexact.counted,
      (measured_iff hcollected).mp hexact.measured⟩
    rw [← hreceived]
    exact hnamed.mp hexact.named
  · intro horderly
    have hattempts := horderly earlier last run.succeeded hhistory
    have hapart := hattempts.apart
    rw [← hreceived] at hapart
    exact ⟨earlier, last, hhistory, fetched_of_collected hhistory hcollected,
      hnamed.mpr hapart, (counted_iff hcollected).mpr hattempts.once,
      (measured_iff hcollected).mpr hattempts.measured⟩

/-- What is counted exactly is counted once for every different file. -/
theorem saved_length_of_exact
    (h : saveApiWithRetry exporter script.baseFilePath script.name script.paginate .none []
      script.attempts = some run)
    (hexact : RunExact script run) :
    run.outcome.saved.length = distinctFiles exporter script := by
  obtain ⟨earlier, last, hhistory, hcollected⟩ := saveApiWithRetry_spec h
  obtain ⟨earlier', last', hhistory', hexact⟩ := hexact
  obtain ⟨hnodup, hmem⟩ := hexact.counted
  unfold distinctFiles
  rw [hhistory]
  apply List.Perm.length_eq
  refine (List.perm_ext_iff_of_nodup hnodup (List.nodup_dedup _)).mpr fun name => ?_
  rw [hmem, mem_files_iff hcollected, List.mem_dedup]

end Apis

section Collections

variable {exporter : ArchiveExporter} {scripts : List ApiScript} {runs : List ApiRun}

theorem collectApis_forall₂ (h : collectApis exporter scripts = some runs) :
    List.Forall₂ (fun script run => saveApiWithRetry exporter script.baseFilePath script.name
      script.paginate .none [] script.attempts = some run) scripts runs := by
  induction scripts generalizing runs with
  | nil =>
    cases h
    exact .nil
  | cons script rest ih =>
    unfold collectApis at h
    split at h
    · cases h
    · rename_i run hrun
      obtain ⟨others, hothers, rfl⟩ := Option.map_eq_some_iff.mp h
      exact .cons hrun (ih hothers)

theorem runsExact_iff
    (h : List.Forall₂ (fun script run => saveApiWithRetry exporter script.baseFilePath script.name
      script.paginate .none [] script.attempts = some run) scripts runs) :
    List.Forall₂ RunExact scripts runs ↔ ∀ script ∈ scripts, ApiOrderly exporter script := by
  induction h with
  | nil => exact ⟨fun _ => nofun, fun _ => .nil⟩
  | cons hrun _ ih => rw [List.forall₂_cons, List.forall_mem_cons, ih, runExact_iff hrun]

theorem saved_sum_of_exact
    (h : List.Forall₂ (fun script run => saveApiWithRetry exporter script.baseFilePath script.name
      script.paginate .none [] script.attempts = some run) scripts runs)
    (hexact : List.Forall₂ RunExact scripts runs) :
    (runs.map fun run => run.outcome.saved.length).sum =
      (scripts.map (distinctFiles exporter)).sum := by
  induction h with
  | nil => rfl
  | cons hrun _ ih =>
    rw [List.forall₂_cons] at hexact
    simp only [List.map_cons, List.sum_cons, ih hexact.2, saved_length_of_exact hrun hexact.1]

/-- A collection is exact if, and only if, its attempts are orderly and save no more files than
there are APIs. -/
theorem collection_exact_iff {manifestSaved : Bool} {result : CollectionResult}
    (h : collect exporter scripts manifestSaved = some (result, runs)) :
    Exact scripts result runs ↔ Orderly exporter scripts := by
  unfold collect at h
  split at h
  · cases h
  · rename_i runs' hruns
    split at h
    · cases h
      have hall := collectApis_forall₂ hruns
      constructor
      · rintro ⟨hapis, hbounded⟩
        refine ⟨(runsExact_iff hall).mp hapis, ?_⟩
        rw [← saved_sum_of_exact hall hapis]
        exact Nat.le_of_succ_le_succ hbounded
      · rintro ⟨hapis, hfew⟩
        have hexact := (runsExact_iff hall).mpr hapis
        refine ⟨hexact, ?_⟩
        rw [← saved_sum_of_exact hall hexact] at hfew
        exact Nat.succ_le_succ hfew
    · cases h

theorem apiOrderly_of_history {script : ApiScript} {earlier : List Attempt} {last : Attempt}
    {succeeded : Bool}
    (h : history script.paginate script.attempts = some (earlier, last, succeeded))
    (horderly : AttemptsOrderly exporter script earlier last succeeded) :
    ApiOrderly exporter script := by
  intro earlier' last' succeeded' hhistory
  rw [h] at hhistory
  cases hhistory
  exact horderly

/-- An API whose first attempt succeeds. -/
theorem apiOrderly_of_done {script : ApiScript} {attempt : Attempt} {rest : List Attempt}
    (hattempts : script.attempts = attempt :: rest)
    (hdone : (ask script.paginate attempt).2 = .done)
    (hapart : SpacesApart (received script.paginate attempt)) : ApiOrderly .zip script := by
  have hhistory : history script.paginate script.attempts = some ([], attempt, true) := by
    rw [hattempts, history, hdone]
  refine apiOrderly_of_history hhistory ⟨hapart, rfl, Or.inr ?_⟩
  intro one hone
  rw [List.mem_singleton.mp hone]
  exact Or.inl hdone

theorem spacesApart_of_spaceKey {visits : List Visit}
    (h : ∀ space ∈ visits.map Visit.space, ∀ other ∈ visits.map Visit.space,
      spaceKey space = spaceKey other → space = other) : SpacesApart visits := by
  intro visit hvisit other hother hspace hkey
  exact absurd (h _ (List.mem_map_of_mem hvisit) _ (List.mem_map_of_mem hother) hkey) hspace

def answered : PageAnswer := ⟨.ok ⟨some 200, 12, 40, fun _ => none⟩, true⟩

def unavailable : PageAnswer := ⟨.error (.http 503 7 20), true⟩

/-- A page of two cases, where there are three. -/
def casesPage (page : ℕ) : PageAnswer :=
  ⟨.ok ⟨some 200, 9, 60, fun member =>
    if member = "total" then some 3
    else if member = "page" then some page
    else if member = "per_page" then some 2
    else none⟩, true⟩

def statusScript : ApiScript where
  name := "kibana_status"
  baseFilePath := ["kibana_status.json"]
  paginate := none
  attempts := [⟨.ok true, [⟨none, [answered]⟩], 15, false⟩]

/-- An API that is not available at first, and is asked in two spaces. -/
def rulesScript : ApiScript where
  name := "kibana_rules"
  baseFilePath := ["kibana_rules.json"]
  paginate := none
  attempts :=
    [⟨.ok true, [⟨some "default", [unavailable]⟩, ⟨some "ops", [answered]⟩], 25, false⟩,
      ⟨.ok true, [⟨some "default", [answered]⟩, ⟨some "ops", [answered]⟩], 30, false⟩]

def casesScript : ApiScript where
  name := "kibana_cases"
  baseFilePath := ["kibana_cases.json"]
  paginate := some "per_page"
  attempts := [⟨.ok true, [⟨some "default", [casesPage 1, casesPage 2]⟩], 20, false⟩]

/-- An API that the version does not have. -/
def missingScript (name : String) : ApiScript where
  name := name
  baseFilePath := [name ++ ".json"]
  paginate := none
  attempts := [⟨.ok false, [], 0, false⟩]

def mixedScripts : List ApiScript :=
  [statusScript, rulesScript, casesScript, missingScript "kibana_synthetics",
    missingScript "kibana_streams"]

theorem statusScript_orderly : ApiOrderly .zip statusScript :=
  apiOrderly_of_done rfl rfl (spacesApart_of_spaceKey (by decide +kernel))

theorem rulesScript_orderly : ApiOrderly .zip rulesScript := by
  refine apiOrderly_of_history rfl ⟨spacesApart_of_spaceKey (by decide +kernel), rfl, Or.inr ?_⟩
  rintro attempt (_ | ⟨_, _ | ⟨_, ⟨⟩⟩⟩)
  · exact Or.inr (Or.inl (by decide))
  · exact Or.inl rfl

theorem casesScript_orderly : ApiOrderly .zip casesScript :=
  apiOrderly_of_done rfl rfl (spacesApart_of_spaceKey (by decide +kernel))

theorem missingScript_orderly (name : String) : ApiOrderly .zip (missingScript name) :=
  apiOrderly_of_done rfl rfl nofun

/-- Five files of three APIs, in two spaces and on two pages, one of them after a failed attempt. -/
theorem collection_exact_status :
    ∃ runs, collect .zip mixedScripts true = some (⟨6, 6⟩, runs) ∧
      Exact mixedScripts ⟨6, 6⟩ runs := by
  have hresult : (collect .zip mixedScripts true).map Prod.fst = some ⟨6, 6⟩ := by decide +kernel
  obtain ⟨⟨result, runs⟩, hruns, rfl⟩ := Option.map_eq_some_iff.mp hresult
  refine ⟨runs, hruns, (collection_exact_iff hruns).mpr ⟨?_, by decide +kernel⟩⟩
  simp only [mixedScripts, List.forall_mem_cons]
  exact ⟨statusScript_orderly, rulesScript_orderly, casesScript_orderly,
    missingScript_orderly _, missingScript_orderly _, nofun⟩

/-- An API that is asked in two spaces, and not available in the second one at first. -/
def alertsScript : ApiScript where
  name := "kibana_alerts"
  baseFilePath := ["kibana_alerts.json"]
  paginate := none
  attempts :=
    [⟨.ok true, [⟨some "default", [answered]⟩, ⟨some "ops", [unavailable]⟩], 25, false⟩,
      ⟨.ok true, [⟨some "default", [answered]⟩, ⟨some "ops", [answered]⟩], 30, false⟩]

/-- The archive refuses the file of the first attempt, so that one of two files is counted. -/
theorem retried_file_uncounted :
    ∃ runs, collect .zip [alertsScript] true = some (⟨2, 2⟩, runs) ∧
      ¬ Exact [alertsScript] ⟨2, 2⟩ runs := by
  refine ⟨_, rfl, ?_⟩
  rintro ⟨hapis, -⟩
  obtain ⟨⟨earlier, last, -, hexact⟩, -⟩ := List.forall₂_cons.mp hapis
  have hpresent := (hexact.counted.2 ["spaces", "default", "kibana_alerts.json"]).mpr (by decide)
  exact absurd hpresent (by decide)

end Collections

end Esdiag.KibanaExactness
