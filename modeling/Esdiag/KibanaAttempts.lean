import Esdiag.KibanaCollection

/-!
What a collection from Kibana counts and measures. Which answers are received is
said apart from the saving, since no saving changes it; the collection is that,
with the files folded over it. Every reported page is asked for. The rest is
exact as far as spaces keep their names apart, no attempt leaves files behind that
the last one does not count, every failed attempt ends with an answer that took
time, and there are no more files than APIs.
-/
namespace Esdiag.KibanaAttempts

open KibanaCollection

section Asking

inductive Ending where
  | done
  | failed (failure : Failure)
  | unfinished
  deriving DecidableEq

/-- The answers that the loop over the pages receives. -/
def askPages (paginateField : String) (space : Option String) (page totalPages : ℕ) :
    List PageAnswer → List Visit × Ending
  | [] => ([], .unfinished)
  | answered :: rest =>
    match answered.answer with
    | .error failure => ([], .failed failure)
    | .ok response =>
      let totalPages := max totalPages ((parseTotalPages response.body paginateField page).getD page)
      let visit : Visit :=
        ⟨space, page, if 1 < totalPages then some page else none, response, answered.writable⟩
      if totalPages ≤ page then ([visit], .done)
      else
        let asked := askPages paginateField space (page + 1) totalPages rest
        (visit :: asked.1, asked.2)

def askScope (paginate : Option String) (scope : ScopeScript) : List Visit × Ending :=
  match paginate with
  | some paginateField => askPages paginateField scope.space 1 1 scope.pages
  | none =>
    match scope.pages with
    | [] => ([], .unfinished)
    | answered :: _ =>
      match answered.answer with
      | .error failure => ([], .failed failure)
      | .ok response => ([⟨scope.space, 1, none, response, answered.writable⟩], .done)

/-- The answers of the scopes, up to the first one that fails. -/
def askScopes (paginate : Option String) : List ScopeScript → List (List Visit) × Ending
  | [] => ([], .done)
  | scope :: rest =>
    let asked := askScope paginate scope
    if asked.2 = .done then
      let others := askScopes paginate rest
      (asked.1 :: others.1, others.2)
    else ([asked.1], asked.2)

def ask (paginate : Option String) (attempt : Attempt) : List (List Visit) × Ending :=
  match attempt.version with
  | .error failure => ([], .failed failure)
  | .ok false => ([], .done)
  | .ok true => askScopes paginate attempt.scopes

/-- The answers of an attempt that were saved or not, in order. -/
def received (paginate : Option String) (attempt : Attempt) : List Visit :=
  (ask paginate attempt).1.flatten

/-- The attempts that fail and are repeated, the last one, and whether it succeeds. -/
def history (paginate : Option String) : List Attempt → Option (List Attempt × Attempt × Bool)
  | [] => none
  | attempt :: rest =>
    match (ask paginate attempt).2 with
    | .unfinished => none
    | .done => some ([], attempt, true)
    | .failed failure =>
      if !failure.shouldRetry || attempt.expired then some ([], attempt, false)
      else (history paginate rest).map fun (earlier, last, succeeded) =>
        (attempt :: earlier, last, succeeded)

end Asking

section Measures

def responseTime (visits : List Visit) : ℕ :=
  (visits.map fun visit => visit.response.responseTimeMs).sum

def responseSize (visits : List Visit) : ℕ :=
  (visits.map fun visit => visit.response.responseSizeBytes).sum

/-- The time and the size of the answer that an attempt fails with. -/
def failingMetrics : Ending → ℕ × ℕ
  | .failed (.http _ responseTimeMs responseSizeBytes) => (responseTimeMs, responseSizeBytes)
  | .failed (.transport _) | .done | .unfinished => (0, 0)

/-- All that was received in the attempts. -/
def totalTime (paginate : Option String) (attempts : List Attempt) : ℕ :=
  (attempts.map fun attempt =>
    responseTime (received paginate attempt) + (failingMetrics (ask paginate attempt).2).1).sum

def totalSize (paginate : Option String) (attempts : List Attempt) : ℕ :=
  (attempts.map fun attempt =>
    responseSize (received paginate attempt) + (failingMetrics (ask paginate attempt).2).2).sum

/-- What is added for the failing answer of an attempt. -/
def addedTime (paginate : Option String) (attempt : Attempt) : ℕ :=
  fallbackResponseTimeMs (failingMetrics (ask paginate attempt).2).1 attempt.elapsedMs
    (responseTime (received paginate attempt))

/-- The answer that an attempt fails with took time, or none was spent without an answer. -/
def IsMeasured (paginate : Option String) (attempt : Attempt) : Prop :=
  (failingMetrics (ask paginate attempt).2).1 ≠ 0 ∨
    attempt.elapsedMs ≤ responseTime (received paginate attempt)

theorem addedTime_ge (paginate : Option String) (attempt : Attempt) :
    (failingMetrics (ask paginate attempt).2).1 ≤ addedTime paginate attempt := by
  unfold addedTime fallbackResponseTimeMs
  split <;> omega

theorem addedTime_eq_iff (paginate : Option String) (attempt : Attempt) :
    addedTime paginate attempt = (failingMetrics (ask paginate attempt).2).1 ↔
      IsMeasured paginate attempt := by
  unfold addedTime fallbackResponseTimeMs IsMeasured
  split <;> omega

theorem sum_map_le {α : Type} {f g : α → ℕ} {xs : List α} (h : ∀ x ∈ xs, f x ≤ g x) :
    (xs.map f).sum ≤ (xs.map g).sum := by
  induction xs with
  | nil => simp
  | cons x rest ih =>
    have hrest := ih fun y hy => h y (List.mem_cons_of_mem x hy)
    have hhead := h x List.mem_cons_self
    simp only [List.map_cons, List.sum_cons]
    omega

/-- Sums agree where no term exceeds its partner, exactly if all terms agree. -/
theorem sum_map_eq_iff {α : Type} {f g : α → ℕ} {xs : List α} (h : ∀ x ∈ xs, f x ≤ g x) :
    (xs.map g).sum = (xs.map f).sum ↔ ∀ x ∈ xs, g x = f x := by
  induction xs with
  | nil => simp
  | cons x rest ih =>
    have hrest := fun y hy => h y (List.mem_cons_of_mem x hy)
    have hhead := h x List.mem_cons_self
    have hle : (rest.map f).sum ≤ (rest.map g).sum := sum_map_le hrest
    rw [List.forall_mem_cons, ← ih hrest, List.map_cons, List.map_cons, List.sum_cons,
      List.sum_cons]
    omega

/-- The time that is reported for an attempt. -/
def reportedTime (paginate : Option String) (attempt : Attempt) : ℕ :=
  responseTime (received paginate attempt) +
    if (ask paginate attempt).2 = .done then 0 else addedTime paginate attempt

end Measures

section Files

variable (exporter : ArchiveExporter) (baseFilePath : Path)

/-- The names that are counted as saved, and the files, after some answers. -/
def saveVisits (files : List Path) : List Visit → List Path × List Path
  | [] => ([], files)
  | visit :: rest =>
    let first := saveContent exporter baseFilePath visit.space visit.pageScope visit.writable files
    let others := saveVisits first.2 rest
    (first.1 ++ others.1, others.2)

/-- The name under which the exporter takes an answer that can be written. -/
def entryOf (visit : Visit) : Option Path :=
  if visit.writable then
    exporter.entryName (scopedOutputPath baseFilePath visit.space visit.pageScope)
  else none

def written (visits : List Visit) : List Path := visits.filterMap (entryOf exporter baseFilePath)

variable {exporter baseFilePath}

theorem saveVisits_append (files : List Path) (visits rest : List Visit) :
    saveVisits exporter baseFilePath files (visits ++ rest) =
      ((saveVisits exporter baseFilePath files visits).1 ++
          (saveVisits exporter baseFilePath
            (saveVisits exporter baseFilePath files visits).2 rest).1,
        (saveVisits exporter baseFilePath
          (saveVisits exporter baseFilePath files visits).2 rest).2) := by
  induction visits generalizing files with
  | nil => simp [saveVisits]
  | cons visit others ih => simp only [List.cons_append, saveVisits, ih, List.append_assoc]

theorem written_append (visits rest : List Visit) :
    written exporter baseFilePath (visits ++ rest) =
      written exporter baseFilePath visits ++ written exporter baseFilePath rest :=
  List.filterMap_append

/-- What one answer leaves and counts. -/
theorem saveContent_eq (visit : Visit) (files : List Path) :
    saveContent exporter baseFilePath visit.space visit.pageScope visit.writable files =
      match entryOf exporter baseFilePath visit with
      | none => ([], files)
      | some name =>
        if exporter = .zip ∧ name ∈ files then ([], files)
        else ([name], if name ∈ files then files else files ++ [name]) := by
  unfold saveContent ArchiveExporter.save entryOf
  cases hname : exporter.entryName
      (scopedOutputPath baseFilePath visit.space visit.pageScope) with
  | none => cases visit.writable <;> rfl
  | some name =>
    cases visit.writable with
    | false => simp
    | true =>
      by_cases hrefused : exporter = .zip ∧ name ∈ files
      · simp [hrefused]
      · simp only [Bool.true_eq_false, false_or, if_neg hrefused, if_true]
        rfl

theorem mem_saveVisits_files (files : List Path) (visits : List Visit) (name : Path) :
    name ∈ (saveVisits exporter baseFilePath files visits).2 ↔
      name ∈ files ∨ name ∈ written exporter baseFilePath visits := by
  induction visits generalizing files with
  | nil => simp [saveVisits, written]
  | cons visit rest ih =>
    simp only [saveVisits, ih, saveContent_eq, written, List.filterMap_cons]
    cases hentry : entryOf exporter baseFilePath visit with
    | none => rfl
    | some one =>
      simp only
      split
      · rename_i hrefused
        simp only [List.mem_cons]
        constructor
        · exact fun h => h.imp_right Or.inr
        · rintro (hfile | rfl | hrest)
          · exact Or.inl hfile
          · exact Or.inl hrefused.2
          · exact Or.inr hrest
      · simp only [List.mem_cons]
        split
        · rename_i hpresent
          constructor
          · exact fun h => h.imp_right Or.inr
          · rintro (hfile | rfl | hrest)
            · exact Or.inl hfile
            · exact Or.inl hpresent
            · exact Or.inr hrest
        · rw [List.mem_append, List.mem_singleton, or_assoc]

/-- A directory counts every file that is written. -/
theorem saveVisits_directory (files : List Path) (visits : List Visit) :
    (saveVisits .directory baseFilePath files visits).1 =
      written .directory baseFilePath visits := by
  induction visits generalizing files with
  | nil => rfl
  | cons visit rest ih =>
    simp only [saveVisits, ih, saveContent_eq, written, List.filterMap_cons]
    cases hentry : entryOf .directory baseFilePath visit with
    | none => rfl
    | some one => simp

theorem saveContent_zip (visit : Visit) (files : List Path) :
    saveContent .zip baseFilePath visit.space visit.pageScope visit.writable files =
      match entryOf .zip baseFilePath visit with
      | none => ([], files)
      | some name => if name ∈ files then ([], files) else ([name], files ++ [name]) := by
  rw [saveContent_eq]
  cases hentry : entryOf .zip baseFilePath visit with
  | none => rfl
  | some name => by_cases hname : name ∈ files <;> simp [hname]

/-- An archive counts a name only when it is new. -/
theorem mem_saveVisits_zip (files : List Path) (visits : List Visit) (name : Path) :
    name ∈ (saveVisits .zip baseFilePath files visits).1 ↔
      name ∈ written .zip baseFilePath visits ∧ name ∉ files := by
  induction visits generalizing files with
  | nil => simp [saveVisits, written]
  | cons visit rest ih =>
    have hrest : rest.filterMap (entryOf .zip baseFilePath) = written .zip baseFilePath rest := rfl
    simp only [saveVisits, saveContent_zip, written, List.filterMap_cons]
    cases hentry : entryOf .zip baseFilePath visit with
    | none =>
      simp only [hrest, List.nil_append]
      exact ih files
    | some one =>
      simp only [hrest]
      by_cases hone : one ∈ files
      · rw [if_pos hone, List.nil_append, ih, List.mem_cons]
        constructor
        · exact fun h => ⟨Or.inr h.1, h.2⟩
        · rintro ⟨rfl | h, hnew⟩
          · exact absurd hone hnew
          · exact ⟨h, hnew⟩
      · rw [if_neg hone, List.mem_append, ih, List.mem_singleton, List.mem_cons,
          List.mem_append, List.mem_singleton]
        constructor
        · rintro (rfl | ⟨h, hnew⟩)
          · exact ⟨Or.inl rfl, hone⟩
          · exact ⟨Or.inr h, fun hfile => hnew (Or.inl hfile)⟩
        · rintro ⟨hname, hnew⟩
          by_cases heq : name = one
          · exact Or.inl heq
          · exact Or.inr ⟨hname.resolve_left heq, fun h => h.elim hnew heq⟩

theorem nodup_saveVisits_zip (files : List Path) (visits : List Visit) :
    (saveVisits .zip baseFilePath files visits).1.Nodup := by
  induction visits generalizing files with
  | nil => exact List.nodup_nil
  | cons visit rest ih =>
    simp only [saveVisits, saveContent_zip]
    cases hentry : entryOf .zip baseFilePath visit with
    | none => exact ih files
    | some one =>
      by_cases hone : one ∈ files
      · simp only [if_pos hone, List.nil_append]
        exact ih files
      · simp only [if_neg hone, List.singleton_append, List.nodup_cons]
        refine ⟨fun hmem => ?_, ih _⟩
        exact ((mem_saveVisits_zip _ rest one).mp hmem).2
          (List.mem_append_right _ (List.mem_singleton_self one))

end Files

section Specifications

variable (exporter : ArchiveExporter) (baseFilePath : Path)

def requestedTime (requestedApi : Option RequestedApi) : ℕ :=
  (requestedApi.map RequestedApi.responseTimeMs).getD 0

def requestedSize (requestedApi : Option RequestedApi) : ℕ :=
  (requestedApi.map RequestedApi.responseSizeBytes).getD 0

/-- What is carried by hand through the loops. -/
structure Tally where
  ending : Ending
  saved : List Path
  timeMs : ℕ
  sizeBytes : ℕ

def tallyOf : Except CollectError (Option RequestedApi × List Path) → Tally
  | .ok (requestedApi, saved) =>
    ⟨.done, saved, requestedTime requestedApi, requestedSize requestedApi⟩
  | .error error =>
    ⟨.failed error.failure, error.saved, error.completedMetrics.1, error.completedMetrics.2⟩

def tallyOfScope : Except CollectError (RequestedApi × List Path) → Tally
  | .ok (requestedApi, saved) => tallyOf (.ok (some requestedApi, saved))
  | .error error => tallyOf (.error error)

/-- Some answers, on top of what was collected before them. -/
def tally (saved : List Path) (requestedApi : Option RequestedApi) (files : List Path)
    (visits : List Visit) (ending : Ending) : Tally :=
  ⟨ending, saved ++ (saveVisits exporter baseFilePath files visits).1,
    requestedTime requestedApi + responseTime visits,
    requestedSize requestedApi + responseSize visits⟩

variable {exporter baseFilePath}

@[simp] theorem responseTime_nil : responseTime [] = 0 := rfl

@[simp] theorem responseSize_nil : responseSize [] = 0 := rfl

@[simp] theorem responseTime_cons (visit : Visit) (rest : List Visit) :
    responseTime (visit :: rest) = visit.response.responseTimeMs + responseTime rest :=
  List.sum_cons

@[simp] theorem responseSize_cons (visit : Visit) (rest : List Visit) :
    responseSize (visit :: rest) = visit.response.responseSizeBytes + responseSize rest :=
  List.sum_cons

@[simp] theorem responseTime_append (visits rest : List Visit) :
    responseTime (visits ++ rest) = responseTime visits + responseTime rest := by
  simp [responseTime]

@[simp] theorem responseSize_append (visits rest : List Visit) :
    responseSize (visits ++ rest) = responseSize visits + responseSize rest := by
  simp [responseSize]

theorem mergeRequestedApi_time (target : Option RequestedApi) (next : RequestedApi) :
    (mergeRequestedApi target next).responseTimeMs = requestedTime target + next.responseTimeMs := by
  cases target with
  | none => simp [mergeRequestedApi, requestedTime]
  | some current => rfl

theorem mergeRequestedApi_size (target : Option RequestedApi) (next : RequestedApi) :
    (mergeRequestedApi target next).responseSizeBytes =
      requestedSize target + next.responseSizeBytes := by
  cases target with
  | none => simp [mergeRequestedApi, requestedSize]
  | some current => rfl

/-- The loop over the pages is the plan, with the files folded over it. -/
theorem savePages_spec {paginateField : String} {space : Option String} {pages : List PageAnswer}
    {page totalPages : ℕ} {saved files files' : List Path} {requestedApi : Option RequestedApi}
    {result : Except CollectError (RequestedApi × List Path)} {visits : List Visit}
    (h : savePages exporter baseFilePath paginateField space page totalPages saved requestedApi
      files pages = some (result, files', visits)) :
    visits = (askPages paginateField space page totalPages pages).1 ∧
      files' = (saveVisits exporter baseFilePath files visits).2 ∧
      tallyOfScope result = tally exporter baseFilePath saved requestedApi files visits
        (askPages paginateField space page totalPages pages).2 := by
  induction pages generalizing page totalPages saved requestedApi files files' visits with
  | nil => cases h
  | cons answered rest ih =>
    unfold savePages at h
    unfold askPages
    cases hanswer : answered.answer with
    | error failure =>
      simp only [hanswer, Option.some.injEq, Prod.mk.injEq] at h ⊢
      obtain ⟨rfl, rfl, rfl⟩ := h
      refine ⟨rfl, rfl, ?_⟩
      simp [tallyOfScope, tallyOf, tally, saveVisits, CollectError.failure, CollectError.saved,
        CollectError.completedMetrics, requestedTime, requestedSize]
    | ok response =>
      simp only [hanswer] at h ⊢
      generalize max totalPages ((parseTotalPages response.body paginateField page).getD page) =
        total at h ⊢
      by_cases hdone : total ≤ page
      · simp only [if_pos hdone, Option.some.injEq, Prod.mk.injEq] at h ⊢
        obtain ⟨rfl, rfl, rfl⟩ := h
        refine ⟨rfl, rfl, ?_⟩
        simp [tallyOfScope, tallyOf, tally, saveVisits, requestedTime, requestedSize,
          mergeRequestedApi_time, mergeRequestedApi_size, requestedApiOf]
      · simp only [if_neg hdone, Option.map_eq_some_iff] at h ⊢
        obtain ⟨⟨result', files'', visits'⟩, hrest, heq⟩ := h
        simp only [Prod.mk.injEq] at heq
        obtain ⟨rfl, rfl, rfl⟩ := heq
        obtain ⟨hvisits, hfiles, htally⟩ := ih hrest
        refine ⟨by rw [hvisits], by rw [hfiles]; rfl, ?_⟩
        rw [htally]
        simp [tally, saveVisits, requestedTime, requestedSize, mergeRequestedApi_time,
          mergeRequestedApi_size, requestedApiOf, Nat.add_assoc]

theorem saveEndpoint_spec {paginate : Option String} {scope : ScopeScript}
    {files files' : List Path} {result : Except CollectError (RequestedApi × List Path)}
    {visits : List Visit}
    (h : saveEndpoint exporter baseFilePath paginate scope files = some (result, files', visits)) :
    visits = (askScope paginate scope).1 ∧
      files' = (saveVisits exporter baseFilePath files visits).2 ∧
      tallyOfScope result =
        tally exporter baseFilePath [] none files visits (askScope paginate scope).2 := by
  unfold saveEndpoint at h
  unfold askScope
  cases paginate with
  | some paginateField => exact savePages_spec h
  | none =>
    cases hpages : scope.pages with
    | nil => simp [hpages] at h
    | cons answered rest =>
      cases hanswer : answered.answer with
      | error failure =>
        simp only [hpages, hanswer, Option.some.injEq, Prod.mk.injEq] at h ⊢
        obtain ⟨rfl, rfl, rfl⟩ := h
        exact ⟨rfl, rfl, rfl⟩
      | ok response =>
        simp only [hpages, hanswer, Option.some.injEq, Prod.mk.injEq] at h ⊢
        obtain ⟨rfl, rfl, rfl⟩ := h
        refine ⟨rfl, rfl, ?_⟩
        simp [tallyOfScope, tallyOf, tally, saveVisits, requestedTime, requestedSize,
          requestedApiOf]

theorem saveVisits_append_files (files : List Path) (visits rest : List Visit) :
    (saveVisits exporter baseFilePath (saveVisits exporter baseFilePath files visits).2 rest).2 =
      (saveVisits exporter baseFilePath files (visits ++ rest)).2 := by
  rw [saveVisits_append]

theorem tally_append (saved : List Path) (requestedApi : Option RequestedApi)
    (files : List Path) (visits rest : List Visit) (ending : Ending) (api : RequestedApi)
    (htime : api.responseTimeMs = requestedTime requestedApi + responseTime visits)
    (hsize : api.responseSizeBytes = requestedSize requestedApi + responseSize visits) :
    tally exporter baseFilePath (saved ++ (saveVisits exporter baseFilePath files visits).1)
        (some api) (saveVisits exporter baseFilePath files visits).2 rest ending =
      tally exporter baseFilePath saved requestedApi files (visits ++ rest) ending := by
  have htime' : requestedTime (some api) = api.responseTimeMs := rfl
  have hsize' : requestedSize (some api) = api.responseSizeBytes := rfl
  simp only [tally, saveVisits_append, responseTime_append, responseSize_append, htime', hsize',
    htime, hsize, Nat.add_assoc, List.append_assoc]

/-- The loop over the scopes is the plan as well. -/
theorem saveScopes_spec {paginate : Option String} {scopes : List ScopeScript}
    {saved files files' : List Path} {requestedApi : Option RequestedApi}
    {result : Except CollectError (Option RequestedApi × List Path)} {visits : List (List Visit)}
    (h : saveScopes exporter baseFilePath paginate saved requestedApi files scopes =
      some (result, files', visits)) :
    visits = (askScopes paginate scopes).1 ∧
      files' = (saveVisits exporter baseFilePath files visits.flatten).2 ∧
      tallyOf result = tally exporter baseFilePath saved requestedApi files visits.flatten
        (askScopes paginate scopes).2 := by
  induction scopes generalizing saved requestedApi files files' visits with
  | nil =>
    simp only [saveScopes, Option.some.injEq, Prod.mk.injEq] at h
    obtain ⟨rfl, rfl, rfl⟩ := h
    refine ⟨rfl, rfl, ?_⟩
    simp [tallyOf, tally, saveVisits, askScopes]
  | cons scope rest ih =>
    unfold saveScopes at h
    unfold askScopes
    cases hscope : saveEndpoint exporter baseFilePath paginate scope files with
    | none => simp [hscope] at h
    | some endpoint =>
      obtain ⟨scopeResult, files₁, visits₁⟩ := endpoint
      obtain ⟨hvisits, hfiles, htally⟩ := saveEndpoint_spec hscope
      cases scopeResult with
      | error error =>
        simp only [hscope, Option.some.injEq, Prod.mk.injEq] at h
        obtain ⟨rfl, rfl, rfl⟩ := h
        simp only [tallyOfScope, tallyOf, tally, Tally.mk.injEq] at htally
        obtain ⟨hending, hsaved, htime, hsize⟩ := htally
        have hfailed : (askScope paginate scope).2 ≠ .done := by
          rw [← hending]
          exact fun hdone => nomatch hdone
        simp only [if_neg hfailed, List.flatten_singleton]
        refine ⟨by rw [hvisits], hfiles, ?_⟩
        rw [List.nil_append] at hsaved
        have hnone : requestedTime none = 0 ∧ requestedSize none = 0 := ⟨rfl, rfl⟩
        rw [hnone.1, Nat.zero_add] at htime
        rw [hnone.2, Nat.zero_add] at hsize
        refine (Tally.mk.injEq ..).mpr ⟨hending, congrArg (saved ++ ·) hsaved, ?_, ?_⟩
        · exact congrArg (requestedTime requestedApi + ·) htime
        · exact congrArg (requestedSize requestedApi + ·) hsize
      | ok answered =>
        obtain ⟨scopeRequestedApi, scopeSaved⟩ := answered
        simp only [hscope, Option.map_eq_some_iff] at h
        obtain ⟨⟨result', files'', visits'⟩, hrest, heq⟩ := h
        simp only [Prod.mk.injEq] at heq
        obtain ⟨rfl, rfl, rfl⟩ := heq
        simp only [tallyOfScope, tallyOf, tally, Tally.mk.injEq, List.nil_append] at htally
        obtain ⟨hending, hsaved, htime, hsize⟩ := htally
        have hnone : requestedTime none = 0 ∧ requestedSize none = 0 := ⟨rfl, rfl⟩
        rw [hnone.1, Nat.zero_add] at htime
        rw [hnone.2, Nat.zero_add] at hsize
        obtain ⟨hvisits', hfiles', htally'⟩ := ih hrest
        simp only [← hending, if_true, List.flatten_cons]
        refine ⟨by rw [hvisits, hvisits'], ?_, ?_⟩
        · rw [hfiles', hfiles, saveVisits_append_files]
        · rw [htally', hfiles, hsaved]
          refine tally_append _ _ _ _ _ _ _ ?_ ?_
          · rw [mergeRequestedApi_time, ← htime]
            rfl
          · rw [mergeRequestedApi_size, ← hsize]
            rfl

/-- Only an attempt without a scope has nothing to report. -/
theorem saveScopes_requested {paginate : Option String} {scopes : List ScopeScript}
    {saved saved' files files' : List Path} {requestedApi requestedApi' : Option RequestedApi}
    {visits : List (List Visit)}
    (h : saveScopes exporter baseFilePath paginate saved requestedApi files scopes =
      some (.ok (requestedApi', saved'), files', visits)) :
    requestedApi' = none ↔ requestedApi = none ∧ visits = [] := by
  induction scopes generalizing saved requestedApi files files' visits with
  | nil =>
    simp only [saveScopes, Option.some.injEq, Prod.mk.injEq, Except.ok.injEq] at h
    obtain ⟨⟨rfl, rfl⟩, rfl, rfl⟩ := h
    simp
  | cons scope rest ih =>
    unfold saveScopes at h
    split at h
    · cases h
    · simp at h
    · simp only [Option.map_eq_some_iff] at h
      obtain ⟨⟨result', files'', visits'⟩, hrest, heq⟩ := h
      simp only [Prod.mk.injEq] at heq
      obtain ⟨rfl, rfl, rfl⟩ := heq
      have hsome := ih hrest
      simp only [reduceCtorEq, false_and, iff_false] at hsome
      simp [hsome]

variable {name : String} {paginate : Option String} {files files' : List Path}
  {attempt : Attempt} {visits : List (List Visit)}

/-- An attempt that fails. -/
theorem saveApi_error {error : CollectError}
    (h : saveApi exporter baseFilePath name paginate files attempt =
      some (.error error, files', visits)) :
    visits = (ask paginate attempt).1 ∧
      files' = (saveVisits exporter baseFilePath files (received paginate attempt)).2 ∧
      tallyOf (.error error) =
        tally exporter baseFilePath [] none files (received paginate attempt)
          (ask paginate attempt).2 := by
  unfold saveApi at h
  unfold received ask
  cases hversion : attempt.version with
  | error failure =>
    simp only [hversion, Option.some.injEq, Prod.mk.injEq, Except.error.injEq] at h ⊢
    obtain ⟨rfl, rfl, rfl⟩ := h
    exact ⟨rfl, rfl, rfl⟩
  | ok supported =>
    cases supported with
    | false => simp [hversion] at h
    | true =>
      simp only [hversion] at h ⊢
      split at h
      · cases h
      · rename_i hscopes
        simp only [Option.some.injEq, Prod.mk.injEq, Except.error.injEq] at h
        obtain ⟨rfl, rfl, rfl⟩ := h
        obtain ⟨hvisits, hfiles, htally⟩ := saveScopes_spec hscopes
        rw [hvisits] at hfiles htally
        exact ⟨hvisits, hfiles, htally⟩
      · simp at h
      · simp at h

/-- An attempt that succeeds. -/
theorem saveApi_ok {outcome : ApiCollectOutcome}
    (h : saveApi exporter baseFilePath name paginate files attempt =
      some (.ok outcome, files', visits)) :
    visits = (ask paginate attempt).1 ∧
      files' = (saveVisits exporter baseFilePath files (received paginate attempt)).2 ∧
      (ask paginate attempt).2 = .done ∧
      outcome.saved = (saveVisits exporter baseFilePath files (received paginate attempt)).1 ∧
      (outcome.requestedApi = none ↔ visits = []) ∧
      ∀ api, outcome.requestedApi = some api →
        api.2.responseTimeMs = responseTime (received paginate attempt) ∧
        api.2.responseSizeBytes = responseSize (received paginate attempt) := by
  unfold saveApi at h
  unfold received ask
  cases hversion : attempt.version with
  | error failure => simp [hversion] at h
  | ok supported =>
    cases supported with
    | false =>
      simp only [hversion, Option.some.injEq, Prod.mk.injEq, Except.ok.injEq] at h ⊢
      obtain ⟨rfl, rfl, rfl⟩ := h
      refine ⟨rfl, rfl, trivial, rfl, ?_, nofun⟩
      simp [ApiCollectOutcome.skipped]
    | true =>
      simp only [hversion] at h ⊢
      split at h
      · cases h
      · simp at h
      · rename_i requestedApi saved files₁ visits₁ hscopes
        simp only [Option.some.injEq, Prod.mk.injEq, Except.ok.injEq] at h
        obtain ⟨rfl, rfl, rfl⟩ := h
        obtain ⟨hvisits, hfiles, htally⟩ := saveScopes_spec hscopes
        have hrequested := saveScopes_requested hscopes
        rw [hvisits] at hfiles htally
        simp only [tallyOf, tally, Tally.mk.injEq, List.nil_append] at htally
        obtain ⟨hending, hsaved, htime, hsize⟩ := htally
        have hnone : requestedTime none = 0 ∧ requestedSize none = 0 := ⟨rfl, rfl⟩
        rw [hnone.1, Nat.zero_add] at htime
        rw [hnone.2, Nat.zero_add] at hsize
        refine ⟨hvisits, hfiles, hending.symm, hsaved, ?_, ?_⟩
        · simpa using hrequested
        · rintro api hapi
          cases hapi
          exact ⟨htime, hsize⟩
      · rename_i saved files₁ visits₁ hscopes
        simp only [Option.some.injEq, Prod.mk.injEq, Except.ok.injEq] at h
        obtain ⟨rfl, rfl, rfl⟩ := h
        obtain ⟨hvisits, hfiles, htally⟩ := saveScopes_spec hscopes
        have hempty : visits₁ = [] := ((saveScopes_requested hscopes).mp rfl).2
        rw [hempty] at hvisits hfiles
        simp only [tallyOf, tally, Tally.mk.injEq] at htally
        rw [hempty, ← hvisits]
        refine ⟨rfl, hfiles, htally.1.symm, rfl, ?_, nofun⟩
        simp [ApiCollectOutcome.skipped]

end Specifications

section Retries

variable (exporter : ArchiveExporter) (baseFilePath : Path) (paginate : Option String)

/-- The outcome of an API in terms of the answers of its attempts, on top of what was retried. -/
structure Collected (retried : Retried) (files : List Path) (earlier : List Attempt)
    (last : Attempt) (run : ApiRun) : Prop where
  answers : run.visits = (ask paginate last).1
  present : run.files = (saveVisits exporter baseFilePath files
    ((earlier ++ [last]).flatMap (received paginate))).2
  saved : run.outcome.saved =
    if run.succeeded then
      (saveVisits exporter baseFilePath (saveVisits exporter baseFilePath files
        (earlier.flatMap (received paginate))).2 (received paginate last)).1
    else
      retried.saved ++ (saveVisits exporter baseFilePath files
        ((earlier ++ [last]).flatMap (received paginate))).1
  requested : run.outcome.requestedApi = none ↔ run.succeeded = true ∧ run.visits = []
  measured : ∀ api, run.outcome.requestedApi = some api →
    api.2.responseTimeMs =
        retried.responseTimeMs + ((earlier ++ [last]).map (reportedTime paginate)).sum ∧
      api.2.responseSizeBytes =
        retried.responseSizeBytes + totalSize paginate (earlier ++ [last])

variable {exporter baseFilePath paginate} {files : List Path} {attempt : Attempt}

theorem requestMetrics_eq (error : CollectError) :
    error.requestMetrics.2 = failingMetrics (.failed error.failure) := by
  unfold CollectError.requestMetrics
  cases error.failure <;> rfl

/-- What a failed attempt adds to what is carried over. -/
theorem retried_add (retried : Retried) {error : CollectError}
    (h : tallyOf (.error error) = tally exporter baseFilePath [] none files
      (received paginate attempt) (ask paginate attempt).2) :
    retried.add error attempt.elapsedMs =
      { retried with
        responseTimeMs := retried.responseTimeMs + reportedTime paginate attempt
        responseSizeBytes := retried.responseSizeBytes + totalSize paginate [attempt]
        saved := retried.saved ++
          (saveVisits exporter baseFilePath files (received paginate attempt)).1 } := by
  simp only [tallyOf, tally, Tally.mk.injEq, List.nil_append] at h
  obtain ⟨hending, hsaved, htime, hsize⟩ := h
  have hnone : requestedTime none = 0 ∧ requestedSize none = 0 := ⟨rfl, rfl⟩
  rw [hnone.1, Nat.zero_add] at htime
  rw [hnone.2, Nat.zero_add] at hsize
  have hfailed : (ask paginate attempt).2 ≠ .done := by
    rw [← hending]
    exact fun hdone => nomatch hdone
  have hmetrics := requestMetrics_eq error
  rw [hending] at hmetrics
  have hmetricsTime := congrArg Prod.fst hmetrics
  have hmetricsSize := congrArg Prod.snd hmetrics
  simp only [Retried.add, reportedTime, addedTime, totalSize, if_neg hfailed, hsaved, htime, hsize,
    hmetricsTime, hmetricsSize, List.map_cons, List.map_nil, List.sum_cons, List.sum_nil,
    Nat.add_zero]

theorem totalSize_cons (attempts : List Attempt) :
    totalSize paginate (attempt :: attempts) =
      totalSize paginate [attempt] + totalSize paginate attempts := by
  simp [totalSize]

/-- The repetition of an API is its history, with what is carried over. -/
theorem saveApiWithRetry_spec {name : String} {attempts : List Attempt} {retried : Retried}
    {run : ApiRun}
    (h : saveApiWithRetry exporter baseFilePath name paginate retried files attempts =
      some run) :
    ∃ earlier last, history paginate attempts = some (earlier, last, run.succeeded) ∧
      Collected exporter baseFilePath paginate retried files earlier last run := by
  induction attempts generalizing retried files with
  | nil => cases h
  | cons attempt rest ih =>
    unfold saveApiWithRetry at h
    unfold history
    split at h
    · cases h
    · rename_i outcome files' visits happly
      obtain ⟨hvisits, hfiles, hending, hsaved, hrequested, hmeasured⟩ := saveApi_ok happly
      simp only [Option.some.injEq] at h
      obtain rfl := h
      refine ⟨[], attempt, by rw [hending], hvisits, ?_, ?_, ?_, ?_⟩
      · simpa using hfiles
      · simpa [ApiCollectOutcome.withRetried, saveVisits] using hsaved
      · simpa [ApiCollectOutcome.withRetried] using hrequested
      · intro api hapi
        simp only [ApiCollectOutcome.withRetried, Option.map_eq_some_iff] at hapi
        obtain ⟨reported, hreported, rfl⟩ := hapi
        obtain ⟨htime, hsize⟩ := hmeasured reported hreported
        simp only [htime, hsize, reportedTime, totalSize, hending, failingMetrics, if_true,
          List.nil_append, List.map_cons, List.map_nil, List.sum_cons, List.sum_nil]
        omega
    · rename_i error files' visits happly
      obtain ⟨hvisits, hfiles, htally⟩ := saveApi_error happly
      have hadd := retried_add retried htally
      have hending : (ask paginate attempt).2 = .failed error.failure :=
        (congrArg Tally.ending htally).symm
      simp only [hending]
      have hretry : shouldRetryKibanaError error = error.failure.shouldRetry := rfl
      by_cases hstop : (!shouldRetryKibanaError error || attempt.expired) = true
      · simp only [if_pos hstop, Option.some.injEq] at h
        obtain rfl := h
        rw [hretry] at hstop
        simp only [if_pos hstop]
        refine ⟨[], attempt, rfl, hvisits, ?_, ?_, ?_, ?_⟩
        · simpa using hfiles
        · simp [hadd, failedWithSaved]
        · simp [failedWithSaved]
        · intro api hapi
          simp only [failedWithSaved, Option.some.injEq] at hapi
          obtain rfl := hapi
          simp [hadd]
      · simp only [if_neg hstop] at h
        rw [hretry] at hstop
        obtain ⟨earlier, last, hhistory, hcollected⟩ := ih h
        simp only [if_neg hstop, hhistory]
        refine ⟨attempt :: earlier, last, rfl, hcollected.answers, ?_, ?_,
          hcollected.requested, ?_⟩
        · rw [hcollected.present, hfiles, saveVisits_append_files]
          rfl
        · rw [hcollected.saved, hfiles, hadd, saveVisits_append_files]
          cases run.succeeded with
          | true => rfl
          | false =>
            simp only [Bool.false_eq_true, if_false, List.cons_append, List.flatMap_cons,
              saveVisits_append, List.append_assoc]
        · intro api hapi
          obtain ⟨htime, hsize⟩ := hcollected.measured api hapi
          rw [hadd] at htime hsize
          rw [List.cons_append, List.map_cons, List.sum_cons, totalSize_cons, htime, hsize]
          constructor
          · exact Nat.add_assoc _ _ _
          · exact Nat.add_assoc _ _ _

end Retries

end Esdiag.KibanaAttempts
