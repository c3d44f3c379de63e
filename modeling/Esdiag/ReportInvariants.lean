import Esdiag.Reports

/-!
What every report satisfies, from its construction on and through any sequence
of changes whose 32 bit additions do not overflow: its outcome is the one its
events and counts derive, its document total is the sum of created and
rejected documents, and its error counts are the lengths of its failure lists.
The recorded processor failures are those of the summaries that were added.
-/
namespace Esdiag.ReportInvariants

open SaturatingCounters KeyedMaps BatchResponses Deployments Reports

/-- No counter overflows when a single summary is added. -/
structure SummaryFits (report : DiagnosticReport) (summary : ProcessorSummary) : Prop where
  docs : summary.docs.toNat + summary.docErrors.toNat < 2 ^ 32
  created : report.docs.created.toNat + summary.docs.toNat < 2 ^ 32
  errors : report.docs.errors.toNat + summary.docErrors.toNat < 2 ^ 32
  total : report.docs.total.toNat + (summary.docs.toNat + summary.docErrors.toNat) < 2 ^ 32
  count : report.processor.count.toNat + 1 < 2 ^ 32
  failures : summary.unread = true → report.processor.errors.toNat + 1 < 2 ^ 32

def SummariesFit : DiagnosticReport → List ProcessorSummary → Prop
  | _, [] => True
  | report, summary :: rest =>
    SummaryFits report summary ∧ SummariesFit (report.addSingleProcessorSummary summary) rest

structure LookupFits {T : Type} (report : DiagnosticReport) (name : String)
    (lookup : Lookup T) : Prop where
  count : report.lookup.count.toNat + 1 < 2 ^ 32
  errors : lookup.missing = false → lookup.parsed = false → name ∉ report.lookup.failures →
    report.lookup.errors.toNat + 1 < 2 ^ 32

/-- A report after any sequence of changes, with the summaries it was given,
trees flattened, in the order of their arrival. -/
inductive Run (start : DiagnosticReport) : List ProcessorSummary → DiagnosticReport → Prop where
  | start : Run start [] start
  | recordEvent {added : List ProcessorSummary} {report : DiagnosticReport}
      (event : DiagnosticEvent) :
      Run start added report → Run start added (report.recordEvent event)
  | addLookup {added : List ProcessorSummary} {report : DiagnosticReport} {T : Type}
      (name : String) (lookup : Lookup T) :
      Run start added report → LookupFits report name lookup →
      Run start added (report.addLookup name lookup)
  | addProcessorSummary {added : List ProcessorSummary} {report : DiagnosticReport}
      (summary : ProcessorSummary) :
      Run start added report → SummariesFit report summary.intoSummaries →
      Run start (added ++ summary.intoSummaries) (report.addProcessorSummary summary)

structure Consistent (added : List ProcessorSummary) (report : DiagnosticReport) : Prop where
  outcome : report.outcome = deriveOutcome report.events report.docs
  total : report.docs.total.toNat = report.docs.created.toNat + report.docs.errors.toNat
  processorErrors : report.processor.errors.toNat = report.processor.failures.length
  processorFailures : report.processor.failures =
    (added.filter ProcessorSummary.unread).map ProcessorSummary.index
  lookupFailures : report.lookup.failures.Nodup
  lookupErrors : report.lookup.errors.toNat = report.lookup.failures.length

theorem build_consistent {builder : DiagnosticReportBuilder} {ambientUser : Option String}
    {report : DiagnosticReport} (hbuild : builder.build ambientUser = .ok report) :
    Consistent [] report := by
  unfold DiagnosticReportBuilder.build at hbuild
  cases horigin : builder.origin with
  | none => simp [horigin] at hbuild
  | some origin =>
    simp only [horigin, Except.ok.injEq] at hbuild
    subst hbuild
    exact ⟨rfl, rfl, rfl, rfl, List.nodup_nil, rfl⟩

theorem recordEvent_consistent {added : List ProcessorSummary} {report : DiagnosticReport}
    (event : DiagnosticEvent) (h : Consistent added report) :
    Consistent added (report.recordEvent event) :=
  ⟨rfl, h.total, h.processorErrors, h.processorFailures, h.lookupFailures, h.lookupErrors⟩

/-- A recorded failure keeps the error count at the length of the list. -/
theorem fail_errors {T : Type} {stats : NestedStats T} (name : String)
    (h : stats.errors.toNat = stats.failures.length) (hfits : stats.errors.toNat + 1 < 2 ^ 32) :
    (stats.fail name).errors.toNat = (stats.fail name).failures.length := by
  have hone : (1#32).toNat = 1 := rfl
  have hadd : (stats.errors + 1#32).toNat = stats.errors.toNat + (1#32).toNat :=
    toNat_add_of_lt (by omega)
  change (stats.errors + 1#32).toNat = (stats.failures ++ [name]).length
  rw [hadd, List.length_append, h]
  rfl

theorem addSingleProcessorSummary_consistent {added : List ProcessorSummary}
    {report : DiagnosticReport} {summary : ProcessorSummary} (h : Consistent added report)
    (hfits : SummaryFits report summary) :
    Consistent (added ++ [summary]) (report.addSingleProcessorSummary summary) := by
  have hdocs := toNat_add_of_lt hfits.docs
  have htotal : (report.docs.total + (summary.docs + summary.docErrors)).toNat =
      (report.docs.created + summary.docs).toNat +
        (report.docs.errors + summary.docErrors).toNat := by
    rw [toNat_add_of_lt hfits.created, toNat_add_of_lt hfits.errors,
      toNat_add_of_lt (by rw [hdocs]; exact hfits.total), hdocs, h.total]
    omega
  cases hunread : summary.unread with
  | true =>
    refine ⟨rfl, htotal, ?_, ?_, h.lookupFailures, h.lookupErrors⟩
    · have hfail := fail_errors summary.index h.processorErrors (hfits.failures hunread)
      simpa only [DiagnosticReport.addSingleProcessorSummary, DiagnosticReport.refreshOutcome,
        NestedStats.push, hunread, if_true] using hfail
    · simp [DiagnosticReport.addSingleProcessorSummary, DiagnosticReport.refreshOutcome,
        NestedStats.push, NestedStats.fail, hunread, h.processorFailures]
  | false =>
    refine ⟨rfl, htotal, ?_, ?_, h.lookupFailures, h.lookupErrors⟩
    · simpa [DiagnosticReport.addSingleProcessorSummary, DiagnosticReport.refreshOutcome,
        NestedStats.push, hunread] using h.processorErrors
    · simp [DiagnosticReport.addSingleProcessorSummary, DiagnosticReport.refreshOutcome,
        NestedStats.push, hunread, h.processorFailures]

theorem addSummaries_consistent (summaries : List ProcessorSummary)
    {added : List ProcessorSummary} {report : DiagnosticReport} (h : Consistent added report)
    (hfits : SummariesFit report summaries) :
    Consistent (added ++ summaries)
      (summaries.foldl DiagnosticReport.addSingleProcessorSummary report) := by
  induction summaries generalizing added report with
  | nil => simpa only [List.append_nil, List.foldl_nil] using h
  | cons summary rest ih =>
    obtain ⟨hfirst, hrest⟩ := hfits
    have hnext := ih (addSingleProcessorSummary_consistent h hfirst) hrest
    simpa only [List.append_assoc, List.singleton_append, List.foldl_cons] using hnext

theorem addLookup_consistent {added : List ProcessorSummary} {report : DiagnosticReport}
    {T : Type} (name : String) (lookup : Lookup T) (h : Consistent added report)
    (hfits : LookupFits report name lookup) : Consistent added (report.addLookup name lookup) := by
  unfold DiagnosticReport.addLookup
  cases hmissing : lookup.missing with
  | true =>
    exact ⟨h.outcome, h.total, h.processorErrors, h.processorFailures, h.lookupFailures,
      h.lookupErrors⟩
  | false =>
    cases hfails : !lookup.parsed && !report.lookup.failures.contains name with
    | false =>
      exact ⟨h.outcome, h.total, h.processorErrors, h.processorFailures, h.lookupFailures,
        h.lookupErrors⟩
    | true =>
      simp only [Bool.and_eq_true, Bool.not_eq_true', List.contains_eq_mem,
        decide_eq_false_iff_not] at hfails
      refine ⟨rfl, h.total, h.processorErrors, h.processorFailures, ?_, ?_⟩
      · exact List.nodup_append.mpr ⟨h.lookupFailures, List.nodup_singleton name, by
          intro other hother last hlast hsame
          rw [List.mem_singleton] at hlast
          exact hfails.2 (by rwa [← hlast, ← hsame])⟩
      · exact fail_errors name h.lookupErrors (hfits.errors hmissing hfails.1 hfails.2)

theorem run_consistent {start report : DiagnosticReport} {added : List ProcessorSummary}
    (hstart : Consistent [] start) (hrun : Run start added report) :
    Consistent added report := by
  induction hrun with
  | start => exact hstart
  | recordEvent event _ ih => exact recordEvent_consistent event ih
  | addLookup name lookup _ hfits ih => exact addLookup_consistent name lookup ih hfits
  | addProcessorSummary summary _ hfits ih => exact addSummaries_consistent _ ih hfits

/-- Every report built from a manifest stays consistent through all changes. -/
theorem manifest_report_consistent (manifest : DiagnosticManifest) (receiver : String)
    (ambientUser : Option String) {start report : DiagnosticReport}
    {added : List ProcessorSummary}
    (hbuild : ((DiagnosticReportBuilder.ofManifest manifest).receiver receiver).build
      ambientUser = .ok start)
    (hrun : Run start added report) : Consistent added report :=
  run_consistent (build_consistent hbuild) hrun

/-- A report with a failed request, then an unread source and a lookup that
could not be parsed. -/
theorem failed_report_consistent :
    ∃ start report,
      ((DiagnosticReportBuilder.ofManifest
        ⟨"diagnostic", none, some (KeyedMap.empty.insert "nodes" ⟨some 404⟩)⟩).receiver "file bundle.zip").build
          none = .ok start ∧
      Run start [.new "nodes"] report ∧ Consistent [.new "nodes"] report := by
  have hfits : SummariesFit (DiagnosticReport.mk "diagnostic" none Docs.none ⟨"file", "bundle.zip"⟩ (.empty .empty)
      (.empty .empty) (.default none) [.warning "nodes" "collection failed with HTTP 404"] .failed)
      (ProcessorSummary.new "nodes").intoSummaries :=
    ⟨⟨by decide, by decide, by decide, by decide, by decide, fun _ => by decide⟩, trivial⟩
  have hrun := Run.addLookup (T := Unit) "alias" ⟨[], false, false⟩
    (.addProcessorSummary (.new "nodes") .start hfits) ⟨by decide, fun _ _ _ => by decide⟩
  have hbuild : ((DiagnosticReportBuilder.ofManifest
      ⟨"diagnostic", none, some (KeyedMap.empty.insert "nodes" ⟨some 404⟩)⟩).receiver "file bundle.zip").build none =
        .ok (DiagnosticReport.mk "diagnostic" none Docs.none ⟨"file", "bundle.zip"⟩ (.empty .empty)
          (.empty .empty) (.default none)
          [.warning "nodes" "collection failed with HTTP 404"] .failed) := by rfl
  exact ⟨_, _, hbuild, hrun, manifest_report_consistent _ _ _ hbuild hrun⟩

end Esdiag.ReportInvariants
