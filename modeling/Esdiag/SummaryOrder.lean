import Esdiag.KeyedFolds
import Esdiag.ReportTotals

/-!
Processor summaries reach a report in the order in which their processors finish.
Every part of the report that a summary changes is a sum, a list that is only
added to, or an entry under the name of the processor. So long as no two of the
summaries share a name, another order gives the same report up to the order of
its events and failures.
-/
namespace Esdiag.SummaryOrder

open KeyedMaps KeyedFolds SaturatingCounters BatchResponses Reports
open DiagnosticReport (addSingleProcessorSummary addProcessorSummary)

section Fields

theorem add_right_comm_u32 (a b c : U32) : a + b + c = a + c + b := by
  rw [BitVec.add_assoc, BitVec.add_comm b c, ← BitVec.add_assoc]

/-- What a summary adds to the events of a report. -/
def eventsOf (summary : ProcessorSummary) : List DiagnosticEvent :=
  summary.events ++ summary.verdictEvents ++ summary.rejectionEvents

def addDocs (docs : Docs) (summary : ProcessorSummary) : Docs :=
  { created := docs.created + summary.docs
    errors := docs.errors + summary.docErrors
    total := docs.total + (summary.docs + summary.docErrors) }

/-- What a summary adds to the failures, for a source that was not read. -/
def failuresOf (summary : ProcessorSummary) : List String :=
  if summary.unread then [summary.index] else []

def addError (errors : U32) (summary : ProcessorSummary) : U32 :=
  if summary.unread then errors + 1#32 else errors

/-- The entry of a summary among the statistics; its events have been drained. -/
def statOf (summary : ProcessorSummary) : String × ProcessorSummary :=
  (summary.processor, { summary with events := [] })

variable (report : DiagnosticReport) (summary : ProcessorSummary)

theorem events_addSingle :
    (report.addSingleProcessorSummary summary).events = report.events ++ eventsOf summary := by
  rw [eventsOf, ← List.append_assoc, ← List.append_assoc]
  rfl

theorem docs_addSingle :
    (report.addSingleProcessorSummary summary).docs = addDocs report.docs summary := rfl

theorem count_addSingle :
    (report.addSingleProcessorSummary summary).processor.count =
      report.processor.count + 1#32 := by
  unfold addSingleProcessorSummary
  cases summary.unread <;> rfl

theorem errors_addSingle :
    (report.addSingleProcessorSummary summary).processor.errors =
      addError report.processor.errors summary := by
  unfold addSingleProcessorSummary addError
  cases summary.unread <;> rfl

theorem failures_addSingle :
    (report.addSingleProcessorSummary summary).processor.failures =
      report.processor.failures ++ failuresOf summary := by
  unfold addSingleProcessorSummary failuresOf
  cases summary.unread with
  | true => rfl
  | false => exact (List.append_nil _).symm

theorem stats_addSingle :
    (report.addSingleProcessorSummary summary).processor.stats =
      foldInto (fun stat _ => stat) report.processor.stats [statOf summary] := by
  unfold addSingleProcessorSummary
  cases summary.unread <;> rfl

end Fields

section Orders

/-- The outcome does not depend on the order of the events. -/
theorem deriveOutcome_perm {events order : List DiagnosticEvent} (h : events.Perm order)
    (docs : Docs) : deriveOutcome events docs = deriveOutcome order docs := by
  unfold deriveOutcome
  rw [h.any_eq, h.any_eq, h.any_eq]

theorem stats_addSummaries (summaries : List ProcessorSummary) (report : DiagnosticReport) :
    (summaries.foldl addSingleProcessorSummary report).processor.stats =
      foldInto (fun stat _ => stat) report.processor.stats (summaries.map statOf) := by
  let step : KeyedMap String ProcessorSummary → ProcessorSummary →
      KeyedMap String ProcessorSummary := fun stats summary =>
    foldInto (fun stat _ => stat) stats [statOf summary]
  have hstep : ∀ (report : DiagnosticReport) summary,
      (report.addSingleProcessorSummary summary).processor.stats =
        step report.processor.stats summary := stats_addSingle
  have hfold : (summaries.foldl addSingleProcessorSummary report).processor.stats =
      summaries.foldl step report.processor.stats :=
    field_foldl (fun report => report.processor.stats) hstep summaries report
  rw [hfold, foldl_foldInto, ← List.map_eq_flatMap]

/-- The names under which a summary and its children appear in a report. -/
def namesOf (summary : ProcessorSummary) : List String :=
  summary.intoSummaries.map ProcessorSummary.processor

/-- Under every name the report holds the same summary. -/
theorem find?_stats_perm {summaries order : List ProcessorSummary} (h : summaries.Perm order)
    (hdistinct : summaries.Pairwise fun first second => (namesOf first).Disjoint (namesOf second))
    (report : DiagnosticReport) (name : String) :
    (summaries.foldl addProcessorSummary report).processor.stats.find? name =
      (order.foldl addProcessorSummary report).processor.stats.find? name := by
  have hnames : ∀ summary : ProcessorSummary,
      (summary.intoSummaries.map statOf).map Prod.fst = namesOf summary := by
    intro summary
    rw [List.map_map]
    rfl
  have hapart : summaries.Pairwise fun first second =>
      ((first.intoSummaries.map statOf).map Prod.fst).Disjoint
        ((second.intoSummaries.map statOf).map Prod.fst) := by
    simpa only [hnames] using hdistinct
  have hvalues := valuesAt_flatMap_perm h hapart name
  rw [DiagnosticReport.foldl_addProcessorSummary, DiagnosticReport.foldl_addProcessorSummary, stats_addSummaries, stats_addSummaries,
    find?_foldInto, find?_foldInto, List.map_flatMap, List.map_flatMap, hvalues]

theorem rejectionsByIndex_eq (report : DiagnosticReport) :
    report.rejectionsByIndex =
      foldInto raise .empty
        (report.processor.stats.values.flatMap fun stat => stat.rejectedIndices.inOrder) := by
  rw [← foldl_foldInto]
  rfl

/-- The rejections of a report depend on its statistics alone, not on how they are iterated. -/
theorem rejectedIndices_congr {left right : DiagnosticReport}
    (h : ∀ name, left.processor.stats.find? name = right.processor.stats.find? name) :
    left.rejectedIndices = right.rejectedIndices := by
  have hentries := KeyedMap.entries_perm h
  have hvalues : left.processor.stats.values.Perm right.processor.stats.values :=
    hentries.map Prod.snd
  apply KeyedMap.inOrder_congr
  intro index
  rw [rejectionsByIndex_eq, rejectionsByIndex_eq]
  exact find?_foldInto_perm commutes_raise (hvalues.flatMap_right _) _ index

end Orders

section Results

/-- Two reports that differ in the order of their events and failures at most. -/
structure Alike (left right : DiagnosticReport) : Prop where
  outcome : left.outcome = right.outcome
  docs : left.docs = right.docs
  events : left.events.Perm right.events
  count : left.processor.count = right.processor.count
  errors : left.processor.errors = right.processor.errors
  failures : left.processor.failures.Perm right.processor.failures
  stats : ∀ name, left.processor.stats.find? name = right.processor.stats.find? name
  rejectedIndices : left.rejectedIndices = right.rejectedIndices

theorem docs_perm {summaries order : List ProcessorSummary} (h : summaries.Perm order)
    (report : DiagnosticReport) :
    (summaries.foldl addSingleProcessorSummary report).docs =
      (order.foldl addSingleProcessorSummary report).docs := by
  have hstep : ∀ docs first second,
      addDocs (addDocs docs first) second = addDocs (addDocs docs second) first := by
    intro docs first second
    simp only [addDocs, Docs.mk.injEq]
    exact ⟨add_right_comm_u32 _ _ _, add_right_comm_u32 _ _ _, add_right_comm_u32 _ _ _⟩
  exact field_foldl_perm DiagnosticReport.docs docs_addSingle hstep h report

theorem count_perm {summaries order : List ProcessorSummary} (h : summaries.Perm order)
    (report : DiagnosticReport) :
    (summaries.foldl addSingleProcessorSummary report).processor.count =
      (order.foldl addSingleProcessorSummary report).processor.count := by
  let step : U32 → ProcessorSummary → U32 := fun count _ => count + 1#32
  have hcount : ∀ (report : DiagnosticReport) summary,
      (report.addSingleProcessorSummary summary).processor.count =
        step report.processor.count summary := count_addSingle
  exact field_foldl_perm (fun report => report.processor.count) hcount (fun _ _ _ => rfl) h report

theorem errors_perm {summaries order : List ProcessorSummary} (h : summaries.Perm order)
    (report : DiagnosticReport) :
    (summaries.foldl addSingleProcessorSummary report).processor.errors =
      (order.foldl addSingleProcessorSummary report).processor.errors := by
  have hstep : ∀ errors first second,
      addError (addError errors first) second = addError (addError errors second) first := by
    intro errors first second
    unfold addError
    cases first.unread <;> cases second.unread <;> rfl
  exact field_foldl_perm (fun report => report.processor.errors) errors_addSingle hstep h report

theorem outcome_perm {summaries order : List ProcessorSummary} (h : summaries.Perm order)
    (report : DiagnosticReport) :
    (summaries.foldl addSingleProcessorSummary report).outcome =
      (order.foldl addSingleProcessorSummary report).outcome := by
  have houtcome : ∀ items : List ProcessorSummary, items ≠ [] →
      (items.foldl addSingleProcessorSummary report).outcome =
        deriveOutcome (items.foldl addSingleProcessorSummary report).events
          (items.foldl addSingleProcessorSummary report).docs := by
    intro items hitems
    rw [← List.dropLast_append_getLast hitems, List.foldl_append]
    rfl
  by_cases hnone : summaries = []
  · subst hnone
    rw [List.nil_perm.mp h]
  · have hsome : order ≠ [] := fun horder => hnone (List.perm_nil.mp (horder ▸ h))
    rw [houtcome _ hnone, houtcome _ hsome, docs_perm h,
      deriveOutcome_perm (field_foldl_append_perm _ events_addSingle h report)]

/-- Summaries without a name in common may be added to a report in any order. -/
theorem summaries_in_any_order {summaries order : List ProcessorSummary}
    (h : summaries.Perm order)
    (hdistinct : summaries.Pairwise fun first second => (namesOf first).Disjoint (namesOf second))
    (report : DiagnosticReport) :
    Alike (summaries.foldl addProcessorSummary report)
      (order.foldl addProcessorSummary report) := by
  have hstats := find?_stats_perm h hdistinct report
  have hrejected := rejectedIndices_congr hstats
  have hflat := h.flatMap_right ProcessorSummary.intoSummaries
  rw [DiagnosticReport.foldl_addProcessorSummary, DiagnosticReport.foldl_addProcessorSummary] at hstats hrejected ⊢
  exact
    { outcome := outcome_perm hflat report
      docs := docs_perm hflat report
      events := field_foldl_append_perm DiagnosticReport.events events_addSingle hflat report
      count := count_perm hflat report
      errors := errors_perm hflat report
      failures := field_foldl_append_perm (fun report => report.processor.failures)
        failures_addSingle hflat report
      stats := hstats
      rejectedIndices := hrejected }

/-- A summary with a child of its own and one whose source was not read. -/
def nodesSummary : ProcessorSummary :=
  { ProcessorSummary.new "nodes" with
    docs := 3#32
    source := ⟨true, false⟩
    children := [ProcessorSummary.new "nodes_stats"] }

def indicesSummary : ProcessorSummary :=
  { ProcessorSummary.new "indices" with
    docs := 2#32
    docErrors := 1#32
    rejectedIndices := KeyedMap.empty.insert "logs-a" 1#32
    source := ⟨true, false⟩ }

theorem summaries_in_any_order_nodes :
    Alike ([nodesSummary, indicesSummary].foldl addProcessorSummary ReportTotals.emptyReport)
      ([indicesSummary, nodesSummary].foldl addProcessorSummary ReportTotals.emptyReport) := by
  apply summaries_in_any_order (List.Perm.swap _ _ [])
  have hnodes : namesOf nodesSummary = ["nodes", "nodes_stats"] := rfl
  have hindices : namesOf indicesSummary = ["indices"] := rfl
  rw [List.pairwise_pair, hnodes, hindices, List.disjoint_iff_ne]
  decide

end Results

end Esdiag.SummaryOrder
