import Esdiag.ReportInvariants

/-!
The counters of a report are plain 32 bit additions. A build with overflow checks
stops at the first addition that overflows, any other build goes on with the
wrapped sum. Batches and summaries saturate instead, so that a single full summary
leaves no room for another document. The totals of the report are what they
should be exactly where every exact sum still fits.
-/
namespace Esdiag.ReportTotals

open SaturatingCounters KeyedMaps BatchResponses Reports ReportInvariants
open DiagnosticReport (addSingleProcessorSummary addProcessorSummary)

section Checked

/-- An addition with overflow checks; `none` is the panic. -/
def checkedAdd {w : ℕ} (a b : BitVec w) : Option (BitVec w) :=
  if a.toNat + b.toNat < 2 ^ w then some (a + b) else none

theorem checkedAdd_eq_some {w : ℕ} {a b sum : BitVec w} :
    checkedAdd a b = some sum ↔ a.toNat + b.toNat < 2 ^ w ∧ a + b = sum := by
  unfold checkedAdd
  split
  · rename_i hfits
    simp [hfits]
  · rename_i hfits
    simp [hfits]

def checkedFailures (self : DiagnosticReport) (summary : ProcessorSummary) : Option U32 :=
  if summary.unread then checkedAdd self.processor.errors 1#32 else some self.processor.errors

/-- The additions for a single summary, checked. The text of a verdict on rejected
documents has the sum that the total is raised by. Where all additions fit, the
report is the one that is computed without checks. -/
def addSingleChecked (self : DiagnosticReport) (summary : ProcessorSummary) :
    Option DiagnosticReport := do
  let _failures ← checkedFailures self summary
  let _created ← checkedAdd self.docs.created summary.docs
  let _rejected ← checkedAdd self.docs.errors summary.docErrors
  let submitted ← checkedAdd summary.docs summary.docErrors
  let _total ← checkedAdd self.docs.total submitted
  let _count ← checkedAdd self.processor.count 1#32
  return self.addSingleProcessorSummary summary

def addChecked (self : DiagnosticReport) (summary : ProcessorSummary) : Option DiagnosticReport :=
  summary.intoSummaries.foldlM addSingleChecked self

theorem addSingleChecked_eq_some {report after : DiagnosticReport} {summary : ProcessorSummary} :
    addSingleChecked report summary = some after ↔
      SummaryFits report summary ∧ report.addSingleProcessorSummary summary = after := by
  unfold addSingleChecked
  constructor
  · intro h
    simp only [Option.bind_eq_bind, Option.bind_eq_some_iff, checkedAdd_eq_some] at h
    obtain ⟨_, hfailures, _, hcreated, _, hrejected, sum, hsum, _, htotal, _, hcount, hafter⟩ := h
    have hsubmitted := toNat_add_of_lt hsum.1
    rw [hsum.2] at hsubmitted
    refine ⟨⟨hsum.1, hcreated.1, hrejected.1, ?_, hcount.1, ?_⟩, Option.some.inj hafter⟩
    · rw [← hsubmitted]
      exact htotal.1
    · intro hunread
      rw [checkedFailures, if_pos hunread, checkedAdd_eq_some] at hfailures
      exact hfailures.1
  · rintro ⟨hfits, rfl⟩
    have hsubmitted := toNat_add_of_lt hfits.docs
    have htotal := hfits.total
    rw [← hsubmitted] at htotal
    have hfailures : ∃ errors, checkedFailures report summary = some errors := by
      unfold checkedFailures
      split
      · rename_i hunread
        exact ⟨_, checkedAdd_eq_some.mpr ⟨hfits.failures hunread, rfl⟩⟩
      · exact ⟨_, rfl⟩
    obtain ⟨errors, hfailures⟩ := hfailures
    have hcount : checkedAdd report.processor.count 1#32 = some (report.processor.count + 1#32) :=
      checkedAdd_eq_some.mpr ⟨hfits.count, rfl⟩
    rw [hfailures, checkedAdd_eq_some.mpr ⟨hfits.created, rfl⟩,
      checkedAdd_eq_some.mpr ⟨hfits.errors, rfl⟩, checkedAdd_eq_some.mpr ⟨hfits.docs, rfl⟩, hcount]
    simp only [Option.bind_eq_bind, Option.bind_some]
    rw [checkedAdd_eq_some.mpr ⟨htotal, rfl⟩]
    rfl

/-- Checked additions come to an end exactly where every single one fits. -/
theorem addAllChecked_eq_some {summaries : List ProcessorSummary}
    {report after : DiagnosticReport} :
    summaries.foldlM addSingleChecked report = some after ↔
      SummariesFit report summaries ∧ summaries.foldl addSingleProcessorSummary report = after := by
  induction summaries generalizing report with
  | nil => simp [SummariesFit]
  | cons summary rest ih =>
    rw [List.foldlM_cons, Option.bind_eq_bind, Option.bind_eq_some_iff, SummariesFit,
      List.foldl_cons]
    constructor
    · rintro ⟨next, hnext, hrest⟩
      obtain ⟨hfits, rfl⟩ := addSingleChecked_eq_some.mp hnext
      obtain ⟨hrestFits, hafter⟩ := ih.mp hrest
      exact ⟨⟨hfits, hrestFits⟩, hafter⟩
    · rintro ⟨⟨hfits, hrestFits⟩, hafter⟩
      exact ⟨_, addSingleChecked_eq_some.mpr ⟨hfits, rfl⟩, ih.mpr ⟨hrestFits, hafter⟩⟩

theorem addChecked_flatMap (summaries : List ProcessorSummary) (report : DiagnosticReport) :
    summaries.foldlM addChecked report =
      (summaries.flatMap ProcessorSummary.intoSummaries).foldlM addSingleChecked report := by
  induction summaries generalizing report with
  | nil => rfl
  | cons summary rest ih =>
    rw [List.foldlM_cons, List.flatMap_cons, List.foldlM_append]
    exact bind_congr ih

end Checked

section Totals

/-- The totals of a report that grow with its summaries. -/
inductive Counter where
  | created
  | rejected
  | submitted
  | processors
  | unread

def totalOf (report : DiagnosticReport) : Counter → ℕ
  | .created => report.docs.created.toNat
  | .rejected => report.docs.errors.toNat
  | .submitted => report.docs.total.toNat
  | .processors => report.processor.count.toNat
  | .unread => report.processor.errors.toNat

/-- What a single summary adds to a total, in unbounded arithmetic. -/
def addedBy (counter : Counter) (summary : ProcessorSummary) : ℕ :=
  match counter with
  | .created => summary.docs.toNat
  | .rejected => summary.docErrors.toNat
  | .submitted => summary.docs.toNat + summary.docErrors.toNat
  | .processors => 1
  | .unread => if summary.unread then 1 else 0

/-- A total of the report and everything that the summaries and their children add to it. -/
def trueTotal (report : DiagnosticReport) (summaries : List ProcessorSummary)
    (counter : Counter) : ℕ :=
  totalOf report counter +
    ((summaries.flatMap ProcessorSummary.intoSummaries).map (addedBy counter)).sum

theorem totalOf_lt (report : DiagnosticReport) (counter : Counter) :
    totalOf report counter < 2 ^ 32 := by
  cases counter <;> exact BitVec.isLt _

theorem summaryFits_iff {report : DiagnosticReport} {summary : ProcessorSummary} :
    SummaryFits report summary ↔
      ∀ counter, totalOf report counter + addedBy counter summary < 2 ^ 32 := by
  constructor
  · intro h counter
    cases counter with
    | created => exact h.created
    | rejected => exact h.errors
    | submitted => exact h.total
    | processors => exact h.count
    | unread =>
      change totalOf report .unread + (if summary.unread then 1 else 0) < 2 ^ 32
      split
      · rename_i hunread
        exact h.failures hunread
      · exact totalOf_lt report .unread
  · intro h
    have hsubmitted : report.docs.total.toNat +
        (summary.docs.toNat + summary.docErrors.toNat) < 2 ^ 32 := h .submitted
    refine ⟨by omega, h .created, h .rejected, hsubmitted, h .processors, ?_⟩
    intro hunread
    have herrors := h .unread
    rw [addedBy, if_pos hunread] at herrors
    exact herrors

theorem totalOf_addSingle {report : DiagnosticReport} {summary : ProcessorSummary}
    (h : SummaryFits report summary) (counter : Counter) :
    totalOf (report.addSingleProcessorSummary summary) counter =
      totalOf report counter + addedBy counter summary := by
  have hone : (1#32).toNat = 1 := rfl
  cases counter with
  | created => exact toNat_add_of_lt h.created
  | rejected => exact toNat_add_of_lt h.errors
  | submitted =>
    have hdocs := toNat_add_of_lt h.docs
    have htotal := h.total
    rw [← hdocs] at htotal
    change (report.docs.total + (summary.docs + summary.docErrors)).toNat = _
    rw [toNat_add_of_lt htotal, hdocs]
    rfl
  | processors =>
    have hcount : (report.addSingleProcessorSummary summary).processor.count =
        report.processor.count + 1#32 := by
      unfold addSingleProcessorSummary
      cases summary.unread <;> rfl
    rw [totalOf, hcount, toNat_add_of_lt h.count]
    rfl
  | unread =>
    cases hunread : summary.unread with
    | false =>
      simp [totalOf, addedBy, addSingleProcessorSummary, DiagnosticReport.refreshOutcome,
        NestedStats.push, hunread]
    | true =>
      have herrors : (report.addSingleProcessorSummary summary).processor.errors =
          report.processor.errors + 1#32 := by
        unfold addSingleProcessorSummary
        rw [hunread]
        rfl
      rw [totalOf, herrors, toNat_add_of_lt (h.failures hunread), addedBy, if_pos hunread]
      rfl

/-- Summaries fit one after another exactly where the exact sums fit, and then the totals
are these sums. -/
theorem summariesFit_iff {summaries : List ProcessorSummary} {report : DiagnosticReport} :
    SummariesFit report summaries ↔
      ∀ counter, totalOf report counter + (summaries.map (addedBy counter)).sum < 2 ^ 32 := by
  induction summaries generalizing report with
  | nil => exact iff_of_true trivial (totalOf_lt report)
  | cons summary rest ih =>
    simp only [SummariesFit, List.map_cons, List.sum_cons]
    constructor
    · rintro ⟨hfits, hrest⟩ counter
      have hsum := ih.mp hrest counter
      rw [totalOf_addSingle hfits] at hsum
      omega
    · intro h
      have hfits : SummaryFits report summary := by
        apply summaryFits_iff.mpr
        intro counter
        have hsum := h counter
        omega
      refine ⟨hfits, ih.mpr fun counter => ?_⟩
      have hsum := h counter
      rw [totalOf_addSingle hfits]
      omega

theorem totalOf_addAll {summaries : List ProcessorSummary} {report : DiagnosticReport}
    (h : SummariesFit report summaries) (counter : Counter) :
    totalOf (summaries.foldl addSingleProcessorSummary report) counter =
      totalOf report counter + (summaries.map (addedBy counter)).sum := by
  induction summaries generalizing report with
  | nil => rfl
  | cons summary rest ih =>
    rw [List.foldl_cons, ih h.2, totalOf_addSingle h.1, List.map_cons, List.sum_cons]
    omega

end Totals

section Results

/-- No addition overflows, and every total is the exact sum cut off at the largest count. -/
structure TotalsSaturate (report : DiagnosticReport) (summaries : List ProcessorSummary) :
    Prop where
  fits : (summaries.foldlM addChecked report).isSome = true
  saturated : ∀ counter, totalOf (summaries.foldl addProcessorSummary report) counter =
    min (trueTotal report summaries counter) (maxCount 32)

theorem totals_saturate_iff (report : DiagnosticReport) (summaries : List ProcessorSummary) :
    TotalsSaturate report summaries ↔
      ∀ counter, trueTotal report summaries counter < 2 ^ 32 := by
  constructor
  · intro h
    obtain ⟨after, hafter⟩ := Option.isSome_iff_exists.mp h.fits
    rw [addChecked_flatMap] at hafter
    exact summariesFit_iff.mp (addAllChecked_eq_some.mp hafter).1
  · intro h
    have hfits := summariesFit_iff.mpr h
    refine ⟨?_, fun counter => ?_⟩
    · rw [addChecked_flatMap, addAllChecked_eq_some.mpr ⟨hfits, rfl⟩]
      rfl
    · have htotal := totalOf_addAll hfits counter
      have hbound := h counter
      rw [DiagnosticReport.foldl_addProcessorSummary, htotal]
      unfold trueTotal at hbound ⊢
      unfold maxCount
      omega

/-- A report before any summary arrives. -/
def emptyReport : DiagnosticReport :=
  { metadataId := "diagnostic"
    application := none
    docs := Docs.none
    origin := ⟨"file", "bundle.zip"⟩
    lookup := .empty .empty
    processor := .empty .empty
    identifiers := .default none
    events := []
    outcome := .complete }

/-- A summary whose batches have filled the counter of its documents. -/
def fullSummary (name : String) : ProcessorSummary :=
  { ProcessorSummary.new name with
    docs := 4294967295#32
    source := ⟨true, false⟩ }

/-- Two full summaries panic where overflow is checked, and wrap elsewhere. -/
theorem full_summaries_overflow :
    ([fullSummary "nodes", fullSummary "indices"].foldlM addChecked emptyReport).isSome = false ∧
      totalOf ([fullSummary "nodes", fullSummary "indices"].foldl addProcessorSummary emptyReport)
        .created = 4294967294 ∧
      min (trueTotal emptyReport [fullSummary "nodes", fullSummary "indices"] .created)
        (maxCount 32) = 4294967295 := by
  decide +kernel

end Results

end Esdiag.ReportTotals
