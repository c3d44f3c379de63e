import Esdiag.ReportInvariants

/-!
Where the rejected documents of a report are attributed. In a summary that is
built from batches, the rejections by index add up to its document errors as
long as no counter saturates. The report keeps one summary for each processor
name, so a later summary with the same name takes the rejections of the
earlier one out of the breakdown, while the report's error count keeps them.
-/
namespace Esdiag.RejectionAttribution

open SaturatingCounters KeyedMaps BatchResponses Deployments Reports ReportInvariants

def Balanced (summary : ProcessorSummary) : Prop :=
  attributed summary.rejectedIndices = summary.docErrors.toNat

/-- The summaries that the operations on summaries build, from batches that
attribute at most their own errors, while no error count saturates. -/
inductive Built : ProcessorSummary → Prop where
  | new (name : String) : Built (.new name)
  | missing (name : String) : Built (.missing name)
  | addBatch {summary : ProcessorSummary} (batch : BatchResponse) :
      Built summary → attributed batch.rejectedIndices ≤ batch.errors.toNat →
      summary.docErrors.toNat + batch.errors.toNat < 2 ^ 32 → Built (summary.addBatch batch)
  | merge {summary other : ProcessorSummary} :
      Built summary → Built other →
      summary.docErrors.toNat + other.docErrors.toNat < 2 ^ 32 →
      Built (summary.merge (.ok other))
  | mergeError {summary : ProcessorSummary} (message : String) :
      Built summary → Built (summary.merge (.error message))
  | addChild {summary child : ProcessorSummary} :
      Built summary → Built child → Built (summary.addChild (.ok child))
  | addChildError {summary : ProcessorSummary} (message : String) :
      Built summary → Built (summary.addChild (.error message))
  | withError {summary : ProcessorSummary} (reason : String) :
      Built summary → Built (summary.withError reason)
  | wasParsed {summary : ProcessorSummary} : Built summary → Built summary.wasParsed
  | rename {summary : ProcessorSummary} (name : String) :
      Built summary → Built (summary.rename name)

/-- The rejections of a batch raise the attributed total by its errors. -/
theorem attributed_attributeRejections (summary : ProcessorSummary) (batch : BatchResponse)
    (hown : attributed batch.rejectedIndices ≤ batch.errors.toNat)
    (hfits : attributed summary.rejectedIndices + batch.errors.toNat < 2 ^ 32) :
    attributed (summary.attributeRejections batch) =
      attributed summary.rejectedIndices + batch.errors.toNat := by
  have hmerged := attributed_mergeRejections summary.rejectedIndices batch.rejectedIndices
    (by omega)
  have hcounted : (batch.rejectedIndices.values.foldl satAdd 0#32).toNat =
      attributed batch.rejectedIndices := by
    have hexact : exactTotal batch.rejectedIndices.values = attributed batch.rejectedIndices := by
      rw [attributed, KeyedMap.total_eq_sum_values]
      rfl
    have htotal : (satTotal batch.rejectedIndices.values).toNat =
        exactTotal batch.rejectedIndices.values := toNat_satTotal_of_lt (by omega)
    exact htotal.trans hexact
  have hunattributed : (satSub batch.errors (batch.rejectedIndices.values.foldl satAdd 0#32)).toNat =
      batch.errors.toNat - attributed batch.rejectedIndices := by
    rw [toNat_satSub, hcounted]
  simp only [ProcessorSummary.attributeRejections]
  split
  · rw [attributed_addRejections _ _ _ (by omega), hmerged, hunattributed]
    omega
  · rename_i hzero
    have hnone : (satSub batch.errors
        (batch.rejectedIndices.values.foldl satAdd 0#32)).toNat = 0 := by
      simpa [BitVec.lt_def] using hzero
    rw [hmerged]
    omega

/-- A tree is balanced when its root and all summaries below it are. -/
theorem tree_balanced_iff (summary : ProcessorSummary) :
    (∀ one ∈ summary.intoSummaries, Balanced one) ↔
      Balanced summary ∧ ∀ one ∈ ProcessorSummary.intoSummariesAll summary.children,
        Balanced one := by
  rw [ProcessorSummary.intoSummaries_eq, List.forall_mem_cons]
  exact Iff.rfl

private theorem addBatch_balanced {summary : ProcessorSummary} (batch : BatchResponse)
    (hsummary : Balanced summary) (hown : attributed batch.rejectedIndices ≤ batch.errors.toNat)
    (hfits : summary.docErrors.toNat + batch.errors.toNat < 2 ^ 32) :
    Balanced (summary.addBatch batch) := by
  unfold Balanced at *
  unfold ProcessorSummary.addBatch
  split
  · exact hsummary
  · have hrejected := attributed_attributeRejections summary batch hown (by omega)
    change attributed (summary.attributeRejections batch) =
      (satAdd summary.docErrors batch.errors).toNat
    rw [hrejected, toNat_satAdd_of_lt hfits, hsummary]

private theorem merge_balanced {summary other : ProcessorSummary} (hsummary : Balanced summary)
    (hother : Balanced other)
    (hfits : summary.docErrors.toNat + other.docErrors.toNat < 2 ^ 32) :
    Balanced (summary.merge (.ok other)) := by
  unfold Balanced at *
  change attributed (mergeRejections summary.rejectedIndices other.rejectedIndices) =
    (satAdd summary.docErrors other.docErrors).toNat
  rw [attributed_mergeRejections _ _ (by omega), toNat_satAdd_of_lt hfits, hsummary, hother]

private theorem addBatch_children (summary : ProcessorSummary) (batch : BatchResponse) :
    (summary.addBatch batch).children = summary.children := by
  unfold ProcessorSummary.addBatch
  split <;> rfl

/-- Operations on names, events and sources leave a tree balanced. -/
private theorem balanced_of_same_counts {summary changed : ProcessorSummary}
    (h : ∀ one ∈ summary.intoSummaries, Balanced one)
    (hrejected : changed.rejectedIndices = summary.rejectedIndices)
    (herrors : changed.docErrors = summary.docErrors)
    (hchildren : changed.children = summary.children) :
    ∀ one ∈ changed.intoSummaries, Balanced one := by
  rw [tree_balanced_iff] at h ⊢
  unfold Balanced at h ⊢
  rw [hrejected, herrors, hchildren]
  exact h

/-- Every summary of a built tree has as many rejections as document errors. -/
theorem built_balanced {summary : ProcessorSummary} (hbuilt : Built summary) :
    ∀ one ∈ summary.intoSummaries, Balanced one := by
  induction hbuilt with
  | new name => exact (tree_balanced_iff _).mpr ⟨rfl, fun one hone => absurd hone (by
      simp [ProcessorSummary.new, ProcessorSummary.intoSummariesAll])⟩
  | missing name => exact (tree_balanced_iff _).mpr ⟨rfl, fun one hone => absurd hone (by
      simp [ProcessorSummary.missing, ProcessorSummary.new, ProcessorSummary.intoSummariesAll])⟩
  | addBatch batch _ hown hfits ih =>
    rw [tree_balanced_iff] at ih ⊢
    rw [addBatch_children]
    exact ⟨addBatch_balanced batch ih.1 hown hfits, ih.2⟩
  | merge _ _ hfits ihsummary ihother =>
    rw [tree_balanced_iff] at ihsummary ihother ⊢
    exact ⟨merge_balanced ihsummary.1 ihother.1 hfits, ihsummary.2⟩
  | mergeError message _ ih => exact balanced_of_same_counts ih rfl rfl rfl
  | addChild _ _ ihsummary ihchild =>
    rw [tree_balanced_iff] at ihsummary ⊢
    refine ⟨ihsummary.1, fun one hone => ?_⟩
    simp only [ProcessorSummary.addChild, ProcessorSummary.intoSummariesAll_append,
      ProcessorSummary.intoSummariesAll, List.append_nil, List.mem_append] at hone
    exact hone.elim (ihsummary.2 one) (ihchild one)
  | addChildError message _ ih => exact balanced_of_same_counts ih rfl rfl rfl
  | withError reason _ ih => exact balanced_of_same_counts ih rfl rfl rfl
  | wasParsed _ ih =>
    rw [ProcessorSummary.intoSummaries_wasParsed, List.forall_mem_map]
    exact ih
  | rename name _ ih => exact balanced_of_same_counts ih rfl rfl rfl

/-- No summary with document errors has a later one of the same processor name. -/
def NoneReplaced (added : List ProcessorSummary) : Prop :=
  added.Pairwise fun earlier later =>
    earlier.processor = later.processor → earlier.docErrors = 0#32

def errorsOf (summary : ProcessorSummary) : ℕ := summary.docErrors.toNat

/-- The document errors of the summaries that the report still holds. -/
def keptErrors (report : DiagnosticReport) : ℕ :=
  KeyedMap.total errorsOf report.processor.stats

/-- What the report holds of the summaries added to it. -/
structure Accounted (added : List ProcessorSummary) (report : DiagnosticReport) : Prop where
  errors : report.docs.errors.toNat = (added.map errorsOf).sum
  kept_le : keptErrors report ≤ (added.map errorsOf).sum
  kept_eq_iff : keptErrors report = (added.map errorsOf).sum ↔ NoneReplaced added
  holds_errors : NoneReplaced added → ∀ summary ∈ added, summary.docErrors ≠ 0#32 →
    ∃ held, report.processor.stats.find? summary.processor = some held ∧
      errorsOf held = errorsOf summary
  held_added : ∀ name held, report.processor.stats.find? name = some held →
    ∃ summary ∈ added, summary.processor = name ∧ errorsOf summary = errorsOf held
  balanced : (∀ summary ∈ added, Balanced summary) →
    ∀ held ∈ report.processor.stats.values, Balanced held

private theorem stats_addSingle (report : DiagnosticReport) (summary : ProcessorSummary) :
    (report.addSingleProcessorSummary summary).processor.stats =
      report.processor.stats.insert summary.processor { summary with events := [] } := by
  unfold DiagnosticReport.addSingleProcessorSummary DiagnosticReport.refreshOutcome
  cases summary.unread <;> rfl

private theorem errorsOf_eq_zero_iff (summary : ProcessorSummary) :
    errorsOf summary = 0 ↔ summary.docErrors = 0#32 := by
  unfold errorsOf
  constructor
  · intro h
    exact BitVec.eq_of_toNat_eq (by simpa using h)
  · intro h
    rw [h]
    rfl

private theorem noneReplaced_append (added : List ProcessorSummary)
    (summary : ProcessorSummary) :
    NoneReplaced (added ++ [summary]) ↔ NoneReplaced added ∧
      ∀ earlier ∈ added, earlier.processor = summary.processor → earlier.docErrors = 0#32 := by
  simp [NoneReplaced, List.pairwise_append]

/-- The new summary takes the place of the one held under its name, whose
errors are what the report loses. -/
private theorem keptErrors_addSingle (report : DiagnosticReport) (summary : ProcessorSummary) :
    keptErrors (report.addSingleProcessorSummary summary) +
        (report.processor.stats.find? summary.processor).elim 0 errorsOf =
      keptErrors report + errorsOf summary := by
  unfold keptErrors
  rw [stats_addSingle]
  exact KeyedMap.total_upsert errorsOf report.processor.stats summary.processor _

theorem addSingle_accounted {added : List ProcessorSummary} {report : DiagnosticReport}
    {summary : ProcessorSummary} (h : Accounted added report)
    (hfits : SummaryFits report summary) :
    Accounted (added ++ [summary]) (report.addSingleProcessorSummary summary) := by
  have hkept := keptErrors_addSingle report summary
  have hle := h.kept_le
  have hsum : ((added ++ [summary]).map errorsOf).sum =
      (added.map errorsOf).sum + errorsOf summary := by simp
  refine ⟨?_, by omega, ?_, ?_, ?_, ?_⟩
  · change (report.docs.errors + summary.docErrors).toNat = _
    rw [toNat_add_of_lt hfits.errors, hsum, h.errors, errorsOf]
  · rw [noneReplaced_append, ← h.kept_eq_iff, hsum]
    constructor
    · intro heq
      have hadded : keptErrors report = (added.map errorsOf).sum := by omega
      refine ⟨hadded, fun earlier hearlier hname => ?_⟩
      by_contra herrors
      obtain ⟨held, hheld, hsame⟩ :=
        h.holds_errors (h.kept_eq_iff.mp hadded) earlier hearlier herrors
      rw [← hname, hheld, Option.elim_some] at hkept
      have hzero : errorsOf earlier = 0 := by omega
      exact herrors ((errorsOf_eq_zero_iff earlier).mp hzero)
    · rintro ⟨hadded, hnone⟩
      have hreplaced : (report.processor.stats.find? summary.processor).elim 0 errorsOf = 0 := by
        cases hheld : report.processor.stats.find? summary.processor with
        | none => rfl
        | some held =>
          obtain ⟨earlier, hearlier, hname, hsame⟩ := h.held_added _ held hheld
          rw [Option.elim_some, ← hsame, errorsOf_eq_zero_iff]
          exact hnone earlier hearlier hname
      omega
  · rw [noneReplaced_append, stats_addSingle]
    rintro ⟨hadded, hnone⟩ other hother herrors
    rw [List.mem_append, List.mem_singleton] at hother
    rcases hother with hold | rfl
    · have hname : other.processor ≠ summary.processor := fun hsame =>
        herrors (hnone other hold hsame)
      rw [KeyedMap.find?_insert_of_ne _ hname]
      exact h.holds_errors hadded other hold herrors
    · exact ⟨_, KeyedMap.find?_insert_self _ _ _, rfl⟩
  · intro name held hheld
    rw [stats_addSingle] at hheld
    by_cases hname : name = summary.processor
    · rw [hname, KeyedMap.find?_insert_self, Option.some.injEq] at hheld
      exact ⟨summary, by simp, hname.symm, by rw [← hheld]; rfl⟩
    · rw [KeyedMap.find?_insert_of_ne _ hname] at hheld
      obtain ⟨earlier, hearlier, hrest⟩ := h.held_added name held hheld
      exact ⟨earlier, List.mem_append_left _ hearlier, hrest⟩
  · intro hbalanced held hheld
    rw [stats_addSingle] at hheld
    rcases KeyedMap.mem_values_insert hheld with rfl | hold
    · exact hbalanced summary (by simp)
    · exact h.balanced (fun other hother => hbalanced other (List.mem_append_left _ hother))
        held hold

theorem addSummaries_accounted (summaries : List ProcessorSummary)
    {added : List ProcessorSummary} {report : DiagnosticReport} (h : Accounted added report)
    (hfits : SummariesFit report summaries) :
    Accounted (added ++ summaries)
      (summaries.foldl DiagnosticReport.addSingleProcessorSummary report) := by
  induction summaries generalizing added report with
  | nil => simpa only [List.append_nil, List.foldl_nil] using h
  | cons summary rest ih =>
    obtain ⟨hfirst, hrest⟩ := hfits
    have hnext := ih (addSingle_accounted h hfirst) hrest
    simpa only [List.append_assoc, List.singleton_append, List.foldl_cons] using hnext

private theorem accounted_of_same {added : List ProcessorSummary}
    {report changed : DiagnosticReport} (h : Accounted added report)
    (hdocs : changed.docs = report.docs) (hprocessor : changed.processor = report.processor) :
    Accounted added changed := by
  refine ⟨?_, ?_, ?_, ?_, ?_, ?_⟩
  · rw [hdocs]
    exact h.errors
  · rw [keptErrors, hprocessor]
    exact h.kept_le
  · rw [keptErrors, hprocessor]
    exact h.kept_eq_iff
  · rw [hprocessor]
    exact h.holds_errors
  · rw [hprocessor]
    exact h.held_added
  · rw [hprocessor]
    exact h.balanced

theorem run_accounted {start report : DiagnosticReport} {added : List ProcessorSummary}
    (hstart : Accounted [] start) (hrun : Run start added report) :
    Accounted added report := by
  induction hrun with
  | start => exact hstart
  | recordEvent event _ ih => exact accounted_of_same ih rfl rfl
  | @addLookup _ report _ name lookup _ _ ih =>
    obtain ⟨hdocs, hprocessor⟩ := report.addLookup_frame name lookup
    exact accounted_of_same ih hdocs hprocessor
  | addProcessorSummary summary _ hfits ih => exact addSummaries_accounted _ ih hfits

theorem build_accounted {manifest : DiagnosticManifest} {receiver : String}
    {ambientUser : Option String} {start : DiagnosticReport}
    (hbuild : ((DiagnosticReportBuilder.ofManifest manifest).receiver receiver).build
      ambientUser = .ok start) : Accounted [] start := by
  unfold DiagnosticReportBuilder.build at hbuild
  cases horigin : ((DiagnosticReportBuilder.ofManifest manifest).receiver receiver).origin with
  | none => simp [horigin] at hbuild
  | some origin =>
    simp only [horigin, Except.ok.injEq] at hbuild
    subst hbuild
    refine ⟨rfl, le_rfl, ?_, ?_, ?_, ?_⟩
    · exact iff_of_true rfl List.Pairwise.nil
    · intro _ summary hsummary
      exact absurd hsummary (by simp)
    · intro name held hheld
      exact absurd hheld (by
        simp [NestedStats.empty, DiagnosticReportBuilder.receiver,
          DiagnosticReportBuilder.ofManifest, KeyedMap.find?, KeyedMap.empty, findEntry])
    · intro _ held hheld
      exact absurd hheld (by
        simp [NestedStats.empty, DiagnosticReportBuilder.receiver,
          DiagnosticReportBuilder.ofManifest, KeyedMap.values, KeyedMap.empty])

/-- Merging the rejections of summaries adds their totals while they fit. -/
theorem attributed_foldl_mergeRejections (summaries : List ProcessorSummary)
    (target : Rejections)
    (h : attributed target + (summaries.map fun one => attributed one.rejectedIndices).sum <
      2 ^ 32) :
    attributed (summaries.foldl
      (fun indices summary => mergeRejections indices summary.rejectedIndices) target) =
      attributed target + (summaries.map fun one => attributed one.rejectedIndices).sum := by
  induction summaries generalizing target with
  | nil => simp
  | cons summary rest ih =>
    simp only [List.map_cons, List.sum_cons] at h ⊢
    have hmerged := attributed_mergeRejections target summary.rejectedIndices (by omega)
    rw [List.foldl_cons, ih _ (by omega), hmerged]
    omega

/-- The breakdown by index adds up to the errors of the summaries held. -/
theorem rejectedIndices_total {added : List ProcessorSummary} {report : DiagnosticReport}
    (h : Accounted added report) (hbalanced : ∀ summary ∈ added, Balanced summary) :
    (report.rejectedIndices.map fun entry => entry.2.toNat).sum = keptErrors report := by
  have hheld : report.processor.stats.values.map (fun one => attributed one.rejectedIndices) =
      report.processor.stats.values.map errorsOf :=
    List.map_congr_left (h.balanced hbalanced)
  have hkept : (report.processor.stats.values.map fun one =>
      attributed one.rejectedIndices).sum = keptErrors report := by
    rw [hheld, keptErrors, KeyedMap.total_eq_sum_values]
  have hsmall := report.docs.errors.isLt
  have herrors := h.errors
  have hle := h.kept_le
  have hmerged := attributed_foldl_mergeRejections report.processor.stats.values .empty (by
    rw [hkept]
    change 0 + keptErrors report < 2 ^ 32
    omega)
  rw [hkept] at hmerged
  unfold DiagnosticReport.rejectedIndices
  rw [KeyedMap.sum_inOrder BitVec.toNat]
  unfold DiagnosticReport.rejectionsByIndex
  refine hmerged.trans ?_
  change 0 + keptErrors report = keptErrors report
  omega

/-- While no counter saturates, the breakdown by index covers all rejected
documents exactly when no summary with errors was replaced by a later one of
the same processor name. -/
theorem rejections_conserved_iff (manifest : DiagnosticManifest) (receiver : String)
    (ambientUser : Option String) {start report : DiagnosticReport}
    {added : List ProcessorSummary}
    (hbuild : ((DiagnosticReportBuilder.ofManifest manifest).receiver receiver).build
      ambientUser = .ok start)
    (hrun : Run start added report)
    (hbuilt : ∀ summary ∈ added, ∃ tree, Built tree ∧ summary ∈ tree.intoSummaries) :
    (report.rejectedIndices.map fun entry => entry.2.toNat).sum = report.docs.errors.toNat ↔
      NoneReplaced added := by
  have haccounted := run_accounted (build_accounted hbuild) hrun
  have hbalanced : ∀ summary ∈ added, Balanced summary := by
    intro summary hsummary
    obtain ⟨tree, htree, hmem⟩ := hbuilt summary hsummary
    exact built_balanced htree summary hmem
  rw [rejectedIndices_total haccounted hbalanced, haccounted.errors]
  exact haccounted.kept_eq_iff

/-- The report of an imported bundle, before any summary arrives. -/
def bundleReport : DiagnosticReport :=
  { metadataId := "diagnostic"
    application := none
    docs := Docs.none
    origin := ⟨"file", "bundle.zip"⟩
    lookup := .empty .empty
    processor := .empty .empty
    identifiers := .default none
    events := []
    outcome := .complete }

/-- A source whose only batch, of one document, was dropped. -/
def droppedSummary (name : String) : ProcessorSummary :=
  (ProcessorSummary.new name).addBatch (.failed 1#32 429)

theorem droppedSummary_built (name : String) : Built (droppedSummary name) :=
  .addBatch _ (.new name) (Nat.zero_le _) (show 0 + 1 < 2 ^ 32 by decide)

theorem dropped_document_attributed :
    ∃ start report,
      ((DiagnosticReportBuilder.ofManifest ⟨"diagnostic", none, none⟩).receiver "file bundle.zip").build none =
        .ok start ∧
      Run start [droppedSummary "nodes"] report ∧
      (report.rejectedIndices.map fun entry => entry.2.toNat).sum =
        report.docs.errors.toNat := by
  have hfits : SummariesFit bundleReport (droppedSummary "nodes").intoSummaries :=
    ⟨⟨by decide, by decide, by decide, by decide, by decide, fun _ => by decide⟩, trivial⟩
  have hrun := Run.addProcessorSummary (droppedSummary "nodes") .start hfits
  refine ⟨bundleReport, _, rfl, hrun, ?_⟩
  refine (rejections_conserved_iff ⟨"diagnostic", none, none⟩ "file bundle.zip" none rfl hrun ?_).mpr ?_
  · intro summary hsummary
    exact ⟨droppedSummary "nodes", droppedSummary_built "nodes", hsummary⟩
  · exact List.pairwise_singleton _ _

/-- A second summary for the same processor takes the only rejected document
out of the breakdown. -/
theorem replaced_summary_loses_rejections :
    ∃ start report added,
      ((DiagnosticReportBuilder.ofManifest ⟨"diagnostic", none, none⟩).receiver "file bundle.zip").build none =
        .ok start ∧
      Run start added report ∧
      (∀ summary ∈ added, ∃ tree, Built tree ∧ summary ∈ tree.intoSummaries) ∧
      (report.rejectedIndices.map fun entry => entry.2.toNat).sum ≠
        report.docs.errors.toNat := by
  have hfirst : SummariesFit bundleReport (droppedSummary "nodes").intoSummaries :=
    ⟨⟨by decide, by decide, by decide, by decide, by decide, fun _ => by decide⟩, trivial⟩
  have hsecond : SummariesFit (bundleReport.addProcessorSummary (droppedSummary "nodes"))
      (ProcessorSummary.new "nodes").intoSummaries :=
    ⟨⟨by decide, by decide, by decide, by decide, by decide, fun _ => by decide⟩, trivial⟩
  refine ⟨bundleReport, _, _, rfl, .addProcessorSummary (.new "nodes")
    (.addProcessorSummary (droppedSummary "nodes") .start hfirst) hsecond, ?_, by decide⟩
  intro summary hsummary
  simp only [List.nil_append, List.mem_append] at hsummary
  rcases hsummary with hdropped | hnew
  · exact ⟨droppedSummary "nodes", droppedSummary_built "nodes", hdropped⟩
  · exact ⟨.new "nodes", .new "nodes", hnew⟩

end Esdiag.RejectionAttribution
