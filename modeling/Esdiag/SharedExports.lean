import Esdiag.ExportFiles

/-!
What is left of documents and reports when a parent and its children share an
export target. A diagnostic alone leaves its documents, or its report, in each
file that it writes. A diagnostic that rewrites a file takes away what another
one counted there, in one of the orders of the children at least; a family in
which nobody does so loses nothing under any schedule.
-/
namespace Esdiag.ExportFiles

open KeyedMaps Interleavings RecordFiles

section Diagnostics

variable (target : FileTarget) (name : String)

def batchOps (member : ℕ) (batch : Batch) : List FileOp :=
  .write member [] :: (batch.chunks.map (FileOp.write member) ++ [.created batch.docs])

namespace Diagnostic

/-- The batches that go to a file. -/
def batchesOn (self : Diagnostic) : List Batch :=
  self.batches.filter fun batch => target.fileOf batch.index = name

def docsOn (self : Diagnostic) : List Record := (self.batchesOn target name).flatMap Batch.docs

/-- The report that replaces the content of a file at the end. -/
def replacement (self : Diagnostic) : Option Record :=
  match target with
  | .directory => if name = reportFile then self.report else none
  | .file _ => none

/-- What a diagnostic counts for a file. -/
def linesOn (self : Diagnostic) : List Record :=
  self.docsOn target name ++ (self.replacement target name).toList

/-- The diagnostic creates a writer of its own for a file, which truncates it. -/
def opens (self : Diagnostic) : Prop :=
  target = .file name ∨ self.batchesOn target name ≠ []

instance (self : Diagnostic) : Decidable (self.opens target name) :=
  inferInstanceAs (Decidable (_ ∨ _))

/-- Whatever was in a file before is gone after the diagnostic. -/
def rewrites (self : Diagnostic) : Prop :=
  self.opens target name ∨ (self.replacement target name).isSome = true

end Diagnostic

/-- The operations of one diagnostic on one file of the target. -/
def opsOn (one : Member) : List FileOp :=
  (if target = .file name then [.truncate one.1] else []) ++
    ((one.2.batchesOn target name).flatMap (batchOps one.1) ++
      (one.2.replacement target name).toList.map .replace)

theorem filterMap_batch (member : ℕ) (batch : Batch) :
    (batch.steps.map fun step => (member, step)).filterMap (opOn target (.inTarget name)) =
      if target.fileOf batch.index = name then batchOps member batch else [] := by
  have hplace : (Place.inTarget (target.fileOf batch.index) = .inTarget name) ↔
      target.fileOf batch.index = name := by
    rw [Place.inTarget.injEq]
  by_cases h : target.fileOf batch.index = name
  · rw [if_pos h]
    simp only [Batch.steps, List.map_cons, List.map_append, List.map_map, List.filterMap_cons,
      List.filterMap_append, List.filterMap_map, opOn, if_pos (hplace.mpr h), batchOps,
      List.map_nil, List.filterMap_nil]
    rw [List.filterMap_congr (g := fun chunk => some (FileOp.write member chunk)) _]
    · rw [List.filterMap_eq_map']
    · intro chunk hchunk
      simp only [Function.comp_apply, opOn, if_pos (hplace.mpr h)]
  · rw [if_neg h]
    refine filterMap_eq_nil_of_forall fun step hstep => ?_
    obtain ⟨one, hone, rfl⟩ := List.mem_map.mp hstep
    rw [Batch.steps, List.mem_cons, List.mem_append, List.mem_map, List.mem_singleton] at hone
    rcases hone with rfl | ⟨chunk, hchunk, rfl⟩ | rfl
    all_goals simp only [opOn, if_neg (mt hplace.mp h)]

theorem filterMap_batches (member : ℕ) (batches : List Batch) :
    ((batches.flatMap Batch.steps).map fun step => (member, step)).filterMap
        (opOn target (.inTarget name)) =
      (batches.filter fun batch => target.fileOf batch.index = name).flatMap
        (batchOps member) := by
  induction batches with
  | nil => rfl
  | cons batch rest ih =>
    rw [List.flatMap_cons, List.map_append, List.filterMap_append, filterMap_batch, ih]
    by_cases h : target.fileOf batch.index = name
    · rw [if_pos h, List.filter_cons_of_pos (by simpa using h), List.flatMap_cons]
    · rw [if_neg h, List.filter_cons_of_neg (by simpa using h), List.nil_append]

theorem filterMap_memberSteps (one : Member) :
    (memberSteps one).filterMap (opOn target (.inTarget name)) = opsOn target name one := by
  obtain ⟨member, batches, report⟩ := one
  have hresolve : ([(member, ExportStep.resolve)] : List (ℕ × ExportStep)).filterMap
      (opOn target (.inTarget name)) =
        if target = .file name then [.truncate member] else [] := by
    cases target with
    | directory => rfl
    | file path =>
      by_cases h : path = name
      · simp [opOn, h]
      · simp [opOn, h]
  have hreport : (report.toList.map fun report => (member, ExportStep.saveReport report)).filterMap
      (opOn target (.inTarget name)) =
        ((Diagnostic.mk batches report).replacement target name).toList.map .replace := by
    cases report with
    | none => cases target <;> simp [Diagnostic.replacement]
    | some report =>
      cases target with
      | directory =>
        by_cases h : name = reportFile
        · simp [opOn, Diagnostic.replacement, h]
        · have hne : ¬ reportFile = name := fun heq => h heq.symm
          simp [opOn, Diagnostic.replacement, h, hne]
      | file path => simp [opOn, Diagnostic.replacement]
  have hsplit : memberSteps (member, ⟨batches, report⟩) =
      [(member, .resolve)] ++ (((batches.flatMap Batch.steps).map fun step => (member, step)) ++
        report.toList.map fun report => (member, .saveReport report)) := by
    simp [memberSteps, Diagnostic.steps, Function.comp_def]
  rw [hsplit, List.filterMap_append, List.filterMap_append, hresolve, filterMap_batches, hreport]
  rfl

end Diagnostics

namespace FileView

/-- The writer of a member stands at the end of the content. -/
def AtEnd (self : FileView) (member : ℕ) : Prop := self.offset member = some self.content.length

def appendBytes (self : FileView) (member : ℕ) (bytes : Bytes) : FileView :=
  { self with
    content := self.content ++ bytes
    offset := Function.update self.offset member (some (self.content ++ bytes).length) }

theorem atEnd_opened (self : FileView) (member : ℕ) : (self.opened member).AtEnd member :=
  Function.update_self ..

theorem atEnd_appendBytes (self : FileView) (member : ℕ) (bytes : Bytes) :
    (self.appendBytes member bytes).AtEnd member := Function.update_self ..

theorem appendBytes_nil {self : FileView} {member : ℕ} (h : self.AtEnd member) :
    self.appendBytes member [] = self := by
  have hoffset : Function.update self.offset member (some self.content.length) = self.offset := by
    rw [← h, Function.update_eq_self]
  simp only [appendBytes, List.append_nil, hoffset]

theorem appendBytes_append (self : FileView) (member : ℕ) (first second : Bytes) :
    (self.appendBytes member first).appendBytes member second =
      self.appendBytes member (first ++ second) := by
  simp only [appendBytes, List.append_assoc, Function.update_idem]

theorem apply_write_of_atEnd {self : FileView} {member : ℕ} (h : self.AtEnd member)
    (chunk : Bytes) : self.apply (.write member chunk) = self.appendBytes member chunk := by
  have hoffset : self.offset member = some self.content.length := h
  simp only [apply, fetched, hoffset, written, Option.getD_some, writeAt_end, appendBytes,
    List.length_append]

theorem run_writes_of_atEnd {self : FileView} {member : ℕ} (h : self.AtEnd member)
    (chunks : List Bytes) :
    self.run (chunks.map (FileOp.write member)) = self.appendBytes member chunks.flatten := by
  induction chunks generalizing self with
  | nil => exact (appendBytes_nil h).symm
  | cons chunk rest ih =>
    have hrest := ih (self.atEnd_appendBytes member chunk)
    rw [appendBytes_append] at hrest
    rw [List.flatten_cons, ← hrest, ← apply_write_of_atEnd h]
    rfl

/-- A batch of a writer at the end of the content appends its documents. -/
theorem run_batchOps_of_atEnd {self : FileView} {member : ℕ} (h : self.AtEnd member)
    (batch : Batch) :
    self.run (batchOps member batch) =
      (self.appendBytes member (encode batch.docs)).count batch.docs := by
  have hwrites := run_writes_of_atEnd h ([] :: batch.chunks)
  rw [List.flatten_cons, List.nil_append, batch.complete] at hwrites
  rw [← hwrites]
  show self.run (([] :: batch.chunks).map (FileOp.write member) ++ [.created batch.docs]) = _
  rw [run_append]
  rfl

theorem count_count (self : FileView) (first second : List Record) :
    (self.count first).count second = self.count (first ++ second) := by
  simp only [count, List.map_append, List.append_assoc]

theorem run_batches_of_atEnd {self : FileView} {member : ℕ} (h : self.AtEnd member)
    (batches : List Batch) :
    self.run (batches.flatMap (batchOps member)) =
      (self.appendBytes member (encode (batches.flatMap Batch.docs))).count
        (batches.flatMap Batch.docs) := by
  induction batches generalizing self with
  | nil =>
    have hnil : self.appendBytes member (encode []) = self := appendBytes_nil h
    rw [List.flatMap_nil, List.flatMap_nil, hnil, count, List.map_nil, List.append_nil]
    rfl
  | cons batch rest ih =>
    have hend : ((self.appendBytes member (encode batch.docs)).count batch.docs).AtEnd member :=
      self.atEnd_appendBytes member (encode batch.docs)
    rw [List.flatMap_cons, List.flatMap_cons, run_append, run_batchOps_of_atEnd h, ih hend,
      encode_append, ← appendBytes_append, ← count_count]
    rfl

theorem run_batches_of_fresh {self : FileView} {member : ℕ} (h : self.offset member = none)
    {batches : List Batch} (hne : batches ≠ []) :
    self.run (batches.flatMap (batchOps member)) =
      (self.opened member).run (batches.flatMap (batchOps member)) := by
  obtain ⟨batch, rest, rfl⟩ := List.exists_cons_of_ne_nil hne
  have hfetched : self.fetched member = self.opened member := by
    simp only [fetched, h]
  have hagain : (self.opened member).fetched member = self.opened member := by
    simp only [fetched, opened, Function.update_self]
  have hfirst : self.apply (.write member []) = (self.opened member).apply (.write member []) := by
    rw [apply, apply, hfetched, hagain]
  show (self.apply (.write member [])).run _ = ((self.opened member).apply (.write member [])).run _
  rw [hfirst]

end FileView

/-- The content of a file and what was counted for it. -/
abbrev Seen := Bytes × List Bytes

def FileView.seen (self : FileView) : Seen := (self.content, self.counted)

/-- What one diagnostic leaves of a file when nobody interferes. -/
def Diagnostic.leaves (target : FileTarget) (name : String) (self : Diagnostic) (seen : Seen) :
    Seen :=
  (match self.replacement target name with
    | some report => report.bytes
    | none => if self.opens target name then encode (self.docsOn target name) else seen.1,
    seen.2 ++ (self.linesOn target name).map Record.bytes)

/-- What an operation counts. -/
def FileOp.counts : FileOp → List Bytes
  | truncate _ | write _ _ => []
  | created docs => docs.map Record.bytes
  | replace report | append report => [report.bytes]

section Sequences

variable {target : FileTarget} {name : String}

theorem seen_replace (v : FileView) (report : Option Record) :
    (v.run (report.toList.map FileOp.replace)).seen =
      ((report.map Record.bytes).getD v.content,
        v.counted ++ report.toList.map Record.bytes) := by
  cases report with
  | none => simp [FileView.run, FileView.seen]
  | some report => rfl

/-- One diagnostic, whose exporter has no writer yet, alone. -/
theorem seen_run_opsOn (v : FileView) (one : Member) (hfresh : v.offset one.1 = none) :
    (v.run (opsOn target name one)).seen = one.2.leaves target name v.seen := by
  obtain ⟨member, self⟩ := one
  have hcontent : ∀ report : Option Record, ∀ bytes : Bytes,
      (report.map Record.bytes).getD bytes =
        (match report with | some report => report.bytes | none => bytes) := by
    intro report bytes
    cases report <;> rfl
  by_cases hopens : self.opens target name
  · have hdocs : v.run ((if target = .file name then [.truncate member] else []) ++
        (self.batchesOn target name).flatMap (batchOps member)) =
        ((v.opened member).appendBytes member (encode (self.docsOn target name))).count
          (self.docsOn target name) := by
      have hend := FileView.run_batches_of_atEnd (v.atEnd_opened member)
        (self.batchesOn target name)
      by_cases hfile : target = .file name
      · rw [if_pos hfile, FileView.run_append]
        exact hend
      · have hne : self.batchesOn target name ≠ [] := hopens.resolve_left hfile
        rw [if_neg hfile, List.nil_append, FileView.run_batches_of_fresh hfresh hne]
        exact hend
    rw [opsOn, ← List.append_assoc, FileView.run_append, hdocs, seen_replace, hcontent,
      Diagnostic.leaves, if_pos hopens, Diagnostic.linesOn, List.map_append, ← List.append_assoc]
    rfl
  · obtain ⟨hfile, hbatches⟩ := not_or.mp hopens
    have hnone : self.batchesOn target name = [] := not_not.mp hbatches
    have hdocs : self.docsOn target name = [] := by
      rw [Diagnostic.docsOn, hnone, List.flatMap_nil]
    rw [opsOn, if_neg hfile, hnone, List.flatMap_nil, List.nil_append, List.nil_append,
      seen_replace, hcontent, Diagnostic.leaves, if_neg hopens, Diagnostic.linesOn, hdocs,
      List.nil_append]
    rfl

/-- An operation of no other member than this one. -/
def FileOp.IsOf (member : ℕ) : FileOp → Prop
  | truncate one | write one _ => one = member
  | created _ | replace _ | append _ => True

theorem offset_apply_of_ne {member other : ℕ} (hne : other ≠ member) (v : FileView)
    {op : FileOp} (hop : op.IsOf member) : (v.apply op).offset other = v.offset other := by
  cases op with
  | truncate one =>
    have hone : other ≠ one := fun heq => hne (heq.trans hop)
    exact Function.update_of_ne hone ..
  | write one chunk =>
    have hone : other ≠ one := fun heq => hne (heq.trans hop)
    have hfetched : (v.fetched one).offset other = v.offset other := by
      unfold FileView.fetched
      split
      · rfl
      · exact Function.update_of_ne hone ..
    exact (Function.update_of_ne hone ..).trans hfetched
  | created docs => rfl
  | replace report => rfl
  | append report => rfl

theorem offset_run_of_ne {member other : ℕ} (hne : other ≠ member) (v : FileView)
    {ops : List FileOp} (hops : ∀ op ∈ ops, op.IsOf member) :
    (v.run ops).offset other = v.offset other := by
  induction ops generalizing v with
  | nil => rfl
  | cons op rest ih =>
    have hop := offset_apply_of_ne hne v (hops op List.mem_cons_self)
    have hrest := ih (v.apply op) fun one hone => hops one (List.mem_cons_of_mem op hone)
    exact hrest.trans hop

theorem isOf_opsOn (one : Member) : ∀ op ∈ opsOn target name one, op.IsOf one.1 := by
  intro op hop
  rw [opsOn, List.mem_append, List.mem_append, List.mem_flatMap, List.mem_map] at hop
  rcases hop with hop | ⟨batch, hbatch, hop⟩ | ⟨report, hreport, rfl⟩
  · by_cases hfile : target = .file name
    · rw [if_pos hfile, List.mem_singleton] at hop
      rw [hop]
      exact rfl
    · rw [if_neg hfile] at hop
      exact absurd hop List.not_mem_nil
  · rw [batchOps, List.mem_cons, List.mem_append, List.mem_map, List.mem_singleton] at hop
    rcases hop with rfl | ⟨chunk, hchunk, rfl⟩ | rfl
    · exact rfl
    · exact rfl
    · trivial
  · trivial

/-- Diagnostics with exporters of their own, one after the other. -/
theorem seen_run_members (v : FileView) (members : List Member)
    (hids : (members.map Prod.fst).Nodup) (hfresh : ∀ one ∈ members, v.offset one.1 = none) :
    (v.run (members.flatMap (opsOn target name))).seen =
      (members.map Prod.snd).foldl (fun seen self => self.leaves target name seen) v.seen := by
  induction members generalizing v with
  | nil => rfl
  | cons one rest ih =>
    rw [List.map_cons, List.nodup_cons] at hids
    have hrest : ∀ other ∈ rest, (v.run (opsOn target name one)).offset other.1 = none := by
      intro other hother
      have hne : other.1 ≠ one.1 := fun heq =>
        hids.1 (heq ▸ List.mem_map_of_mem (f := Prod.fst) hother)
      rw [offset_run_of_ne hne v (isOf_opsOn one)]
      exact hfresh other (List.mem_cons_of_mem one hother)
    rw [List.flatMap_cons, FileView.run_append, ih _ hids.2 hrest,
      seen_run_opsOn v one (hfresh one List.mem_cons_self), List.map_cons, List.foldl_cons]

/-- More was counted than there are lines. -/
def Lost (seen : Seen) : Prop := (lines seen.1).length < seen.2.length

def Present (seen : Seen) : Prop := seen.2.Subperm (lines seen.1)

theorem not_present_of_lost {seen : Seen} (h : Lost seen) : ¬ Present seen := by
  intro hpresent
  have hle := hpresent.length_le
  unfold Lost at h
  omega

theorem lines_report (report : Record) : lines report.bytes = [report.bytes] :=
  lines_single report.bytes report.nonempty report.oneLine

namespace Diagnostic

variable {self : Diagnostic} {seen : Seen}

theorem docsOn_eq_nil_of_not_opens (h : ¬ self.opens target name) :
    self.docsOn target name = [] := by
  have hbatches : self.batchesOn target name = [] := not_not.mp (not_or.mp h).2
  rw [docsOn, hbatches, List.flatMap_nil]

theorem linesOn_eq_nil_of_not_rewrites (h : ¬ self.rewrites target name) :
    self.linesOn target name = [] := by
  obtain ⟨hopens, hreplacement⟩ := not_or.mp h
  have hnone : self.replacement target name = none := Option.not_isSome_iff_eq_none.mp hreplacement
  rw [linesOn, docsOn_eq_nil_of_not_opens hopens, hnone]
  rfl

theorem leaves_of_not_rewrites (h : ¬ self.rewrites target name) :
    self.leaves target name seen = seen := by
  obtain ⟨hopens, hreplacement⟩ := not_or.mp h
  have hnone : self.replacement target name = none := Option.not_isSome_iff_eq_none.mp hreplacement
  rw [leaves, hnone, linesOn_eq_nil_of_not_rewrites h, List.map_nil, List.append_nil]
  simp only [if_neg hopens]

/-- The lines that a diagnostic leaves in a file that it rewrites. -/
theorem lines_leaves_of_rewrites (h : self.rewrites target name) :
    lines (self.leaves target name seen).1 =
      ((self.replacement target name).elim (self.docsOn target name) fun report => [report]).map
        Record.bytes := by
  cases hreplacement : self.replacement target name with
  | some report =>
    simp only [leaves, hreplacement, lines_report, Option.elim_some, List.map_cons, List.map_nil]
  | none =>
    have hopens : self.opens target name := by
      refine h.resolve_right ?_
      rw [hreplacement]
      exact Bool.false_ne_true
    simp only [leaves, hreplacement, if_pos hopens, lines_encode, Option.elim_none]

theorem lost_leaves_of_rewrites (h : self.rewrites target name) (hcounted : seen.2 ≠ []) :
    Lost (self.leaves target name seen) := by
  have hpos : 0 < seen.2.length := List.length_pos_of_ne_nil hcounted
  unfold Lost
  rw [lines_leaves_of_rewrites h, leaves, linesOn]
  cases self.replacement target name with
  | none => simp; omega
  | some report => simp; omega

theorem lost_leaves_of_own (hdocs : self.docsOn target name ≠ [])
    (hreplacement : (self.replacement target name).isSome = true) :
    Lost (self.leaves target name seen) := by
  have hpos : 0 < (self.docsOn target name).length := List.length_pos_of_ne_nil hdocs
  obtain ⟨report, hreport⟩ := Option.isSome_iff_exists.mp hreplacement
  unfold Lost
  rw [lines_leaves_of_rewrites (.inr hreplacement), leaves, linesOn, hreport]
  simp
  omega

theorem lost_leaves (h : Lost seen) : Lost (self.leaves target name seen) := by
  by_cases hrewrites : self.rewrites target name
  · refine lost_leaves_of_rewrites hrewrites fun hnil => ?_
    rw [Lost, hnil] at h
    exact absurd h (Nat.not_lt_zero _)
  · rwa [leaves_of_not_rewrites hrewrites]

theorem present_leaves (hcounted : seen.2 = [])
    (hown : (self.replacement target name).isSome = true → self.docsOn target name = []) :
    Present (self.leaves target name seen) := by
  unfold Present
  by_cases hrewrites : self.rewrites target name
  · rw [lines_leaves_of_rewrites hrewrites, leaves, linesOn, hcounted, List.nil_append]
    cases hreplacement : self.replacement target name with
    | none =>
      rw [Option.toList_none, List.append_nil]
      exact List.Subperm.refl _
    | some report =>
      rw [hreplacement] at hown
      rw [hown rfl]
      exact List.Subperm.refl _
  · rw [leaves_of_not_rewrites hrewrites, hcounted]
    exact List.nil_subperm

end Diagnostic

/-- The diagnostics of a list, one after the other. -/
abbrev leavesAll (target : FileTarget) (name : String) (selves : List Diagnostic)
    (seen : Seen) : Seen :=
  selves.foldl (fun seen self => self.leaves target name seen) seen

theorem lost_leavesAll (selves : List Diagnostic) {seen : Seen} (h : Lost seen) :
    Lost (leavesAll target name selves seen) := by
  induction selves generalizing seen with
  | nil => exact h
  | cons self rest ih => exact ih (Diagnostic.lost_leaves h)

theorem lost_leavesAll_of_counted (selves : List Diagnostic) {seen : Seen}
    (hcounted : seen.2 ≠ []) {self : Diagnostic} (hself : self ∈ selves)
    (hrewrites : self.rewrites target name) : Lost (leavesAll target name selves seen) := by
  induction selves generalizing seen with
  | nil => exact absurd hself List.not_mem_nil
  | cons one rest ih =>
    rcases List.mem_cons.mp hself with rfl | hrest
    · have hlost := Diagnostic.lost_leaves_of_rewrites hrewrites hcounted
      exact lost_leavesAll rest hlost
    · have hmore : (one.leaves target name seen).2 ≠ [] :=
        List.append_ne_nil_of_left_ne_nil hcounted _
      exact ih hmore hrest

/-- What an earlier diagnostic counted is lost when a later one rewrites the file. -/
theorem lost_leavesAll_of_pair {selves : List Diagnostic} {seen : Seen}
    {first second : Diagnostic} (hpair : [first, second].Sublist selves)
    (hlines : first.linesOn target name ≠ []) (hrewrites : second.rewrites target name) :
    Lost (leavesAll target name selves seen) := by
  induction selves generalizing seen with
  | nil => exact absurd hpair.length_le (by simp)
  | cons one rest ih =>
    cases hpair with
    | cons _ hrest => exact ih hrest
    | cons_cons _ hrest =>
      have hmapped : (first.linesOn target name).map Record.bytes ≠ [] := by
        rwa [Ne, List.map_eq_nil_iff]
      have hcounted : (first.leaves target name seen).2 ≠ [] :=
        List.append_ne_nil_of_right_ne_nil _ hmapped
      have hsecond : second ∈ rest := hrest.subset List.mem_cons_self
      exact lost_leavesAll_of_counted rest hcounted hsecond hrewrites

theorem lost_leavesAll_of_own {selves : List Diagnostic} {seen : Seen} {self : Diagnostic}
    (hself : self ∈ selves) (hdocs : self.docsOn target name ≠ [])
    (hreplacement : (self.replacement target name).isSome = true) :
    Lost (leavesAll target name selves seen) := by
  induction selves generalizing seen with
  | nil => exact absurd hself List.not_mem_nil
  | cons one rest ih =>
    rcases List.mem_cons.mp hself with rfl | hrest
    · have hlost : Lost (self.leaves target name seen) :=
        Diagnostic.lost_leaves_of_own hdocs hreplacement
      exact lost_leavesAll rest hlost
    · exact ih hrest

end Sequences

/-- No diagnostic of the family rewrites a file in which another one, or itself,
has counted lines. The children come after the parent, in any order. -/
structure NoConflict (target : FileTarget) (family : Family) : Prop where
  own : ∀ self ∈ family.parent :: family.children, ∀ name,
    (self.replacement target name).isSome = true → self.docsOn target name = []
  parent : ∀ child ∈ family.children, ∀ name,
    family.parent.linesOn target name ≠ [] → ¬ child.rewrites target name
  siblings : family.children.Pairwise fun first second => ∀ name,
    (first.linesOn target name ≠ [] → ¬ second.rewrites target name) ∧
      (second.linesOn target name ≠ [] → ¬ first.rewrites target name)

namespace Family

variable (self : Family)

theorem map_snd_childMembers : self.childMembers.map Prod.snd = self.children := by
  rw [childMembers, List.map_map]
  exact List.zipIdx_map_fst 1 self.children

def members : List Member := (0, self.parent) :: self.childMembers

theorem nodup_ids : (self.members.map Prod.fst).Nodup := by
  have hids : self.childMembers.map Prod.fst = List.range' 1 self.children.length := by
    rw [childMembers, List.map_map]
    exact List.zipIdx_map_snd 1 self.children
  rw [members, List.map_cons, List.nodup_cons, hids]
  refine ⟨fun hmem => ?_, List.nodup_range'⟩
  have hbound := List.mem_range'_1.mp hmem
  omega

end Family

section Families

variable {target : FileTarget} {files : KeyedMap Place Bytes} {earlier : List Record}

theorem allPresent_iff (state : ExportState) :
    AllPresent state ↔ ∀ place, Present (view place state).seen := Iff.rfl

theorem seen_initialState (name : String) :
    (view (.inTarget name) (initialState files earlier)).seen =
      ((files.find? (.inTarget name)).getD [], []) := by
  have hne : Place.inTarget name ≠ .lastRun := Place.noConfusion
  simp only [FileView.seen, view, initialState, ExportState.contentOf,
    KeyedMap.find?_insert_of_ne _ hne, List.filter_nil, List.map_nil]

theorem offset_initialState (place : Place) (member : ℕ) :
    (view place (initialState files earlier)).offset member = none := rfl

/-- Members that write one after the other, each with an exporter of its own. -/
theorem seen_runSteps_of_steps (name : String) {members : List Member}
    (hids : (members.map Prod.fst).Nodup) {steps : List (ℕ × ExportStep)}
    (hsteps : steps.filterMap (opOn target (.inTarget name)) =
      members.flatMap (opsOn target name)) :
    (view (.inTarget name) (runSteps target (initialState files earlier) steps)).seen =
      leavesAll target name (members.map Prod.snd)
        ((files.find? (.inTarget name)).getD [], []) := by
  rw [view_runSteps, hsteps, seen_run_members _ _ hids fun one _ => offset_initialState _ one.1,
    seen_initialState]

theorem filterMap_memberSteps_flatten (name : String) (members : List Member) :
    (members.map memberSteps).flatten.filterMap (opOn target (.inTarget name)) =
      members.flatMap (opsOn target name) := by
  induction members with
  | nil => rfl
  | cons one rest ih =>
    rw [List.map_cons, List.flatten_cons, List.filterMap_append, filterMap_memberSteps, ih,
      List.flatMap_cons]

/-- The reports of file exporters are appended to the last run and stay there. -/
theorem present_lastRun (steps : List (ℕ × ExportStep)) :
    Present (view .lastRun (runSteps target (initialState files earlier) steps)).seen := by
  have hops : ∃ reports : List Record,
      steps.filterMap (opOn target .lastRun) = reports.map .append := by
    induction steps with
    | nil => exact ⟨[], rfl⟩
    | cons step rest ih =>
      obtain ⟨reports, hreports⟩ := ih
      obtain ⟨member, step⟩ := step
      cases step with
      | resolve => cases target <;> exact ⟨reports, hreports⟩
      | write index chunk => exact ⟨reports, hreports⟩
      | created index docs => exact ⟨reports, hreports⟩
      | saveReport report =>
        cases target with
        | directory => exact ⟨reports, hreports⟩
        | file path =>
          have hop : opOn (.file path) .lastRun (member, .saveReport report) =
              some (.append report) := rfl
          refine ⟨report :: reports, ?_⟩
          rw [List.filterMap_cons_some hop, hreports, List.map_cons]
  have hrun : ∀ (reports : List Record) (v : FileView) (kept : List Record),
      v.content = encode kept → (v.run (reports.map .append)).seen =
        (encode (kept ++ reports), v.counted ++ reports.map Record.bytes) := by
    intro reports
    induction reports with
    | nil =>
      intro v kept hkept
      simp [FileView.run, FileView.seen, hkept]
    | cons report rest ih =>
      intro v kept hkept
      have hcontent : (v.apply (.append report)).content = encode (kept ++ [report]) := by
        rw [encode_append, ← hkept]
        rfl
      have hrest := ih (v.apply (.append report)) (kept ++ [report]) hcontent
      rw [List.append_assoc] at hrest
      refine hrest.trans ?_
      simp [FileView.apply, FileView.count]
  obtain ⟨reports, hreports⟩ := hops
  have hinitial : (view .lastRun (initialState files earlier)).content = encode earlier := by
    simp only [view, initialState, ExportState.contentOf, KeyedMap.find?_insert_self,
      Option.getD_some]
  rw [view_runSteps, hreports, hrun reports _ earlier hinitial, Present, lines_encode,
    List.map_append]
  exact (List.sublist_append_right _ _).subperm

/-- What the operations of any writers count, in any order. -/
theorem counted_run (v : FileView) (ops : List FileOp) :
    (v.run ops).counted = v.counted ++ ops.flatMap FileOp.counts := by
  induction ops generalizing v with
  | nil => exact (List.append_nil _).symm
  | cons op rest ih =>
    have hop : (v.apply op).counted = v.counted ++ op.counts := by
      cases op with
      | truncate one => exact (List.append_nil _).symm
      | write one chunk =>
        have hfetched : (v.fetched one).counted = v.counted := by
          unfold FileView.fetched
          split <;> rfl
        exact hfetched.trans (List.append_nil _).symm
      | created docs => rfl
      | replace report => rfl
      | append report => rfl
    have hrest := ih (v.apply op)
    rw [hop, List.append_assoc, ← List.flatMap_cons] at hrest
    exact hrest

theorem counts_eq_nil_of_linesOn {name : String} {one : Member}
    (h : one.2.linesOn target name = []) : ∀ op ∈ opsOn target name one, op.counts = [] := by
  let v : FileView := ⟨[], fun _ => none, []⟩
  have hseen : (v.run (opsOn target name one)).seen = one.2.leaves target name v.seen :=
    seen_run_opsOn v one rfl
  have hrun := counted_run v (opsOn target name one)
  have hcounted : (v.run (opsOn target name one)).counted = [] := by
    refine (congrArg Prod.snd hseen).trans ?_
    rw [Diagnostic.leaves, h]
    rfl
  rw [hcounted, List.nil_append] at hrun
  exact List.flatMap_eq_nil_iff.mp hrun.symm

theorem opsOn_eq_nil_of_not_rewrites {name : String} {one : Member}
    (h : ¬ one.2.rewrites target name) : opsOn target name one = [] := by
  obtain ⟨hopens, hreplacement⟩ := not_or.mp h
  obtain ⟨hfile, hbatches⟩ := not_or.mp hopens
  have hnone : one.2.replacement target name = none :=
    Option.not_isSome_iff_eq_none.mp hreplacement
  rw [opsOn, if_neg hfile, not_not.mp hbatches, hnone]
  rfl

theorem silent_of_not_rewrites {name : String} {one : Member}
    (h : ¬ one.2.rewrites target name) :
    ∀ step ∈ memberSteps one, opOn target (.inTarget name) step = none := by
  have hnil := filterMap_memberSteps target name one
  rw [opsOn_eq_nil_of_not_rewrites h, List.filterMap_eq_nil_iff] at hnil
  exact hnil

variable {family : Family} {schedule : ℕ → List Bool} {name : String}

/-- The operations of the children on one file. -/
def childOps (target : FileTarget) (name : String) (family : Family)
    (schedule : ℕ → List Bool) : List FileOp :=
  (interleaveAll (family.childMembers.map fun child =>
    (schedule child.1, memberSteps child))).filterMap (opOn target (.inTarget name))

theorem filterMap_steps :
    (family.steps schedule).filterMap (opOn target (.inTarget name)) =
      opsOn target name (0, family.parent) ++ childOps target name family schedule := by
  rw [Family.steps, List.filterMap_append, filterMap_memberSteps, childOps]

theorem mem_children {child : Member} (hmem : child ∈ family.childMembers) :
    child.2 ∈ family.children := by
  rw [← family.map_snd_childMembers]
  exact List.mem_map_of_mem hmem

theorem mem_childOps {op : FileOp} (hop : op ∈ childOps target name family schedule) :
    ∃ child ∈ family.childMembers, op ∈ opsOn target name child := by
  obtain ⟨step, hstep, hopOn⟩ := List.mem_filterMap.mp hop
  obtain ⟨one, hone, hmem⟩ := mem_interleaveAll.mp hstep
  obtain ⟨child, hchild, rfl⟩ := List.mem_map.mp hone
  refine ⟨child, hchild, ?_⟩
  rw [← filterMap_memberSteps]
  exact List.mem_filterMap.mpr ⟨step, hmem, hopOn⟩

theorem childOps_eq_nil (h : ∀ child ∈ family.children, ¬ child.rewrites target name) :
    childOps target name family schedule = [] := by
  rw [List.eq_nil_iff_forall_not_mem]
  intro op hop
  obtain ⟨child, hmem, hops⟩ := mem_childOps hop
  rw [opsOn_eq_nil_of_not_rewrites (h child.2 (mem_children hmem))] at hops
  exact List.not_mem_nil hops

/-- A child that counts lines in a file is the only one that acts on it. -/
theorem childOps_eq_opsOn (h : NoConflict target family) {child : Member}
    (hmem : child ∈ family.childMembers) (hlines : child.2.linesOn target name ≠ []) :
    childOps target name family schedule = opsOn target name child := by
  obtain ⟨before, after, hmembers⟩ := List.append_of_mem hmem
  have hchildren := family.map_snd_childMembers
  rw [hmembers, List.map_append, List.map_cons] at hchildren
  have hpairs := h.siblings
  rw [← hchildren, List.pairwise_append, List.pairwise_cons] at hpairs
  obtain ⟨-, ⟨hnext, -⟩, hcross⟩ := hpairs
  rw [childOps, hmembers, List.map_append, List.map_cons, filterMap_interleaveAll]
  · exact filterMap_memberSteps target name child
  · intro one hone
    obtain ⟨other, hother, rfl⟩ := List.mem_map.mp hone
    have hpair := hcross other.2 (List.mem_map_of_mem hother) child.2 List.mem_cons_self
    exact silent_of_not_rewrites ((hpair name).2 hlines)
  · intro one hone
    obtain ⟨other, hother, rfl⟩ := List.mem_map.mp hone
    have hpair := hnext other.2 (List.mem_map_of_mem hother)
    exact silent_of_not_rewrites ((hpair name).1 hlines)

theorem present_of_child_lines (h : NoConflict target family) {child : Member}
    (hmem : child ∈ family.childMembers) (hlines : child.2.linesOn target name ≠ []) :
    Present (view (.inTarget name)
      (runSteps target (initialState files earlier) (family.steps schedule))).seen := by
  have hrewrites : child.2.rewrites target name :=
    not_not.mp (mt Diagnostic.linesOn_eq_nil_of_not_rewrites hlines)
  have hparent : family.parent.linesOn target name = [] := by
    by_contra hne
    exact h.parent child.2 (mem_children hmem) name hne hrewrites
  have hids : ([(0, family.parent), child].map Prod.fst).Nodup := by
    have hall := family.nodup_ids
    rw [Family.members, List.map_cons, List.nodup_cons] at hall
    have hne : (0 : ℕ) ≠ child.1 := fun heq =>
      hall.1 (List.mem_map.mpr ⟨child, hmem, heq.symm⟩)
    simpa using hne
  have hsteps : (family.steps schedule).filterMap (opOn target (.inTarget name)) =
      [(0, family.parent), child].flatMap (opsOn target name) := by
    rw [filterMap_steps, childOps_eq_opsOn h hmem hlines, List.flatMap_cons, List.flatMap_cons,
      List.flatMap_nil, List.append_nil]
  rw [seen_runSteps_of_steps name hids hsteps]
  have hfirst : (family.parent.leaves target name
      ((files.find? (.inTarget name)).getD [], [])).2 = [] := by
    rw [Diagnostic.leaves, hparent]
    rfl
  exact Diagnostic.present_leaves hfirst
    (h.own child.2 (List.mem_cons_of_mem _ (mem_children hmem)) name)

theorem present_of_parent_lines (h : NoConflict target family)
    (hlines : family.parent.linesOn target name ≠ []) :
    Present (view (.inTarget name)
      (runSteps target (initialState files earlier) (family.steps schedule))).seen := by
  have hchildren : childOps target name family schedule = [] :=
    childOps_eq_nil fun child hchild => h.parent child hchild name hlines
  have hsteps : (family.steps schedule).filterMap (opOn target (.inTarget name)) =
      [(0, family.parent)].flatMap (opsOn target name) := by
    rw [filterMap_steps, hchildren, List.flatMap_cons, List.flatMap_nil]
  have hids : ([(0, family.parent)].map Prod.fst).Nodup := List.nodup_singleton 0
  rw [seen_runSteps_of_steps name hids hsteps]
  exact Diagnostic.present_leaves rfl (h.own family.parent List.mem_cons_self name)

/-- A file in which nobody counts lines. -/
theorem present_of_no_lines
    (hlines : ∀ one ∈ family.members, one.2.linesOn target name = []) :
    Present (view (.inTarget name)
      (runSteps target (initialState files earlier) (family.steps schedule))).seen := by
  have hparent : (opsOn target name (0, family.parent)).flatMap FileOp.counts = [] :=
    List.flatMap_eq_nil_iff.mpr (counts_eq_nil_of_linesOn (hlines _ List.mem_cons_self))
  have hchildren : (childOps target name family schedule).flatMap FileOp.counts = [] := by
    rw [List.flatMap_eq_nil_iff]
    intro op hop
    obtain ⟨child, hmem, hops⟩ := mem_childOps hop
    exact counts_eq_nil_of_linesOn (hlines child (List.mem_cons_of_mem _ hmem)) op hops
  have hcounted : (view (.inTarget name) (runSteps target (initialState files earlier)
      (family.steps schedule))).counted = [] := by
    rw [view_runSteps, counted_run, filterMap_steps, List.flatMap_append, hparent, hchildren]
    rfl
  rw [Present, FileView.seen, hcounted]
  exact List.nil_subperm

/-- Without conflicts at most one child acts on a file in which lines are
counted, and if the parent has counted lines there, no child does. -/
theorem allPresent_of_noConflict (h : NoConflict target family) :
    AllPresent (runSteps target (initialState files earlier) (family.steps schedule)) := by
  rw [allPresent_iff]
  intro place
  cases place with
  | lastRun => exact present_lastRun _
  | inTarget name =>
    by_cases howner : ∃ child ∈ family.childMembers, child.2.linesOn target name ≠ []
    · obtain ⟨child, hmem, hlines⟩ := howner
      exact present_of_child_lines h hmem hlines
    · by_cases hparent : family.parent.linesOn target name = []
      · refine present_of_no_lines fun one hone => ?_
        rcases List.mem_cons.mp hone with rfl | hmem
        · exact hparent
        · by_contra hne
          exact howner ⟨one, hmem, hne⟩
      · exact present_of_parent_lines h hparent

/-- Schedules under which the children run one after the other, as listed or the
other way round. -/
theorem exists_sequential_schedule {order : List Member}
    (horder : order = family.childMembers ∨ order = family.childMembers.reverse) :
    ∃ schedule, family.steps schedule =
      (((0, family.parent) :: order).map memberSteps).flatten := by
  rcases horder with rfl | rfl
  · have hall := interleaveAll_in_order (family.childMembers.map memberSteps)
    rw [List.map_map] at hall
    refine ⟨fun _ => [], ?_⟩
    rw [List.map_cons, List.flatten_cons, ← hall]
    rfl
  · have hall := interleaveAll_reversed (family.childMembers.map memberSteps) (Nat.le_refl _)
    rw [List.map_map, ← List.map_reverse] at hall
    refine ⟨fun _ =>
      List.replicate (family.childMembers.map memberSteps).flatten.length false, ?_⟩
    rw [List.map_cons, List.flatten_cons, ← hall]
    rfl

theorem present_sequential
    (h : ∀ schedule, AllPresent
      (runSteps target (initialState files earlier) (family.steps schedule)))
    {order : List Member}
    (horder : order = family.childMembers ∨ order = family.childMembers.reverse) (name : String) :
    Present (leavesAll target name (family.parent :: order.map Prod.snd)
      ((files.find? (.inTarget name)).getD [], [])) := by
  obtain ⟨schedule, hschedule⟩ := exists_sequential_schedule horder
  have hids : (((0, family.parent) :: order).map Prod.fst).Nodup := by
    have hperm : order.Perm family.childMembers := by
      rcases horder with rfl | rfl
      · exact List.Perm.refl _
      · exact List.reverse_perm _
    exact ((hperm.cons (0, family.parent)).map Prod.fst).nodup_iff.mpr family.nodup_ids
  have hops : (family.steps schedule).filterMap (opOn target (.inTarget name)) =
      ((0, family.parent) :: order).flatMap (opsOn target name) := by
    rw [hschedule, filterMap_memberSteps_flatten]
  have hpresent : Present (view (.inTarget name)
      (runSteps target (initialState files earlier) (family.steps schedule))).seen :=
    h schedule (.inTarget name)
  rw [seen_runSteps_of_steps name hids hops, List.map_cons] at hpresent
  exact hpresent

theorem present_in_order
    (h : ∀ schedule, AllPresent
      (runSteps target (initialState files earlier) (family.steps schedule))) (name : String) :
    Present (leavesAll target name (family.parent :: family.children)
      ((files.find? (.inTarget name)).getD [], [])) := by
  have hpresent := present_sequential h (.inl rfl) name
  rwa [family.map_snd_childMembers] at hpresent

theorem present_reversed
    (h : ∀ schedule, AllPresent
      (runSteps target (initialState files earlier) (family.steps schedule))) (name : String) :
    Present (leavesAll target name (family.parent :: family.children.reverse)
      ((files.find? (.inTarget name)).getD [], [])) := by
  have hpresent := present_sequential h (.inr rfl) name
  rwa [List.map_reverse, family.map_snd_childMembers] at hpresent

theorem noConflict_of_allPresent
    (h : ∀ schedule, AllPresent
      (runSteps target (initialState files earlier) (family.steps schedule))) :
    NoConflict target family := by
  have hforward := present_in_order h
  have hbackward := present_reversed h
  constructor
  · intro self hself name hreplacement
    by_contra hdocs
    exact not_present_of_lost (lost_leavesAll_of_own hself hdocs hreplacement) (hforward name)
  · intro child hchild name hlines hrewrites
    have hpair : [family.parent, child].Sublist (family.parent :: family.children) :=
      (List.singleton_sublist.mpr hchild).cons_cons _
    exact not_present_of_lost (lost_leavesAll_of_pair hpair hlines hrewrites) (hforward name)
  · rw [List.pairwise_iff_forall_sublist]
    intro first second hsublist name
    refine ⟨fun hlines hrewrites => ?_, fun hlines hrewrites => ?_⟩
    · have hpair : [first, second].Sublist (family.parent :: family.children) :=
        hsublist.cons _
      exact not_present_of_lost (lost_leavesAll_of_pair hpair hlines hrewrites) (hforward name)
    · have hpair : [second, first].Sublist (family.parent :: family.children.reverse) :=
        hsublist.reverse.cons _
      exact not_present_of_lost (lost_leavesAll_of_pair hpair hlines hrewrites) (hbackward name)

end Families

/-- Every document and report is where it was put, in whatever order the
children write, exactly when no diagnostic of the family rewrites a file in
which lines were counted. -/
theorem allPresent_iff_noConflict (target : FileTarget) (family : Family)
    (files : KeyedMap Place Bytes) (earlier : List Record) :
    (∀ schedule, AllPresent
      (runSteps target (initialState files earlier) (family.steps schedule))) ↔
      NoConflict target family :=
  ⟨noConflict_of_allPresent, fun h _ => allPresent_of_noConflict h⟩

def sampleRecord (byte : UInt8) (h : byte ≠ newline) : Record :=
  ⟨[byte], List.cons_ne_nil byte [], by simpa using h.symm⟩

/-- One document for the cluster settings, and a report. -/
def sampleDiagnostic (doc report : Record) : Diagnostic :=
  ⟨[⟨"settings-cluster-esdiag", [doc], [encode [doc]], List.append_nil _⟩], some report⟩

/-- A platform parent, which saves a report only, and two children of one kind: each sends
a document to the same index and saves a report. -/
def platformFamily : Family where
  parent := ⟨[], some (sampleRecord 97 (by decide))⟩
  children := [sampleDiagnostic (sampleRecord 98 (by decide)) (sampleRecord 99 (by decide)),
    sampleDiagnostic (sampleRecord 100 (by decide)) (sampleRecord 101 (by decide))]
  fanOut := fun _ => rfl

/-- The second child truncates the file of the first, whose document is gone. -/
theorem child_overwrites_sibling :
    ¬ AllPresent (runSteps .directory (initialState .empty []) (platformFamily.steps fun _ => []))
    := by
  intro h
  have hle := (h (.inTarget (ndjsonFile "settings-cluster-esdiag"))).length_le
  exact absurd hle (by decide +kernel)

end Esdiag.ExportFiles
