import Esdiag.CheckedIntegers

/-!
The statistics derived for every entry of a node stats response: the used disk
space with its percentage, and the load averages as a percentage of the node's
processors. All of them are plain 64 bit expressions over values that the remote
node reports, so each result comes with the reports for which it exists.
-/

namespace Esdiag.NodeStatistics

open CheckedIntegers Outcomes

structure FilesystemTotal where
  availableInBytes : BitVec 64
  freeInBytes : BitVec 64
  totalInBytes : BitVec 64
  usedInBytes : BitVec 64 := 0#64
  usedPercent : BitVec 64 := 0#64

structure Filesystem where
  total : FilesystemTotal

structure LoadAverage where
  one : Float
  five : Float
  fifteen : Float

structure LoadPercent where
  one : BitVec 64 := 0#64
  five : BitVec 64 := 0#64
  fifteen : BitVec 64 := 0#64

structure CpuStats where
  loadAverage : Option LoadAverage
  loadPercent : LoadPercent := {}

structure NodeOs where
  cpu : CpuStats
  refreshIntervalInMillis : Option (BitVec 64) := none
  name : Option String := none
  prettyName : Option String := none
  arch : Option String := none
  version : Option String := none
  availableProcessors : Option (BitVec 64) := none
  allocatedProcessors : Option (BitVec 64) := none

structure NodeStats where
  attributes : Option String
  fs : Filesystem
  host : Option String
  name : String
  os : NodeOs
  roles : List String

/-- What the nodes response says about the operating system. -/
structure OsDetails where
  refreshIntervalInMillis : BitVec 64
  name : Option String
  prettyName : Option String
  arch : Option String
  version : Option String
  availableProcessors : BitVec 64
  allocatedProcessors : BitVec 64

structure NodeDocument where
  attributes : Option String
  host : Option String
  name : String
  os : OsDetails
  roles : List String

/-- `(load * 100.0) as usize`: negative values give zero, large ones the largest integer. -/
def hundredfold (load : Float) : BitVec 64 := (load * 100.0).toUInt64.toBitVec

def FilesystemTotal.calculate (build : Build) (total : FilesystemTotal) :
    Except Fault FilesystemTotal := do
  let used ← sub build total.totalInBytes total.freeInBytes
  let hundred ← mul build used 100#64
  let percent ← div hundred total.totalInBytes
  return { total with usedInBytes := used, usedPercent := percent }

def CpuStats.calculate (cpu : CpuStats) (processors : BitVec 64) : Except Fault CpuStats :=
  match cpu.loadAverage with
  | none => .ok cpu
  | some load => do
    let one ← div (hundredfold load.one) processors
    let five ← div (hundredfold load.five) processors
    let fifteen ← div (hundredfold load.fifteen) processors
    return { cpu with loadPercent := ⟨one, five, fifteen⟩ }

def calculateStats (build : Build) (node : NodeStats) (processors : BitVec 64) :
    Except Fault NodeStats := do
  let total ← node.fs.total.calculate build
  let cpu ← node.os.cpu.calculate processors
  return { node with fs := { total := total }, os := { node.os with cpu := cpu } }

def NodeOs.enrichFromLookup (os : NodeOs) (node : NodeDocument) : NodeOs :=
  { os with
    refreshIntervalInMillis := some node.os.refreshIntervalInMillis
    name := node.os.name
    prettyName := node.os.prettyName
    arch := node.os.arch
    version := node.os.version
    availableProcessors := some node.os.availableProcessors
    allocatedProcessors := some node.os.allocatedProcessors }

def NodeStats.enrichFromLookup (stats : NodeStats) (node : NodeDocument) : NodeStats :=
  { stats with
    attributes := if node.attributes.isSome then node.attributes else stats.attributes
    host := if node.host.isSome then node.host else stats.host
    name := node.name
    roles := node.roles
    os := stats.os.enrichFromLookup node }

/-- A node that the lookup misses counts as one processor. -/
def allocatedProcessors (lookup : String → Option NodeDocument) (nodeId : String) : BitVec 64 :=
  ((lookup nodeId).map fun node => node.os.allocatedProcessors).getD 1#64

/-- The first steps of `process_node`, before anything is extracted. -/
def processNode (build : Build) (lookup : String → Option NodeDocument) (nodeId : String)
    (stats : NodeStats) : Except Fault NodeStats := do
  let stats ← calculateStats build stats (allocatedProcessors lookup nodeId)
  return match lookup nodeId with
    | some node => stats.enrichFromLookup node
    | none => stats

/-- Used and free space make up the total, and the percentage is one. -/
structure Consistent (total : FilesystemTotal) : Prop where
  used_add_free : total.usedInBytes.toNat + total.freeInBytes.toNat = total.totalInBytes.toNat
  percent_le : total.usedPercent.toNat ≤ 100

/-- The disk is there, no more of it is free, and a hundredfold of what is used fits
where the build checks that. -/
structure DiskReported (build : Build) (total : FilesystemTotal) : Prop where
  total_ne_zero : total.totalInBytes ≠ 0#64
  free_le_total : total.freeInBytes.toNat ≤ total.totalInBytes.toNat
  fits : build.overflowChecks = true →
    (total.totalInBytes.toNat - total.freeInBytes.toNat) * 100 < 2 ^ 64

/-- A node that reports load averages has a processor. -/
def LoadReported (cpu : CpuStats) (processors : BitVec 64) : Prop :=
  cpu.loadAverage.isSome → processors ≠ 0#64

theorem calculateTotal_eq_ok_iff {build : Build} {total result : FilesystemTotal} :
    total.calculate build = .ok result ↔
      (build.overflowChecks = true →
        total.freeInBytes.toNat ≤ total.totalInBytes.toNat ∧
        (total.totalInBytes - total.freeInBytes).toNat * 100 < 2 ^ 64) ∧
      total.totalInBytes ≠ 0#64 ∧
      result = { total with
        usedInBytes := total.totalInBytes - total.freeInBytes
        usedPercent := (total.totalInBytes - total.freeInBytes) * 100#64 / total.totalInBytes } := by
  unfold FilesystemTotal.calculate
  simp only [bind_eq_ok_iff, sub_eq_ok_iff, mul_eq_ok_iff, div_eq_ok_iff]
  constructor
  · rintro ⟨used, ⟨hfree, rfl⟩, hundred, ⟨hfits, rfl⟩, percent, ⟨hzero, rfl⟩, hresult⟩
    exact ⟨fun h => ⟨hfree h, hfits h⟩, hzero, (Except.ok.inj hresult).symm⟩
  · rintro ⟨hchecks, hzero, rfl⟩
    exact ⟨_, ⟨fun h => (hchecks h).1, rfl⟩, _, ⟨fun h => (hchecks h).2, rfl⟩, _,
      ⟨hzero, rfl⟩, rfl⟩

theorem exists_calculateCpu_iff {cpu : CpuStats} {processors : BitVec 64} :
    (∃ result, cpu.calculate processors = .ok result) ↔ LoadReported cpu processors := by
  unfold CpuStats.calculate LoadReported
  cases cpu.loadAverage with
  | none => simp only [Except.ok.injEq, exists_eq', Option.isSome_none, Bool.false_eq_true,
      false_imp_iff]
  | some load =>
    simp only [bind_eq_ok_iff, div_eq_ok_iff, Option.isSome_some, true_imp_iff]
    constructor
    · rintro ⟨_, _, ⟨hzero, -⟩, -⟩
      exact hzero
    · intro hzero
      exact ⟨_, _, ⟨hzero, rfl⟩, _, ⟨hzero, rfl⟩, _, ⟨hzero, rfl⟩, rfl⟩

/-- The derived values exist and are consistent exactly for a reported disk. -/
theorem exists_consistent_total_iff {build : Build} {total : FilesystemTotal} :
    (∃ result, total.calculate build = .ok result ∧ Consistent result) ↔
      DiskReported build total := by
  simp only [calculateTotal_eq_ok_iff]
  constructor
  · rintro ⟨_, ⟨hchecks, hzero, rfl⟩, hsum, -⟩
    have hfree : total.freeInBytes.toNat ≤ total.totalInBytes.toNat :=
      toNat_sub_add_eq_iff.1 hsum
    refine ⟨hzero, hfree, fun h => ?_⟩
    rw [← BitVec.toNat_sub_of_le hfree]
    exact (hchecks h).2
  · rintro ⟨hzero, hfree, hfits⟩
    have hused := BitVec.toNat_sub_of_le (BitVec.le_def.2 hfree)
    refine ⟨_, ⟨fun h => ⟨hfree, ?_⟩, hzero, rfl⟩, toNat_sub_add_eq_iff.2 hfree, ?_⟩
    · rw [hused]
      exact hfits h
    · -- The product only gets smaller where it wraps.
      have hproduct := toNat_mul_le (total.totalInBytes - total.freeInBytes) 100#64
      change ((total.totalInBytes - total.freeInBytes) * 100#64 / total.totalInBytes).toNat ≤ 100
      rw [BitVec.toNat_udiv]
      apply Nat.div_le_of_le_mul
      rw [hused] at hproduct
      simp only [BitVec.toNat_ofNat, Nat.reducePow, Nat.reduceMod] at hproduct
      omega

theorem calculateStats_eq_ok_iff {build : Build} {node result : NodeStats}
    {processors : BitVec 64} :
    calculateStats build node processors = .ok result ↔
      ∃ total cpu, node.fs.total.calculate build = .ok total ∧
        node.os.cpu.calculate processors = .ok cpu ∧
        result = { node with fs := { total := total }, os := { node.os with cpu := cpu } } := by
  unfold calculateStats
  simp only [bind_eq_ok_iff]
  constructor
  · rintro ⟨total, htotal, cpu, hcpu, hresult⟩
    exact ⟨total, cpu, htotal, hcpu, (Except.ok.inj hresult).symm⟩
  · rintro ⟨total, cpu, htotal, hcpu, rfl⟩
    exact ⟨total, htotal, cpu, hcpu, rfl⟩

theorem exists_consistent_node_iff {build : Build} {node : NodeStats} {processors : BitVec 64} :
    (∃ result, calculateStats build node processors = .ok result ∧ Consistent result.fs.total) ↔
      DiskReported build node.fs.total ∧ LoadReported node.os.cpu processors := by
  rw [← exists_consistent_total_iff, ← exists_calculateCpu_iff]
  simp only [calculateStats_eq_ok_iff]
  constructor
  · rintro ⟨_, ⟨total, cpu, htotal, hcpu, rfl⟩, hconsistent⟩
    exact ⟨⟨total, htotal, hconsistent⟩, cpu, hcpu⟩
  · rintro ⟨⟨total, htotal, hconsistent⟩, cpu, hcpu⟩
    exact ⟨_, ⟨total, cpu, htotal, hcpu, rfl⟩, hconsistent⟩

/-- Looking the node up leaves the derived values as they are. -/
theorem processNode_eq_ok_iff {build : Build} {lookup : String → Option NodeDocument}
    {nodeId : String} {stats result : NodeStats} :
    processNode build lookup nodeId stats = .ok result ↔
      ∃ derived, calculateStats build stats (allocatedProcessors lookup nodeId) = .ok derived ∧
        result = ((lookup nodeId).map derived.enrichFromLookup).getD derived := by
  unfold processNode
  rw [bind_eq_ok_iff]
  refine exists_congr fun derived => and_congr_right fun _ => ?_
  cases lookup nodeId <;> exact ⟨fun h => (Except.ok.inj h).symm, fun h => congrArg _ h.symm⟩

theorem enriched_fs {lookup : Option NodeDocument} {derived : NodeStats} :
    ((lookup.map derived.enrichFromLookup).getD derived).fs = derived.fs := by
  cases lookup <;> rfl

/-- The statistics exist and are consistent exactly for the reports that bear them. -/
theorem statistics_consistent_iff (build : Build) (lookup : String → Option NodeDocument)
    (nodeId : String) (stats : NodeStats) (processors : BitVec 64) :
    ((∃ result, calculateStats build stats processors = .ok result ∧
        Consistent result.fs.total) ↔
      DiskReported build stats.fs.total ∧ LoadReported stats.os.cpu processors) ∧
    ((∃ result, processNode build lookup nodeId stats = .ok result ∧
        Consistent result.fs.total) ↔
      DiskReported build stats.fs.total ∧
        LoadReported stats.os.cpu (allocatedProcessors lookup nodeId)) := by
  refine ⟨exists_consistent_node_iff, ?_⟩
  rw [← exists_consistent_node_iff]
  simp only [processNode_eq_ok_iff]
  constructor
  · rintro ⟨_, ⟨derived, hderived, rfl⟩, hconsistent⟩
    rw [enriched_fs] at hconsistent
    exact ⟨derived, hderived, hconsistent⟩
  · rintro ⟨derived, hderived, hconsistent⟩
    refine ⟨_, ⟨derived, hderived, rfl⟩, ?_⟩
    rw [enriched_fs]
    exact hconsistent

/-- A node whose file system has not been sized yet. -/
def unsizedNode : NodeStats where
  attributes := none
  fs := { total := ⟨0#64, 0#64, 0#64, 0#64, 0#64⟩ }
  host := some "10.0.0.1"
  name := "instance-1"
  os := { cpu := { loadAverage := none } }
  roles := ["data"]

/-- A disk of which more is reported free than there is. -/
def overfreeNode : NodeStats :=
  { unsizedNode with fs := { total := ⟨101#64, 101#64, 100#64, 0#64, 0#64⟩ } }

/-- Every build panics on a total of zero; without overflow checks, more free than total
space gives a used space that does not fit the total. -/
theorem unsized_disk_panics :
    (∀ build, calculateStats build unsizedNode 8#64 = .error .divisionByZero) ∧
    calculateStats ⟨true⟩ overfreeNode 8#64 = .error .overflow ∧
    ∃ result, calculateStats ⟨false⟩ overfreeNode 8#64 = .ok result ∧
      result.fs.total.usedInBytes = 18446744073709551615#64 := by
  refine ⟨?_, rfl, _, rfl, rfl⟩
  rintro ⟨checks⟩
  cases checks <;> rfl

end Esdiag.NodeStatistics
