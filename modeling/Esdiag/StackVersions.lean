import Esdiag.GuardedRuns
import Esdiag.StackStarts
import Mathlib.Data.Prod.Lex

/-!
What the recorded versions of a local stack do over successive commands of any binaries.
A start keeps the recorded versions, and an upgrade moves the version of Elastic up or
leaves it. How an upgrade moves the one of ESDiag, and what it leaves in the compose
file when its pull fails, is left to a condition on the command; under it no command
goes backward, and every load reads what was written last.
-/
namespace Esdiag.StackVersions

open KeyedMaps Texts EnvFiles FailingPrograms GuardedRuns WebUrls KibanaSpaces LocalStacks
  StackStarts

section Upgrades

variable {V Url : Type} {lib : Libraries V Url} {binary : Binary}

theorem find?_recordCurrentVersions (values : Values) (name : String) :
    (recordCurrentVersions binary values).find? name =
      (findEntry name [("STACK_ELASTIC_VERSION", binary.elasticVersion),
        ("STACK_ESDIAG_VERSION", binary.esdiagVersion),
        ("ELASTICSEARCH_IMAGE", elasticsearchImage binary.elasticVersion),
        ("KIBANA_IMAGE", kibanaImage binary.elasticVersion),
        ("ESDIAG_IMAGE", esdiagImage binary.esdiagVersion)]).or (values.find? name) := by
  unfold recordCurrentVersions
  exact KeyedMap.find?_foldl_insert (by simp) values name

variable (binary) in
theorem bound_recordCurrentVersions (values : Values) :
    let recorded := recordCurrentVersions binary values
    recorded.find? "STACK_ELASTIC_VERSION" = some binary.elasticVersion ∧
      recorded.find? "STACK_ESDIAG_VERSION" = some binary.esdiagVersion ∧
      recorded.find? "ELASTICSEARCH_IMAGE" = some (elasticsearchImage binary.elasticVersion) ∧
      recorded.find? "KIBANA_IMAGE" = some (kibanaImage binary.elasticVersion) ∧
      recorded.find? "ESDIAG_IMAGE" = some (esdiagImage binary.esdiagVersion) ∧
      recorded.find? "ESDIAG_KIBANA_PORT" = values.find? "ESDIAG_KIBANA_PORT" ∧
      recorded.find? "ESDIAG_KIBANA_SPACE" = values.find? "ESDIAG_KIBANA_SPACE" := by
  refine ⟨?_, ?_, ?_, ?_, ?_, ?_, ?_⟩ <;>
    rewrite [find?_recordCurrentVersions] <;> simp [findEntry]

variable (binary) in
theorem coherent_recordCurrentVersions {values : Values} (h : Coherent values) :
    Coherent (recordCurrentVersions binary values) := by
  obtain ⟨helastic, hesdiag, hsearch, hkibana, himage, hport, hspace⟩ :=
    bound_recordCurrentVersions binary values
  refine ⟨?_, ?_, ?_, ?_, ?_, ?_, ?_⟩
  · intro name text hfind
    rw [find?_recordCurrentVersions, Option.or_eq_some_iff] at hfind
    rcases hfind with hentry | ⟨-, hold⟩
    · have hmem := mem_of_findEntry hentry
      simp only [List.mem_cons, Prod.mk.injEq, List.not_mem_nil, or_false] at hmem
      rcases hmem with ⟨rfl, rfl⟩ | ⟨rfl, rfl⟩ | ⟨rfl, rfl⟩ | ⟨rfl, rfl⟩ | ⟨rfl, rfl⟩
      · exact (plain_version binary.elastic_chars).writable (by decide +kernel)
      · exact (plain_version binary.esdiag_chars).writable (by decide +kernel)
      · exact (plain_image (by decide +kernel) binary.elastic_chars).writable (by decide +kernel)
      · exact (plain_image (by decide +kernel) binary.elastic_chars).writable (by decide +kernel)
      · exact (plain_image (by decide +kernel) binary.esdiag_chars).writable (by decide +kernel)
    · exact h.writable name text hold
  · rw [hsearch, helastic]
    rfl
  · rw [hkibana, helastic]
    rfl
  · rw [himage, hesdiag]
    rfl
  · intro version hfind
    rw [hesdiag] at hfind
    exact Option.some.inj hfind ▸ binary.esdiag_chars
  · rw [hport]
    exact h.port
  · rw [hspace]
    exact h.space

/-- An image of ESDiag is tagged with its version. -/
theorem imageTag_esdiagImage {version : String}
    (h : ∀ c ∈ version.toList, isVersionChar c = true) :
    imageTag (esdiagImage version) = some version := by
  have habsent : ∀ c, isVersionChar c = false → c ∉ version.toList := by
    intro c hc hmem
    rw [h c hmem] at hc
    cases hc
  have hlist : (esdiagImage version).toList =
      "docker.elastic.co/esdiag/esdiag".toList ++ ':' :: version.toList := by
    have hregistry : "docker.elastic.co/esdiag/esdiag:".toList =
        "docker.elastic.co/esdiag/esdiag".toList ++ [':'] := by decide
    unfold esdiagImage
    rewrite [String.toList_append, hregistry, List.append_assoc, List.singleton_append]
    exact Eq.refl _
  have hsplit : splitOnce '@' (esdiagImage version) = none := by
    have hmem : '@' ∉ (esdiagImage version).toList := by
      rw [hlist, List.mem_append, List.mem_cons]
      rintro (hregistry | heq | hversion)
      · revert hregistry
        decide
      · exact absurd heq (by decide)
      · exact habsent '@' (by decide) hversion
    unfold splitOnce
    rw [splitOnceList_of_notMem hmem]
    rfl
  have hrsplit : rsplitOnce ':' (esdiagImage version) =
      some ("docker.elastic.co/esdiag/esdiag", version) := by
    have hreverse : ':' ∉ version.toList.reverse := by
      rw [List.mem_reverse]
      exact habsent ':' (by decide)
    unfold rsplitOnce
    rw [hlist, List.reverse_append, List.reverse_cons, List.append_assoc, List.singleton_append,
      splitOnceList_append _ hreverse]
    simp
  unfold imageTag
  rw [hsplit]
  dsimp only
  rw [hrsplit]
  exact if_neg (habsent '/' (by decide))

/-- What a version is recorded or pinned as. -/
def recordedValue (name : String) (disk : Disk) : Option String :=
  match load disk with
  | .ok state => state.values.find? name
  | .error _ => none

theorem recordedValue_of_load {disk : Disk} {state : LocalState} (h : load disk = .ok state)
    (name : String) : recordedValue name disk = state.values.find? name := by
  unfold recordedValue
  rw [h]

/-- The errors of an upgrade that is refused or cancelled or whose pull fails. -/
def stopsUpgrade : LocalError → Bool
  | .write => false
  | .startup _ => false
  | _ => true

/-- The versions that an upgrade leaves: the old ones, or those of an admitted one. -/
def Moved [LinearOrder V] (lib : Libraries V Url) (binary : Binary) (options : LocalOptions)
    (answers : UpgradeAnswers) (state : LocalState) (disk : Disk) : Prop :=
  KeptOn state.values disk ∨
    (KeptOn (recordCurrentVersions binary state.values) disk ∧
      ∃ admitted, admitUpgrade lib binary options answers state = .ok (some admitted))

/-- The condition on an upgrade: if it is admitted, the recorded version of ESDiag is not newer
than the binary's, the texts and writes are as for a start, and if the pull fails the old values
can be put back and the setup command is the same for both images. -/
structure UpgradeCareful [LinearOrder V] (lib : Libraries V Url) (binary : Binary)
    (options : LocalOptions) (answers : UpgradeAnswers) (state : LocalState)
    (compose : ComposeFile) (admitted : Admitted) : Prop where
  write : answers.recordWrite.isTorn = false
  notNewer : ∀ recorded, state.values.find? "STACK_ESDIAG_VERSION" = some recorded →
    isNewerVersion lib recorded binary.esdiagVersion ≠ .ok true
  failedPull : answers.recordWrite = .complete → answers.composeWrite = .complete →
    answers.pulled = false →
      (answers.restoreWrite = .complete ∨ answers.restoreWrite = .unprotected) ∧
        compose.setupCommand = if admitted.mode = .full then
          some (setupCommandForImage lib (esdiagImage binary.esdiagVersion)) else none
  restart : answers.pulled = true → admitted.running = true → UpCareful options answers.restart

theorem holds_recordedValue {values : Values} {disk : Disk} (h : Holds values disk)
    (hcoherent : Coherent values) (name : String) :
    recordedValue name disk = values.find? name := by
  obtain ⟨state, hload, hfind⟩ := load_of_holds h hcoherent
  rw [recordedValue_of_load hload]
  exact hfind name

theorem setupCommand_composeServices (mode : StackMode) (values : Values) :
    (ComposeFile.services (composeServices lib mode values)).setupCommand =
      if mode = .full then
        some (setupCommandForImage lib ((values.find? "ESDIAG_IMAGE").getD "")) else none := by
  unfold composeServices
  split_ifs <;> rfl

theorem setupCommand_recordCurrentVersions (mode : StackMode) (values : Values) :
    (ComposeFile.services
      (composeServices lib mode (recordCurrentVersions binary values))).setupCommand =
        if mode = .full then
          some (setupCommandForImage lib (esdiagImage binary.esdiagVersion)) else none := by
  obtain ⟨-, -, -, -, himage, -, -⟩ := bound_recordCurrentVersions binary values
  rw [setupCommand_composeServices, himage, Option.getD_some]

variable [LinearOrder V]

theorem mode_ne_auto {state : LocalState} {mode : StackMode}
    (h : resolveMode state .auto = .ok mode) : mode ≠ .auto := by
  unfold resolveMode at h
  rw [if_pos rfl] at h
  rintro rfl
  split at h
  · split at h
    · cases h
    · split at h <;> cases h
  · split at h <;> cases h

/-- What has to hold for an upgrade to be admitted. -/
theorem admitted_spec {options : LocalOptions} {answers : UpgradeAnswers} {state : LocalState}
    {admitted : Admitted}
    (h : admitUpgrade lib binary options answers state = .ok (some admitted)) :
    resolveMode state .auto = .ok admitted.mode ∧
      newerRecordedElastic lib binary state.values = .ok none := by
  unfold admitUpgrade at h
  split at h
  · cases h
  split at h
  · cases h
  split at h
  · cases h
  · cases h
  · cases h
  · next mode hmode hnewer =>
    split at h
    · cases h
    split at h
    · cases h
    · cases h
    · cases h
    · cases h
    · next running _ _ _ _ =>
      obtain rfl := Option.some.inj (Except.ok.inj h)
      exact ⟨hmode, hnewer⟩

theorem KeepsVersions.refl (values : Values) : KeepsVersions values values :=
  fun _ _ _ hfind => hfind

/-- The end of an upgrade whose pull has failed. -/
theorem failedPull_spec {values recorded : Values} {fate : WriteFate}
    (hfate : fate = .complete ∨ fate = .unprotected) (compose : ComposeFile) :
    Triple (fun d => Holds recorded d ∧ d.compose = compose)
      (do
        mapError (fun _ => .unrestored) (write values fate)
        throw .pullFailed : Action Unit)
      (fun _ _ => False) fun _ d => Holds values d ∧ d.compose = compose := by
  rintro d ⟨-, rfl⟩
  rcases hfate with rfl | rfl
  · exact ⟨Or.inr ⟨rfl, rfl⟩, rfl⟩
  · exact ⟨Or.inr ⟨rfl, rfl⟩, rfl⟩

/-- One upgrade, on the disk that was loaded. -/
theorem upgrade_spec (hurl : ReadsLoopback lib.urls) {options : LocalOptions}
    {answers : UpgradeAnswers} {state : LocalState} {disk : Disk} (hbase : Coherent state.values)
    (hload : load disk = .ok state) (hdisk : KeptOn state.values disk)
    (hcareful : ∀ admitted, admitUpgrade lib binary options answers state = .ok (some admitted) →
      UpgradeCareful lib binary options answers state disk.compose admitted) :
    Triple (fun d => d = disk) (upgrade lib binary options answers state)
      (fun _ d => Moved lib binary options answers state d)
      fun error d => Moved lib binary options answers state d ∧ (stopsUpgrade error = true →
        (∀ name, recordedValue name d = recordedValue name disk) ∧
          d.compose.setupCommand = disk.compose.setupCommand) := by
  unfold upgrade
  apply Triple.liftResult_bind
  · rintro error - d rfl
    exact ⟨Or.inl hdisk, fun _ => ⟨fun _ => rfl, rfl⟩⟩
  intro admitted hadmitted
  cases admitted with
  | none =>
    rintro d rfl
    exact Or.inl hdisk
  | some admitted =>
    have hcareful := hcareful admitted hadmitted
    have hrecorded := coherent_recordCurrentVersions binary hbase
    have hmoved : ∀ d, KeptOn (recordCurrentVersions binary state.values) d →
        Moved lib binary options answers state d := fun d hd => Or.inr ⟨hd, admitted, hadmitted⟩
    have hholds : ∀ d, Holds (recordCurrentVersions binary state.values) d →
        KeptOn (recordCurrentVersions binary state.values) d :=
      fun d hd => ⟨_, hd, hrecorded, KeepsVersions.refl _⟩
    dsimp only
    refine Triple.bind (Q := fun _ d => answers.recordWrite = .complete ∧
      Holds (recordCurrentVersions binary state.values) d) ?_ ?_
    · refine (write_spec hcareful.write disk).conseq (fun _ hd => hd) ?_ ?_
      · rintro - d ⟨hcomplete, hd, -⟩
        exact ⟨hcomplete, hd⟩
      · rintro error d ⟨rfl, hfailed⟩
        refine ⟨?_, fun hstops => by cases hstops⟩
        rcases hfailed with ⟨rfl, -⟩ | ⟨hd, -⟩
        · exact Or.inl hdisk
        · exact hmoved d (hholds d hd)
    intro _
    apply Triple.assume
    intro hrecord
    refine Triple.bind (Q := fun _ d => answers.composeWrite = .complete ∧
      Holds (recordCurrentVersions binary state.values) d ∧ d.compose = .services
        (composeServices lib admitted.mode (recordCurrentVersions binary state.values))) ?_ ?_
    · refine (writeCompose_spec _ _ _ _).conseq (fun _ hd => hd) (fun _ _ hd => hd) ?_
      rintro error d ⟨rfl, hd⟩
      exact ⟨hmoved d (hholds d hd), fun hstops => by cases hstops⟩
    intro _
    apply Triple.assume
    intro hcompose
    cases hpulled : answers.pulled with
    | true =>
      rw [if_pos rfl]
      apply Triple.whenever
      · rintro - d ⟨hd, -⟩
        exact hmoved d (hholds d hd)
      intro hrunning
      obtain ⟨hwrites, hruntime, hlevel, hkey⟩ := hcareful.restart hpulled hrunning
      let restarted : LocalState :=
        { state with values := recordCurrentVersions binary state.values }
      let restart := restartOptions options admitted.mode answers.nativeRunning
      have hcareful : UpCareful restart answers.restart := ⟨hwrites, hruntime, hlevel, hkey⟩
      have hkeeps : Keeps restarted.values (up lib binary restart answers.restart restarted) :=
        up_keeps hurl hcareful hrecorded
      have hmode : restart.stack ≠ .auto := mode_ne_auto (admitted_spec hadmitted).1
      have herrors := up_errors lib binary hmode answers.restart restarted
      have hboth := hkeeps.and
        (herrors.conseq (fun _ _ => trivial) (fun _ _ hd => hd) fun _ _ hd => hd)
      refine hboth.conseq (fun d hd => hholds d hd.1) (fun _ d hd => hmoved d hd.1) ?_
      rintro error d ⟨hd, reason, rfl⟩
      exact ⟨hmoved d hd, fun hstops => by cases hstops⟩
    | false =>
      obtain ⟨hrestore, hcommand⟩ := hcareful.failedPull hrecord hcompose hpulled
      rw [if_neg Bool.false_ne_true]
      refine (failedPull_spec hrestore _).conseq (fun d hd => hd) (fun _ _ hfalse => hfalse.elim) ?_
      rintro error d ⟨hd, hservices⟩
      have hkept : KeptOn state.values d := ⟨_, hd, hbase, KeepsVersions.refl _⟩
      refine ⟨Or.inl hkept, fun _ => ⟨?_, ?_⟩⟩
      · intro name
        rw [holds_recordedValue hd hbase, recordedValue_of_load hload]
      · rw [hservices, hcommand, setupCommand_recordCurrentVersions]

end Upgrades

section Runs

variable {V Url : Type} [LinearOrder V] (lib : Libraries V Url)

/-- The condition on a command. -/
def Careful (disk : Disk) (invocation : Binary × Command) : Prop :=
  match invocation.2 with
  | .up options answers => UpCareful options answers
  | .upgrade options answers => ∀ state, load disk = .ok state → ∀ admitted,
      admitUpgrade lib invocation.1 options answers state = .ok (some admitted) →
        UpgradeCareful lib invocation.1 options answers state disk.compose admitted

/-- The images carry the recorded version, and a load reads what was written last. -/
structure Settled (disk : Disk) : Prop where
  elasticsearch : recordedValue "ELASTICSEARCH_IMAGE" disk =
    (recordedValue "STACK_ELASTIC_VERSION" disk).map elasticsearchImage
  kibana : recordedValue "KIBANA_IMAGE" disk =
    (recordedValue "STACK_ELASTIC_VERSION" disk).map kibanaImage
  readsBack : ∃ state, load disk = .ok state ∧
    ∀ name, state.values.find? name = (disk.lastWritten.getD .empty).find? name

/-- A recorded version that stays or is replaced by one that is not older. -/
def NotBelow (before later : Option String) : Prop :=
  ∀ version, before = some version → ∃ version', later = some version' ∧
    (version' = version ∨ ∃ a b, lib.parse version = some a ∧ lib.parse version' = some b ∧ a ≤ b)

/-- An upgrade pins no older image of ESDiag; and one that is refused or cancelled or whose pull
fails leaves the values and the setup command. -/
structure UpgradeSafe (disk : Disk) (invocation : Binary × Command) : Prop where
  esdiag : ∀ options answers, invocation.2 = .upgrade options answers → ∀ image version,
    recordedValue "ESDIAG_IMAGE" disk = some image → imageVersion lib image = some version →
      ∃ image', recordedValue "ESDIAG_IMAGE" (step lib disk invocation) = some image' ∧
        ∀ version', imageVersion lib image' = some version' → version ≤ version'
  stopped : ∀ options answers error disk', invocation.2 = .upgrade options answers →
    outcome lib disk invocation = .error error disk' → stopsUpgrade error = true →
      (∀ name, recordedValue name disk' = recordedValue name disk) ∧
        disk'.compose.setupCommand = disk.compose.setupCommand

/-- The invariant of all commands. -/
def HoldsCoherent (disk : Disk) : Prop := ∃ values, Holds values disk ∧ Coherent values

variable {lib}

theorem HoldsCoherent.loaded {disk : Disk} (h : HoldsCoherent disk) :
    ∃ state, load disk = .ok state ∧ Coherent state.values ∧ KeptOn state.values disk ∧
      (∀ name, recordedValue name disk = state.values.find? name) ∧
      ∀ name, state.values.find? name = (disk.lastWritten.getD .empty).find? name := by
  obtain ⟨values, hholds, hcoherent⟩ := h
  obtain ⟨state, hload, hfind⟩ := load_of_holds hholds hcoherent
  refine ⟨state, hload, hcoherent.congr hfind, ⟨values, hholds, hcoherent, ?_⟩, ?_, ?_⟩
  · intro key _ version hversion
    rw [← hfind key]
    exact hversion
  · intro name
    rw [holds_recordedValue hholds hcoherent, hfind]
  · rw [hholds.lastWritten]
    exact hfind

theorem HoldsCoherent.settled {disk : Disk} (h : HoldsCoherent disk) : Settled disk := by
  obtain ⟨state, hload, hcoherent, -, hrecorded, hlast⟩ := h.loaded
  refine ⟨?_, ?_, state, hload, hlast⟩
  · rw [hrecorded, hrecorded, hcoherent.elasticsearch]
  · rw [hrecorded, hrecorded, hcoherent.kibana]

theorem holdsCoherent_fresh : HoldsCoherent .fresh :=
  ⟨.empty, Or.inl ⟨rfl, rfl, rfl⟩, coherent_empty⟩

theorem after_of_triple {P : Disk → Prop} {prog : Action Unit} {disk : Disk}
    (h : Triple (fun d => d = disk) prog (fun _ => P) fun _ => P) : P (after (prog disk)) := by
  have hrun := h disk rfl
  cases hprog : prog disk with
  | ok _ _ =>
    rw [hprog] at hrun
    exact hrun
  | error _ _ =>
    rw [hprog] at hrun
    exact hrun

/-- What one command leaves: the versions that it found, or those of an admitted upgrade. -/
theorem step_spec (hurl : ReadsLoopback lib.urls) {disk : Disk} {invocation : Binary × Command}
    {state : LocalState} (hload : load disk = .ok state) (hcoherent : Coherent state.values)
    (hdisk : KeptOn state.values disk) (hcareful : Careful lib disk invocation) :
    KeptOn state.values (step lib disk invocation) ∨
      ∃ options answers admitted, invocation.2 = .upgrade options answers ∧
        admitUpgrade lib invocation.1 options answers state = .ok (some admitted) ∧
        UpgradeCareful lib invocation.1 options answers state disk.compose admitted ∧
        KeptOn (recordCurrentVersions invocation.1 state.values) (step lib disk invocation) := by
  obtain ⟨binary, command⟩ := invocation
  unfold step outcome
  rw [hload]
  cases command with
  | up options answers =>
    have hkeeps : Keeps state.values (up lib binary options answers state) :=
      up_keeps hurl hcareful hcoherent
    refine Or.inl (after_of_triple (hkeeps.conseq ?_ (fun _ _ hd => hd) fun _ _ hd => hd))
    rintro d rfl
    exact hdisk
  | upgrade options answers =>
    have hcareful := hcareful state hload
    have hmoved := after_of_triple ((upgrade_spec hurl hcoherent hload hdisk hcareful).conseq
      (fun _ hd => hd) (fun _ _ hd => hd) fun _ _ hd => hd.1)
    rcases hmoved with hkept | ⟨hkept, admitted, hadmitted⟩
    · exact Or.inl hkept
    · exact Or.inr ⟨options, answers, admitted, rfl, hadmitted, hcareful admitted hadmitted, hkept⟩

theorem step_holdsCoherent (hurl : ReadsLoopback lib.urls) (disk : Disk)
    (invocation : Binary × Command) (h : HoldsCoherent disk) (hcareful : Careful lib disk invocation) :
    HoldsCoherent (step lib disk invocation) := by
  obtain ⟨state, hload, hcoherent, hdisk, -⟩ := h.loaded
  rcases step_spec hurl hload hcoherent hdisk hcareful with
    ⟨values, hholds, hkept⟩ | ⟨_, _, _, -, -, -, values, hholds, hkept⟩
  · exact ⟨values, hholds, hkept.coherent⟩
  · exact ⟨values, hholds, hkept.coherent⟩

theorem le_of_not_newer {recorded current : String} {a b : V} (ha : lib.parse recorded = some a)
    (hb : lib.parse current = some b) (h : isNewerVersion lib recorded current ≠ .ok true) :
    a ≤ b := by
  unfold isNewerVersion at h
  rw [ha, hb] at h
  by_contra hlt
  apply h
  dsimp only
  rw [decide_eq_true (not_le.mp hlt)]

theorem step_notBelow (hurl : ReadsLoopback lib.urls) {disk : Disk} {invocation : Binary × Command}
    (h : HoldsCoherent disk) (hcareful : Careful lib disk invocation) :
    NotBelow lib (recordedValue "STACK_ELASTIC_VERSION" disk)
      (recordedValue "STACK_ELASTIC_VERSION" (step lib disk invocation)) := by
  obtain ⟨state, hload, hcoherent, hdisk, hrecorded, -⟩ := h.loaded
  intro version hversion
  rw [hrecorded] at hversion
  rcases step_spec hurl hload hcoherent hdisk hcareful with
    ⟨values, hholds, hkept⟩ | ⟨options, answers, admitted, -, hadmitted, -, values, hholds, hkept⟩
  · refine ⟨version, ?_, Or.inl rfl⟩
    rw [holds_recordedValue hholds hkept.coherent]
    exact hkept.versions _ (by decide) _ hversion
  · have hnew := (bound_recordCurrentVersions invocation.1 state.values).1
    refine ⟨invocation.1.elasticVersion, ?_, Or.inr ?_⟩
    · rw [holds_recordedValue hholds hkept.coherent]
      exact hkept.versions _ (by decide) _ hnew
    · have hnewer := (admitted_spec hadmitted).2
      unfold newerRecordedElastic isNewerVersion at hnewer
      rw [hversion] at hnewer
      dsimp only at hnewer
      cases ha : lib.parse version with
      | none => simp [ha, Except.map] at hnewer
      | some a =>
        cases hb : lib.parse invocation.1.elasticVersion with
        | none => simp [ha, hb, Except.map] at hnewer
        | some b =>
          refine ⟨a, b, rfl, rfl, ?_⟩
          simpa [ha, hb, Except.map] using hnewer

theorem step_upgradeSafe (hurl : ReadsLoopback lib.urls) (disk : Disk)
    (invocation : Binary × Command) (h : HoldsCoherent disk) (hcareful : Careful lib disk invocation) :
    UpgradeSafe lib disk invocation := by
  obtain ⟨state, hload, hcoherent, hdisk, hrecorded, -⟩ := h.loaded
  refine ⟨?_, ?_⟩
  · intro _ _ _ image version himage hversion
    rw [hrecorded, hcoherent.esdiag, Option.map_eq_some_iff] at himage
    obtain ⟨recorded, hfind, rfl⟩ := himage
    have hparse : lib.parse recorded = some version := by
      unfold imageVersion at hversion
      rwa [imageTag_esdiagImage (hcoherent.version recorded hfind)] at hversion
    rcases step_spec hurl hload hcoherent hdisk hcareful with
      ⟨values, hholds, hkept⟩ | ⟨options, answers, admitted, -, -, hupgrade, values, hholds, hkept⟩
    · refine ⟨esdiagImage recorded, ?_, ?_⟩
      · rw [holds_recordedValue hholds hkept.coherent, hkept.coherent.esdiag,
          hkept.versions _ (by decide) _ hfind]
        rfl
      · intro version' hversion'
        rw [hversion] at hversion'
        exact (Option.some.inj hversion').le
    · have hnew := (bound_recordCurrentVersions invocation.1 state.values).2.1
      refine ⟨esdiagImage invocation.1.esdiagVersion, ?_, ?_⟩
      · rw [holds_recordedValue hholds hkept.coherent, hkept.coherent.esdiag,
          hkept.versions _ (by decide) _ hnew]
        rfl
      · intro version' hversion'
        unfold imageVersion at hversion'
        rw [imageTag_esdiagImage invocation.1.esdiag_chars] at hversion'
        exact le_of_not_newer hparse hversion' (hupgrade.notNewer recorded hfind)
  · intro options answers error disk' hcommand hresult hstops
    obtain ⟨binary, command⟩ := invocation
    obtain rfl : command = .upgrade options answers := hcommand
    unfold outcome at hresult
    rw [hload] at hresult
    have hrun := upgrade_spec hurl hcoherent hload hdisk (hcareful state hload) disk rfl
    change upgrade lib binary options answers state disk = .error error disk' at hresult
    rw [hresult] at hrun
    exact hrun.2 hstops

theorem NotBelow.trans {first second third : Option String} (h : NotBelow lib first second)
    (h' : NotBelow lib second third) : NotBelow lib first third := by
  intro version hversion
  obtain ⟨version', hsecond, hle⟩ := h version hversion
  obtain ⟨version'', hthird, hle'⟩ := h' version' hsecond
  refine ⟨version'', hthird, ?_⟩
  rcases hle with rfl | ⟨a, b, ha, hb, hab⟩
  · exact hle'
  rcases hle' with rfl | ⟨b', c, hb', hc, hbc⟩
  · exact Or.inr ⟨a, b, ha, hb, hab⟩
  · rw [hb] at hb'
    obtain rfl := Option.some.inj hb'
    exact Or.inr ⟨a, c, ha, hc, hab.trans hbc⟩

theorem run_notBelow (hurl : ReadsLoopback lib.urls) {disk : Disk}
    {commands : List (Binary × Command)} (h : HoldsCoherent disk) (hcareful : Along (step lib) (Careful lib) disk commands) :
    NotBelow lib (recordedValue "STACK_ELASTIC_VERSION" disk)
      (recordedValue "STACK_ELASTIC_VERSION" (run (step lib) disk commands)) := by
  induction commands generalizing disk with
  | nil => exact fun version hversion => ⟨version, hversion, Or.inl rfl⟩
  | cons command rest ih =>
    have hstep := step_notBelow hurl h hcareful.1
    exact hstep.trans (ih (step_holdsCoherent hurl disk command h hcareful.1) hcareful.2)

/-- In a run of careful commands, the recorded version of Elastic never decreases, the images
carry it, every load reads what was written last, and every upgrade is safe. -/
theorem stack_never_goes_backward (lib : Libraries V Url) (hurl : ReadsLoopback lib.urls)
    (commands : List (Binary × Command))
    (hcareful : Along (step lib) (Careful lib) .fresh commands) :
    (∀ before rest, commands = before ++ rest →
      Settled (run (step lib) .fresh before) ∧
        NotBelow lib (recordedValue "STACK_ELASTIC_VERSION" (run (step lib) .fresh before))
          (recordedValue "STACK_ELASTIC_VERSION" (run (step lib) .fresh commands))) ∧
      Along (step lib) (UpgradeSafe lib) .fresh commands := by
  constructor
  · rintro before rest rfl
    obtain ⟨hbefore, hrest⟩ := along_append.mp hcareful
    have hholds := run_invariant (step_holdsCoherent hurl) holdsCoherent_fresh hbefore
    refine ⟨hholds.settled, ?_⟩
    rw [run_append]
    exact run_notBelow hurl hholds hrest
  · exact along_of_invariant (step_holdsCoherent hurl) (step_upgradeSafe hurl)
      holdsCoherent_fresh hcareful

end Runs

section Samples

abbrev Release := ℕ ×ₗ (ℕ ×ₗ ℕ)

/-- The URLs of the loopback address, by their paths. -/
def loopbackLibrary : Library String where
  parse text := (stripPrefix "http://127.0.0.1:5601" text).map fun path =>
    if path = "" then "/" else path
  display path := "http://127.0.0.1:5601" ++ path
  beforePath _ := "http://127.0.0.1:5601"
  path := id
  query _ := none
  fragment _ := none
  setPath _ text := text
  setQuery path _ := path
  setFragment path _ := path
  encodedInPath _ := false

/-- Libraries that know the versions of the runs below. -/
def sampleLibrary : Libraries Release String where
  parse text :=
    if text = "0.17.0" then some (toLex (0, toLex (17, 0)))
    else if text = "0.18.0" then some (toLex (0, toLex (18, 0)))
    else if text = "0.19.0" then some (toLex (0, toLex (19, 0)))
    else if text = "9.5.5" then some (toLex (9, toLex (5, 5)))
    else none
  majorMinor version := ((ofLex version).1, (ofLex (ofLex version).2).1)
  urls := loopbackLibrary

theorem readsLoopback_sampleLibrary : ReadsLoopback sampleLibrary.urls :=
  ⟨"/", by decide, rfl, by decide⟩

def binary17 : Binary := ⟨"9.5.5", "0.17.0", List.all_eq_true.mp rfl, List.all_eq_true.mp rfl⟩

def binary18 : Binary := ⟨"9.5.5", "0.18.0", List.all_eq_true.mp rfl, List.all_eq_true.mp rfl⟩

def binary19 : Binary := ⟨"9.5.5", "0.19.0", List.all_eq_true.mp rfl, List.all_eq_true.mp rfl⟩

def fullOptions : LocalOptions := ⟨none, .full, false, false, false, true, none, false⟩

def smoothStart : UpAnswers where
  usable runtime := runtime = "docker"
  volumes := ⟨false, false, false⟩
  dirReady := true
  secrets := ⟨⟨"a1", List.all_eq_true.mp rfl⟩, ⟨"b2", List.all_eq_true.mp rfl⟩,
    ⟨"c3", List.all_eq_true.mp rfl⟩⟩
  composeWrite := .complete
  userResolved := true
  firstWrite := .complete
  previousStopped := true
  pulled := true
  started := true
  elasticsearchReady := true
  passwordSet := true
  apiKey := some "a2V5"
  secondWrite := .complete
  kibanaReady := true
  assetsInstalled := true
  nativeStopped := true
  serviceStarted := true
  outputPersisted := true
  serviceReady := true
  lastWrite := .complete
  browserOpened := true

def upgradeOptions : LocalOptions := ⟨none, .auto, false, false, false, true, none, true⟩

def stoppedUpgrade (pulled : Bool) : UpgradeAnswers where
  interactive := false
  approved := none
  usable runtime := runtime = "docker"
  volumes := ⟨true, true, true⟩
  running := some false
  recordWrite := .complete
  composeWrite := .complete
  pulled := pulled
  restoreWrite := .complete
  nativeRunning := false
  restart := smoothStart


/-- A full stack that one binary has started. -/
def startedStack (binary : Binary) : Disk :=
  step sampleLibrary .fresh (binary, .up fullOptions smoothStart)

theorem careful_smoothStart : UpCareful fullOptions smoothStart := by
  refine ⟨⟨rfl, rfl, rfl⟩, ?_, ?_, ?_⟩
  · intro runtime hruntime
    cases hruntime
  · intro level hlevel
    cases hlevel
  · intro key hkey
    obtain rfl := Option.some.inj hkey
    decide

theorem hasExistingState_of_find? {disk : Disk} {state : LocalState} {name text : String}
    (hload : load disk = .ok state) (hfind : state.values.find? name = some text) :
    state.hasExistingState = true := by
  unfold load at hload
  split at hload
  · obtain rfl := Except.ok.inj hload
    cases hfind
  · cases hload
  · split at hload
    · obtain rfl := Except.ok.inj hload
      rfl
    · cases hload

/-- An older or newer binary finds the stack of another one, and may upgrade it. -/
theorem admitted_startedStack {binary other : Binary} (pulled : Bool)
    (hmode : ((startedStack binary).lastWritten.getD .empty).find? "STACK_MODE" = some "full")
    (helastic : ((startedStack binary).lastWritten.getD .empty).find? "STACK_ELASTIC_VERSION" =
      some "9.5.5")
    (hesdiag : ((startedStack binary).lastWritten.getD .empty).find? "STACK_ESDIAG_VERSION" =
      some binary.esdiagVersion)
    (hother : other.elasticVersion = "9.5.5")
    (hversion : binary.esdiagVersion ≠ other.esdiagVersion) :
    ∃ state, load (startedStack binary) = .ok state ∧ Coherent state.values ∧
      state.values.find? "STACK_ESDIAG_VERSION" = some binary.esdiagVersion ∧
      admitUpgrade sampleLibrary other upgradeOptions (stoppedUpgrade pulled) state =
        .ok (some ⟨.full, false⟩) := by
  have hholds := step_holdsCoherent readsLoopback_sampleLibrary .fresh
    (binary, .up fullOptions smoothStart) holdsCoherent_fresh careful_smoothStart
  obtain ⟨state, hload, hcoherent, -, -, hlast⟩ := HoldsCoherent.loaded hholds
  change ∀ name, state.values.find? name =
    ((startedStack binary).lastWritten.getD .empty).find? name at hlast
  rw [← hlast] at hmode helastic hesdiag
  have hexists := hasExistingState_of_find? hload hmode
  refine ⟨state, hload, hcoherent, hesdiag, ?_⟩
  simp [admitUpgrade, hexists, upgradeOptions, resolveMode, hmode, newerRecordedElastic, helastic,
    hother, isNewerVersion, sampleLibrary, Except.map, pendingUpgrades, hesdiag, hversion,
    upgradeConfirmed, detectRuntime, stoppedUpgrade, validateStateCoupling]

theorem outcome_upgrade {V Url : Type} [LinearOrder V] {lib : Libraries V Url} {binary : Binary}
    {disk : Disk} {state : LocalState} (h : load disk = .ok state) (options : LocalOptions)
    (answers : UpgradeAnswers) :
    outcome lib disk (binary, .upgrade options answers) =
      upgrade lib binary options answers state disk := by
  unfold outcome
  rw [h]
  rfl

/-- An upgrade of a stopped stack whose files can all be written. -/
theorem upgrade_stopped {V Url : Type} [LinearOrder V] {lib : Libraries V Url} {binary : Binary}
    {state : LocalState} {mode : StackMode} (disk : Disk) (pulled : Bool)
    (h : admitUpgrade lib binary upgradeOptions (stoppedUpgrade pulled) state =
      .ok (some ⟨mode, false⟩)) :
    let recorded := recordCurrentVersions binary state.values
    let compose := ComposeFile.services (composeServices lib mode recorded)
    upgrade lib binary upgradeOptions (stoppedUpgrade pulled) state disk =
      if pulled then .ok () ⟨.text (envText recorded), compose, some recorded⟩
      else .error .pullFailed ⟨.text (envText state.values), compose, some state.values⟩ := by
  unfold upgrade
  rw [h]
  cases pulled with
  | true => rfl
  | false => rfl

/-- An older binary with the same version of Elastic pins its older image; and after a failed pull
the setup command is the one for the image that was not pulled. -/
theorem upgrade_goes_backward :
    ¬ UpgradeSafe sampleLibrary (startedStack binary19)
        (binary18, .upgrade upgradeOptions (stoppedUpgrade true)) ∧
      ¬ UpgradeSafe sampleLibrary (startedStack binary17)
        (binary18, .upgrade upgradeOptions (stoppedUpgrade false)) := by
  constructor
  · intro hsafe
    have hstarted := @admitted_startedStack binary19 binary18 true (by decide +kernel) (by decide +kernel)
      (by decide +kernel) rfl (by decide +kernel)
    obtain ⟨state, hload, hcoherent, hesdiag, hadmitted⟩ := hstarted
    have hstep : step sampleLibrary (startedStack binary19)
        (binary18, .upgrade upgradeOptions (stoppedUpgrade true)) =
          ⟨.text (envText (recordCurrentVersions binary18 state.values)),
            .services (composeServices sampleLibrary .full
              (recordCurrentVersions binary18 state.values)),
            some (recordCurrentVersions binary18 state.values)⟩ := by
      unfold step
      rw [outcome_upgrade hload, upgrade_stopped _ true hadmitted, if_pos rfl, after]
    have hbefore : recordedValue "ESDIAG_IMAGE" (startedStack binary19) =
        some (esdiagImage "0.19.0") := by
      rw [recordedValue_of_load hload, hcoherent.esdiag, hesdiag, Option.map_some]
      rfl
    have hafter : recordedValue "ESDIAG_IMAGE" (step sampleLibrary (startedStack binary19)
        (binary18, .upgrade upgradeOptions (stoppedUpgrade true))) =
          some (esdiagImage "0.18.0") := by
      rw [hstep, holds_recordedValue (Or.inr ⟨rfl, rfl⟩)
        (coherent_recordCurrentVersions binary18 hcoherent)]
      exact (bound_recordCurrentVersions binary18 state.values).2.2.2.2.1
    obtain ⟨image, himage, hversion⟩ := hsafe.esdiag _ _ rfl _ (toLex (0, toLex (19, 0)))
      hbefore (by decide +kernel)
    rw [hafter] at himage
    obtain rfl := Option.some.inj himage
    exact absurd (hversion (toLex (0, toLex (18, 0))) (by decide +kernel)) (by decide +kernel)
  · intro hsafe
    have hstarted := @admitted_startedStack binary17 binary18 false (by decide +kernel) (by decide +kernel)
      (by decide +kernel) rfl (by decide +kernel)
    obtain ⟨state, hload, -, -, hadmitted⟩ := hstarted
    have houtcome : outcome sampleLibrary (startedStack binary17)
        (binary18, .upgrade upgradeOptions (stoppedUpgrade false)) =
          .error .pullFailed ⟨.text (envText state.values),
            .services (composeServices sampleLibrary .full
              (recordCurrentVersions binary18 state.values)), some state.values⟩ := by
      rw [outcome_upgrade hload, upgrade_stopped _ false hadmitted,
        if_neg Bool.false_ne_true]
    have hcommand := (hsafe.stopped _ _ _ _ rfl houtcome rfl).2
    rw [setupCommand_recordCurrentVersions] at hcommand
    revert hcommand
    decide

/-- A full stack is started and upgraded, and a later start is interrupted by an image that cannot
be pulled. -/
def upgradedRun : List (Binary × Command) :=
  [(binary17, .up fullOptions smoothStart),
    (binary18, .upgrade upgradeOptions (stoppedUpgrade true)),
    (binary19, .up fullOptions { smoothStart with pulled := false })]

/-- The upgrade is admitted, and the recorded version of ESDiag is the older one. -/
theorem careful_stoppedUpgrade :
    (∃ state admitted, load (startedStack binary17) = .ok state ∧
      admitUpgrade sampleLibrary binary18 upgradeOptions (stoppedUpgrade true) state =
        .ok (some admitted)) ∧
    Careful sampleLibrary (startedStack binary17)
      (binary18, .upgrade upgradeOptions (stoppedUpgrade true)) := by
  obtain ⟨found, hfound, -, hesdiag, hfull⟩ := @admitted_startedStack binary17 binary18 true
    (by decide) (by decide) (by decide) rfl (by decide)
  refine ⟨⟨found, _, hfound, hfull⟩, ?_⟩
  intro state hload admitted hadmitted
  obtain rfl : found = state := Except.ok.inj (hfound.symm.trans hload)
  obtain rfl : ⟨.full, false⟩ = admitted :=
    Option.some.inj (Except.ok.inj (hfull.symm.trans hadmitted))
  refine ⟨rfl, ?_, ?_, ?_⟩
  · intro recorded hrecorded
    rw [hesdiag] at hrecorded
    obtain rfl := Option.some.inj hrecorded
    have hnewer : isNewerVersion sampleLibrary "0.17.0" "0.18.0" = .ok false := by
      simpa [isNewerVersion, sampleLibrary] using
        (by decide : toLex (0, toLex (17, 0)) ≤ (toLex (0, toLex (18, 0)) : Release))
    exact fun heq => Bool.false_ne_true (Except.ok.inj (hnewer.symm.trans heq))
  · intro _ _ hpulled
    exact absurd hpulled (by decide)
  · intro _ hrunning
    exact absurd hrunning Bool.false_ne_true

theorem stack_never_goes_backward_started :
    (∀ before rest, upgradedRun = before ++ rest →
      Settled (run (step sampleLibrary) .fresh before) ∧
        NotBelow sampleLibrary
          (recordedValue "STACK_ELASTIC_VERSION" (run (step sampleLibrary) .fresh before))
          (recordedValue "STACK_ELASTIC_VERSION" (run (step sampleLibrary) .fresh upgradedRun))) ∧
      Along (step sampleLibrary) (UpgradeSafe sampleLibrary) .fresh upgradedRun :=
  stack_never_goes_backward sampleLibrary readsLoopback_sampleLibrary upgradedRun
    ⟨careful_smoothStart, careful_stoppedUpgrade.2, ⟨careful_smoothStart.writes,
      careful_smoothStart.runtime, careful_smoothStart.logLevel, careful_smoothStart.apiKey⟩,
      trivial⟩

end Samples

end Esdiag.StackVersions
