import Esdiag.ConfigReferences
import Esdiag.HostEdits
import Esdiag.OutputSources

/-!
Whether the references of the configuration outlive changes of hosts and jobs. No
change looks at them, so that they stay valid exactly where the change leaves the
default output an Elasticsearch host with a Kibana viewer and does not delete the
default job. The target of the settings, which is the first host by name where it
has been removed, is a host to send to only where that first host is one.
-/
namespace Esdiag.ReferenceStability

open KeyedMaps KeyedUpdates Deployments KeystoreOperations KnownHosts HostFiles HostBuilders
  HostRoundTrip JobModel SavedJobFiles SavedJobStore LegacyMigration HostReferences
  ApplicationConfigs SettingsForms SettingsRenames RenameSafety HostCommands HostEdits
  ConfigReferences Outcomes

section Outputs

variable {Url : Type}

/-- An edit that leaves the output an Elasticsearch host with a viewer, and the viewer a
Kibana host. -/
def KeepsOutput (edit : HostEdit Url) (hosts : KeyedMap String (KnownHost Url))
    (outputName : String) : Prop :=
  match findEntry outputName edit.added with
  | none => outputName ∉ edit.removed ∧
      ∀ output viewerName viewer, hosts.find? outputName = some output →
        output.viewer = some viewerName → findEntry viewerName edit.added = some viewer →
        viewer.app = some .kibana
  | some output => output.app = some .elasticsearch ∧
      ∃ viewerName, output.viewer = some viewerName ∧
        ∀ viewer, (findEntry viewerName edit.added).or (hosts.find? viewerName) = some viewer →
          viewer.app = some .kibana

/-- The first host by name after an edit is one to send to. -/
def FirstSends (edit : HostEdit Url) (hosts : KeyedMap String (KnownHost Url)) : Prop :=
  ∀ name host, firstHost (edit.apply hosts) = some name →
    (edit.apply hosts).find? name = some host → .send ∈ host.roles

variable {lib : UrlLibrary Url} {edit : HostEdit Url} {file : HostsFile}
  {hosts edited : KeyedMap String (KnownHost Url)}

/-- A host with a viewer, in the hosts after an edit, is a valid output where its own
application and that of its viewer are right. -/
theorem validateOutputHost_of_find? (h : Edited lib edit hosts file edited)
    {outputName viewerName : String} {output : KnownHost Url}
    (houtput : (edit.apply hosts).find? outputName = some output)
    (happ : output.app = some .elasticsearch) (hviewer : output.viewer = some viewerName)
    (hkibana : ∀ viewer, (edit.apply hosts).find? viewerName = some viewer →
      viewer.app = some .kibana) :
    validateOutputHost edited outputName = .ok () := by
  obtain ⟨output', houtput', hsame⟩ := h.exists_of_find? houtput
  have happ' : output'.app = output.app := congrArg Endpoint.app hsame
  have hviewer' : output'.viewer = output.viewer := congrArg Endpoint.viewer hsame
  rw [happ] at happ'
  rw [hviewer] at hviewer'
  obtain ⟨hsend, viewer', hfound', hview⟩ := viewerLink_of_parsed h.parsed houtput' hviewer'
  obtain ⟨viewer, hfound, hsame'⟩ := h.exists_of_edited hfound'
  have hkibana' : viewer'.app = viewer.app := congrArg Endpoint.app hsame'
  rw [hkibana viewer hfound] at hkibana'
  exact validateOutputHost_eq_ok_iff.mpr
    ⟨output', viewerName, viewer', houtput', hsend, happ', hviewer', hfound', hview, hkibana'⟩

theorem find?_of_validateOutputHost (h : Edited lib edit hosts file edited) {outputName : String}
    (hvalid : validateOutputHost edited outputName = .ok ()) :
    ∃ output viewerName viewer, (edit.apply hosts).find? outputName = some output ∧
      output.app = some .elasticsearch ∧ output.viewer = some viewerName ∧
      (edit.apply hosts).find? viewerName = some viewer ∧ viewer.app = some .kibana := by
  obtain ⟨output', viewerName, viewer', houtput', -, happ', hviewer', hfound', -, hkibana'⟩ :=
    validateOutputHost_eq_ok_iff.mp hvalid
  obtain ⟨output, houtput, hsame⟩ := h.exists_of_edited houtput'
  obtain ⟨viewer, hfound, hsame'⟩ := h.exists_of_edited hfound'
  have happ : output'.app = output.app := congrArg Endpoint.app hsame
  have hviewer : output'.viewer = output.viewer := congrArg Endpoint.viewer hsame
  have hkibana : viewer'.app = viewer.app := congrArg Endpoint.app hsame'
  exact ⟨output, viewerName, viewer, houtput, happ ▸ happ', hviewer ▸ hviewer', hfound,
    hkibana ▸ hkibana'⟩

/-- A valid output stays valid exactly where the edit keeps it. -/
theorem validateOutputHost_iff (h : Edited lib edit hosts file edited) {outputName : String}
    (hvalid : validateOutputHost hosts outputName = .ok ()) :
    validateOutputHost edited outputName = .ok () ↔ KeepsOutput edit hosts outputName := by
  obtain ⟨before, beforeName, beforeViewer, hbefore, -, happ, hname, hviewer, -, hkibana⟩ :=
    validateOutputHost_eq_ok_iff.mp hvalid
  unfold KeepsOutput
  cases hadded : findEntry outputName edit.added with
  | none =>
    have hfind := h.find?_apply outputName
    rw [hadded, Option.none_or] at hfind
    constructor
    · intro hafter
      obtain ⟨output, viewerName, viewer, houtput, -, hviewerName, hfound, hafterKibana⟩ :=
        find?_of_validateOutputHost h hafter
      rw [hfind] at houtput
      have hstays : outputName ∉ edit.removed := by
        intro hremoved
        rw [if_pos hremoved] at houtput
        cases houtput
      refine ⟨hstays, ?_⟩
      intro output' viewerName' viewer' houtput' hviewerName' hnew
      rw [if_neg hstays, houtput', Option.some.injEq] at houtput
      obtain rfl := houtput
      obtain rfl := Option.some.inj (hviewerName.symm.trans hviewerName')
      rw [h.find?_apply, hnew, Option.some_or, Option.some.injEq] at hfound
      exact hfound ▸ hafterKibana
    · rintro ⟨hstays, hnew⟩
      rw [if_neg hstays, hbefore] at hfind
      apply validateOutputHost_of_find? h hfind happ hname
      intro viewer hfound
      rw [h.find?_apply] at hfound
      cases hentry : findEntry beforeName edit.added with
      | some added =>
        rw [hentry, Option.some_or, Option.some.injEq] at hfound
        obtain rfl := hfound
        exact hnew before beforeName added hbefore hname hentry
      | none =>
        rw [hentry, Option.none_or] at hfound
        split at hfound
        · cases hfound
        · rw [hviewer, Option.some.injEq] at hfound
          exact hfound ▸ hkibana
  | some output =>
    have hfind := h.find?_apply outputName
    rw [hadded, Option.some_or] at hfind
    constructor
    · intro hafter
      obtain ⟨output', viewerName, viewer, houtput', happ', hname', hfound, hkibana'⟩ :=
        find?_of_validateOutputHost h hafter
      obtain rfl := Option.some.inj (hfind.symm.trans houtput')
      refine ⟨happ', viewerName, hname', ?_⟩
      intro viewer' hviewer'
      rw [h.find?_apply] at hfound
      cases hentry : findEntry viewerName edit.added with
      | some added =>
        rw [hentry, Option.some_or] at hfound hviewer'
        obtain rfl := Option.some.inj (hfound.symm.trans hviewer')
        exact hkibana'
      | none =>
        rw [hentry, Option.none_or] at hfound hviewer'
        split at hfound
        · cases hfound
        · obtain rfl := Option.some.inj (hfound.symm.trans hviewer')
          exact hkibana'
    · rintro ⟨happ', viewerName, hname', hviewers⟩
      apply validateOutputHost_of_find? h hfind happ' hname'
      intro viewer hfound
      apply hviewers
      rw [h.find?_apply] at hfound
      cases hentry : findEntry viewerName edit.added with
      | some added => rwa [hentry] at hfound
      | none =>
        rw [hentry, Option.none_or] at hfound
        split at hfound
        · cases hfound
        · exact hfound

end Outputs

section Conditions

variable {Url Key : Type} (terminal : Terminal Url) (libs : Libraries Key)

/-- What a change that succeeds does to the hosts. -/
def editOf (state : Workspace) (hosts : KeyedMap String (KnownHost Url)) : Change → HostEdit Url
  | .addHost args => .save args.name (hostToAdd terminal libs args state)
  | .updateHost name update => .save name (hostToUpdate terminal libs name update state)
  | .removeHost name => .remove [name]
  | .upsertHost session form =>
    .ofChange (checkedHost terminal.world.lib.toQueryLibrary libs session form
      state.files.keystore)
  | .upsertCluster session form =>
    .ofChange (checkedCluster terminal.world.lib.toQueryLibrary libs session form
      state.files.keystore)
  | .deleteHost name => .remove [Texts.trim name]
  | .deleteHostRow rowId =>
    ((rowById (hostRows hosts) rowId).map fun name => .remove [Texts.trim name]).getD .none
  | .deleteClusterRow rowId =>
    ((rowById (clusterRows hosts) rowId).map fun name => .remove (clusterNames name)).getD .none
  | .job .. => .none

/-- The names that a change replaces by others. -/
def renamesOf : Change → List (String × String)
  | .upsertHost _ form => hostRenames form.originalName (Texts.trim form.name)
  | .upsertCluster _ form => clusterRenames form.originalName (Texts.trim form.name)
  | _ => []

def deletedJob : Change → Option String
  | .job _ command => command.deleted
  | _ => none

/-- The target of the settings once it has followed a rename. -/
def followedTarget (change : Change) (settings : Settings) : Option String :=
  (retarget (renamesOf change) settings.activeTarget).1

/-- Whether a change gives the settings another target than the one they had. -/
def choosesTarget (state : Workspace) (hosts : KeyedMap String (KnownHost Url))
    (settings : Settings) (change : Change) : Bool :=
  match change with
  | .removeHost name => settings.activeTarget = some name
  | .deleteClusterRow rowId =>
    (rowById (clusterRows hosts) rowId).any fun name =>
      settings.activeTarget.any fun target => target ∈ clusterNames name
  | .upsertHost .. | .upsertCluster .. =>
    (followedTarget change settings).any fun target =>
      (((editOf terminal libs state hosts change).apply hosts).find? target).isNone
  | .addHost _ | .updateHost .. | .deleteHost _ | .deleteHostRow _ | .job .. => false

/-- Where a change keeps the references: it keeps the default output and the default job, and
the target that it may choose is a host to send to. -/
structure KeepsReferences (disk : Disk) (change : Change) (state : Workspace) : Prop where
  output : ∀ config hosts outputName, ApplicationConfig.load state.config = .ok config →
    parseHostsYml terminal.world.lib.toUrlLibrary state.files.hosts = .ok hosts →
    config.output.elasticContext = none → config.output.default = some outputName →
    KeepsOutput (editOf terminal libs state hosts change) hosts outputName
  job : ∀ config jobName, ApplicationConfig.load state.config = .ok config →
    config.job.default = some jobName → deletedJob change ≠ some jobName
  target : disk.settings = .completes → ∀ settings hosts,
    Settings.load state.settings = .ok settings →
    parseHostsYml terminal.world.lib.toUrlLibrary state.files.hosts = .ok hosts →
    choosesTarget terminal libs state hosts settings change = true →
    FirstSends (editOf terminal libs state hosts change) hosts

/-- A change succeeds where it reports success and no write of the hosts is lost with its flush. -/
def Succeeds (env : Environment) (disk : Disk) (change : Change) (before after : Workspace) :
    Prop :=
  disk.hosts.Flushed ∧ change.run terminal libs env disk before = (.ok (), after)

/-- Another target than the one before, renames followed, is a saved host to send to or none. -/
def TargetSends (disk : Disk) (change : Change) (before after : Workspace) : Prop :=
  disk.settings = .completes → ∀ settings settings' hosts target,
    Settings.load before.settings = .ok settings →
    Settings.load after.settings = .ok settings' →
    parseHostsYml terminal.world.lib.toUrlLibrary after.files.hosts = .ok hosts →
    settings'.activeTarget ≠ followedTarget change settings →
    settings'.activeTarget = some target →
    ∃ host, hosts.find? target = some host ∧ .send ∈ host.roles

end Conditions

section Changes

variable {Url Key : Type} {terminal : Terminal Url} {libs : Libraries Key} {env : Environment}

/-- What a change that succeeds leaves: edited hosts, the jobs without the deleted one, the same
references, and the target that it chooses or the one that has followed its renames. -/
structure ChangeDone (terminal : Terminal Url) (libs : Libraries Key) (env : Environment)
    (disk : Disk) (change : Change) (hosts : KeyedMap String (KnownHost Url))
    (before after : Workspace) : Prop where
  edited : ∃ edited, Edited terminal.world.lib.toUrlLibrary
    (editOf terminal libs before hosts change) hosts after.files.hosts edited
  jobs : ∀ jobName, (∃ jobs, (loadSavedJobsFromPath env before.files.jobs).1 = .ok jobs ∧
      (jobs.find? jobName).isSome = true) →
    ((∃ jobs, (loadSavedJobsFromPath env after.files.jobs).1 = .ok jobs ∧
      (jobs.find? jobName).isSome = true) ↔ deletedJob change ≠ some jobName)
  config : SameReferences before.config after.config
  target : disk.settings = .completes → ∀ settings, Settings.load before.settings = .ok settings →
    ∃ settings', Settings.load after.settings = .ok settings' ∧
      settings'.activeTarget =
        if choosesTarget terminal libs before hosts settings change then
          firstHost ((editOf terminal libs before hosts change).apply hosts)
        else followedTarget change settings

theorem jobs_of_hosts_change {change : Change} {before after : Workspace}
    (hdeleted : deletedJob change = none) (hjobs : after.files.jobs = before.files.jobs)
    (jobName : String) (hfound : ∃ jobs, (loadSavedJobsFromPath env before.files.jobs).1 =
      .ok jobs ∧ (jobs.find? jobName).isSome = true) :
    (∃ jobs, (loadSavedJobsFromPath env after.files.jobs).1 = .ok jobs ∧
      (jobs.find? jobName).isSome = true) ↔ deletedJob change ≠ some jobName := by
  rw [hjobs, hdeleted]
  exact iff_of_true hfound (Option.some_ne_none jobName).symm

theorem followedTarget_of_no_renames {change : Change} (h : renamesOf change = [])
    (settings : Settings) : followedTarget change settings = settings.activeTarget := by
  rw [followedTarget, h]
  cases settings.activeTarget <;> rfl

/-- A change that writes hosts and leaves the settings alone. -/
theorem changeDone_of_written {disk : Disk} {change : Change}
    {hosts : KeyedMap String (KnownHost Url)} {before after : Workspace}
    (h : HostsWritten terminal.world.lib.toUrlLibrary (editOf terminal libs before hosts change)
      hosts before after)
    (hdeleted : deletedJob change = none) (hrenames : renamesOf change = [])
    (hchooses : ∀ settings, choosesTarget terminal libs before hosts settings change = false) :
    ChangeDone terminal libs env disk change hosts before after where
  edited := h.edited
  jobs := jobs_of_hosts_change hdeleted h.jobs
  config := h.config
  target := by
    intro _ settings hload
    refine ⟨settings, by rw [h.settings, hload], ?_⟩
    rw [hchooses settings, if_neg Bool.false_ne_true, followedTarget_of_no_renames hrenames]

/-- A request that changes nothing. -/
theorem changeDone_of_unchanged {disk : Disk} {change : Change}
    {hosts : KeyedMap String (KnownHost Url)} {state : Workspace}
    (hparse : parseHostsYml terminal.world.lib.toUrlLibrary state.files.hosts = .ok hosts)
    (hedit : editOf terminal libs state hosts change = .none)
    (hdeleted : deletedJob change = none) (hrenames : renamesOf change = [])
    (hchooses : ∀ settings, choosesTarget terminal libs state hosts settings change = false) :
    ChangeDone terminal libs env disk change hosts state state := by
  refine changeDone_of_written ⟨hparse, ⟨hosts, hparse, fun _ => ?_, ?_⟩, rfl, rfl,
    SameReferences.refl _⟩ hdeleted hrenames hchooses
  · rw [hedit]
    rfl
  · rw [hedit]
    exact List.nodup_nil

theorem firstHost_of_edited {lib : UrlLibrary Url} {edit : HostEdit Url} {file : HostsFile}
    {hosts edited : KeyedMap String (KnownHost Url)} (h : Edited lib edit hosts file edited) :
    firstHost edited = firstHost (edit.apply hosts) := by
  have hsome : ∀ name, (edited.find? name).isSome = ((edit.apply hosts).find? name).isSome := by
    intro name
    simpa using congrArg Option.isSome (h.found name)
  have hkeys := KeyedMap.keys_inOrder_congr hsome
  simp only [firstHost, ← List.head?_map, hkeys]

/-- Removing a host on the command line; settings that name it get the first of the others. -/
theorem changeDone_of_removeHost (hlib : terminal.world.lib.toUrlLibrary.Lawful) {disk : Disk}
    {name : String} {hosts : KeyedMap String (KnownHost Url)} {before after : Workspace}
    (hflushed : disk.hosts.Flushed)
    (hparse : parseHostsYml terminal.world.lib.toUrlLibrary before.files.hosts = .ok hosts)
    (h : deleteHostFromCli terminal.world.lib.toUrlLibrary disk name before = (.ok (), after)) :
    ChangeDone terminal libs env disk (.removeHost name) hosts before after := by
  unfold deleteHostFromCli at h
  generalize hclears : hasCollect _ = clears at h
  rcases hremoved : afterHosts disk clears
    (removeSaved terminal.world.lib.toUrlLibrary disk name before.files.hosts) before with
    ⟨result, state⟩
  cases result with
  | error error => simp [hremoved] at h
  | ok _ =>
    simp only [hremoved, Prod.mk.injEq, true_and] at h
    unfold removeSaved at hremoved
    cases hfound : hosts.find? name with
    | none =>
      simp only [hparse, hfound] at hremoved
      exact absurd (afterHosts_eq_ok hremoved).1 (by simp)
    | some host =>
      simp only [hparse, hfound] at hremoved
      have hwritten : HostsWritten terminal.world.lib.toUrlLibrary (.remove [name]) hosts before
          state := hostsWritten_of_remove hlib hflushed hparse hremoved
      obtain ⟨edited, hedited⟩ := hwritten.edited
      have hkept : after.files = state.files ∧ after.config = state.config := by
        rw [← h]
        unfold cleanupSettingsAfterHostDelete
        split
        · exact ⟨rfl, rfl⟩
        · split_ifs
          · exact ⟨rfl, rfl⟩
          · split <;> exact ⟨rfl, rfl⟩
      refine ⟨⟨edited, by rw [hkept.1]; exact hedited⟩,
        jobs_of_hosts_change rfl (by rw [hkept.1, hwritten.jobs]),
        by rw [hkept.2]; exact hwritten.config, ?_⟩
      intro hdisk settings hload
      rw [← h]
      unfold cleanupSettingsAfterHostDelete
      rw [hwritten.settings, hload]
      simp only [choosesTarget, decide_eq_true_eq]
      by_cases htarget : settings.activeTarget = some name
      · simp only [htarget, ne_eq, not_true, if_false, hedited.parsed, if_true, hdisk,
          Settings.save]
        exact ⟨_, rfl, firstHost_of_edited hedited⟩
      · simp only [htarget, ne_eq, not_false_eq_true, if_true, if_false]
        exact ⟨settings, by rw [hwritten.settings, hload],
          (followedTarget_of_no_renames rfl settings).symm⟩

theorem apply_remove (names : List String) (hosts : KeyedMap String (KnownHost Url)) :
    (HostEdit.remove names).apply hosts = names.foldl KeyedMap.remove hosts := rfl

/-- Deleting a cluster; settings that name one of its hosts get the first of the others. -/
theorem changeDone_of_deleteCluster (hlib : terminal.world.lib.toUrlLibrary.Lawful) {disk : Disk}
    {rowId : ℕ} {name : String} {hosts : KeyedMap String (KnownHost Url)}
    {before after : Workspace} (hflushed : disk.hosts.Flushed)
    (hparse : parseHostsYml terminal.world.lib.toUrlLibrary before.files.hosts = .ok hosts)
    (hrow : rowById (clusterRows hosts) rowId = some name)
    (h : deleteCluster terminal.world.lib.toUrlLibrary disk name before = (.ok (), after)) :
    ChangeDone terminal libs env disk (.deleteClusterRow rowId) hosts before after := by
  have hedit : editOf terminal libs before hosts (.deleteClusterRow rowId) =
      .remove (clusterNames name) := by
    simp only [editOf, hrow, Option.map_some, Option.getD_some]
  unfold deleteCluster at h
  rw [hparse] at h
  cases hload : Settings.load before.settings with
  | error error => simp [hload] at h
  | ok settings =>
    simp only [hload] at h
    rcases hremoved : afterHosts disk false (writeHostsYml terminal.world.lib.toUrlLibrary
      disk.hosts before.files.hosts ((clusterNames name).foldl KeyedMap.remove hosts)) before with
      ⟨result, state⟩
    cases result with
    | error error => simp [hremoved] at h
    | ok _ =>
      have hwritten := hostsWritten_of_remove hlib hflushed hparse hremoved
      simp only [hremoved] at h
      have hchooses : choosesTarget terminal libs before hosts settings (.deleteClusterRow rowId) =
          settings.activeTarget.any fun target => target ∈ clusterNames name := by
        simp only [choosesTarget, hrow, Option.any_some]
      unfold settingsWithoutCluster at h
      by_cases htarget : (settings.activeTarget.any fun target => target ∈ clusterNames name) = true
      · rw [if_pos htarget] at h
        simp only [Prod.mk.injEq] at h
        obtain ⟨hsaved, rfl⟩ := h
        refine ⟨by rw [hedit]; exact hwritten.edited, jobs_of_hosts_change rfl hwritten.jobs,
          hwritten.config, ?_⟩
        intro hdisk settings' hload'
        obtain rfl := Except.ok.inj (hload.symm.trans hload')
        rw [hchooses, if_pos htarget, hedit, apply_remove]
        simp only [hdisk, Settings.save]
        exact ⟨_, rfl, rfl⟩
      · rw [if_neg htarget] at h
        obtain rfl := (Prod.mk.inj h).2
        refine ⟨by rw [hedit]; exact hwritten.edited, jobs_of_hosts_change rfl hwritten.jobs,
          hwritten.config, ?_⟩
        intro hdisk settings' hload'
        obtain rfl := Except.ok.inj (hload.symm.trans hload')
        rw [hchooses, if_neg htarget, followedTarget_of_no_renames rfl]
        exact ⟨settings, by rw [hwritten.settings, hload], rfl⟩

/-- Deleting a host on the page of hosts. -/
theorem hostsWritten_of_deleteHost (hlib : terminal.world.lib.toUrlLibrary.Lawful) {disk : Disk}
    {name : String} {hosts : KeyedMap String (KnownHost Url)} {before after : Workspace}
    (hflushed : disk.hosts.Flushed)
    (hparse : parseHostsYml terminal.world.lib.toUrlLibrary before.files.hosts = .ok hosts)
    (h : deleteHost terminal.world.lib.toUrlLibrary disk name before = (.ok (), after)) :
    HostsWritten terminal.world.lib.toUrlLibrary (.remove [Texts.trim name]) hosts before
      after := by
  unfold deleteHost at h
  simp only [hparse] at h
  exact hostsWritten_of_remove hlib hflushed hparse h

/-- Saving a form of hosts that renames what the change says. -/
theorem changeDone_of_upsertHosts (hlib : terminal.world.lib.toUrlLibrary.Lawful) {disk : Disk}
    {change : Change} {checked : Except UpsertError (HostChange Url)}
    {hosts : KeyedMap String (KnownHost Url)} {before after : Workspace}
    (hflushed : disk.hosts.Flushed)
    (hparse : parseHostsYml terminal.world.lib.toUrlLibrary before.files.hosts = .ok hosts)
    (hedit : editOf terminal libs before hosts change = .ofChange checked)
    (hdeleted : deletedJob change = none)
    (hchooses : ∀ settings, choosesTarget terminal libs before hosts settings change =
      (followedTarget change settings).any fun target =>
        (((editOf terminal libs before hosts change).apply hosts).find? target).isNone)
    (hchecked : ∀ made, checked = .ok made → made.renamed = renamesOf change ∧
      (made.added.map Prod.fst).Nodup ∧
      ∀ e ∈ made.added, IsCanonical terminal.world.lib.toUrlLibrary e.2)
    (h : upsertHosts terminal.world.lib.toQueryLibrary disk checked before = (.ok (), after)) :
    ChangeDone terminal libs env disk change hosts before after := by
  obtain ⟨made, hosts', settings, rfl, hparse', hedited, hjobs, hconfig, hload, hload'⟩ :=
    written_of_upsertHosts hlib hflushed (fun made hmade => (hchecked made hmade).2.1)
      (fun made hmade => (hchecked made hmade).2.2) h
  obtain rfl := Except.ok.inj (hparse.symm.trans hparse')
  obtain ⟨hrenamed, -, -⟩ := hchecked made rfl
  refine ⟨by rw [hedit]; exact hedited, jobs_of_hosts_change hdeleted hjobs, hconfig, ?_⟩
  intro _ settings' hsettings
  obtain rfl := Except.ok.inj (hload.symm.trans hsettings)
  refine ⟨_, hload', ?_⟩
  rw [planHosts_activeTarget, hchooses, hedit, followedTarget, hrenamed]

/-- Every change that succeeds is done. -/
theorem changeDone_of_succeeds (hlib : terminal.world.lib.toUrlLibrary.Lawful) {disk : Disk}
    {change : Change} {hosts : KeyedMap String (KnownHost Url)} {before after : Workspace}
    (hparse : parseHostsYml terminal.world.lib.toUrlLibrary before.files.hosts = .ok hosts)
    (hsucceeds : Succeeds terminal libs env disk change before after) :
    ChangeDone terminal libs env disk change hosts before after := by
  obtain ⟨hflushed, h⟩ := hsucceeds
  have hhosts : ∀ {result : Except UpsertError Unit × Workspace},
      changeHosts result = (.ok (), after) → result = (.ok (), after) := by
    rintro ⟨result, state⟩ hresult
    obtain ⟨hok, rfl⟩ := Prod.mk.inj hresult
    obtain rfl : result = .ok () := mapError_eq_ok.mp hok
    rfl
  cases change with
  | addHost args =>
    obtain ⟨hosts', hwritten⟩ := hostsWritten_of_saveChecked hlib hflushed
      (fun host hhost => isCanonical_of_hostToAdd hlib hhost) (hhosts h)
    obtain rfl := Except.ok.inj (hparse.symm.trans hwritten.parsed)
    exact changeDone_of_written hwritten rfl rfl fun _ => rfl
  | updateHost name update =>
    obtain ⟨hosts', hwritten⟩ := hostsWritten_of_saveChecked hlib hflushed
      (fun host hhost => isCanonical_of_hostToUpdate hlib hhost) (hhosts h)
    obtain rfl := Except.ok.inj (hparse.symm.trans hwritten.parsed)
    exact changeDone_of_written hwritten rfl rfl fun _ => rfl
  | removeHost name => exact changeDone_of_removeHost hlib hflushed hparse (hhosts h)
  | upsertHost session form =>
    refine changeDone_of_upsertHosts hlib hflushed hparse rfl rfl (fun _ => rfl) ?_ (hhosts h)
    intro made hmade
    obtain ⟨⟨name, host⟩, hform, rfl⟩ := map_eq_ok hmade
    obtain ⟨rfl, parts, hparts⟩ := checkHostForm_eq_ok hform
    refine ⟨rfl, List.nodup_singleton _, fun e he => ?_⟩
    obtain rfl := List.mem_singleton.mp he
    exact isCanonical_of_fromParts hlib hparts
  | upsertCluster session form =>
    refine changeDone_of_upsertHosts hlib hflushed hparse rfl rfl (fun _ => rfl) ?_ (hhosts h)
    intro made hmade
    obtain ⟨⟨name, elasticsearchHost, kibanaHost⟩, hform, rfl⟩ := map_eq_ok hmade
    obtain ⟨rfl, ⟨parts, hparts⟩, parts', hparts'⟩ := checkClusterForm_eq_ok hform
    refine ⟨rfl, (fitsScope_cluster form elasticsearchHost kibanaHost hosts).distinct,
      fun e he => ?_⟩
    rcases List.mem_cons.mp he with rfl | he
    · exact isCanonical_of_fromParts hlib hparts
    · obtain rfl := List.mem_singleton.mp he
      exact isCanonical_of_fromParts hlib hparts'
  | deleteHost name =>
    exact changeDone_of_written (hostsWritten_of_deleteHost hlib hflushed hparse (hhosts h)) rfl
      rfl fun _ => rfl
  | deleteHostRow rowId =>
    have hrun := hhosts h
    unfold deleteHostRow shownHosts at hrun
    rw [hparse] at hrun
    cases hrow : rowById (hostRows hosts) rowId with
    | none =>
      simp only [Except.toOption, Option.getD_some, hrow] at hrun
      obtain rfl := (Prod.mk.inj hrun).2
      exact changeDone_of_unchanged hparse (by simp only [editOf, hrow]; rfl) rfl rfl fun _ => rfl
    | some name =>
      simp only [Except.toOption, Option.getD_some, hrow] at hrun
      have hedit : editOf terminal libs before hosts (.deleteHostRow rowId) =
          .remove [Texts.trim name] := by
        simp only [editOf, hrow, Option.map_some, Option.getD_some]
      refine changeDone_of_written ?_ rfl rfl fun _ => rfl
      rw [hedit]
      exact hostsWritten_of_deleteHost hlib hflushed hparse hrun
  | deleteClusterRow rowId =>
    have hrun := hhosts h
    unfold deleteClusterRow shownHosts at hrun
    rw [hparse] at hrun
    cases hrow : rowById (clusterRows hosts) rowId with
    | none =>
      simp only [Except.toOption, Option.getD_some, hrow] at hrun
      obtain rfl := (Prod.mk.inj hrun).2
      exact changeDone_of_unchanged hparse (by simp only [editOf, hrow]; rfl) rfl rfl
        fun _ => by simp only [choosesTarget, hrow, Option.any_none]
    | some name =>
      simp only [Except.toOption, Option.getD_some, hrow] at hrun
      exact changeDone_of_deleteCluster hlib hflushed hparse hrow hrun
  | job ioFails command =>
    rcases hrun : command.run env ioFails before.files.jobs with ⟨result, file⟩
    simp only [Change.run, hrun, Prod.mk.injEq] at h
    obtain ⟨hok, rfl⟩ := h
    rw [mapError_eq_ok.mp hok] at hrun
    refine ⟨⟨hosts, hparse, fun _ => rfl, List.nodup_nil⟩, ?_, SameReferences.refl _, ?_⟩
    · intro jobName hfound
      exact JobCommand.find?_run hrun hfound
    · intro _ settings hload
      exact ⟨settings, hload, (followedTarget_of_no_renames rfl settings).symm⟩

end Changes

section Stability

variable {Url Key : Type} (terminal : Terminal Url) (libs : Libraries Key) (env : Environment)

/-- The steps of a run that all succeed and keep the references. -/
def EachKeeps : List (Disk × Change) → Workspace → Prop
  | [], _ => True
  | (disk, change) :: rest, state =>
    Succeeds terminal libs env disk change state (change.run terminal libs env disk state).2 ∧
      KeepsReferences terminal libs disk change state ∧
      EachKeeps rest (change.run terminal libs env disk state).2

variable {terminal libs env}

/-- An output that is no saved host is not affected by changes of hosts. -/
theorem validateOutput_iff {output : OutputConfig}
    {elasticConfig : Except ElasticContexts.ContextError (Option ElasticContexts.ElasticConfig)}
    {lib : UrlLibrary Url} {edit : HostEdit Url} {file : HostsFile}
    {hosts edited : KeyedMap String (KnownHost Url)} (h : Edited lib edit hosts file edited)
    (hvalid : validateOutput elasticConfig output hosts = .ok ()) :
    validateOutput elasticConfig output edited = .ok () ↔
      ∀ outputName, output.elasticContext = none → output.default = some outputName →
        KeepsOutput edit hosts outputName := by
  unfold validateOutput at hvalid ⊢
  cases hcontext : output.elasticContext with
  | some outputContext =>
    rw [hcontext] at hvalid
    simp [hvalid]
  | none =>
    rw [hcontext] at hvalid
    cases hdefault : output.default with
    | none => simp
    | some outputName =>
      rw [hdefault] at hvalid
      simpa using validateOutputHost_iff h hvalid

/-- After a change, valid references are valid again exactly where it keeps the default output
and the default job. -/
theorem referencesValid_iff_of_done {disk : Disk} {change : Change} {before after : Workspace}
    {hosts : KeyedMap String (KnownHost Url)} {config : ApplicationConfig}
    (hdone : ChangeDone terminal libs env disk change hosts before after)
    (hload : ApplicationConfig.load before.config = .ok config)
    (houtput : validateOutput terminal.world.system.elasticConfig config.output hosts = .ok ())
    (hjob : ∀ jobName, config.job.default = some jobName →
      ∃ jobs, (loadSavedJobsFromPath env before.files.jobs).1 = .ok jobs ∧
        (jobs.find? jobName).isSome = true) :
    ReferencesValid terminal env after ↔
      (∀ outputName, config.output.elasticContext = none →
        config.output.default = some outputName →
        KeepsOutput (editOf terminal libs before hosts change) hosts outputName) ∧
      ∀ jobName, config.job.default = some jobName → deletedJob change ≠ some jobName := by
  obtain ⟨edited, hedited⟩ := hdone.edited
  obtain ⟨config', hload', hsameOutput, hsameJob⟩ := hdone.config config hload
  rw [referencesValid_iff, ← validateOutput_iff hedited houtput]
  constructor
  · rintro ⟨stored, parsed, hstored, hparsed, hvalid, hfound⟩
    obtain rfl := Except.ok.inj (hload'.symm.trans hstored)
    obtain rfl := Except.ok.inj (hedited.parsed.symm.trans hparsed)
    rw [hsameOutput] at hvalid
    refine ⟨hvalid, fun jobName hname => ?_⟩
    exact (hdone.jobs jobName (hjob jobName hname)).mp (hfound jobName (hsameJob ▸ hname))
  · rintro ⟨hvalid, hkept⟩
    refine ⟨config', edited, hload', hedited.parsed, by rw [hsameOutput]; exact hvalid, ?_⟩
    intro jobName hname
    rw [hsameJob] at hname
    exact (hdone.jobs jobName (hjob jobName hname)).mpr (hkept jobName hname)

/-- A chosen target is a host to send to exactly where the first host by name is one. -/
theorem targetSends_iff_of_done {disk : Disk} {change : Change} {before after : Workspace}
    {hosts : KeyedMap String (KnownHost Url)}
    (hdone : ChangeDone terminal libs env disk change hosts before after)
    (hnew : ∀ settings, choosesTarget terminal libs before hosts settings change = true →
      ∀ target, followedTarget change settings = some target →
        ((editOf terminal libs before hosts change).apply hosts).find? target = none) :
    TargetSends terminal disk change before after ↔
      (disk.settings = .completes → ∀ settings, Settings.load before.settings = .ok settings →
        choosesTarget terminal libs before hosts settings change = true →
        FirstSends (editOf terminal libs before hosts change) hosts) := by
  obtain ⟨edited, hedited⟩ := hdone.edited
  constructor
  · intro h hdisk settings hload hchooses name host hfirst hhost
    obtain ⟨settings', hload', htarget⟩ := hdone.target hdisk settings hload
    rw [if_pos hchooses, hfirst] at htarget
    have hother : settings'.activeTarget ≠ followedTarget change settings := by
      intro heq
      rw [htarget, eq_comm] at heq
      rw [hnew settings hchooses name heq] at hhost
      cases hhost
    obtain ⟨saved, hsaved, hsend⟩ :=
      h hdisk settings settings' edited name hload hload' hedited.parsed hother htarget
    obtain ⟨saved', hsaved', hsame⟩ := hedited.exists_of_find? hhost
    obtain rfl := Option.some.inj (hsaved.symm.trans hsaved')
    exact (send_mem_of_endpoint hsame).mp hsend
  · intro h hdisk settings settings' parsed target hload hload' hparsed hother htarget
    obtain rfl := Except.ok.inj (hedited.parsed.symm.trans hparsed)
    obtain ⟨stored, hstored, hchosen⟩ := hdone.target hdisk settings hload
    obtain rfl := Except.ok.inj (hload'.symm.trans hstored)
    cases hchooses : choosesTarget terminal libs before hosts settings change with
    | false =>
      rw [hchooses, if_neg Bool.false_ne_true] at hchosen
      exact absurd hchosen hother
    | true =>
      rw [hchooses, if_pos rfl, htarget, eq_comm] at hchosen
      obtain ⟨entry, hentry, hkey⟩ := Option.map_eq_some_iff.mp hchosen
      have hmem := List.mem_of_mem_head? (Option.mem_def.mpr hentry)
      have hfind := KeyedMap.find?_eq_some_iff.mpr ((KeyedMap.inOrder_perm _).mem_iff.mp hmem)
      rw [hkey] at hfind
      obtain ⟨saved, hsaved, hsame⟩ := hedited.exists_of_find? hfind
      exact ⟨saved, hsaved, (send_mem_of_endpoint hsame).mpr
        (h hdisk settings hload hchooses target _ hchosen hfind)⟩

/-- A target that a change replaces names no host after it. -/
theorem find?_of_choosesTarget {state : Workspace} {hosts : KeyedMap String (KnownHost Url)}
    {settings : Settings} {change : Change}
    (h : choosesTarget terminal libs state hosts settings change = true) {target : String}
    (htarget : followedTarget change settings = some target) :
    ((editOf terminal libs state hosts change).apply hosts).find? target = none := by
  have hremove : ∀ names, target ∈ names →
      ((HostEdit.remove names).apply hosts).find? target = none := by
    intro names hmem
    show (names.foldl KeyedMap.remove hosts).find? target = none
    rw [find?_foldl_remove, if_pos hmem]
  cases change with
  | removeHost name =>
    rw [followedTarget_of_no_renames rfl] at htarget
    simp only [choosesTarget, decide_eq_true_eq] at h
    obtain rfl := Option.some.inj (htarget.symm.trans h)
    exact hremove _ List.mem_cons_self
  | deleteClusterRow rowId =>
    rw [followedTarget_of_no_renames rfl] at htarget
    simp only [choosesTarget, htarget, Option.any_some] at h
    cases hrow : rowById (clusterRows hosts) rowId with
    | none => simp [hrow] at h
    | some name =>
      simp only [hrow, Option.any_some, decide_eq_true_eq] at h
      simp only [editOf, hrow, Option.map_some, Option.getD_some]
      exact hremove _ h
  | upsertHost session form =>
    simp only [choosesTarget, htarget, Option.any_some] at h
    exact Option.isNone_iff_eq_none.mp h
  | upsertCluster session form =>
    simp only [choosesTarget, htarget, Option.any_some] at h
    exact Option.isNone_iff_eq_none.mp h
  | addHost args => cases h
  | updateHost name update => cases h
  | deleteHost name => cases h
  | deleteHostRow rowId => cases h
  | job ioFails command => cases h

/-- A change that succeeds on valid references keeps them valid, and chooses no target but a
host to send to, exactly where it keeps the references. -/
theorem keeps_iff (hlib : terminal.world.lib.toUrlLibrary.Lawful) {disk : Disk} {change : Change}
    {before after : Workspace} (hvalid : ReferencesValid terminal env before)
    (h : Succeeds terminal libs env disk change before after) :
    (ReferencesValid terminal env after ∧ TargetSends terminal disk change before after) ↔
      KeepsReferences terminal libs disk change before := by
  obtain ⟨config, hosts, hload, hparse, houtput, hjob⟩ :=
    (referencesValid_iff terminal env before).mp hvalid
  have hdone := changeDone_of_succeeds hlib hparse h
  rw [referencesValid_iff_of_done hdone hload houtput hjob,
    targetSends_iff_of_done hdone fun _ hchooses _ => find?_of_choosesTarget hchooses]
  constructor
  · rintro ⟨⟨hkept, hstays⟩, htarget⟩
    refine ⟨?_, ?_, ?_⟩
    · intro config' hosts' outputName hload' hparse'
      obtain rfl := Except.ok.inj (hload.symm.trans hload')
      obtain rfl := Except.ok.inj (hparse.symm.trans hparse')
      exact hkept outputName
    · intro config' jobName hload'
      obtain rfl := Except.ok.inj (hload.symm.trans hload')
      exact hstays jobName
    · intro hdisk settings hosts' hsettings hparse'
      obtain rfl := Except.ok.inj (hparse.symm.trans hparse')
      exact htarget hdisk settings hsettings
  · intro hkeeps
    exact ⟨⟨fun outputName => hkeeps.output config hosts outputName hload hparse,
      fun jobName => hkeeps.job config jobName hload⟩,
      fun hdisk settings hsettings => hkeeps.target hdisk settings hosts hsettings hparse⟩

/-- Along a run of changes that keep them, the references stay valid. -/
theorem referencesValid_runChanges (hlib : terminal.world.lib.toUrlLibrary.Lawful)
    (changes : List (Disk × Change)) {state : Workspace}
    (hvalid : ReferencesValid terminal env state)
    (hkeeps : EachKeeps terminal libs env changes state) :
    ReferencesValid terminal env (runChanges terminal libs env changes state) := by
  induction changes generalizing state with
  | nil => exact hvalid
  | cons step rest ih =>
    obtain ⟨disk, change⟩ := step
    obtain ⟨hok, hkept, hrest⟩ := hkeeps
    exact ih ((keeps_iff hlib hvalid hok).mpr hkept).1 hrest

/-- The references of the configuration stay valid, and a target that is chosen is a host to
send to, after exactly the changes that keep the default output, the default job and the target;
so they do along every run of such changes. -/
theorem references_stay_valid_iff (hlib : terminal.world.lib.toUrlLibrary.Lawful) :
    (∀ disk change before after, ReferencesValid terminal env before →
      Succeeds terminal libs env disk change before after →
      ((ReferencesValid terminal env after ∧ TargetSends terminal disk change before after) ↔
        KeepsReferences terminal libs disk change before)) ∧
    ∀ changes state, ReferencesValid terminal env state →
      EachKeeps terminal libs env changes state →
      ReferencesValid terminal env (runChanges terminal libs env changes state) :=
  ⟨fun _ _ _ _ hvalid hrun => keeps_iff hlib hvalid hrun,
    fun changes _ hvalid hkeeps => referencesValid_runChanges hlib changes hvalid hkeeps⟩

end Stability

section Samples

open YamlValues OutputSources

def sampleTerminal : Terminal SampleUrl where
  world :=
    { system := emptySystem
      lib := sampleServices
      cloudHost := fun _ => .error "no Cloud service"
      urlParts := fun _ => none
      parseUrl := fun _ => none
      pathExists := fun _ => false
      isDir := fun _ => false
      isFile := fun _ => false
      errorText := fun _ => "not resolved" }
  passwordForSecretCommands := .error (.refused "no password")
  validateHostConnection _ _ := .ok ()
  portOrKnownDefault _ := none
  pathSegments _ := none

/-- A host of the file that is no output and no viewer. -/
def backupEntry : String × Yaml := ("backup", .mapping [("url", .string "https://backup.example/")])

/-- An output with its viewer, which the configuration and the settings name. -/
def linkedWorkspace (others : Fields) : Workspace where
  files :=
    { hosts := .document (.mapping ([
        ("output", .mapping [("app", .string "elasticsearch"),
          ("roles", .sequence [.string "send"]), ("viewer", .string "output-kibana"),
          ("url", .string "https://es.example/")]),
        ("output-kibana", .mapping [("app", .string "kibana"),
          ("roles", .sequence [.string "view"]), ("url", .string "https://kb.example/")])] ++
        others))
      keystore := .absent
      jobs := .absent }
  settings := .document ⟨some "output", none⟩
  config := .document
    { ApplicationConfig.new with output := ⟨some "output", none, none, none⟩ }

set_option maxRecDepth 20000 in
/-- A host that nothing refers to can be removed. -/
theorem references_stay_valid_backup :
    ReferencesValid sampleTerminal bareEnvironment
      ((Change.removeHost "backup").run sampleTerminal sampleLibraries
        bareEnvironment sampleDisk (linkedWorkspace [backupEntry])).2 := by
  have hvalid : ReferencesValid sampleTerminal bareEnvironment (linkedWorkspace [backupEntry]) :=
    ⟨_, rfl, rfl⟩
  have hkeeps : KeepsReferences sampleTerminal sampleLibraries sampleDisk
      (.removeHost "backup") (linkedWorkspace [backupEntry]) := by
    refine ⟨?_, ?_, ?_⟩
    · intro config hosts outputName hload hparse hcontext hdefault
      obtain rfl := Except.ok.inj hload
      obtain rfl := Option.some.inj hdefault
      refine ⟨?_, fun _ _ _ _ _ hadded => by cases hadded⟩
      show "output" ∉ ["backup"]
      decide
    · intro config jobName hload hdefault
      obtain rfl := Except.ok.inj hload
      cases hdefault
    · intro hdisk settings hosts hload hparse hchooses
      obtain rfl := Except.ok.inj hload
      have htarget : some "output" = some "backup" := of_decide_eq_true hchooses
      exact absurd htarget (by decide)
  exact ((references_stay_valid_iff sampleUrls_lawful).1 sampleDisk (.removeHost "backup")
    (linkedWorkspace [backupEntry]) _ hvalid ⟨HostsWrite.flushed_completes, rfl⟩).mpr hkeeps |>.1

set_option maxRecDepth 20000 in
/-- The default output is removed, and the configuration still names it. -/
theorem removed_output_dangles :
    ¬ ∀ disk change before after, ReferencesValid sampleTerminal bareEnvironment before →
      Succeeds sampleTerminal sampleLibraries bareEnvironment disk change before after →
      ReferencesValid sampleTerminal bareEnvironment after ∧
        TargetSends sampleTerminal disk change before after := by
  intro h
  obtain ⟨⟨config, hload, hvalid⟩, -⟩ := h sampleDisk (.removeHost "output") (linkedWorkspace [])
    _ ⟨_, rfl, rfl⟩ ⟨HostsWrite.flushed_completes, rfl⟩
  obtain rfl := Except.ok.inj hload
  cases hvalid

end Samples

end Esdiag.ReferenceStability
