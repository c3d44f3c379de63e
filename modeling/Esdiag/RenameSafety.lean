import Esdiag.SettingsRenames

/-!
What saving a form may do to the files. A success changes the entries that the
form names and no other one, keeps the target on a host, and leaves what the form
is not about. An error leaves hosts, settings and keystore. Both hold exactly
where no other entry stands under a name that the form writes or removes, and
where no step fails once a file has been changed.
-/
namespace Esdiag.RenameSafety

open KeyedMaps KeyedUpdates Deployments Keystores KeystoreOperations KeystoreInvariants KnownHosts
  HostFiles HostBuilders HostRoundTrip SavedJobFiles SecretReferences ApplicationConfigs
  SettingsForms SettingsRenames

section Spec

variable {Url Key : Type} (lib : QueryLibrary Url) (libs : Libraries Key)

/-- A host as the file holds it: its roles in order, and a reference for a credential. -/
def asSaved (host : KnownHost Url) : KnownHost Url :=
  { host with
    roles := normalizeRoles host.roles
    credential := host.credential.persisted.toOption.getD host.credential }

def SameHost (host other : KnownHost Url) : Prop := asSaved other = asSaved host

/-- What a form of hosts names: entries that it may change, and those of them that are its
own from the start. -/
structure HostScope where
  renamed : List (String × String)
  added : List String
  own : List String

def HostScope.named (scope : HostScope) : List String :=
  scope.renamed.map Prod.fst ++ scope.added

def hostScope (form : HostUpsertForm) : HostScope :=
  let name := Texts.trim form.name
  { renamed := hostRenames form.originalName name
    added := [name]
    own := [(renamedFrom form.originalName name).getD name] }

/-- A cluster that is edited owns its Kibana host, if the two are shown as one. -/
def clusterScope (form : ClusterUpsertForm) (hosts : KeyedMap String (KnownHost Url)) :
    HostScope :=
  let name := Texts.trim form.name
  let edited := (renamedFrom form.originalName name).getD name
  { renamed := clusterRenames form.originalName name
    added := [name, kibanaName name]
    own := edited :: if isDiagnosticCluster hosts edited then [kibanaName edited] else [] }

/-- A form of hosts has changed what it names. -/
structure HostsChanged (scope : HostScope) (hosts : KeyedMap String (KnownHost Url))
    (settings : Settings) (before after : Workspace) : Prop where
  parsed : ∃ hosts', parseHostsYml lib.toUrlLibrary after.files.hosts = .ok hosts' ∧
    (∀ name, name ∉ scope.named → hosts'.find? name = (hosts.find? name).map asSaved) ∧
    KeepsOthers (fun host host' => host' = asSaved host) scope.own hosts hosts' ∧
    ∃ settings', Settings.load after.settings = .ok settings' ∧
      settings'.kibanaUrl = settings.kibanaUrl ∧
      ∀ target, settings.activeTarget = some target → (hosts.find? target).isSome →
        ∃ target', settings'.activeTarget = some target' ∧
          target' = (findEntry target scope.renamed).getD target ∧
          (hosts'.find? target').isSome
  keystore : after.files.keystore = before.files.keystore

/-- A form of a secret has changed what it names. -/
structure SecretChanged (named own : List String) (password : String)
    (before after : Workspace) : Prop where
  stored : ∃ store store', readStore libs before.files.keystore password = .ok store ∧
    readStore libs after.files.keystore password = .ok store' ∧
    (∀ name, name ∉ named → store'.secrets.find? name = store.secrets.find? name) ∧
    KeepsOthers (fun entry entry' => entry' = entry) own store.secrets store'.secrets
  hosts : after.files.hosts = before.files.hosts
  settings : after.settings = before.settings

inductive UpsertForm where
  | host (form : HostUpsertForm)
  | cluster (form : ClusterUpsertForm)
  | secret (form : SecretUpsertForm)

def applyUpsert (env : Environment) (disk : Disk) (session : KeystoreSession) :
    UpsertForm → Workspace → Except UpsertError Unit × Workspace
  | .host form => applyUpsertHost lib libs disk session form
  | .cluster form => applyUpsertCluster lib libs disk session form
  | .secret form => applyUpsertSecret lib libs env disk session form

def secretNames (form : SecretUpsertForm) : List String :=
  let secretId := Texts.trim form.secretId
  (renamedFrom form.originalSecretId secretId).toList ++ [secretId]

def editedSecret (form : SecretUpsertForm) : String :=
  (renamedFrom form.originalSecretId (Texts.trim form.secretId)).getD (Texts.trim form.secretId)

/-- A form has changed what it names, and nothing else. -/
def ChangesNamed (session : KeystoreSession) (form : UpsertForm) (before after : Workspace) :
    Prop :=
  match form with
  | .host form => ∃ hosts settings,
      parseHostsYml lib.toUrlLibrary before.files.hosts = .ok hosts ∧
      Settings.load before.settings = .ok settings ∧
      HostsChanged lib (hostScope form) hosts settings before after
  | .cluster form => ∃ hosts settings,
      parseHostsYml lib.toUrlLibrary before.files.hosts = .ok hosts ∧
      Settings.load before.settings = .ok settings ∧
      HostsChanged lib (clusterScope form hosts) hosts settings before after
  | .secret form => ∃ password, session.password = some password ∧
      SecretChanged libs (secretNames form) [editedSecret form] password before after

/-- The hosts, the settings and the keystore are as they were. -/
structure Untouched (before after : Workspace) : Prop where
  hosts : after.files.hosts = before.files.hosts
  settings : after.settings = before.settings
  keystore : after.files.keystore = before.files.keystore

/-- A success does what is expected of it, and an error changes nothing. -/
def IsSafe (changed : Workspace → Prop) (before : Workspace)
    (result : Except UpsertError Unit × Workspace) : Prop :=
  match result.1 with
  | .ok () => changed result.2
  | .error _ => Untouched before result.2

theorem isSafe_unchanged {changed : Workspace → Prop} (before : Workspace) (error : UpsertError) :
    IsSafe changed before (.error error, before) := ⟨rfl, rfl, rfl⟩

/-- What a lost flush leaves of the hosts still has all but what the form is about, and the host
of the target. -/
def LeavesOthers (own : List String) (change : HostChange Url)
    (hosts : KeyedMap String (KnownHost Url)) (settings : Settings) (left : HostsFile) : Prop :=
  ∃ hosts', parseHostsYml lib.toUrlLibrary left = .ok hosts' ∧
    (∀ name, name ∉ change.renamed.map Prod.fst ++ change.added.map Prod.fst →
      hosts'.find? name = (hosts.find? name).map asSaved) ∧
    KeepsOthers (fun host host' => host' = asSaved host) own hosts hosts' ∧
    ∀ target, settings.activeTarget = some target → (hosts.find? target).isSome →
      (hosts'.find? ((findEntry target change.renamed).getD target)).isSome

/-- What follows the write of the hosts is safe: where a step fails, the files are as they were,
and else the hosts are kept. -/
def FollowsSafely (disk : Disk) (plan : HostPlan Url) (state : Workspace) (file : HostsFile)
    (kept : Prop) : Prop :=
  if plan.clearsDeferral && !(clearCollectionDeferral disk.configFails state.config).1.isOk then
    file = state.files.hosts
  else
    match plan.settingsChanged, disk.settings with
    | true, .fails left => file = state.files.hosts ∧ left = state.settings
    | _, _ => kept

/-- How the accepted hosts of a change are written safely: no step fails and no other entry
stands in the way, or what a failed step leaves is what was there. -/
def WritesSafely (disk : Disk) (own : List String) (change : HostChange Url)
    (hosts written : KeyedMap String (KnownHost Url)) (settings : Settings)
    (plan : HostPlan Url) (state : Workspace) : Prop :=
  match disk.hosts with
  | .createFails => True
  | .interrupted left => left = state.files.hosts
  | .completes => FollowsSafely disk plan state (hostsDocument lib.toUrlLibrary written)
      (Apart SameHost own (change.renamed.map Prod.fst) change.added hosts)
  | .unflushed left => FollowsSafely disk plan state left
      (LeavesOthers lib own change hosts settings left)

def HostsHarmless (disk : Disk) (own : List String) (change : HostChange Url)
    (hosts : KeyedMap String (KnownHost Url)) (settings : Settings) (state : Workspace) : Prop :=
  let plan := planHosts change hosts settings
  ∀ written, normalizeHosts lib.toUrlLibrary state.files.hosts plan.hosts = .ok written →
    WritesSafely lib disk own change hosts written settings plan state

/-- Where a secret is renamed safely: once it has been removed, the new name is written, and
no other secret is there but the same. -/
def SecretHarmless (env : Environment) (disk : Disk) (session : KeystoreSession)
    (form : SecretUpsertForm) (state : Workspace) : Prop :=
  ∀ secretId auth password original store, checkSecretForm session form =
      .ok (secretId, auth, password) →
    renamedFrom form.originalSecretId secretId = some original →
    readStore libs state.files.keystore password = .ok store →
    (removeSecretChecked lib.toUrlLibrary libs env original none password disk.removal
      state.files).1 = .ok () →
    (writeStore libs disk.upsert password (upsertEntryAuth secretId auth
      { store with secrets := store.secrets.remove original })).isOk ∧
    ∀ entry, store.secrets.find? secretId = some entry → entry.containsAuth auth = true

/-- Where a form is saved safely, whatever fails. -/
def Harmless (env : Environment) (disk : Disk) (session : KeystoreSession) (form : UpsertForm)
    (state : Workspace) : Prop :=
  match form with
  | .host form => ∀ change hosts settings,
      checkedHost lib libs session form state.files.keystore = .ok change →
      parseHostsYml lib.toUrlLibrary state.files.hosts = .ok hosts →
      Settings.load state.settings = .ok settings →
      HostsHarmless lib disk (hostScope form).own change hosts settings state
  | .cluster form => ∀ change hosts settings,
      checkedCluster lib libs session form state.files.keystore = .ok change →
      parseHostsYml lib.toUrlLibrary state.files.hosts = .ok hosts →
      Settings.load state.settings = .ok settings →
      HostsHarmless lib disk (clusterScope form hosts).own change hosts settings state
  | .secret form => SecretHarmless lib libs env disk session form state

end Spec

section Hosts

variable {Url Key : Type} {lib : QueryLibrary Url} {libs : Libraries Key}

theorem asSaved_of_normalizeForWrite {name : String} {host out : KnownHost Url}
    (h : normalizeForWrite name host = .ok out) : out = asSaved host := by
  obtain ⟨credential, hcredential, rfl, -, -⟩ := normalizeForWrite_eq_ok h
  unfold asSaved
  rw [hcredential]
  rfl

/-- Whatever is accepted for writing is written as it is saved. -/
theorem find?_normalizeHosts {urls : UrlLibrary Url} {file : HostsFile}
    {hosts written : KeyedMap String (KnownHost Url)}
    (h : normalizeHosts urls file hosts = .ok written) (name : String) :
    written.find? name = (hosts.find? name).map asSaved := by
  have htraverse := (normalizeHosts_eq_ok h).1
  have hentries : ∀ e ∈ hosts.entries, normalizeForWrite e.1 e.2 = .ok (asSaved e.2) := by
    intro e he
    obtain ⟨out, hout⟩ := traverseEntries_ok_iff.mp ⟨_, htraverse⟩ e he
    rw [hout, asSaved_of_normalizeForWrite hout]
  have hmap := KeyedMap.traverse_of_forall (g := fun _ host => asSaved host) hentries
  rw [KeyedMap.traverse_eq_ok_iff.mpr htraverse] at hmap
  rw [Except.ok.inj hmap, KeyedMap.find?_mapValues]

/-- A change whose parts fit together: each name is given once, and what is renamed is
renamed to what is added. -/
structure FitsScope (scope : HostScope) (change : HostChange Url) : Prop where
  renamed : scope.renamed = change.renamed
  added : scope.added = change.added.map Prod.fst
  distinct : (change.added.map Prod.fst).Nodup
  new : ∀ e ∈ change.renamed, e.2 ∈ change.added.map Prod.fst

/-- A target on a host is kept on one. -/
theorem planHosts_target {scope : HostScope} {change : HostChange Url}
    (hfits : FitsScope scope change) {hosts : KeyedMap String (KnownHost Url)}
    {settings : Settings} {target : String} (htarget : settings.activeTarget = some target)
    (hfound : (hosts.find? target).isSome) :
    (planHosts change hosts settings).settings.activeTarget =
        some ((findEntry target change.renamed).getD target) ∧
      ((planHosts change hosts settings).hosts.find?
        ((findEntry target change.renamed).getD target)).isSome := by
  have hhost : ((replaceEntries (change.renamed.map Prod.fst) change.added hosts).find?
      ((findEntry target change.renamed).getD target)).isSome := by
    rw [find?_replaceEntries hfits.distinct]
    cases hnew : findEntry target change.renamed with
    | some new =>
      have hadded := hfits.new _ (mem_of_findEntry hnew)
      rw [← findEntry_isSome_iff] at hadded
      rw [Option.getD_some, Option.isSome_or, hadded, Bool.true_or]
    | none =>
      have hremoved : target ∉ change.renamed.map Prod.fst := by
        rw [← findEntry_isSome_iff, hnew]
        exact Bool.false_ne_true
      rw [Option.getD_none, if_neg hremoved, Option.isSome_or, hfound, Bool.or_true]
  have hretarget : (retarget change.renamed settings.activeTarget).1 =
      some ((findEntry target change.renamed).getD target) := by
    rw [htarget, retarget]
    cases findEntry target change.renamed <;> rfl
  refine ⟨?_, hhost⟩
  simp only [planHosts, hretarget, Option.any_some, Option.isNone_eq_false_iff.mpr hhost]
  rfl

/-- Settings that need no writing are the settings of the plan. -/
theorem planHosts_settings (change : HostChange Url) (hosts : KeyedMap String (KnownHost Url))
    (settings : Settings) (h : (planHosts change hosts settings).settingsChanged = false) :
    (planHosts change hosts settings).settings = settings := by
  obtain ⟨activeTarget, kibanaUrl⟩ := settings
  simp only [planHosts, Bool.or_eq_false_iff] at h ⊢
  rw [h.2, if_neg Bool.false_ne_true]
  cases activeTarget with
  | none => rfl
  | some target =>
    have hnone := h.1
    unfold retarget at hnone ⊢
    cases hnew : findEntry target change.renamed with
    | none => simp only [hnew]
    | some new => simp [hnew] at hnone

/-- The hosts that are written are read back as they are. -/
theorem parseHostsYml_written (hlib : lib.toUrlLibrary.Lawful) {change : HostChange Url}
    (hdistinct : (change.added.map Prod.fst).Nodup)
    (hcanonical : ∀ e ∈ change.added, IsCanonical lib.toUrlLibrary e.2) {file : HostsFile}
    {hosts written : KeyedMap String (KnownHost Url)} {settings : Settings}
    (hparse : parseHostsYml lib.toUrlLibrary file = .ok hosts)
    (hwritten : normalizeHosts lib.toUrlLibrary file (planHosts change hosts settings).hosts =
      .ok written) :
    parseHostsYml lib.toUrlLibrary (hostsDocument lib.toUrlLibrary written) = .ok written := by
  apply parseHostsYml_normalized hlib hwritten
  rintro ⟨name, host⟩ hmem
  have hfind := KeyedMap.find?_eq_some_iff.mpr hmem
  simp only [planHosts] at hfind
  rw [find?_replaceEntries hdistinct, Option.or_eq_some_iff] at hfind
  rcases hfind with hadded | ⟨-, hkept⟩
  · exact hcanonical _ (mem_of_findEntry hadded)
  · split at hkept
    · cases hkept
    · exact ((parseHostsYml_eq_ok hparse).1 _ (KeyedMap.find?_eq_some_iff.mp hkept)).1 hlib

/-- After the writes of a plan, the change has kept to its scope where no other entry stood
in the way. -/
theorem hostsChanged_iff (hlib : lib.toUrlLibrary.Lawful) {scope : HostScope}
    {change : HostChange Url} (hfits : FitsScope scope change)
    (hcanonical : ∀ e ∈ change.added, IsCanonical lib.toUrlLibrary e.2)
    {hosts written : KeyedMap String (KnownHost Url)} {settings : Settings}
    {before : Workspace} (after : Workspace)
    (hparse : parseHostsYml lib.toUrlLibrary before.files.hosts = .ok hosts)
    (hwritten : normalizeHosts lib.toUrlLibrary before.files.hosts
      (planHosts change hosts settings).hosts = .ok written)
    (hfile : after.files.hosts = hostsDocument lib.toUrlLibrary written)
    (hsettings : Settings.load after.settings = .ok (planHosts change hosts settings).settings)
    (hkeystore : after.files.keystore = before.files.keystore) :
    HostsChanged lib scope hosts settings before after ↔
      Apart SameHost scope.own (change.renamed.map Prod.fst) change.added hosts := by
  have hread := parseHostsYml_written hlib hfits.distinct hcanonical hparse hwritten
  have hfind : ∀ name, written.find? name =
      ((replaceEntries (change.renamed.map Prod.fst) change.added hosts).find? name).map asSaved :=
    find?_normalizeHosts hwritten
  have hkeeps : KeepsOthers (fun host host' => host' = asSaved host) scope.own hosts written ↔
      KeepsOthers SameHost scope.own hosts
        (replaceEntries (change.renamed.map Prod.fst) change.added hosts) := by
    constructor
    · intro h name host hhost hown
      obtain ⟨_, hsaved, rfl⟩ := h name host hhost hown
      rw [hfind, Option.map_eq_some_iff] at hsaved
      exact hsaved
    · intro h name host hhost hown
      obtain ⟨host', hhost', hsame⟩ := h name host hhost hown
      exact ⟨asSaved host, by rw [hfind, hhost', Option.map_some, hsame], rfl⟩
  have hsame : ∀ host : KnownHost Url, SameHost host host := fun _ => rfl
  rw [← keepsOthers_replaceEntries_iff hsame hfits.distinct]
  constructor
  · intro h
    obtain ⟨hosts', hparsed, -, hothers, -⟩ := h.parsed
    rw [hfile, hread] at hparsed
    obtain rfl := Except.ok.inj hparsed
    exact hkeeps.mp hothers
  · intro h
    refine ⟨⟨written, by rw [hfile, hread], ?_, hkeeps.mpr h, _, hsettings, rfl, ?_⟩, hkeystore⟩
    · intro name hname
      rw [HostScope.named, List.mem_append, not_or, hfits.renamed, hfits.added] at hname
      rw [hfind, find?_replaceEntries_of_not_mem hfits.distinct hosts hname.1 hname.2]
    · intro target htarget hfound
      obtain ⟨hnew, hhost⟩ := planHosts_target hfits htarget hfound
      refine ⟨_, hnew, by rw [hfits.renamed], ?_⟩
      rw [hfind, Option.isSome_map]
      exact hhost

/-- After a lost flush, the change has kept to its scope where what is left has. -/
theorem hostsChanged_iff_leavesOthers {scope : HostScope} {change : HostChange Url}
    (hfits : FitsScope scope change) {hosts : KeyedMap String (KnownHost Url)}
    {settings : Settings} {before : Workspace} (after : Workspace)
    (hsettings : Settings.load after.settings = .ok (planHosts change hosts settings).settings)
    (hkeystore : after.files.keystore = before.files.keystore) :
    HostsChanged lib scope hosts settings before after ↔
      LeavesOthers lib scope.own change hosts settings after.files.hosts := by
  have hnamed : scope.named = change.renamed.map Prod.fst ++ change.added.map Prod.fst := by
    rw [HostScope.named, hfits.renamed, hfits.added]
  constructor
  · rintro ⟨⟨hosts', hparsed, hothers, hkeeps, settings', hload, -, htarget⟩, -⟩
    obtain rfl := Except.ok.inj (hsettings.symm.trans hload)
    rw [hnamed] at hothers
    refine ⟨hosts', hparsed, hothers, hkeeps, fun target hactive hfound => ?_⟩
    obtain ⟨_, -, rfl, hhost⟩ := htarget target hactive hfound
    rwa [hfits.renamed] at hhost
  · rintro ⟨hosts', hparsed, hothers, hkeeps, htarget⟩
    rw [← hnamed] at hothers
    refine ⟨⟨hosts', hparsed, hothers, hkeeps, _, hsettings, rfl, ?_⟩, hkeystore⟩
    intro target hactive hfound
    exact ⟨_, (planHosts_target hfits hactive hfound).1, by rw [hfits.renamed],
      htarget target hactive hfound⟩

/-- Once a file of hosts is written, the rest of a plan is safe exactly where what follows is. -/
theorem carryOut_written_isSafe_iff (disk : Disk) {plan : HostPlan Url} {state : Workspace}
    {settings : Settings} {file : HostsFile} {changed : Workspace → Prop} {kept : Prop}
    (hload : Settings.load state.settings = .ok settings)
    (hkept : plan.settingsChanged = false → plan.settings = settings)
    (hwrite : writeHostsYml lib.toUrlLibrary disk.hosts state.files.hosts plan.hosts =
      (.ok (), file))
    (hchanged : ∀ after : Workspace, after.files.hosts = file →
      Settings.load after.settings = .ok plan.settings →
      after.files.keystore = state.files.keystore → (changed after ↔ kept)) :
    IsSafe changed state (carryOut lib disk plan state) ↔
      FollowsSafely disk plan state file kept := by
  unfold FollowsSafely
  let cleared :=
    if plan.clearsDeferral then clearCollectionDeferral disk.configFails state.config
    else (.ok (), state.config)
  have hfails : (plan.clearsDeferral &&
      !(clearCollectionDeferral disk.configFails state.config).1.isOk) = !cleared.1.isOk := by
    simp only [cleared]
    cases plan.clearsDeferral <;> rfl
  simp only [hfails]
  cases hcleared : cleared.1 with
  | error error =>
    have hrun : carryOut lib disk plan state = (.error .config, { state with
        files := { state.files with hosts := file }, config := cleared.2 }) := by
      simp only [cleared] at hcleared
      simp only [carryOut, hwrite, hcleared]
      rfl
    rw [hrun]
    exact ⟨fun h => h.hosts, fun h => ⟨h, rfl, rfl⟩⟩
  | ok _ =>
    have hrun : carryOut lib disk plan state =
        if plan.settingsChanged then
          ((plan.settings.save disk.settings).1, { state with
            files := { state.files with hosts := file }, config := cleared.2,
            settings := (plan.settings.save disk.settings).2 })
        else (.ok (), { state with
            files := { state.files with hosts := file }, config := cleared.2 }) := by
      simp only [cleared] at hcleared
      simp only [carryOut, hwrite, hcleared]
      rfl
    rw [hrun]
    cases hneeds : plan.settingsChanged with
    | false =>
      refine hchanged _ rfl ?_ rfl
      rw [hkept hneeds]
      exact hload
    | true =>
      cases hsettings : disk.settings with
      | completes => exact hchanged _ rfl rfl rfl
      | fails left => exact ⟨fun h => ⟨h.hosts, h.settings⟩, fun h => ⟨h.1, h.2, rfl⟩⟩

theorem carryOut_accepted_isSafe_iff (hlib : lib.toUrlLibrary.Lawful) (disk : Disk)
    {scope : HostScope} {change : HostChange Url} (hfits : FitsScope scope change)
    (hcanonical : ∀ e ∈ change.added, IsCanonical lib.toUrlLibrary e.2)
    {hosts written : KeyedMap String (KnownHost Url)} {settings : Settings} {state : Workspace}
    (hparse : parseHostsYml lib.toUrlLibrary state.files.hosts = .ok hosts)
    (hload : Settings.load state.settings = .ok settings)
    (hwritten : normalizeHosts lib.toUrlLibrary state.files.hosts
      (planHosts change hosts settings).hosts = .ok written) :
    IsSafe (HostsChanged lib scope hosts settings state) state
        (carryOut lib disk (planHosts change hosts settings) state) ↔
      WritesSafely lib disk scope.own change hosts written settings
        (planHosts change hosts settings) state := by
  have hkept := planHosts_settings change hosts settings
  unfold WritesSafely
  cases hdisk : disk.hosts with
  | createFails =>
    have hrun : carryOut lib disk (planHosts change hosts settings) state =
        (.error (.hosts .io), state) := by
      simp only [carryOut, writeHostsYml, hwritten, hdisk]
    rw [hrun]
    exact iff_of_true (isSafe_unchanged state _) trivial
  | interrupted left =>
    have hrun : carryOut lib disk (planHosts change hosts settings) state =
        (.error (.hosts .io), { state with files := { state.files with hosts := left } }) := by
      simp only [carryOut, writeHostsYml, hwritten, hdisk]
    rw [hrun]
    exact ⟨fun h => h.hosts, fun h => ⟨h, rfl, rfl⟩⟩
  | completes =>
    refine carryOut_written_isSafe_iff disk hload hkept ?_ fun after hfile hsettings hkeystore =>
      hostsChanged_iff hlib hfits hcanonical after hparse hwritten hfile hsettings hkeystore
    simp only [writeHostsYml, hwritten, hdisk]
  | unflushed left =>
    refine carryOut_written_isSafe_iff disk hload hkept ?_ fun after hfile hsettings hkeystore => ?_
    · simp only [writeHostsYml, hwritten, hdisk]
    · rw [← hfile]
      exact hostsChanged_iff_leavesOthers hfits after hsettings hkeystore

/-- Carrying out a plan is safe exactly where the change is harmless. -/
theorem carryOut_isSafe_iff (hlib : lib.toUrlLibrary.Lawful) (disk : Disk) {scope : HostScope}
    {change : HostChange Url} (hfits : FitsScope scope change)
    (hcanonical : ∀ e ∈ change.added, IsCanonical lib.toUrlLibrary e.2)
    {hosts : KeyedMap String (KnownHost Url)} {settings : Settings} {state : Workspace}
    (hparse : parseHostsYml lib.toUrlLibrary state.files.hosts = .ok hosts)
    (hload : Settings.load state.settings = .ok settings) :
    IsSafe (HostsChanged lib scope hosts settings state) state
        (carryOut lib disk (planHosts change hosts settings) state) ↔
      HostsHarmless lib disk scope.own change hosts settings state := by
  cases hwritten : normalizeHosts lib.toUrlLibrary state.files.hosts
      (planHosts change hosts settings).hosts with
  | error error =>
    have hrun : carryOut lib disk (planHosts change hosts settings) state =
        (.error (.hosts error), state) := by
      simp only [carryOut, writeHostsYml, hwritten]
    rw [hrun]
    refine iff_of_true (isSafe_unchanged state _) fun written hok => ?_
    cases hwritten.symm.trans hok
  | ok written =>
    have hharmless : HostsHarmless lib disk scope.own change hosts settings state ↔
        WritesSafely lib disk scope.own change hosts written settings
          (planHosts change hosts settings) state := by
      constructor
      · intro h
        exact h written hwritten
      · intro h other hother
        obtain rfl := Except.ok.inj (hwritten.symm.trans hother)
        exact h
    rw [hharmless]
    exact carryOut_accepted_isSafe_iff hlib disk hfits hcanonical hparse hload hwritten

/-- A form of hosts is saved safely exactly where the change it asks for is harmless. -/
theorem upsertHosts_isSafe_iff (hlib : lib.toUrlLibrary.Lawful) (disk : Disk)
    (scope : KeyedMap String (KnownHost Url) → HostScope) (state : Workspace)
    {checked : Except UpsertError (HostChange Url)}
    (hchecked : ∀ change, checked = .ok change → (∀ hosts, FitsScope (scope hosts) change) ∧
      ∀ e ∈ change.added, IsCanonical lib.toUrlLibrary e.2) :
    IsSafe (fun after => ∃ hosts settings,
          parseHostsYml lib.toUrlLibrary state.files.hosts = .ok hosts ∧
          Settings.load state.settings = .ok settings ∧
          HostsChanged lib (scope hosts) hosts settings state after) state
        (upsertHosts lib disk checked state) ↔
      ∀ change hosts settings, checked = .ok change →
        parseHostsYml lib.toUrlLibrary state.files.hosts = .ok hosts →
        Settings.load state.settings = .ok settings →
        HostsHarmless lib disk (scope hosts).own change hosts settings state := by
  unfold upsertHosts
  cases checked with
  | error error =>
    exact iff_of_true (isSafe_unchanged state _) fun _ _ _ h => by cases h
  | ok change =>
    cases hparse : parseHostsYml lib.toUrlLibrary state.files.hosts with
    | error error =>
      exact iff_of_true (isSafe_unchanged state _) fun _ _ _ _ h => by cases h
    | ok hosts =>
      cases hload : Settings.load state.settings with
      | error error =>
        exact iff_of_true (isSafe_unchanged state _) fun _ _ _ _ _ h => by cases h
      | ok settings =>
        obtain ⟨hfits, hcanonical⟩ := hchecked change rfl
        have hsafe := carryOut_isSafe_iff hlib disk (hfits hosts) hcanonical hparse hload
        have hfixed : ∀ result, IsSafe (fun after => ∃ hosts' settings', Except.ok hosts =
              (.ok hosts' : Except HostsError _) ∧ Except.ok settings =
              (.ok settings' : Except UpsertError _) ∧
              HostsChanged lib (scope hosts') hosts' settings' state after) state result ↔
            IsSafe (HostsChanged lib (scope hosts) hosts settings state) state result := by
          intro result
          unfold IsSafe
          cases result.1 with
          | error error => exact Iff.rfl
          | ok _ => simp
        refine (hfixed _).trans (hsafe.trans ?_)
        simp

theorem renamedFrom_ne {originalName : Option String} {name original : String}
    (h : renamedFrom originalName name = some original) : original ≠ name := by
  have hkept := (Option.filter_eq_some_iff.mp h).2
  simp only [ne_eq, decide_eq_true_eq] at hkept
  exact hkept.2

theorem kibanaName_ne (name : String) : name ≠ kibanaName name := by
  intro h
  have hlength := congrArg String.length h
  rw [kibanaName, String.length_append] at hlength
  exact absurd hlength (by simp)

theorem fitsScope_host (form : HostUpsertForm) (host : KnownHost Url) :
    FitsScope (hostScope form) (hostChange form (Texts.trim form.name) host) where
  renamed := rfl
  added := rfl
  distinct := List.nodup_singleton _
  new := by
    intro e he
    simp only [hostChange, hostRenames] at he ⊢
    cases hfrom : renamedFrom form.originalName (Texts.trim form.name) with
    | none => simp [hfrom] at he
    | some original =>
      simp only [hfrom, Option.elim_some, List.mem_singleton] at he
      simp [he]

theorem fitsScope_cluster (form : ClusterUpsertForm) (elasticsearchHost kibanaHost : KnownHost Url)
    (hosts : KeyedMap String (KnownHost Url)) :
    FitsScope (clusterScope form hosts)
      (clusterChange form (Texts.trim form.name) elasticsearchHost kibanaHost) where
  renamed := rfl
  added := rfl
  distinct := by
    simp only [clusterChange, List.map_cons, List.map_nil, List.nodup_cons, List.mem_singleton,
      List.nodup_nil, List.not_mem_nil, not_false_eq_true, and_true]
    exact kibanaName_ne _
  new := by
    intro e he
    simp only [clusterChange, clusterRenames] at he ⊢
    cases hfrom : renamedFrom form.originalName (Texts.trim form.name) with
    | none => simp [hfrom] at he
    | some original =>
      simp only [hfrom, Option.elim_some, List.mem_cons, List.not_mem_nil, or_false] at he
      rcases he with rfl | rfl <;> simp

theorem applyUpsertHost_isSafe_iff (hlib : lib.toUrlLibrary.Lawful) (env : Environment)
    (disk : Disk) (session : KeystoreSession) (form : HostUpsertForm) (state : Workspace) :
    IsSafe (ChangesNamed lib libs session (.host form) state) state
        (applyUpsertHost lib libs disk session form state) ↔
      Harmless lib libs env disk session (.host form) state := by
  apply upsertHosts_isSafe_iff hlib disk (fun _ => hostScope form) state
  intro change hchange
  unfold checkedHost at hchange
  cases hform : checkHostForm lib libs session state.files.keystore form with
  | error error => simp [hform, Except.map] at hchange
  | ok checked =>
    obtain ⟨hname, parts, hparts⟩ := checkHostForm_eq_ok hform
    rw [hform] at hchange
    obtain rfl := Except.ok.inj hchange
    refine ⟨fun _ => ?_, ?_⟩
    · show FitsScope (hostScope form) (hostChange form checked.1 checked.2)
      rw [hname]
      exact fitsScope_host form _
    · intro e he
      obtain rfl := List.mem_singleton.mp he
      exact isCanonical_of_fromParts hlib hparts

theorem applyUpsertCluster_isSafe_iff (hlib : lib.toUrlLibrary.Lawful) (env : Environment)
    (disk : Disk) (session : KeystoreSession) (form : ClusterUpsertForm) (state : Workspace) :
    IsSafe (ChangesNamed lib libs session (.cluster form) state) state
        (applyUpsertCluster lib libs disk session form state) ↔
      Harmless lib libs env disk session (.cluster form) state := by
  apply upsertHosts_isSafe_iff hlib disk (clusterScope form) state
  intro change hchange
  unfold checkedCluster at hchange
  cases hform : checkClusterForm lib libs session state.files.keystore form with
  | error error => simp [hform, Except.map] at hchange
  | ok checked =>
    obtain ⟨hname, ⟨parts, hparts⟩, parts', hparts'⟩ := checkClusterForm_eq_ok hform
    rw [hform] at hchange
    obtain rfl := Except.ok.inj hchange
    refine ⟨fun hosts => ?_, ?_⟩
    · show FitsScope (clusterScope form hosts)
        (clusterChange form checked.1 checked.2.1 checked.2.2)
      rw [hname]
      exact fitsScope_cluster form _ _ hosts
    · intro e he
      rcases List.mem_cons.mp he with rfl | he
      · exact isCanonical_of_fromParts hlib hparts
      · obtain rfl := List.mem_singleton.mp he
        exact isCanonical_of_fromParts hlib hparts'

end Hosts

section Secrets

variable {Url Key : Type} {lib : QueryLibrary Url} {libs : Libraries Key} {env : Environment}

/-- Adding a credential changes nothing exactly where the entry has it. -/
theorem upsertAuth_eq_self_iff (entry : SecretEntry) (auth : SecretAuth) :
    entry.upsertAuth auth = entry ↔ entry.containsAuth auth = true := by
  obtain ⟨apikey, basic⟩ := entry
  cases auth with
  | apiKey key =>
    simp only [SecretEntry.upsertAuth, SecretEntry.containsAuth, beq_iff_eq, SecretEntry.mk.injEq,
      and_true]
    exact eq_comm
  | basic username password =>
    simp only [SecretEntry.upsertAuth, SecretEntry.containsAuth, beq_iff_eq, SecretEntry.mk.injEq,
      true_and]
    exact eq_comm

/-- A secret that is stored is written to the keystore as it was read. -/
theorem upsertSecretAuth_of_read {file : SealedFile} {password : String} {store : KeystoreData}
    (hread : readStore libs file password = .ok store) (secretId : String) (auth : SecretAuth)
    (attempt : WriteAttempt) :
    upsertSecretAuth libs file secretId auth password attempt =
      match writeStore libs attempt password (upsertEntryAuth secretId auth store) with
      | .error error => (.error error, file)
      | .ok written => (.ok (), written) := by
  simp only [upsertSecretAuth, modifyStore, hread]
  rfl

theorem upsertSecretAuth_of_unread {file : SealedFile} {password : String} {error : KeystoreError}
    (hread : readStore libs file password = .error error) (secretId : String) (auth : SecretAuth)
    (attempt : WriteAttempt) :
    upsertSecretAuth libs file secretId auth password attempt = (.error error, file) := by
  simp only [upsertSecretAuth, modifyStore, hread]

/-- A removal that succeeds has written the keystore without the secret. -/
theorem removeSecret_whole_eq_ok {file : SealedFile} {unreferenced : Except KeystoreError Unit}
    {secretId password : String} {attempt : WriteAttempt}
    (h : (removeSecret libs file unreferenced secretId none password attempt).1 = .ok ()) :
    ∃ store, readStore libs file password = .ok store ∧ (store.secrets.find? secretId).isSome ∧
      writeStore libs attempt password { store with secrets := store.secrets.remove secretId } =
        .ok (removeSecret libs file unreferenced secretId none password attempt).2 := by
  unfold removeSecret at h ⊢
  rcases modifyStore_cases libs file password attempt
      (removeChange unreferenced secretId none) with
    ⟨error, hrun⟩ | ⟨store, -, hchange, -⟩ | ⟨store, changed, written, hread, hchange, hwrite, hrun⟩
  · rw [hrun] at h
    cases h
  · obtain ⟨-, -, changed, hnone⟩ := removeChange_eq_ok hchange
    cases hnone
  · refine ⟨store, hread, (removeChange_eq_ok hchange).2.1, ?_⟩
    rw [hrun]
    unfold removeChange at hchange
    cases hfind : store.secrets.find? secretId with
    | none => simp [hfind] at hchange
    | some entry =>
      cases unreferenced with
      | error error => simp [hfind] at hchange
      | ok _ =>
        simp only [hfind, Except.ok.injEq, Option.some.injEq] at hchange
        rw [hchange]
        exact hwrite

/-- What a stored secret owes to the keystore that the form was applied to. -/
theorem secretChanged_stored (hlib : libs.sealing.Lawful) (form : SecretUpsertForm)
    {secretId password : String} {auth : SecretAuth} {attempt : WriteAttempt}
    (hid : secretId = Texts.trim form.secretId) {store : KeystoreData} (base : KeystoreData)
    {written : SealedFile} (before after : Workspace)
    (hread : readStore libs before.files.keystore password = .ok store)
    (hbase : ∀ name, base.secrets.find? name =
      if renamedFrom form.originalSecretId secretId = some name then none
      else store.secrets.find? name)
    (hwrite : writeStore libs attempt password (upsertEntryAuth secretId auth base) = .ok written)
    (hafter : after = { before with files := { before.files with
      keystore := written, jobs := after.files.jobs } }) :
    SecretChanged libs (secretNames form) [editedSecret form] password before after ↔
      ∀ entry, renamedFrom form.originalSecretId secretId ≠ none →
        store.secrets.find? secretId = some entry → entry.containsAuth auth = true := by
  have hstored : readStore libs after.files.keystore password =
      .ok (upsertEntryAuth secretId auth base) := by
    rw [hafter]
    exact readStore_writeStore hlib hwrite
  have hkept : ∀ name, name ∉ secretNames form →
      (upsertEntryAuth secretId auth base).secrets.find? name = store.secrets.find? name := by
    intro name hname
    simp only [secretNames, List.mem_append, Option.mem_toList, List.mem_singleton, not_or,
      ← hid] at hname
    rw [find?_upsertEntryAuth, if_neg hname.2, hbase, if_neg hname.1]
  constructor
  · intro h entry hrenamed hentry
    obtain ⟨original, horiginal⟩ := Option.ne_none_iff_exists'.mp hrenamed
    obtain ⟨store', changed, hstore', hchanged, -, hothers⟩ := h.stored
    obtain rfl := Except.ok.inj (hread.symm.trans hstore')
    obtain rfl := Except.ok.inj (hstored.symm.trans hchanged)
    have hown : secretId ∉ [editedSecret form] := by
      rw [editedSecret, ← hid, horiginal, Option.getD_some, List.mem_singleton]
      exact (renamedFrom_ne horiginal).symm
    obtain ⟨entry', hfind, hsame⟩ := hothers secretId entry hentry hown
    have hother : ¬ some original = some secretId := fun heq =>
      renamedFrom_ne horiginal (Option.some.inj heq)
    rw [find?_upsertEntryAuth, if_pos rfl, hbase, horiginal, if_neg hother, hentry,
      Option.getD_some, hsame] at hfind
    exact (upsertAuth_eq_self_iff entry auth).mp (Option.some.inj hfind)
  · intro h
    refine ⟨⟨store, _, hread, hstored, hkept, ?_⟩, by rw [hafter], by rw [hafter]⟩
    intro name entry hentry hown
    by_cases hname : name ∈ secretNames form
    · -- Of the names of the form only the new one is not the edited one.
      cases hfrom : renamedFrom form.originalSecretId secretId with
      | none =>
        simp only [secretNames, editedSecret, ← hid, hfrom, Option.toList_none, List.nil_append,
          Option.getD_none] at hname hown
        exact absurd hname hown
      | some original =>
        simp only [secretNames, editedSecret, ← hid, hfrom, Option.toList_some, List.mem_append,
          List.mem_singleton, Option.getD_some] at hname hown
        obtain rfl := hname.resolve_left hown
        have hother : ¬ some original = some name := fun heq => hown (Option.some.inj heq).symm
        have hsame := h entry (by rw [hfrom]; exact Option.some_ne_none _) hentry
        refine ⟨entry, ?_, rfl⟩
        rw [find?_upsertEntryAuth, if_pos rfl, hbase, hfrom, if_neg hother, hentry,
          Option.getD_some, (upsertAuth_eq_self_iff entry auth).mpr hsame]
    · exact ⟨entry, by rw [hkept name hname, hentry], rfl⟩

/-- Storing a secret that is not renamed is safe, and leaves the keystore when it fails. -/
theorem storeSecret_isSafe (hlib : libs.sealing.Lawful) {session : KeystoreSession}
    {form : SecretUpsertForm} {secretId password : String} (disk : Disk) (auth : SecretAuth)
    (state : Workspace) (hid : secretId = Texts.trim form.secretId)
    (hpassword : session.password = some password)
    (hfrom : renamedFrom form.originalSecretId secretId = none) :
    IsSafe (ChangesNamed lib libs session (.secret form) state) state
      (storeSecret libs disk secretId auth password state) := by
  unfold storeSecret
  cases hread : readStore libs state.files.keystore password with
  | error error =>
    rw [upsertSecretAuth_of_unread hread]
    exact ⟨rfl, rfl, rfl⟩
  | ok store =>
    rw [upsertSecretAuth_of_read hread]
    cases hwrite : writeStore libs disk.upsert password (upsertEntryAuth secretId auth store) with
    | error error => exact ⟨rfl, rfl, rfl⟩
    | ok written =>
      refine ⟨password, hpassword, ?_⟩
      apply (secretChanged_stored hlib form hid store _ _ hread ?_ hwrite rfl).mpr
      · intro entry hrenamed
        exact absurd hfrom hrenamed
      · intro name
        rw [hfrom, if_neg (Option.some_ne_none name).symm]

/-- Where a form renames a secret, its conditions are about this form. -/
theorem secretHarmless_iff (lib : QueryLibrary Url) (libs : Libraries Key) (env : Environment)
    (disk : Disk) {session : KeystoreSession} {form : SecretUpsertForm} (state : Workspace)
    {secretId password original : String} {auth : SecretAuth}
    (hform : checkSecretForm session form = .ok (secretId, auth, password))
    (hfrom : renamedFrom form.originalSecretId secretId = some original) :
    SecretHarmless lib libs env disk session form state ↔
      ∀ store, readStore libs state.files.keystore password = .ok store →
        (removeSecretChecked lib.toUrlLibrary libs env original none password disk.removal
          state.files).1 = .ok () →
        (writeStore libs disk.upsert password (upsertEntryAuth secretId auth
          { store with secrets := store.secrets.remove original })).isOk ∧
        ∀ entry, store.secrets.find? secretId = some entry → entry.containsAuth auth = true := by
  constructor
  · intro h store
    exact h secretId auth password original store hform hfrom
  · intro h secretId' auth' password' original' store hform' hfrom'
    obtain ⟨rfl, hrest⟩ := Prod.mk.inj (Except.ok.inj (hform.symm.trans hform'))
    obtain ⟨rfl, rfl⟩ := Prod.mk.inj hrest
    obtain rfl := Option.some.inj (hfrom.symm.trans hfrom')
    exact h store

/-- A removal that stands leaves another keystore. -/
theorem keystore_changed_of_removed {before after : SealedFile} {store : KeystoreData}
    {original password : String} (hread : readStore libs before password = .ok store)
    (hfound : (store.secrets.find? original).isSome)
    (hremoved : readStore libs after password =
      .ok { store with secrets := store.secrets.remove original }) : after ≠ before := by
  rintro rfl
  have hsame := congrArg (fun read : KeystoreData => read.secrets.find? original)
    (Except.ok.inj (hread.symm.trans hremoved))
  simp only [KeyedMap.find?_remove, if_true] at hsame
  rw [hsame] at hfound
  cases hfound

/-- A secret is renamed safely exactly where nothing fails after the removal and no other
secret is replaced. -/
theorem applyUpsertSecret_isSafe_iff (hlib : libs.sealing.Lawful) (disk : Disk)
    (session : KeystoreSession) (form : SecretUpsertForm) (state : Workspace) :
    IsSafe (ChangesNamed lib libs session (.secret form) state) state
        (applyUpsertSecret lib libs env disk session form state) ↔
      SecretHarmless lib libs env disk session form state := by
  unfold applyUpsertSecret
  cases hform : checkSecretForm session form with
  | error error =>
    refine iff_of_true (isSafe_unchanged state _) fun _ _ _ _ _ hok => ?_
    cases hform.symm.trans hok
  | ok checked =>
    obtain ⟨secretId, auth, password⟩ := checked
    obtain ⟨hid, hpassword⟩ := checkSecretForm_eq_ok hform
    simp only at hid hpassword ⊢
    cases hfrom : renamedFrom form.originalSecretId secretId with
    | none =>
      refine iff_of_true (storeSecret_isSafe hlib disk auth state hid hpassword hfrom) ?_
      intro secretId' auth' password' original store hok hsome
      obtain ⟨rfl, -⟩ := Prod.mk.inj (Except.ok.inj (hform.symm.trans hok))
      cases hfrom.symm.trans hsome
    | some original =>
      rcases hrun : removeSecretChecked lib.toUrlLibrary libs env original none password
        disk.removal state.files with ⟨result, files⟩
      have hresult : (removeSecret libs state.files.keystore (ensureSecretIsUnreferenced
          lib.toUrlLibrary env original state.files.hosts state.files.jobs).1 original none password
          disk.removal).1 = result := congrArg Prod.fst hrun
      have hkeystore : (removeSecret libs state.files.keystore (ensureSecretIsUnreferenced
          lib.toUrlLibrary env original state.files.hosts state.files.jobs).1 original none password
          disk.removal).2 = files.keystore := congrArg (fun run => run.2.keystore) hrun
      have hhosts : state.files.hosts = files.hosts := congrArg (fun run => run.2.hosts) hrun
      have hharmless := secretHarmless_iff lib libs env disk state hform hfrom
      rw [hrun] at hharmless
      rw [hharmless]
      cases result with
      | error error =>
        simp only [hrun]
        refine iff_of_true ⟨hhosts.symm, rfl, ?_⟩ fun store _ hok => by cases hok
        show files.keystore = state.files.keystore
        rw [← hkeystore]
        exact removeSecret_of_error hresult
      | ok _ =>
        obtain ⟨store, hread, hfound, hwritten⟩ := removeSecret_whole_eq_ok hresult
        rw [hkeystore] at hwritten
        have hbase := readStore_writeStore hlib hwritten
        simp only [hrun, storeSecret]
        rw [upsertSecretAuth_of_read hbase]
        cases hwrite : writeStore libs disk.upsert password (upsertEntryAuth secretId auth
            { store with secrets := store.secrets.remove original }) with
        | error error =>
          refine iff_of_false (fun h => keystore_changed_of_removed hread hfound hbase h.keystore) ?_
          intro h
          have hok := (h store hread trivial).1
          rw [hwrite] at hok
          cases hok
        | ok written =>
          have hchanged := secretChanged_stored hlib form hid
            { store with secrets := store.secrets.remove original } state
            { state with files := { files with keystore := written } } hread ?_ hwrite ?_
          · constructor
            · intro h store' hread' _
              obtain rfl := Except.ok.inj (hread.symm.trans hread')
              obtain ⟨password', hpassword', hmade⟩ := h
              obtain rfl := Option.some.inj (hpassword.symm.trans hpassword')
              rw [hwrite]
              refine ⟨rfl, fun entry => hchanged.mp hmade entry ?_⟩
              rw [hfrom]
              exact Option.some_ne_none original
            · intro h
              exact ⟨password, hpassword, hchanged.mpr fun entry _ =>
                (h store hread trivial).2 entry⟩
          · intro name
            simp only [KeyedMap.find?_remove, hfrom, Option.some.injEq, eq_comm]
          · simp only [hhosts]

/-- A form is saved safely exactly where it is harmless. -/
theorem renames_safe_iff (hlib : lib.toUrlLibrary.Lawful) (hsealing : libs.sealing.Lawful)
    (disk : Disk) (session : KeystoreSession) (form : UpsertForm) (state : Workspace) :
    IsSafe (ChangesNamed lib libs session form state) state
        (applyUpsert lib libs env disk session form state) ↔
      Harmless lib libs env disk session form state := by
  cases form with
  | host form => exact applyUpsertHost_isSafe_iff hlib env disk session form state
  | cluster form => exact applyUpsertCluster_isSafe_iff hlib env disk session form state
  | secret form => exact applyUpsertSecret_isSafe_iff hsealing disk session form state

end Secrets

section Sample

def sampleQueries : QueryLibrary SampleUrl :=
  { sampleUrls with hasQuery := fun _ => false, extendPairs := fun rendered _ => rendered }

/-- Two hosts, of which the first is the target. -/
def sampleWorkspace : Workspace where
  files := { sampleReferences with
    hosts := .document (.mapping [
      ("prod", .mapping [("url", .string "https://es.example/")]),
      ("backup", .mapping [("url", .string "https://backup.example/")])]) }
  settings := .document ⟨some "prod", none⟩
  config := .absent

def sampleDisk : Disk where
  hosts := .completes
  configFails := false
  settings := .completes
  removal := sampleAttempt
  upsert := sampleAttempt

def sampleSession : KeystoreSession := ⟨false, none⟩

def renameForm (name : String) : HostUpsertForm where
  originalName := some "prod"
  name := name
  auth := "none"
  app := "elasticsearch"
  url := "https://es.example/"
  urlTemplate := none
  roles := "collect"
  viewer := none
  secret := none
  acceptInvalidCerts := none

/-- Where nothing fails, it is left that no other host stands in the way. -/
theorem writesSafely_sample {own : List String} {change : HostChange SampleUrl}
    {hosts written : KeyedMap String (KnownHost SampleUrl)} {settings : Settings}
    {plan : HostPlan SampleUrl}
    (h : Apart SameHost own (change.renamed.map Prod.fst) change.added hosts) :
    WritesSafely sampleQueries sampleDisk own change hosts written settings plan
      sampleWorkspace := by
  show if plan.clearsDeferral && false then _ else _
  rw [Bool.and_false, if_neg Bool.false_ne_true]
  cases plan.settingsChanged <;> exact h

set_option maxRecDepth 20000 in
/-- A host that takes a free name takes nothing else. -/
theorem renames_safe_freeName :
    IsSafe (ChangesNamed sampleQueries sampleLibraries sampleSession (.host (renameForm "main"))
        sampleWorkspace) sampleWorkspace
      (applyUpsert sampleQueries sampleLibraries LegacyMigration.bareEnvironment sampleDisk
        sampleSession (.host (renameForm "main")) sampleWorkspace) := by
  apply (@renames_safe_iff _ _ sampleQueries _ _ sampleUrls_lawful sampleSealing_lawful sampleDisk
    sampleSession (.host (renameForm "main")) sampleWorkspace).mpr
  intro change hosts settings hchange hparse hload written hwritten
  apply writesSafely_sample
  have hremoved := congrArg (fun checked => checked.toOption.map
    fun change : HostChange SampleUrl => change.renamed.map Prod.fst) hchange
  have hadded := congrArg (fun checked => checked.toOption.map
    fun change : HostChange SampleUrl => change.added.map Prod.fst) hchange
  have hfree := congrArg (fun read => read.toOption.map fun hosts : KeyedMap String _ =>
    hosts.entries.map Prod.fst) hparse
  obtain hremoved : ["prod"] = change.renamed.map Prod.fst := Option.some.inj hremoved
  obtain hadded : ["main"] = change.added.map Prod.fst := Option.some.inj hadded
  obtain hfree : ["prod", "backup"] = hosts.entries.map Prod.fst := Option.some.inj hfree
  intro name host hhost hown htouched
  have hname := KeyedMap.mem_keys_of_find? hhost
  rw [← hfree] at hname
  rw [← hremoved, ← hadded] at htouched
  have hown' : name ∉ ["prod"] := hown
  simp only [List.mem_cons, List.not_mem_nil, or_false] at hname htouched hown'
  rcases htouched with hprod | rfl
  · exact absurd hprod hown'
  · exact absurd hname (by decide)

set_option maxRecDepth 20000 in
/-- A rename to the name of another host succeeds, and that host is lost. -/
theorem rename_overwrites :
    ¬ IsSafe (ChangesNamed sampleQueries sampleLibraries sampleSession
        (.host (renameForm "backup")) sampleWorkspace) sampleWorkspace
      (applyUpsert sampleQueries sampleLibraries LegacyMigration.bareEnvironment sampleDisk
        sampleSession (.host (renameForm "backup")) sampleWorkspace) := by
  intro hsafe
  have hchanged : ChangesNamed sampleQueries sampleLibraries sampleSession
      (.host (renameForm "backup")) sampleWorkspace
      (applyUpsert sampleQueries sampleLibraries LegacyMigration.bareEnvironment sampleDisk
        sampleSession (.host (renameForm "backup")) sampleWorkspace).2 := hsafe
  obtain ⟨hosts, settings, hparse, -, hmoved⟩ := hchanged
  obtain ⟨hosts', hparse', -, hothers, -⟩ := hmoved.parsed
  let urlOf := fun hosts : KeyedMap String (KnownHost SampleUrl) =>
    (hosts.find? "backup").bind KnownHost.url
  have hbefore := congrArg (fun read => read.toOption.bind urlOf) hparse
  have hafter := congrArg (fun read => read.toOption.bind urlOf) hparse'
  obtain hbefore : some (SampleUrl.mk "backup.example" "" (by decide)) = urlOf hosts := hbefore
  obtain hafter : some (SampleUrl.mk "es.example" "" (by decide)) = urlOf hosts' := hafter
  obtain ⟨host, hhost, hurl⟩ := Option.bind_eq_some_iff.mp hbefore.symm
  have hown : "backup" ∉ (hostScope (renameForm "backup")).own := by
    show "backup" ∉ ["prod"]
    decide
  obtain ⟨host', hhost', rfl⟩ := hothers "backup" host hhost hown
  have hsame : urlOf hosts' = host.url := by
    simp only [urlOf, hhost', Option.bind_some]
    rfl
  rw [← hafter, hurl] at hsame
  exact absurd hsame (by decide)

end Sample

end Esdiag.RenameSafety
