import Esdiag.KeystoreInvariants
import Esdiag.KeystoreMigration
import Esdiag.LegacyMigration

/-!
References to secrets. A host of the hosts file may name a secret of the
keystore, and a saved job names hosts: the one it collects from, the one it
exports to, and through these their viewers. A host is named as it is saved, or
as a template with the parts to fill in, and a reference to an Elastic CLI context
never reaches the keystore. A secret is removed after a check of all hosts and jobs.
-/
namespace Esdiag.SecretReferences

open KeyedMaps Deployments Keystores KeystoreOperations KeystoreInvariants KnownHosts HostFiles
  JobModel SavedJobFiles KeystoreMigration HostRoundTrip

section References

variable {Url : Type} (parseUrl : String → Option UrlParts)

/-- The saved host that a name selects. A template is named with its parts, and any other
host by its name; references to a context come before both. -/
def referencedHost (hosts : KeyedMap String (KnownHost Url)) (value : String) :
    Option (KnownHost Url) :=
  let name := Texts.trim value
  if isContextReference name then none
  else
    match parseTemplateReference parseUrl name with
    | .error _ => none
    | .ok (some reference) =>
      (hosts.find? reference.templateName).filter fun host => host.urlTemplate.isSome
    | .ok none => (hosts.find? name).filter fun host => host.urlTemplate.isNone

/-- The hosts whose credentials a name may need: the selected host and its viewers. -/
inductive Reaches (hosts : KeyedMap String (KnownHost Url)) (value : String) :
    KnownHost Url → Prop
  | selected {host : KnownHost Url} (h : referencedHost parseUrl hosts value = some host) :
    Reaches hosts value host
  | viewer {host viewer : KnownHost Url} {name : String} (h : Reaches hosts value host)
    (hname : host.viewer = some name) (hviewer : hosts.find? name = some viewer) :
    Reaches hosts value viewer

/-- The hosts that a job names, as it names them. -/
def referencedHosts (job : Job) : List String :=
  (match job.input with
    | .collect host .. => [host]
    | _ => []) ++
  match job.process with
  | some ⟨_, .knownHost name⟩ => [name]
  | _ => []

variable {parseUrl}

theorem referencedHost_saved {hosts : KeyedMap String (KnownHost Url)} {value : String}
    {host : KnownHost Url} (h : referencedHost parseUrl hosts value = some host) :
    ∃ name, hosts.find? name = some host := by
  unfold referencedHost at h
  simp only at h
  split at h
  · cases h
  · split at h
    · cases h
    · exact ⟨_, (Option.filter_eq_some_iff.mp h).1⟩
    · exact ⟨_, (Option.filter_eq_some_iff.mp h).1⟩

/-- However a host is reached, it is a host of the file. -/
theorem Reaches.saved {hosts : KeyedMap String (KnownHost Url)} {value : String}
    {host : KnownHost Url} (h : Reaches parseUrl hosts value host) :
    ∃ name, hosts.find? name = some host := by
  induction h with
  | selected h => exact referencedHost_saved h
  | viewer _ _ hviewer _ => exact ⟨_, hviewer⟩

end References

structure ReferenceFiles where
  hosts : HostsFile
  keystore : SealedFile
  jobs : JobsFile

section Removal

variable {Url Key : Type} (lib : UrlLibrary Url) (libs : Libraries Key) (env : Environment)

def hostReferences (secretId : String) (hosts : KeyedMap String (KnownHost Url)) :
    List String :=
  (hosts.inOrder.filter fun e => e.2.credential.secretReference = some secretId).map Prod.fst

/-- The jobs with a host that refers to the secret, by the names as they stand in the job. -/
def jobReferences (secretId : String) (hosts : KeyedMap String (KnownHost Url))
    (jobs : SavedJobs) : List String :=
  (jobs.inOrder.filter fun e =>
    ((referencedHosts e.2).filterMap hosts.find?).any fun host =>
      host.credential.secretReference = some secretId).map Prod.fst

def hostsErrorMessage : HostsError → Option String
  | .unreadable | .io => none
  | .refused message => some message

/-- The check before a removal, and the file of jobs after it was loaded for the check. -/
def ensureSecretIsUnreferenced (secretId : String) (hostsFile : HostsFile)
    (jobsFile : JobsFile) : Except KeystoreError Unit × JobsFile :=
  match parseHostsYml lib hostsFile with
  | .error error => (.error (.references (hostsErrorMessage error)), jobsFile)
  | .ok hosts =>
    match loadSavedJobsFromPath env jobsFile with
    | (.error error, loaded) => (.error (.references error.message), loaded)
    | (.ok jobs, loaded) =>
      let hostRefs := hostReferences secretId hosts
      let jobRefs := jobReferences secretId hosts jobs
      if hostRefs.isEmpty && jobRefs.isEmpty then (.ok (), loaded)
      else (.error (.referenced secretId hostRefs jobRefs), loaded)

/-- A removal on all three files. The check is reached when the keystore holds the secret. -/
def removeSecretChecked (secretId : String) (expected : Option SecretAuth)
    (keystorePassword : String) (attempt : WriteAttempt) (files : ReferenceFiles) :
    Except KeystoreError Unit × ReferenceFiles :=
  let checked := ensureSecretIsUnreferenced lib env secretId files.hosts files.jobs
  let removal := removeSecret libs files.keystore checked.1 secretId expected keystorePassword
    attempt
  let isChecked := match readStore libs files.keystore keystorePassword with
    | .ok store => (store.secrets.find? secretId).isSome
    | .error _ => false
  (removal.1, { files with
    keystore := removal.2
    jobs := if isChecked then checked.2 else files.jobs })

variable {lib libs env}

theorem hostReferences_eq_nil_iff {secretId : String} {hosts : KeyedMap String (KnownHost Url)} :
    hostReferences secretId hosts = [] ↔
      ∀ name host, hosts.find? name = some host →
        host.credential.secretReference ≠ some secretId := by
  unfold hostReferences
  rw [List.map_eq_nil_iff, List.filter_eq_nil_iff]
  constructor
  · intro h name host hfind
    have hmem : (name, host) ∈ hosts.inOrder :=
      (List.mem_insertionSort _).mpr (KeyedMap.find?_eq_some_iff.mp hfind)
    simpa using h _ hmem
  · intro h e he
    have hfind := KeyedMap.find?_eq_some_iff.mpr ((List.mem_insertionSort _).mp he)
    simpa using h e.1 e.2 hfind

/-- What the check has established when it passes. -/
theorem ensureSecretIsUnreferenced_eq_ok {secretId : String} {hostsFile : HostsFile}
    {jobsFile : JobsFile}
    (h : (ensureSecretIsUnreferenced lib env secretId hostsFile jobsFile).1 = .ok ()) :
    ∃ hosts jobs, parseHostsYml lib hostsFile = .ok hosts ∧
      loadSavedJobsFromPath env jobsFile =
        (.ok jobs, (ensureSecretIsUnreferenced lib env secretId hostsFile jobsFile).2) ∧
      hostReferences secretId hosts = [] ∧ jobReferences secretId hosts jobs = [] := by
  unfold ensureSecretIsUnreferenced at h ⊢
  cases hhosts : parseHostsYml lib hostsFile with
  | error error => simp [hhosts] at h
  | ok hosts =>
    rcases hload : loadSavedJobsFromPath env jobsFile with ⟨result, loaded⟩
    cases result with
    | error error => simp [hhosts, hload] at h
    | ok jobs =>
      simp only [hhosts, hload] at h ⊢
      split at h
      · next hnone =>
        rw [Bool.and_eq_true, List.isEmpty_iff, List.isEmpty_iff] at hnone
        refine ⟨hosts, jobs, rfl, ?_, hnone⟩
        simp [hnone.1, hnone.2]
      · cases h

/-- A removal succeeds after the check has passed, and changes the one name. -/
theorem removeSecret_eq_ok {file : SealedFile} {unreferenced : Except KeystoreError Unit}
    {secretId : String} {expected : Option SecretAuth} {password : String}
    {attempt : WriteAttempt}
    (h : (removeSecret libs file unreferenced secretId expected password attempt).1 = .ok ()) :
    unreferenced = .ok () ∧ ∃ store changed, readStore libs file password = .ok store ∧
      (store.secrets.find? secretId).isSome ∧
      (∀ name, name ≠ secretId → changed.secrets.find? name = store.secrets.find? name) ∧
      writeStore libs attempt password changed =
        .ok (removeSecret libs file unreferenced secretId expected password attempt).2 := by
  unfold removeSecret at h ⊢
  rcases modifyStore_cases libs file password attempt
      (removeChange unreferenced secretId expected) with
    ⟨error, hrun⟩ | ⟨store, -, hchange, -⟩ | ⟨store, changed, written, hread, hchange, hwrite, hrun⟩
  · rw [hrun] at h
    cases h
  · obtain ⟨-, -, changed, hnone⟩ := removeChange_eq_ok hchange
    cases hnone
  · obtain ⟨hunreferenced, hfound, -⟩ := removeChange_eq_ok hchange
    rw [hrun]
    refine ⟨hunreferenced, store, changed, hread, hfound, fun name hname => ?_, hwrite⟩
    apply (removeChange_spec hchange).frame
    rwa [Operation.names, List.mem_singleton]

/-- A removal that fails leaves the keystore. -/
theorem removeSecret_of_error {file : SealedFile} {unreferenced : Except KeystoreError Unit}
    {secretId : String} {expected : Option SecretAuth} {password : String}
    {attempt : WriteAttempt} {error : KeystoreError}
    (h : (removeSecret libs file unreferenced secretId expected password attempt).1 =
      .error error) :
    (removeSecret libs file unreferenced secretId expected password attempt).2 = file := by
  unfold removeSecret at h ⊢
  rcases modifyStore_cases libs file password attempt
      (removeChange unreferenced secretId expected) with
    ⟨error, hrun⟩ | ⟨store, -, -, hrun⟩ | ⟨store, changed, written, -, -, -, hrun⟩
  · rw [hrun]
  · rw [hrun]
  · rw [hrun] at h
    cases h

/-- A credential that does not refer to the one changed name resolves as before. -/
theorem resolve_of_frame {before after : SealedFile} {password secretId : String}
    {store changed : KeystoreData} (hbefore : readStore libs before password = .ok store)
    (hafter : readStore libs after password = .ok changed)
    (hframe : ∀ name, name ≠ secretId →
      changed.secrets.find? name = store.secrets.find? name)
    {credential : Credential} (hother : credential.secretReference ≠ some secretId) :
    resolve libs after (some password) credential =
      resolve libs before (some password) credential := by
  have hsecret : ∀ secret, secret ≠ secretId →
      resolveKeystoreSecret libs after (some password) secret =
        resolveKeystoreSecret libs before (some password) secret := by
    intro secret hne
    simp only [resolveKeystoreSecret, resolveSecretAuth, hbefore, hafter, Except.map,
      hframe secret hne]
  cases credential with
  | none => rfl
  | runtime auth => rfl
  | keystore secret =>
    exact hsecret secret fun heq => hother (congrArg some heq)
  | legacy auth secret =>
    cases secret with
    | none => rfl
    | some secret => exact hsecret secret fun heq => hother (congrArg some heq)

/-- Without a password no credential of the keystore resolves, whatever the keystore. -/
theorem resolve_without_password (before after : SealedFile) (credential : Credential) :
    resolve libs after none credential = resolve libs before none credential := by
  cases credential with
  | none => rfl
  | runtime auth => rfl
  | keystore secret => rfl
  | legacy auth secret => cases secret <;> rfl

end Removal

section Integrity

variable {Url Key : Type} (lib : UrlLibrary Url) (libs : Libraries Key) (env : Environment)
  (parseUrl : String → Option UrlParts)

/-- A credential resolves to what it did, with the password of the keystore or without. -/
def ResolvesAsBefore (password : String) (before after : ReferenceFiles)
    (credential : Credential) : Prop :=
  ∀ given, given = none ∨ given = some password →
    resolve libs after.keystore given credential = resolve libs before.keystore given credential

/-- No host of the file and no host that a job reaches refers to a secret. -/
structure Unreferenced (secretId : String) (hosts : KeyedMap String (KnownHost Url))
    (jobs : SavedJobs) : Prop where
  not_host : ∀ name host, hosts.find? name = some host →
    host.credential.secretReference ≠ some secretId
  not_job : ∀ name job, jobs.find? name = some job → ∀ value ∈ referencedHosts job, ∀ host,
    Reaches parseUrl hosts value host → host.credential.secretReference ≠ some secretId

/-- What a removal owes to the hosts and the jobs. The jobs file is at most replaced by
what a load of it writes, and the credentials of all hosts and jobs resolve as before. -/
structure KeepsReferences (secretId password : String) (before after : ReferenceFiles) :
    Prop where
  unreferenced : ∃ hosts jobs, parseHostsYml lib before.hosts = .ok hosts ∧
    loadSavedJobsFromPath env before.jobs = (.ok jobs, after.jobs) ∧
    Unreferenced parseUrl secretId hosts jobs
  hosts_kept : after.hosts = before.hosts
  hosts_resolve : ∀ hosts, parseHostsYml lib after.hosts = .ok hosts →
    ∀ name host, hosts.find? name = some host →
      ResolvesAsBefore libs password before after host.credential
  jobs_resolve : ∀ hosts, parseHostsYml lib after.hosts = .ok hosts →
    ∀ (job : Job), ∀ value ∈ referencedHosts job, ∀ host, Reaches parseUrl hosts value host →
      ResolvesAsBefore libs password before after host.credential

variable {lib libs env parseUrl}

/-- Jobs reach hosts of the file only, so the hosts decide for them. -/
theorem unreferenced_of_hostReferences {secretId : String}
    {hosts : KeyedMap String (KnownHost Url)} (h : hostReferences secretId hosts = [])
    (jobs : SavedJobs) : Unreferenced parseUrl secretId hosts jobs := by
  have hhosts := hostReferences_eq_nil_iff.mp h
  refine ⟨hhosts, fun name job hjob value hvalue host hreach => ?_⟩
  obtain ⟨saved, hfind⟩ := hreach.saved
  exact hhosts saved host hfind

/-- After a removal that succeeds every host of the file resolves as before. -/
theorem removed_hosts_resolve (hlib : libs.sealing.Lawful) {secretId : String}
    {expected : Option SecretAuth} {password : String} {attempt : WriteAttempt}
    {files : ReferenceFiles}
    (h : (removeSecretChecked lib libs env secretId expected password attempt files).1 =
      .ok ())
    {hosts : KeyedMap String (KnownHost Url)} (hparsed : parseHostsYml lib files.hosts = .ok hosts)
    {name : String} {host : KnownHost Url} (hfind : hosts.find? name = some host) :
    ResolvesAsBefore libs password files
      (removeSecretChecked lib libs env secretId expected password attempt files).2
      host.credential := by
  obtain ⟨hchecked, store, changed, hread, -, hframe, hwrite⟩ := removeSecret_eq_ok h
  obtain ⟨checked, jobs, hhosts, -, hhostRefs, -⟩ := ensureSecretIsUnreferenced_eq_ok hchecked
  obtain rfl := Except.ok.inj (hhosts.symm.trans hparsed)
  rintro given (rfl | rfl)
  · exact resolve_without_password _ _ _
  · exact resolve_of_frame hread (readStore_writeStore hlib hwrite) hframe
      (hostReferences_eq_nil_iff.mp hhostRefs name host hfind)

theorem removed_secret_unreferenced (hlib : libs.sealing.Lawful) (secretId : String)
    (expected : Option SecretAuth) (password : String) (attempt : WriteAttempt)
    (files : ReferenceFiles)
    (h : (removeSecretChecked lib libs env secretId expected password attempt files).1 =
      .ok ()) :
    KeepsReferences lib libs env parseUrl secretId password files
      (removeSecretChecked lib libs env secretId expected password attempt files).2 := by
  obtain ⟨hchecked, store, changed, hread, hfound, -, -⟩ := removeSecret_eq_ok h
  obtain ⟨hosts, jobs, hhosts, hload, hhostRefs, -⟩ :=
    ensureSecretIsUnreferenced_eq_ok hchecked
  refine ⟨⟨hosts, jobs, hhosts, ?_, unreferenced_of_hostReferences hhostRefs jobs⟩, rfl, ?_, ?_⟩
  · simpa only [removeSecretChecked, hread, hfound, if_true] using hload
  · intro found hparsed name host hfind
    exact removed_hosts_resolve hlib h hparsed hfind
  · intro found hparsed job value _ host hreach
    obtain ⟨name, hfind⟩ := hreach.saved
    exact removed_hosts_resolve hlib h hparsed hfind

end Integrity

section Sequences

variable {Url Key : Type} (lib : UrlLibrary Url) (libs : Libraries Key) (env : Environment)

structure RemovalRequest where
  secretId : String
  expected : Option SecretAuth
  attempt : WriteAttempt

/-- The files after some removals in turn, whatever came of each. -/
def runRemovals (password : String) : List RemovalRequest → ReferenceFiles → ReferenceFiles
  | [], files => files
  | request :: rest, files =>
    runRemovals password rest
      (removeSecretChecked lib libs env request.secretId request.expected password
        request.attempt files).2

variable {lib libs env}

/-- No sequence of removals touches a credential of a host. -/
theorem runRemovals_resolve (hlib : libs.sealing.Lawful) (password : String)
    (requests : List RemovalRequest) (files : ReferenceFiles)
    {hosts : KeyedMap String (KnownHost Url)} (hparsed : parseHostsYml lib files.hosts = .ok hosts)
    {name : String} {host : KnownHost Url} (hfind : hosts.find? name = some host) :
    ResolvesAsBefore libs password files (runRemovals lib libs env password requests files)
      host.credential := by
  induction requests generalizing files with
  | nil =>
    intro given _
    rfl
  | cons request rest ih =>
    intro given hgiven
    let after := (removeSecretChecked lib libs env request.secretId request.expected password
      request.attempt files).2
    refine (ih after hparsed given hgiven).trans ?_
    cases hresult : (removeSecretChecked lib libs env request.secretId request.expected password
        request.attempt files).1 with
    | ok _ => exact removed_hosts_resolve hlib hresult hparsed hfind given hgiven
    | error error =>
      have hkept : (removeSecretChecked lib libs env request.secretId request.expected password
          request.attempt files).2.keystore = files.keystore := removeSecret_of_error hresult
      rw [hkept]

end Sequences

section Sample

/-- A secret, and a host of the same name that refers to another one. A job collects
from the host. -/
def sampleReferences : ReferenceFiles where
  hosts := .document (.mapping [("prod", .mapping [("url", .string "https://es.example/"),
    ("secret", .string "backup")])])
  keystore := apiKeyStore
  jobs := .document (LegacyMigration.collectFile ["nightly"])

set_option maxRecDepth 20000 in
theorem unused_secret_removed :
    KeepsReferences sampleUrls sampleLibraries LegacyMigration.bareEnvironment (fun _ => none)
      "prod" "pw" sampleReferences
      (removeSecretChecked sampleUrls sampleLibraries LegacyMigration.bareEnvironment "prod" none
        "pw" sampleAttempt sampleReferences).2 :=
  removed_secret_unreferenced sampleSealing_lawful "prod" none "pw" sampleAttempt sampleReferences
    rfl

end Sample

end Esdiag.SecretReferences
