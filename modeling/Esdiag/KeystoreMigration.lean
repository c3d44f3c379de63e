import Esdiag.HostRoundTrip
import Esdiag.KeystoreOperations

/-!
Moving plaintext credentials of the hosts file into the keystore. Each is stored
under the name of its host, in one batch that is merged into the entries that
exist, and the hosts file is written afterwards. An entry that holds both kinds
of credential resolves to its API key, so what is merged can change what an
entry resolves to, for the host itself and for every other one that refers to it.
-/
namespace Esdiag.KeystoreMigration

open KeyedMaps SealedEnvelopes Keystores KeystoreOperations KnownHosts HostFiles HostRoundTrip

inductive ResolveError where
  | noPassword (secretId : String)
  | keystore (error : KeystoreError)
  | notFound (secretId : String)
  deriving DecidableEq

structure CredentialFiles where
  hosts : HostsFile
  keystore : SealedFile

inductive MigrationError where
  | hosts (error : HostsError)
  | backup
  | keystore (error : KeystoreError)
  deriving DecidableEq

section Resolution

variable {Key : Type} (libs : Libraries Key)

def resolveKeystoreSecret (keystore : SealedFile) (password : Option String)
    (secretId : String) : Except ResolveError Auth :=
  match password with
  | none => .error (.noPassword secretId)
  | some password =>
    match resolveSecretAuth libs keystore secretId password with
    | .error error => .error (.keystore error)
    | .ok none => .error (.notFound secretId)
    | .ok (some auth) => .ok (Auth.ofSecret auth)

/-- The credential material of a host; a reference is preferred to plaintext. -/
def resolve (keystore : SealedFile) (password : Option String) :
    Credential → Except ResolveError Auth
  | .none => .ok .none
  | .keystore secret => resolveKeystoreSecret libs keystore password secret
  | .runtime auth => .ok (Auth.ofSecret auth)
  | .legacy _ (some secret) => resolveKeystoreSecret libs keystore password secret
  | .legacy auth none => .ok (Auth.ofSecret auth)

end Resolution

section Migration

variable {Url : Type}

/-- A host with plaintext refers to the secret of its own name instead. -/
def migrateHost (name : String) (host : KnownHost Url) : KnownHost Url :=
  match host.credential.legacyAuth with
  | some _ => { host with credential := .keystore name }
  | none => host

def pendingSecrets (hosts : KeyedMap String (KnownHost Url)) : KeyedMap String SecretAuth :=
  hosts.filterMap fun _ host => host.credential.legacyAuth

variable {Key : Type} (lib : UrlLibrary Url) (libs : Libraries Key)

/-- What the file system does with the three files of a migration. -/
structure MigrationAttempt where
  backupFails : Bool
  keystore : WriteAttempt
  hosts : HostsWrite

def writeMigrated (outcome : HostsWrite) (counts : ℕ × ℕ)
    (hosts : KeyedMap String (KnownHost Url)) (files : CredentialFiles) :
    Except MigrationError (ℕ × ℕ) × CredentialFiles :=
  match writeHostsYml lib outcome files.hosts hosts with
  | (.error error, left) => (.error (.hosts error), { files with hosts := left })
  | (.ok (), written) => (.ok counts, { files with hosts := written })

def migrateHostsToKeystore (attempt : MigrationAttempt) (keystorePassword : String)
    (files : CredentialFiles) : Except MigrationError (ℕ × ℕ) × CredentialFiles :=
  match parseHostsYml lib files.hosts with
  | .error error => (.error (.hosts error), files)
  | .ok hosts =>
    let pending := (pendingSecrets hosts).entries
    let migrated := hosts.mapValues migrateHost
    let counts := (pending.length, hosts.entries.length - pending.length)
    if pending.isEmpty then writeMigrated lib attempt.hosts counts migrated files
    else if attempt.backupFails then (.error .backup, files)
    else
      match upsertSecretAuthBatch libs files.keystore pending keystorePassword
        attempt.keystore with
      | (.error error, keystore) => (.error (.keystore error), { files with keystore })
      | (.ok (), keystore) =>
        writeMigrated lib attempt.hosts counts migrated { files with keystore }

end Migration

section Merging

/-- What an entry resolves to once a credential is merged into it. -/
def resolvedWith (entry : Option SecretEntry) (auth : SecretAuth) : SecretAuth :=
  match auth, entry.bind SecretEntry.apikey with
  | .basic .., some key => .apiKey key
  | auth, _ => auth

theorem resolveAuth_upsertAuth (entry : Option SecretEntry) (auth : SecretAuth) :
    ((entry.getD .default).upsertAuth auth).resolveAuth = some (resolvedWith entry auth) := by
  cases auth with
  | apiKey key => rfl
  | basic username password =>
    cases entry with
    | none => rfl
    | some entry =>
      obtain ⟨apikey, basic⟩ := entry
      cases apikey with
      | none => rfl
      | some key => rfl

/-- Merging a batch with distinct names changes each named entry once. -/
theorem find?_foldl_upsertEntryAuth (entries : List (String × SecretAuth))
    (hnodup : (entries.map Prod.fst).Nodup) (store : KeystoreData) (name : String) :
    (entries.foldl (fun store e => upsertEntryAuth e.1 e.2 store) store).secrets.find? name =
      match findEntry name entries with
      | some auth => some (((store.secrets.find? name).getD .default).upsertAuth auth)
      | none => store.secrets.find? name := by
  induction entries generalizing store with
  | nil => rfl
  | cons entry rest ih =>
    obtain ⟨secretId, auth⟩ := entry
    rw [List.map_cons, List.nodup_cons] at hnodup
    rw [List.foldl_cons, ih hnodup.2]
    by_cases hname : secretId = name
    · subst hname
      have hrest : findEntry secretId rest = none := by
        cases hfind : findEntry secretId rest with
        | none => rfl
        | some other => exact absurd (mem_keys_of_findEntry hfind) hnodup.1
      rw [hrest]
      simp [findEntry, upsertEntryAuth, KeyedMap.find?_upsert_self]
    · have hkeep : (upsertEntryAuth secretId auth store).secrets.find? name =
          store.secrets.find? name := KeyedMap.find?_upsert_of_ne _ (Ne.symm hname) _
      simp only [findEntry, if_neg hname, hkeep]

end Merging

section Hosts

variable {Url : Type} {lib : UrlLibrary Url}

theorem migrateHost_eq (name : String) (host : KnownHost Url) :
    ∃ credential, migrateHost name host = { host with credential } := by
  unfold migrateHost
  cases host.credential.legacyAuth with
  | none => exact ⟨host.credential, rfl⟩
  | some auth => exact ⟨.keystore name, rfl⟩

theorem persisted_migrateHost (name : String) {host : KnownHost Url}
    (hplain : ∀ auth, host.credential ≠ .runtime auth) :
    (migrateHost name host).credential.persisted = .ok (migrateHost name host).credential := by
  unfold migrateHost
  cases hcredential : host.credential with
  | none => simp [Credential.legacyAuth, hcredential, Credential.persisted]
  | keystore secret => simp [Credential.legacyAuth, hcredential, Credential.persisted]
  | runtime auth => exact absurd hcredential (hplain auth)
  | legacy auth secret => simp [Credential.legacyAuth, Credential.persisted]

/-- Of what a write checks, only the name of a template can refuse a migrated host. -/
theorem normalizeForWrite_migrateHost {name : String} {host : KnownHost Url}
    (hroles : normalizeAndValidateRoles name host = .ok host)
    (hplain : ∀ auth, host.credential ≠ .runtime auth) :
    normalizeForWrite name (migrateHost name host) =
      match validateTemplateHost name host with
      | .error message => .error (.refused message)
      | .ok () => .ok (migrateHost name host) := by
  have hpersisted := persisted_migrateHost name hplain
  obtain ⟨credential, hmigrated⟩ := migrateHost_eq name host
  rw [hmigrated] at hpersisted ⊢
  have hnormal : normalizeRoles host.roles = host.roles :=
    congrArg KnownHost.roles (normalizeAndValidateRoles_eq_ok hroles).1.symm
  have hroles' : normalizeAndValidateRoles name { host with credential } =
      .ok { host with credential } := by
    unfold normalizeAndValidateRoles at hroles ⊢
    simp only [hnormal] at hroles ⊢
    cases hcheck : checkEach (validateRole name host.app host.urlTemplate.isSome) host.roles with
    | error message => simp [hcheck] at hroles
    | ok _ => rfl
  have htemplate : validateTemplateHost name { host with credential } =
      validateTemplateHost name host := rfl
  cases hvalid : validateTemplateHost name host with
  | error message => simp [normalizeForWrite, hroles', htemplate, hvalid]
  | ok valid => simp [normalizeForWrite, hroles', htemplate, hvalid, hpersisted]

theorem checkEach_map {α β ε : Type} (g : α → β) (check : β → Except ε Unit) (items : List α) :
    checkEach check (items.map g) = checkEach (fun a => check (g a)) items := by
  induction items with
  | nil => rfl
  | cons a rest ih => simp only [List.map_cons, checkEach, ih]

/-- Viewer links are between names and roles, which a migration keeps. -/
theorem validateViewerLinks_migrated (hosts : KeyedMap String (KnownHost Url)) :
    validateViewerLinks (hosts.mapValues migrateHost) = validateViewerLinks hosts := by
  have hlink : ∀ name host, validateViewerLink (hosts.mapValues migrateHost) name
      (migrateHost name host) = validateViewerLink hosts name host := by
    intro name host
    obtain ⟨credential, hmigrated⟩ := migrateHost_eq name host
    rw [hmigrated]
    unfold validateViewerLink
    cases host.viewer with
    | none => rfl
    | some viewer =>
      simp only [KeyedMap.find?_mapValues]
      cases hosts.find? viewer with
      | none => rfl
      | some viewerHost =>
        obtain ⟨kept, hkept⟩ := migrateHost_eq viewer viewerHost
        simp only [Option.map_some, hkept]
  unfold validateViewerLinks
  show checkEach _ (hosts.entries.map fun e => (e.1, migrateHost e.1 e.2)) = _
  rw [checkEach_map]
  exact congrArg (fun check => checkEach check hosts.entries) (funext fun e => hlink e.1 e.2)

/-- Every template of a map is named as a write wants it. -/
def TemplateNamesValid (hosts : KeyedMap String (KnownHost Url)) : Prop :=
  ∀ e ∈ hosts.entries, validateTemplateHost e.1 e.2 = .ok ()

theorem traverse_migrated {file : HostsFile} {hosts : KeyedMap String (KnownHost Url)}
    (hparsed : parseHostsYml lib file = .ok hosts) (hvalid : TemplateNamesValid hosts) :
    ∀ e ∈ (hosts.mapValues migrateHost).entries, normalizeForWrite e.1 e.2 = .ok e.2 := by
  intro e he
  obtain ⟨⟨name, host⟩, hmem, rfl⟩ := List.mem_map.mp he
  obtain ⟨-, hroles, hplain⟩ := (parseHostsYml_eq_ok hparsed).1 _ hmem
  have hname := hvalid _ hmem
  simp only at hroles hplain hname ⊢
  rw [normalizeForWrite_migrateHost hroles hplain, hname]

theorem normalizeHosts_migrated {file : HostsFile} {hosts : KeyedMap String (KnownHost Url)}
    (hparsed : parseHostsYml lib file = .ok hosts) (hvalid : TemplateNamesValid hosts) :
    normalizeHosts lib file (hosts.mapValues migrateHost) = .ok (hosts.mapValues migrateHost) := by
  have hnames : rejectNewReservedNames lib file (hosts.mapValues migrateHost) = .ok () := by
    apply rejectNewReservedNames_of_existing hparsed
    intro e he
    obtain ⟨entry, hmem, rfl⟩ := List.mem_map.mp he
    have hname : entry.1 ∈ hosts.entries.map Prod.fst := List.mem_map_of_mem hmem
    exact hname
  have hhosts : (hosts.mapValues migrateHost).traverse normalizeForWrite =
      .ok (hosts.mapValues migrateHost) := by
    rw [KeyedMap.traverse_of_forall (g := fun _ host => host) (traverse_migrated hparsed hvalid),
      KeyedMap.mapValues_id]
  have hviewers := (validateViewerLinks_migrated hosts).trans (parseHostsYml_eq_ok hparsed).2
  simp only [normalizeHosts, hnames, hhosts, hviewers, bind, Except.bind]
  rfl

theorem normalizeHosts_refused {file : HostsFile} {hosts : KeyedMap String (KnownHost Url)}
    (hparsed : parseHostsYml lib file = .ok hosts) (hvalid : ¬ TemplateNamesValid hosts) :
    ∃ error, normalizeHosts lib file (hosts.mapValues migrateHost) = .error error := by
  cases hhosts : normalizeHosts lib file (hosts.mapValues migrateHost) with
  | error error => exact ⟨error, rfl⟩
  | ok out =>
    refine absurd (fun e he => ?_) hvalid
    obtain ⟨htraverse, -⟩ := normalizeHosts_eq_ok hhosts
    obtain ⟨-, hroles, hplain⟩ := (parseHostsYml_eq_ok hparsed).1 e he
    have hmem : (e.1, migrateHost e.1 e.2) ∈ (hosts.mapValues migrateHost).entries :=
      List.mem_map_of_mem he
    obtain ⟨written, hwritten⟩ := traverseEntries_ok_iff.mp ⟨_, htraverse⟩ _ hmem
    have hwritten' : normalizeForWrite e.1 (migrateHost e.1 e.2) = .ok written := hwritten
    rw [normalizeForWrite_migrateHost hroles hplain] at hwritten'
    cases htemplate : validateTemplateHost e.1 e.2 with
    | error message => simp [htemplate] at hwritten'
    | ok _ => rfl

/-- The file that a migration writes reads back as what was written. -/
theorem parseHostsYml_migrated (hlib : lib.Lawful) {file : HostsFile}
    {hosts : KeyedMap String (KnownHost Url)} (hparsed : parseHostsYml lib file = .ok hosts)
    (hvalid : TemplateNamesValid hosts) :
    parseHostsYml lib (hostsDocument lib (hosts.mapValues migrateHost)) =
      .ok (hosts.mapValues migrateHost) := by
  refine parseHostsYml_hostsDocument hlib (fun e he => ?_) (traverse_migrated hparsed hvalid)
    ((validateViewerLinks_migrated hosts).trans (parseHostsYml_eq_ok hparsed).2)
  obtain ⟨⟨name, host⟩, hmem, rfl⟩ := List.mem_map.mp he
  obtain ⟨credential, hmigrated⟩ := migrateHost_eq name host
  have hcanonical := ((parseHostsYml_eq_ok hparsed).1 _ hmem).1 hlib
  refine hcanonical.congr ?_ ?_ ?_ <;> simp only [hmigrated]

end Hosts

section Resolved

variable {Url Key : Type} {libs : Libraries Key}

/-- What a name of the keystore resolves to. -/
def storedAuth (store : KeystoreData) (secretId : String) : Option SecretAuth :=
  (store.secrets.find? secretId).bind SecretEntry.resolveAuth

def mergePending (hosts : KeyedMap String (KnownHost Url)) (store : KeystoreData) :
    KeystoreData :=
  (pendingSecrets hosts).entries.foldl (fun store e => upsertEntryAuth e.1 e.2 store) store

theorem storedAuth_mergePending (hosts : KeyedMap String (KnownHost Url)) (store : KeystoreData)
    (secretId : String) :
    storedAuth (mergePending hosts store) secretId =
      match (pendingSecrets hosts).find? secretId with
      | some auth => some (resolvedWith (store.secrets.find? secretId) auth)
      | none => storedAuth store secretId := by
  unfold storedAuth mergePending
  rw [find?_foldl_upsertEntryAuth _ (pendingSecrets hosts).nodup_keys]
  show Option.bind (match (pendingSecrets hosts).find? secretId with
    | some auth => some (((store.secrets.find? secretId).getD .default).upsertAuth auth)
    | none => store.secrets.find? secretId) SecretEntry.resolveAuth = _
  cases (pendingSecrets hosts).find? secretId with
  | none => rfl
  | some auth => exact resolveAuth_upsertAuth _ _

theorem ofSecret_injective : Function.Injective Auth.ofSecret := by
  intro a b h
  cases a <;> cases b <;> simp_all [Auth.ofSecret]

theorem resolveKeystoreSecret_eq_ok_iff {keystore : SealedFile} {password : String}
    {store : KeystoreData} (hread : readStore libs keystore password = .ok store)
    (secretId : String) (auth : Auth) :
    resolveKeystoreSecret libs keystore (some password) secretId = .ok auth ↔
      ∃ kept, storedAuth store secretId = some kept ∧ Auth.ofSecret kept = auth := by
  have hstored : resolveSecretAuth libs keystore secretId password =
      .ok (storedAuth store secretId) := by
    unfold resolveSecretAuth
    rw [hread]
    rfl
  simp only [resolveKeystoreSecret, hstored]
  cases storedAuth store secretId with
  | none => simp
  | some kept => simp

/-- What the merged entries have to satisfy for one host. -/
def KeepsCredential (hosts : KeyedMap String (KnownHost Url)) (store : KeystoreData)
    (name : String) (host : KnownHost Url) : Prop :=
  match host.credential with
  | .none | .runtime _ => True
  | .legacy auth none => resolvedWith (store.secrets.find? name) auth = auth
  | .legacy auth (some secret) => ∀ kept, storedAuth store secret = some kept →
    resolvedWith (store.secrets.find? name) auth = kept
  | .keystore secret => ∀ kept, storedAuth store secret = some kept →
    ∀ auth, (pendingSecrets hosts).find? secret = some auth →
      resolvedWith (store.secrets.find? secret) auth = kept

theorem resolve_migrateHost_iff {keystore after : SealedFile} {password : String}
    {store : KeystoreData} {hosts : KeyedMap String (KnownHost Url)}
    (hread : readStore libs keystore password = .ok store)
    (hafter : readStore libs after password = .ok (mergePending hosts store))
    {name : String} {host : KnownHost Url} (hfind : hosts.find? name = some host) :
    (∀ auth, resolve libs keystore (some password) host.credential = .ok auth →
        resolve libs after (some password) (migrateHost name host).credential = .ok auth) ↔
      KeepsCredential hosts store name host := by
  have hpending : (pendingSecrets hosts).find? name = host.credential.legacyAuth := by
    unfold pendingSecrets
    rw [KeyedMap.find?_filterMap, hfind]
    rfl
  -- A host with plaintext resolves to the merged entry of its own name.
  have hown : ∀ auth, host.credential.legacyAuth = some auth → ∀ found,
      resolve libs after (some password) (migrateHost name host).credential = .ok found ↔
        Auth.ofSecret (resolvedWith (store.secrets.find? name) auth) = found := by
    intro auth hauth found
    have hmigrated : (migrateHost name host).credential = .keystore name := by
      simp only [migrateHost, hauth]
    rw [hmigrated, resolve, resolveKeystoreSecret_eq_ok_iff hafter, storedAuth_mergePending,
      hpending, hauth]
    simp
  unfold KeepsCredential
  cases hcredential : host.credential with
  | none => simp [resolve, migrateHost, hcredential, Credential.legacyAuth]
  | runtime auth => simp [resolve, migrateHost, hcredential, Credential.legacyAuth]
  | keystore secret =>
    have hmigrated : (migrateHost name host).credential = .keystore secret := by
      simp [migrateHost, hcredential, Credential.legacyAuth]
    simp only [hmigrated, resolve, resolveKeystoreSecret_eq_ok_iff hread,
      resolveKeystoreSecret_eq_ok_iff hafter, storedAuth_mergePending]
    constructor
    · intro h kept hkept auth hauth
      obtain ⟨found, hfound, heq⟩ := h (Auth.ofSecret kept) ⟨kept, hkept, rfl⟩
      rw [hauth] at hfound
      exact (Option.some.inj hfound).trans (ofSecret_injective heq)
    · rintro h _ ⟨kept, hkept, rfl⟩
      refine ⟨kept, ?_, rfl⟩
      cases hauth : (pendingSecrets hosts).find? secret with
      | none => exact hkept
      | some auth => exact congrArg some (h kept hkept auth hauth)
  | legacy auth secret =>
    have hauth : host.credential.legacyAuth = some auth := by rw [hcredential]; rfl
    cases secret with
    | none =>
      constructor
      · intro h
        exact ofSecret_injective ((hown auth hauth _).mp (h _ rfl))
      · intro h found hfound
        rw [← Except.ok.inj hfound]
        exact (hown auth hauth _).mpr (congrArg Auth.ofSecret h)
    | some secret =>
      constructor
      · intro h kept hkept
        have hbefore := (resolveKeystoreSecret_eq_ok_iff hread secret _).mpr ⟨kept, hkept, rfl⟩
        exact ofSecret_injective ((hown auth hauth _).mp (h _ hbefore))
      · intro h found hfound
        obtain ⟨kept, hkept, rfl⟩ := (resolveKeystoreSecret_eq_ok_iff hread secret _).mp hfound
        exact (hown auth hauth _).mpr (congrArg Auth.ofSecret (h kept hkept))

end Resolved

section Preservation

variable {Url Key : Type} (lib : UrlLibrary Url) (libs : Libraries Key)

/-- The hosts of a file resolve to what the hosts before it resolved to. -/
def ResolvesAs (password : String) (keystore : SealedFile)
    (hosts : KeyedMap String (KnownHost Url)) (after : CredentialFiles) : Prop :=
  ∃ read, parseHostsYml lib after.hosts = .ok read ∧
    ∀ name host, hosts.find? name = some host → ∃ out, read.find? name = some out ∧
      ∀ auth, resolve libs keystore (some password) host.credential = .ok auth →
        resolve libs after.keystore (some password) out.credential = .ok auth

/-- What a migration owes to the hosts, from the files before it to those after it. -/
structure Preserved (password : String) (before : CredentialFiles)
    (migration : Except MigrationError (ℕ × ℕ) × CredentialFiles) : Prop where
  resolves : ∀ counts, migration.1 = .ok counts → ∀ hosts,
    parseHostsYml lib before.hosts = .ok hosts →
    ResolvesAs lib libs password before.keystore hosts migration.2
  failed : ∀ error, migration.1 = .error error → migration.2 = before

/-- The hosts file is written to its end. -/
def Completes (outcome : HostsWrite) (hosts : KeyedMap String (KnownHost Url)) : Prop :=
  TemplateNamesValid hosts ∧ outcome = .completes

/-- The write of the hosts file reports success, and its last part is lost with the flush. -/
def LosesFlush (outcome : HostsWrite) (hosts : KeyedMap String (KnownHost Url))
    (left : HostsFile) : Prop :=
  TemplateNamesValid hosts ∧ outcome = .unflushed left

/-- A write of the hosts file that stops midway leaves what was there. -/
def LeavesHosts (outcome : HostsWrite) (file : HostsFile)
    (hosts : KeyedMap String (KnownHost Url)) : Prop :=
  TemplateNamesValid hosts → ∀ left, outcome = .interrupted left → left = file

/-- Where there is nothing to migrate: a write of the hosts that does not come to its end leaves
them as they were, or at least so that they resolve as before. -/
def KeepsHosts (outcome : HostsWrite) (password : String) (files : CredentialFiles)
    (hosts : KeyedMap String (KnownHost Url)) : Prop :=
  LeavesHosts outcome files.hosts hosts ∧ ∀ left, LosesFlush outcome hosts left →
    ResolvesAs lib libs password files.keystore hosts { files with hosts := left }

/-- Once the keystore is written: the hosts file is written as well and every host keeps its
credential; or its flush is lost and what is left of it resolves as before; or it is not
written and nothing has changed. -/
def KeepsMigrated (outcome : HostsWrite) (password : String) (files : CredentialFiles)
    (hosts : KeyedMap String (KnownHost Url)) (store : KeystoreData) (written : SealedFile) :
    Prop :=
  (Completes outcome hosts ∧ ∀ e ∈ hosts.entries, KeepsCredential hosts store e.1 e.2) ∨
  (∃ left, LosesFlush outcome hosts left ∧
    ResolvesAs lib libs password files.keystore hosts ⟨left, written⟩) ∨
  (¬ Completes outcome hosts ∧ (∀ left, ¬ LosesFlush outcome hosts left) ∧
    written = files.keystore ∧ LeavesHosts outcome files.hosts hosts)

/-- When a migration preserves credentials. -/
def MigrationKeeps (attempt : MigrationAttempt) (password : String) (files : CredentialFiles) :
    Prop :=
  ∀ hosts, parseHostsYml lib files.hosts = .ok hosts →
    ((pendingSecrets hosts).entries = [] → KeepsHosts lib libs attempt.hosts password files hosts) ∧
    ((pendingSecrets hosts).entries ≠ [] → attempt.backupFails = false → ∀ store written,
      readStore libs files.keystore password = .ok store →
      writeStore libs attempt.keystore password (mergePending hosts store) = .ok written →
      KeepsMigrated lib libs attempt.hosts password files hosts store written)

variable {lib libs}

/-- The migrated hosts are written, lost with the flush, or not written at all. -/
theorem writeMigrated_cases (files : CredentialFiles) (counts : ℕ × ℕ) (outcome : HostsWrite)
    {hosts : KeyedMap String (KnownHost Url)}
    (hparsed : parseHostsYml lib files.hosts = .ok hosts) :
    (Completes outcome hosts ∧
      writeMigrated lib outcome counts (hosts.mapValues migrateHost) files =
        (.ok counts, { files with hosts := hostsDocument lib (hosts.mapValues migrateHost) })) ∨
    (∃ left, LosesFlush outcome hosts left ∧
      writeMigrated lib outcome counts (hosts.mapValues migrateHost) files =
        (.ok counts, { files with hosts := left })) ∨
    (¬ Completes outcome hosts ∧ (∀ left, ¬ LosesFlush outcome hosts left) ∧
      ∃ error left, writeMigrated lib outcome counts (hosts.mapValues migrateHost) files =
          (.error error, { files with hosts := left }) ∧
        (left = files.hosts ↔ LeavesHosts outcome files.hosts hosts)) := by
  by_cases hvalid : TemplateNamesValid hosts
  · have hnormal := normalizeHosts_migrated hparsed hvalid
    cases outcome with
    | completes =>
      refine Or.inl ⟨⟨hvalid, rfl⟩, ?_⟩
      simp only [writeMigrated, writeHostsYml, hnormal]
    | unflushed left =>
      refine Or.inr (Or.inl ⟨left, ⟨hvalid, rfl⟩, ?_⟩)
      simp only [writeMigrated, writeHostsYml, hnormal]
    | createFails =>
      refine Or.inr (Or.inr ⟨fun h => (by cases h.2), fun left h => (by cases h.2), .hosts .io,
        files.hosts, ?_, fun _ _ left hleft => ?_, fun _ => rfl⟩)
      · simp only [writeMigrated, writeHostsYml, hnormal]
      · cases hleft
    | interrupted left =>
      refine Or.inr (Or.inr ⟨fun h => (by cases h.2), fun left h => (by cases h.2), .hosts .io,
        left, ?_, fun hleft _ other hother => ?_, fun hkeep => ?_⟩)
      · simp only [writeMigrated, writeHostsYml, hnormal]
      · cases hother
        exact hleft
      · exact hkeep hvalid left rfl
  · obtain ⟨error, herror⟩ := normalizeHosts_refused hparsed hvalid
    refine Or.inr (Or.inr ⟨fun h => hvalid h.1, fun left h => hvalid h.1, .hosts error,
      files.hosts, ?_, fun _ hvalid' => absurd hvalid' hvalid, fun _ => rfl⟩)
    simp only [writeMigrated, writeHostsYml, herror]

/-- A host without plaintext anywhere is left as it is. -/
theorem migrateHost_of_no_pending {hosts : KeyedMap String (KnownHost Url)}
    (hpending : (pendingSecrets hosts).entries = []) {name : String} {host : KnownHost Url}
    (hfind : hosts.find? name = some host) : migrateHost name host = host := by
  have hnone : (pendingSecrets hosts).find? name = none := by
    unfold KeyedMap.find?
    rw [hpending]
    rfl
  unfold pendingSecrets at hnone
  rw [KeyedMap.find?_filterMap, hfind] at hnone
  have hauth : host.credential.legacyAuth = none := hnone
  simp only [migrateHost, hauth]

variable (libs) in
/-- A batch that is not empty is merged and written, or the keystore is kept. -/
theorem upsertSecretAuthBatch_cases (keystore : SealedFile) (password : String)
    (attempt : WriteAttempt) {hosts : KeyedMap String (KnownHost Url)}
    (hpending : (pendingSecrets hosts).entries ≠ []) :
    (∃ error, upsertSecretAuthBatch libs keystore (pendingSecrets hosts).entries password
        attempt = (.error error, keystore) ∧
      ∀ store, readStore libs keystore password = .ok store →
        ∀ written, writeStore libs attempt password (mergePending hosts store) ≠ .ok written) ∨
    ∃ store written, readStore libs keystore password = .ok store ∧
      writeStore libs attempt password (mergePending hosts store) = .ok written ∧
      upsertSecretAuthBatch libs keystore (pendingSecrets hosts).entries password attempt =
        (.ok (), written) := by
  have hchange : ∀ store, batchChange (pendingSecrets hosts).entries store =
      .ok (some (mergePending hosts store)) := by
    intro store
    unfold batchChange
    rw [if_neg (by simpa using hpending)]
    rfl
  unfold upsertSecretAuthBatch modifyStore
  cases hread : readStore libs keystore password with
  | error error =>
    refine Or.inl ⟨error, rfl, fun store hstore => ?_⟩
    cases hstore
  | ok store =>
    simp only [hchange]
    cases hwrite : writeStore libs attempt password (mergePending hosts store) with
    | error error =>
      refine Or.inl ⟨error, rfl, fun other hother written hwritten => ?_⟩
      obtain rfl := Except.ok.inj hother
      rw [hwrite] at hwritten
      cases hwritten
    | ok written => exact Or.inr ⟨store, written, rfl, hwrite, rfl⟩

/-- A migration that fails preserves what it leaves as it was. -/
theorem preserved_error_iff {password : String} {before after : CredentialFiles}
    {error : MigrationError} :
    Preserved lib libs password before (.error error, after) ↔ after = before := by
  constructor
  · intro h
    exact h.failed error rfl
  · intro h
    refine ⟨fun counts hcounts => ?_, fun _ _ => h⟩
    cases hcounts

/-- A migration that succeeds preserves what its files resolve to. -/
theorem preserved_ok_iff {password : String} {before after : CredentialFiles} {counts : ℕ × ℕ}
    {hosts : KeyedMap String (KnownHost Url)}
    (hparsed : parseHostsYml lib before.hosts = .ok hosts) :
    Preserved lib libs password before (.ok counts, after) ↔
      ResolvesAs lib libs password before.keystore hosts after := by
  constructor
  · intro h
    exact h.resolves counts rfl hosts hparsed
  · intro h
    refine ⟨fun _ _ found hfound => ?_, fun error herror => ?_⟩
    · obtain rfl : hosts = found := Except.ok.inj (hparsed.symm.trans hfound)
      exact h
    · cases herror

/-- Hosts without plaintext are written as they are, and resolve as before. -/
theorem resolvesAs_of_no_pending (hlib : lib.Lawful) {password : String} {files : CredentialFiles}
    {hosts : KeyedMap String (KnownHost Url)}
    (hparsed : parseHostsYml lib files.hosts = .ok hosts)
    (hpending : (pendingSecrets hosts).entries = []) (hvalid : TemplateNamesValid hosts) :
    ResolvesAs lib libs password files.keystore hosts
      { files with hosts := hostsDocument lib (hosts.mapValues migrateHost) } := by
  refine ⟨_, parseHostsYml_migrated hlib hparsed hvalid, fun name host hfind => ?_⟩
  refine ⟨host, ?_, fun auth hauth => hauth⟩
  rw [KeyedMap.find?_mapValues, hfind, Option.map_some, migrateHost_of_no_pending hpending hfind]

theorem preserved_of_no_pending_iff (hlib : lib.Lawful) {attempt : MigrationAttempt}
    {password : String} {files : CredentialFiles} {hosts : KeyedMap String (KnownHost Url)}
    (hparsed : parseHostsYml lib files.hosts = .ok hosts)
    (hpending : (pendingSecrets hosts).entries = []) :
    Preserved lib libs password files
        (migrateHostsToKeystore lib libs attempt password files) ↔
      KeepsHosts lib libs attempt.hosts password files hosts := by
  have hrun : migrateHostsToKeystore lib libs attempt password files =
      writeMigrated lib attempt.hosts (0, hosts.entries.length) (hosts.mapValues migrateHost)
        files := by
    simp only [migrateHostsToKeystore, hparsed, hpending]
    rfl
  rw [hrun]
  rcases writeMigrated_cases files (0, hosts.entries.length) attempt.hosts hparsed with
    ⟨hcompletes, hwritten⟩ | ⟨left, hlost, hwritten⟩ | ⟨-, hflushed, error, left, hwritten, hkept⟩
  · rw [hwritten, preserved_ok_iff hparsed]
    refine iff_of_true (resolvesAs_of_no_pending hlib hparsed hpending hcompletes.1) ⟨?_, ?_⟩
    · intro _ left hleft
      rw [hcompletes.2] at hleft
      cases hleft
    · intro left hlost
      cases hcompletes.2.symm.trans hlost.2
  · rw [hwritten, preserved_ok_iff hparsed]
    constructor
    · intro h
      refine ⟨fun _ other hother => ?_, fun other hother => ?_⟩
      · cases hlost.2.symm.trans hother
      · obtain rfl := HostsWrite.unflushed.inj (hlost.2.symm.trans hother.2)
        exact h
    · intro h
      exact h.2 left hlost
  · rw [hwritten, preserved_error_iff, KeepsHosts, ← hkept]
    constructor
    · intro h
      exact ⟨congrArg CredentialFiles.hosts h, fun left hlost => absurd hlost (hflushed left)⟩
    · rintro ⟨rfl, -⟩
      rfl

theorem migrateHostsToKeystore_of_merged {attempt : MigrationAttempt} {password : String}
    {files : CredentialFiles} {hosts : KeyedMap String (KnownHost Url)} {written : SealedFile}
    (hparsed : parseHostsYml lib files.hosts = .ok hosts)
    (hpending : (pendingSecrets hosts).entries ≠ []) (hbackup : attempt.backupFails = false)
    (hmerged : upsertSecretAuthBatch libs files.keystore (pendingSecrets hosts).entries password
      attempt.keystore = (.ok (), written)) :
    ∃ counts, migrateHostsToKeystore lib libs attempt password files =
      writeMigrated lib attempt.hosts counts (hosts.mapValues migrateHost)
        { files with keystore := written } := by
  have hempty : (pendingSecrets hosts).entries.isEmpty = false := by simpa using hpending
  refine ⟨((pendingSecrets hosts).entries.length,
    hosts.entries.length - (pendingSecrets hosts).entries.length), ?_⟩
  simp only [migrateHostsToKeystore, hparsed, hempty, hbackup, hmerged, Bool.false_eq_true,
    if_false]

/-- Once the keystore is written, a migration that completes is judged host by host. -/
theorem resolvesAs_of_completed_iff (hlib : lib.Lawful) (hlibs : libs.sealing.Lawful)
    {attempt : WriteAttempt} {password : String} {files : CredentialFiles}
    {hosts : KeyedMap String (KnownHost Url)} {store : KeystoreData} {written : SealedFile}
    (hparsed : parseHostsYml lib files.hosts = .ok hosts) (hvalid : TemplateNamesValid hosts)
    (hread : readStore libs files.keystore password = .ok store)
    (hwrite : writeStore libs attempt password (mergePending hosts store) = .ok written) :
    ResolvesAs lib libs password files.keystore hosts
        ⟨hostsDocument lib (hosts.mapValues migrateHost), written⟩ ↔
      ∀ e ∈ hosts.entries, KeepsCredential hosts store e.1 e.2 := by
  have hafter := readStore_writeStore hlibs hwrite
  have hreread := parseHostsYml_migrated hlib hparsed hvalid
  have hout : ∀ name host, hosts.find? name = some host →
      (hosts.mapValues migrateHost).find? name = some (migrateHost name host) := by
    intro name host hfind
    rw [KeyedMap.find?_mapValues, hfind, Option.map_some]
  constructor
  · rintro ⟨read, hparse, hhosts⟩ e he
    have hfind := KeyedMap.find?_eq_some_iff.mpr he
    obtain rfl := Except.ok.inj (hreread.symm.trans hparse)
    obtain ⟨out, hfound, hauth⟩ := hhosts e.1 e.2 hfind
    obtain rfl := Option.some.inj ((hout e.1 e.2 hfind).symm.trans hfound)
    exact (resolve_migrateHost_iff hread hafter hfind).mp hauth
  · intro h
    refine ⟨_, hreread, fun name host hfind => ⟨_, hout name host hfind, ?_⟩⟩
    exact (resolve_migrateHost_iff hread hafter hfind).mpr
      (h (name, host) (KeyedMap.find?_eq_some_iff.mp hfind))

/-- Once the keystore is written, the rest of a migration preserves credentials exactly so. -/
theorem preserved_of_merged_iff (hlib : lib.Lawful) (hlibs : libs.sealing.Lawful)
    {attempt : MigrationAttempt} {password : String} {files : CredentialFiles}
    {hosts : KeyedMap String (KnownHost Url)} {store : KeystoreData} {written : SealedFile}
    (counts : ℕ × ℕ) (hparsed : parseHostsYml lib files.hosts = .ok hosts)
    (hread : readStore libs files.keystore password = .ok store)
    (hwrite : writeStore libs attempt.keystore password (mergePending hosts store) = .ok written) :
    Preserved lib libs password files
        (writeMigrated lib attempt.hosts counts (hosts.mapValues migrateHost)
          { files with keystore := written }) ↔
      KeepsMigrated lib libs attempt.hosts password files hosts store written := by
  rcases writeMigrated_cases { files with keystore := written } counts attempt.hosts hparsed with
    ⟨hcompletes, hrun⟩ | ⟨left, hlost, hrun⟩ | ⟨hnot, hflushed, error, left, hrun, hkept⟩
  · rw [hrun, preserved_ok_iff hparsed,
      resolvesAs_of_completed_iff hlib hlibs hparsed hcompletes.1 hread hwrite]
    constructor
    · intro h
      exact Or.inl ⟨hcompletes, h⟩
    · rintro (⟨-, hall⟩ | ⟨left, hlost, -⟩ | ⟨hnot, -⟩)
      · exact hall
      · cases hcompletes.2.symm.trans hlost.2
      · exact absurd hcompletes hnot
  · rw [hrun, preserved_ok_iff hparsed]
    constructor
    · intro h
      exact Or.inr (Or.inl ⟨left, hlost, h⟩)
    · rintro (⟨hcompletes, -⟩ | ⟨other, hother, h⟩ | ⟨-, hflushed, -⟩)
      · cases hcompletes.2.symm.trans hlost.2
      · obtain rfl := HostsWrite.unflushed.inj (hlost.2.symm.trans hother.2)
        exact h
      · exact absurd hlost (hflushed left)
  · rw [hrun, preserved_error_iff]
    constructor
    · intro h
      exact Or.inr (Or.inr ⟨hnot, hflushed, congrArg CredentialFiles.keystore h,
        hkept.mp (congrArg CredentialFiles.hosts h)⟩)
    · rintro (⟨hcompletes, -⟩ | ⟨other, hother, -⟩ | ⟨-, -, rfl, hleaves⟩)
      · exact absurd hcompletes hnot
      · exact absurd hother (hflushed other)
      · rw [hkept.mpr hleaves]

theorem migration_preserves_iff (hlib : lib.Lawful) (hlibs : libs.sealing.Lawful)
    (attempt : MigrationAttempt) (password : String) (files : CredentialFiles) :
    Preserved lib libs password files
        (migrateHostsToKeystore lib libs attempt password files) ↔
      MigrationKeeps lib libs attempt password files := by
  cases hparsed : parseHostsYml lib files.hosts with
  | error error =>
    have hrun : migrateHostsToKeystore lib libs attempt password files =
        (.error (.hosts error), files) := by
      simp only [migrateHostsToKeystore, hparsed]
    rw [hrun, preserved_error_iff]
    refine ⟨fun _ hosts hhosts => ?_, fun _ => rfl⟩
    rw [hparsed] at hhosts
    cases hhosts
  | ok hosts =>
    have hkeeps : MigrationKeeps lib libs attempt password files ↔ _ :=
      ⟨fun h => h hosts hparsed, fun h found hfound => by
        obtain rfl : hosts = found := Except.ok.inj (hparsed.symm.trans hfound)
        exact h⟩
    rw [hkeeps]
    by_cases hpending : (pendingSecrets hosts).entries = []
    · rw [preserved_of_no_pending_iff hlib hparsed hpending]
      exact ⟨fun h => ⟨fun _ => h, fun hne => absurd hpending hne⟩, fun h => h.1 hpending⟩
    have hempty : (pendingSecrets hosts).entries.isEmpty = false := by simpa using hpending
    by_cases hbackup : attempt.backupFails = true
    · have hrun : migrateHostsToKeystore lib libs attempt password files =
          (.error .backup, files) := by
        simp only [migrateHostsToKeystore, hparsed, hempty, hbackup, Bool.false_eq_true, if_false,
          if_true]
      rw [hrun, preserved_error_iff]
      refine ⟨fun _ => ⟨fun h => absurd h hpending, fun _ h => ?_⟩, fun _ => rfl⟩
      rw [hbackup] at h
      cases h
    have hbackup' : attempt.backupFails = false := by simpa using hbackup
    rcases upsertSecretAuthBatch_cases libs files.keystore password attempt.keystore
        hpending with ⟨error, herror, hnone⟩ | ⟨store, written, hread, hwrite, hmerged⟩
    · have hrun : migrateHostsToKeystore lib libs attempt password files =
          (.error (.keystore error), files) := by
        simp only [migrateHostsToKeystore, hparsed, hempty, hbackup', herror, Bool.false_eq_true,
          if_false]
      rw [hrun, preserved_error_iff]
      refine ⟨fun _ => ⟨fun h => absurd h hpending, fun _ _ store written hread hwrite => ?_⟩,
        fun _ => rfl⟩
      exact absurd hwrite (hnone store hread written)
    · obtain ⟨counts, hrun⟩ := migrateHostsToKeystore_of_merged hparsed hpending hbackup' hmerged
      rw [hrun]
      have honly : ∀ found other, readStore libs files.keystore password = .ok found →
          writeStore libs attempt.keystore password (mergePending hosts found) = .ok other →
          found = store ∧ other = written := by
        intro found other hfound hother
        obtain rfl := Except.ok.inj (hread.symm.trans hfound)
        exact ⟨rfl, (Except.ok.inj (hwrite.symm.trans hother)).symm⟩
      rw [preserved_of_merged_iff hlib hlibs counts hparsed hread hwrite]
      constructor
      · refine fun h => ⟨fun hnil => absurd hnil hpending, fun _ _ found other hfound hother => ?_⟩
        obtain ⟨rfl, rfl⟩ := honly found other hfound hother
        exact h
      · intro h
        exact h.2 hpending hbackup' store written hread hwrite

end Preservation

section Sample

def sampleMigration : MigrationAttempt := ⟨false, sampleAttempt, .completes⟩

/-- A host with a user in the hosts file, beside a keystore. -/
def plaintextFiles (keystore : SealedFile) : CredentialFiles where
  hosts := .document (.mapping [("prod", .mapping [("auth", .string "Basic"),
    ("username", .string "elastic"), ("password", .string "changeme"),
    ("url", .string "https://es.example/")])])
  keystore

/-- A keystore with an API key under the name of the host. -/
def apiKeyStore : SealedFile :=
  (writeStore sampleLibraries sampleAttempt "pw" { KeystoreData.default with
    secrets := KeyedMap.empty.insert "prod" ⟨some "key", none⟩ }).toOption.getD .absent

def plaintextHost : KnownHost SampleUrl where
  acceptInvalidCerts := false
  app := none
  cloudId := none
  roles := [.collect]
  viewer := none
  url := some rootUrl
  urlTemplate := none
  credential := .legacy (.basic "elastic" "changeme") none

theorem plaintextHosts_parsed (keystore : SealedFile) :
    parseHostsYml sampleUrls (plaintextFiles keystore).hosts =
      .ok (KeyedMap.empty.insert "prod" plaintextHost) := by rfl

theorem readStore_apiKeyStore : readStore sampleLibraries apiKeyStore "pw" =
    .ok { KeystoreData.default with
      secrets := KeyedMap.empty.insert "prod" ⟨some "key", none⟩ } := by
  obtain ⟨written, hwritten⟩ := @exists_written _ sampleLibraries sampleAttempt "pw"
    { KeystoreData.default with secrets := KeyedMap.empty.insert "prod" ⟨some "key", none⟩ }
    (by decide +kernel)
  rw [apiKeyStore, hwritten]
  exact readStore_writeStore sampleSealing_lawful hwritten

/-- The host resolved to its user, and resolves to the API key of its name afterwards. -/
theorem user_shadowed_by_api_key :
    ¬ Preserved sampleUrls sampleLibraries "pw" (plaintextFiles apiKeyStore)
      (migrateHostsToKeystore sampleUrls sampleLibraries sampleMigration "pw"
        (plaintextFiles apiKeyStore)) := by
  intro h
  have hparsed := plaintextHosts_parsed apiKeyStore
  have hvalid : TemplateNamesValid (KeyedMap.empty.insert "prod" plaintextHost) := by
    intro e he
    obtain rfl := List.mem_singleton.mp he
    rfl
  have hpending : (pendingSecrets (KeyedMap.empty.insert "prod" plaintextHost)).entries ≠ [] :=
    List.cons_ne_nil _ _
  rcases upsertSecretAuthBatch_cases sampleLibraries apiKeyStore "pw" sampleAttempt hpending with
    ⟨_, _, hnone⟩ | ⟨store, written, hread, hwrite, hmerged⟩
  · obtain ⟨written, hwrite⟩ := @exists_written _ sampleLibraries sampleAttempt "pw"
      (mergePending (KeyedMap.empty.insert "prod" plaintextHost) { KeystoreData.default with
        secrets := KeyedMap.empty.insert "prod" ⟨some "key", none⟩ }) (by decide +kernel)
    exact hnone _ readStore_apiKeyStore written hwrite
  obtain rfl := Except.ok.inj (readStore_apiKeyStore.symm.trans hread)
  obtain ⟨counts, hrun⟩ := @migrateHostsToKeystore_of_merged _ _ sampleUrls sampleLibraries
    sampleMigration "pw" (plaintextFiles apiKeyStore) _ _ hparsed hpending rfl hmerged
  rw [hrun, preserved_of_merged_iff sampleUrls_lawful sampleSealing_lawful counts hparsed hread
    hwrite] at h
  rcases h with ⟨-, hall⟩ | ⟨left, hlost, -⟩ | ⟨hnot, -⟩
  · cases hall ("prod", plaintextHost) List.mem_cons_self
  · cases hlost.2
  · exact hnot ⟨hvalid, rfl⟩

theorem user_preserved :
    Preserved sampleUrls sampleLibraries "pw" (plaintextFiles .absent)
      (migrateHostsToKeystore sampleUrls sampleLibraries sampleMigration "pw"
        (plaintextFiles .absent)) := by
  apply (migration_preserves_iff sampleUrls_lawful sampleSealing_lawful sampleMigration "pw"
    (plaintextFiles .absent)).mpr
  intro hosts hhosts
  obtain rfl := Except.ok.inj ((plaintextHosts_parsed .absent).symm.trans hhosts)
  refine ⟨fun hnil => ?_, fun _ _ store written hread _ => Or.inl ⟨⟨?_, rfl⟩, ?_⟩⟩
  · cases hnil
  · intro e he
    obtain rfl := List.mem_singleton.mp he
    rfl
  · intro e he
    obtain rfl := List.mem_singleton.mp he
    obtain rfl : KeystoreData.default = store := Except.ok.inj hread
    rfl

end Sample

end Esdiag.KeystoreMigration
