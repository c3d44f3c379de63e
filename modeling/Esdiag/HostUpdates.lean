import Esdiag.DefaultReferences
import Esdiag.ReferenceStability

/-!
Updates of saved hosts by a command. An update names roles, the certificate setting
and a credential; a host with another credential is made of its parts again, without
the Cloud id that was saved with it, and only the address can give it one.
-/
namespace Esdiag.HostUpdates

open KeyedMaps Keystores KnownHosts HostFiles HostReferences HostCommands HostRoundTrip
  CommandJobs DefaultReferences Outcomes

variable {Url : Type} {terminal : Terminal Url} {host merged : KnownHost Url}
  {update : KnownHostCliUpdate} {secretAuth : Option SecretAuth}

/-- The credential that an update names. -/
def givenCredential (update : KnownHostCliUpdate) : Option Credential :=
  match update.secret, update.apikey, update.username, update.password with
  | some secretId, _, _, _ => some (.keystore secretId)
  | none, some apikey, _, _ => some (.runtime (.apiKey apikey))
  | none, none, some username, some password => some (.runtime (.basic username password))
  | none, none, _, _ => none

/-- The update has a credential, and one that is complete. -/
def NamesCredential (update : KnownHostCliUpdate) (secretAuth : Option SecretAuth) : Prop :=
  (update.secret.isSome ∧ secretAuth.isSome) ∨
    update.secret = none ∧
      (update.apikey.isSome ∨ update.username.isSome ∧ update.password.isSome)

/-- The Cloud id that an address gives a host. -/
def addressCloudId (lib : UrlLibrary Url) (host : KnownHost Url) : Option ElasticCloud :=
  host.url.bind fun url => ElasticCloud.tryFrom (lib.domain url)

/-- What an update may change, and what it leaves. -/
structure FrameKept (host : KnownHost Url) (update : KnownHostCliUpdate)
    (merged : KnownHost Url) : Prop where
  roles : merged.roles = update.roles.getD host.roles
  acceptInvalidCerts : merged.acceptInvalidCerts =
    update.acceptInvalidCerts.getD host.acceptInvalidCerts
  credential : merged.credential = (givenCredential update).getD host.credential
  app : merged.app = host.app
  viewer : merged.viewer = host.viewer
  url : merged.url = host.url
  urlTemplate : merged.urlTemplate = host.urlTemplate
  cloudId : merged.cloudId = host.cloudId
  target : ∀ before after, resolveHost ⟨host, none⟩ = .ok before →
    resolveHost ⟨merged, none⟩ = .ok after → uriOf after = uriOf before

theorem mergedCredential_eq_ok {credential : Option Credential}
    (h : mergedCredential update secretAuth = .ok credential) :
    credential = givenCredential update ∧
      (credential.isSome ↔ NamesCredential update secretAuth) := by
  obtain ⟨certs, apikey, password, roles, secret, username⟩ := update
  unfold mergedCredential at h
  cases secret with
  | some secretId =>
    cases secretAuth with
    | none => simp at h
    | some auth =>
      obtain rfl := Except.ok.inj h
      exact ⟨rfl, by simp [NamesCredential]⟩
  | none =>
    cases apikey with
    | some apikey =>
      obtain rfl := Except.ok.inj h
      exact ⟨rfl, by simp [NamesCredential]⟩
    | none =>
      cases username <;> cases password <;>
        first
        | (cases h; done)
        | (obtain rfl := Except.ok.inj h
           exact ⟨rfl, by simp [NamesCredential]⟩)

theorem exists_mergedCredential (h : NamesCredential update secretAuth) :
    ∃ credential, mergedCredential update secretAuth = .ok (some credential) := by
  obtain ⟨certs, apikey, password, roles, secret, username⟩ := update
  rcases h with ⟨hsecret, hauth⟩ | ⟨hsecret, hkey | ⟨husername, hpassword⟩⟩
  · obtain ⟨secretId, rfl⟩ := Option.isSome_iff_exists.mp hsecret
    obtain ⟨auth, rfl⟩ := Option.isSome_iff_exists.mp hauth
    exact ⟨_, rfl⟩
  · obtain ⟨key, rfl⟩ := Option.isSome_iff_exists.mp hkey
    obtain rfl := hsecret
    exact ⟨_, rfl⟩
  · obtain ⟨name, rfl⟩ := Option.isSome_iff_exists.mp husername
    obtain ⟨word, rfl⟩ := Option.isSome_iff_exists.mp hpassword
    obtain rfl := hsecret
    cases apikey with
    | some apikey => exact ⟨_, rfl⟩
    | none => exact ⟨_, rfl⟩

theorem uriOf_eq_of_cloudId {before after : ResolvedHost Url}
    (hbefore : resolveHost ⟨host, none⟩ = .ok before)
    (hafter : resolveHost ⟨merged, none⟩ = .ok after) (h : merged.cloudId = host.cloudId) :
    uriOf after = uriOf before := by
  have hcloud : after.host.cloudId = before.host.cloudId := by
    rw [(resolveHost_eq_ok hbefore).2.2.2.1, (resolveHost_eq_ok hafter).2.2.2.1]
    exact h
  unfold uriOf
  rw [hcloud]

section Parts

variable {lib : UrlLibrary Url} {parts : KnownHost Url}

theorem fromParts_of_url {url : Url} (hurl : parts.url = some url)
    (htemplate : parts.urlTemplate = none) :
    KnownHost.fromParts lib parts = .ok { parts with
      cloudId := parts.cloudId.or (ElasticCloud.tryFrom (lib.domain url))
      url := some (normalizeElasticCloudProxyUrl lib url
        (parts.cloudId.or (ElasticCloud.tryFrom (lib.domain url)))) } := by
  rw [KnownHost.fromParts, hurl, htemplate]

theorem fromParts_of_template {template : String} (hurl : parts.url = none)
    (htemplate : parts.urlTemplate = some template)
    (hvalid : validateUrlTemplate lib template = .ok ()) :
    KnownHost.fromParts lib parts = .ok { parts with cloudId := none } := by
  rw [KnownHost.fromParts, hurl, htemplate]
  simp only [hvalid]

/-- A canonical host has an address in normal form or a checked template. -/
theorem cases_of_isCanonical (h : IsCanonical lib host) :
    (∃ url, host.url = some url ∧ host.urlTemplate = none ∧
      host.cloudId.or (ElasticCloud.tryFrom (lib.domain url)) = host.cloudId ∧
      normalizeElasticCloudProxyUrl lib url host.cloudId = url) ∨
    ∃ template, host.url = none ∧ host.urlTemplate = some template ∧
      validateUrlTemplate lib template = .ok () ∧ host.cloudId = none := by
  unfold IsCanonical at h
  cases hurl : host.url with
  | none =>
    cases htemplate : host.urlTemplate with
    | none => simp [KnownHost.fromParts, hurl, htemplate] at h
    | some template =>
      cases hvalid : validateUrlTemplate lib template with
      | error message => simp [KnownHost.fromParts, hurl, htemplate, hvalid] at h
      | ok _ =>
        rw [fromParts_of_template hurl htemplate hvalid] at h
        exact Or.inr ⟨template, rfl, rfl, hvalid,
          (congrArg KnownHost.cloudId (Except.ok.inj h)).symm⟩
  | some url =>
    cases htemplate : host.urlTemplate with
    | some template => simp [KnownHost.fromParts, hurl, htemplate] at h
    | none =>
      rw [fromParts_of_url hurl htemplate] at h
      have hcloud := congrArg KnownHost.cloudId (Except.ok.inj h)
      have hnormal := congrArg KnownHost.url (Except.ok.inj h)
      simp only at hcloud hnormal
      rw [hcloud, hurl] at hnormal
      exact Or.inl ⟨url, rfl, rfl, hcloud, Option.some.inj hnormal⟩

/-- The parts of a canonical host with the Cloud id of its address make a host with that id,
which is reached as before where the Cloud id is the same. -/
theorem fromParts_canonical (hcanonical : IsCanonical lib host) (hurl : parts.url = host.url)
    (htemplate : parts.urlTemplate = host.urlTemplate)
    (hcloud : parts.cloudId = addressCloudId lib host) :
    ∃ address, KnownHost.fromParts lib parts =
        .ok { parts with cloudId := addressCloudId lib host, url := address } ∧
      (host.cloudId = addressCloudId lib host → address = host.url) := by
  rcases cases_of_isCanonical hcanonical with
    ⟨url, hhost, hnone, hkept, hnormal⟩ | ⟨template, hhost, hsome, hvalid, hnone⟩
  · have hown : addressCloudId lib host = ElasticCloud.tryFrom (lib.domain url) := by
      rw [addressCloudId, hhost, Option.bind_some]
    refine ⟨some (normalizeElasticCloudProxyUrl lib url (addressCloudId lib host)), ?_, ?_⟩
    · rw [fromParts_of_url (hurl.trans hhost) (htemplate.trans hnone), hcloud, hown,
        Option.or_self]
    · intro hsame
      rw [← hsame, hnormal, hhost]
  · have hown : addressCloudId lib host = none := by
      rw [addressCloudId, hhost, Option.bind_none]
    refine ⟨host.url, ?_, fun _ => rfl⟩
    rw [fromParts_of_template (hurl.trans hhost) (htemplate.trans hsome) hvalid, hown, ← hurl]

end Parts

/-- With another credential a host is made again, otherwise it keeps all but what is named. -/
theorem mergeCliUpdate_cases
    (hcanonical : IsCanonical terminal.world.lib.toUrlLibrary host)
    (h : mergeCliUpdate terminal host update secretAuth = .ok merged) :
    (¬NamesCredential update secretAuth ∧ givenCredential update = none ∧
      merged = { host with
        roles := update.roles.getD host.roles
        acceptInvalidCerts := update.acceptInvalidCerts.getD host.acceptInvalidCerts }) ∨
    NamesCredential update secretAuth ∧ ∃ credential address,
      givenCredential update = some credential ∧
      merged = { host with
        roles := update.roles.getD host.roles
        acceptInvalidCerts := update.acceptInvalidCerts.getD host.acceptInvalidCerts
        credential := credential
        cloudId := addressCloudId terminal.world.lib.toUrlLibrary host
        url := address } ∧
      (host.cloudId = addressCloudId terminal.world.lib.toUrlLibrary host →
        address = host.url) := by
  unfold mergeCliUpdate at h
  cases hmerged : mergedCredential update secretAuth with
  | error error => simp [hmerged] at h
  | ok credential =>
    obtain ⟨hgiven, hnames⟩ := mergedCredential_eq_ok hmerged
    cases credential with
    | none =>
      simp only [hmerged] at h
      exact Or.inl ⟨fun hn => absurd (hnames.mpr hn) (by decide), hgiven.symm,
        (Except.ok.inj h).symm⟩
    | some credential =>
      simp only [hmerged] at h
      obtain ⟨address, hmade, haddress⟩ := @fromParts_canonical _ _
        terminal.world.lib.toUrlLibrary { host with
          acceptInvalidCerts := update.acceptInvalidCerts.getD host.acceptInvalidCerts
          cloudId := addressCloudId terminal.world.lib.toUrlLibrary host
          roles := update.roles.getD host.roles
          credential } hcanonical rfl rfl rfl
      have hresult := mapError_eq_ok.mp h
      refine Or.inr ⟨hnames.mp rfl, credential, address, hgiven.symm, ?_, haddress⟩
      exact (Except.ok.inj (hmade.symm.trans hresult)).symm

theorem exists_mergeCliUpdate
    (hcanonical : IsCanonical terminal.world.lib.toUrlLibrary host)
    (h : NamesCredential update secretAuth) :
    ∃ merged, mergeCliUpdate terminal host update secretAuth = .ok merged := by
  obtain ⟨credential, hcredential⟩ := exists_mergedCredential h
  obtain ⟨address, hmade, -⟩ := @fromParts_canonical _ _
    terminal.world.lib.toUrlLibrary { host with
      acceptInvalidCerts := update.acceptInvalidCerts.getD host.acceptInvalidCerts
      cloudId := addressCloudId terminal.world.lib.toUrlLibrary host
      roles := update.roles.getD host.roles
      credential } hcanonical rfl rfl rfl
  simp only [mergeCliUpdate, hcredential]
  exact ⟨_, mapError_eq_ok.mpr hmade⟩

/-- An update of a saved host keeps everything else exactly where the host has the Cloud id of
its address, or the update has no credential. -/
theorem update_frame_iff (hlib : terminal.world.lib.toUrlLibrary.Lawful) {file : HostsFile}
    {hosts : KeyedMap String (KnownHost Url)} {name : String}
    (hparsed : parseHostsYml terminal.world.lib.toUrlLibrary file = .ok hosts)
    (hsaved : hosts.find? name = some host) (update : KnownHostCliUpdate)
    (secretAuth : Option SecretAuth) :
    (∀ merged, mergeCliUpdate terminal host update secretAuth = .ok merged →
      FrameKept host update merged) ↔
        (NamesCredential update secretAuth →
          host.cloudId = addressCloudId terminal.world.lib.toUrlLibrary host) := by
  have hcanonical : IsCanonical terminal.world.lib.toUrlLibrary host :=
    ((parseHostsYml_eq_ok hparsed).1 _ (KeyedMap.find?_eq_some_iff.mp hsaved)).1 hlib
  constructor
  · intro hframe hnames
    obtain ⟨merged, hmerged⟩ := exists_mergeCliUpdate hcanonical hnames
    have hkept := (hframe merged hmerged).cloudId
    rcases mergeCliUpdate_cases hcanonical hmerged with
      ⟨hnone, -⟩ | ⟨-, credential, address, -, rfl, -⟩
    · exact absurd hnames hnone
    · exact hkept.symm
  · intro hcloud merged hmerged
    rcases mergeCliUpdate_cases hcanonical hmerged with
      ⟨-, hgiven, rfl⟩ | ⟨hnames, credential, address, hgiven, rfl, haddress⟩
    · exact ⟨rfl, rfl, by rw [hgiven, Option.getD_none], rfl, rfl, rfl, rfl, rfl,
        fun before after hbefore hafter => uriOf_eq_of_cloudId hbefore hafter rfl⟩
    · have hsame := hcloud hnames
      exact ⟨rfl, rfl, by rw [hgiven, Option.getD_some], rfl, rfl, haddress hsame, rfl,
        hsame.symm, fun before after hbefore hafter =>
          uriOf_eq_of_cloudId hbefore hafter hsame.symm⟩

section Samples

open YamlValues ReferenceStability

/-- A host without a Cloud id, and one behind a proxy with the Cloud id that was saved. -/
def hostsFile : HostsFile :=
  .document (.mapping [
    ("prod", .mapping [("app", .string "elasticsearch"), ("roles", .sequence [.string "collect"]),
      ("url", .string "https://es.prod.example/")]),
    ("admin", .mapping [("app", .string "elasticsearch"), ("cloud_id", .string "ElasticCloudAdmin"),
      ("roles", .sequence [.string "collect"]), ("url", .string "https://proxy.example/")])])

def hostNamed (name domain : String) (hplain : '/' ∉ domain.toList)
    (cloudId : Option ElasticCloud) : String × KnownHost SampleUrl :=
  (name, {
    acceptInvalidCerts := false, app := some .elasticsearch, cloudId, roles := [.collect]
    viewer := none, url := some ⟨domain, "", hplain⟩, urlTemplate := none, credential := .none })

def prodHost : String × KnownHost SampleUrl := hostNamed "prod" "es.prod.example" (by decide) none

def adminHost : String × KnownHost SampleUrl :=
  hostNamed "admin" "proxy.example" (by decide) (some .elasticCloudAdmin)

theorem exists_saved (entry : String × KnownHost SampleUrl)
    (h : (parseHostsYml sampleTerminal.world.lib.toUrlLibrary hostsFile).toOption.bind
      (·.find? entry.1) = some entry.2) :
    ∃ hosts, parseHostsYml sampleTerminal.world.lib.toUrlLibrary hostsFile = .ok hosts ∧
      hosts.find? entry.1 = some entry.2 := by
  cases hparsed : parseHostsYml sampleTerminal.world.lib.toUrlLibrary hostsFile with
  | error error => simp [hparsed, Except.toOption] at h
  | ok hosts => exact ⟨hosts, rfl, by simpa [hparsed, Except.toOption] using h⟩

/-- An update with a secret. -/
def secretUpdate : KnownHostCliUpdate := ⟨none, none, none, none, some "prod-key", none⟩

theorem prod_update_frame :
    ∃ merged, mergeCliUpdate sampleTerminal prodHost.2 secretUpdate (some (.apiKey "key")) =
      .ok merged ∧ FrameKept prodHost.2 secretUpdate merged := by
  obtain ⟨hosts, hparsed, hsaved⟩ := exists_saved prodHost (by decide +kernel)
  have hframe := (update_frame_iff sampleUrls_lawful hparsed hsaved secretUpdate
    (some (.apiKey "key"))).mpr fun _ => by decide
  exact ⟨_, rfl, hframe _ rfl⟩

/-- A new credential drops the Cloud id that was saved. -/
theorem admin_update_drops_cloud_id :
    ∃ hosts, parseHostsYml sampleTerminal.world.lib.toUrlLibrary hostsFile = .ok hosts ∧
      hosts.find? "admin" = some adminHost.2 ∧
      ∃ merged, mergeCliUpdate sampleTerminal adminHost.2 secretUpdate (some (.apiKey "key")) =
        .ok merged ∧ ¬FrameKept adminHost.2 secretUpdate merged := by
  obtain ⟨hosts, hparsed, hsaved⟩ := exists_saved adminHost (by decide +kernel)
  refine ⟨hosts, hparsed, hsaved, _, rfl, fun hframe => ?_⟩
  exact absurd hframe.cloudId (by decide)

end Samples

end Esdiag.HostUpdates
