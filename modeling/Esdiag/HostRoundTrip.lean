import Esdiag.HostFiles
import Esdiag.Outcomes

/-!
Writing the hosts file and reading it back. The layout that is written reads
back field by field; roles and credentials are in their normal form once they
are written. What remains is how a host was made: reading makes every host of
its parts, so a host that is not as its parts make it comes back changed, or
not at all.
-/
namespace Esdiag.HostRoundTrip

open KeyedMaps YamlValues Fields Deployments Keystores KnownHosts HostFiles Outcomes

section Roles

theorem mem_dedupAfter {role previous : HostRole} {roles : List HostRole} :
    role ∈ previous :: dedupAfter previous roles ↔ role ∈ previous :: roles := by
  induction roles generalizing previous with
  | nil => exact Iff.rfl
  | cons first rest ih =>
    unfold dedupAfter
    by_cases hfirst : first = previous
    · rw [if_pos hfirst, ih, hfirst]
      simp
    · rw [if_neg hfirst, List.mem_cons, ih, ← List.mem_cons]

theorem mem_dedup {role : HostRole} {roles : List HostRole} : role ∈ dedup roles ↔ role ∈ roles := by
  cases roles with
  | nil => exact Iff.rfl
  | cons first rest => exact mem_dedupAfter

/-- What is left of sorted roles is strictly sorted. -/
theorem pairwise_dedupAfter {previous : HostRole} {roles : List HostRole}
    (h : (previous :: roles).Pairwise fun a b => a.rank ≤ b.rank) :
    (previous :: dedupAfter previous roles).Pairwise fun a b => a.rank < b.rank := by
  induction roles generalizing previous with
  | nil => exact List.pairwise_singleton _ _
  | cons first rest ih =>
    unfold dedupAfter
    have hrest : (first :: rest).Pairwise fun a b => a.rank ≤ b.rank := h.of_cons
    by_cases hfirst : first = previous
    · rw [if_pos hfirst, ← hfirst]
      exact ih hrest
    · rw [if_neg hfirst]
      refine List.pairwise_cons.mpr ⟨fun role hrole => ?_, ih hrest⟩
      have hle : previous.rank ≤ first.rank := (List.pairwise_cons.mp h).1 first (by simp)
      have hne : previous.rank ≠ first.rank := fun heq => hfirst (HostRole.rank_injective heq).symm
      have hmem : role ∈ first :: rest := mem_dedupAfter.mp hrole
      rcases List.mem_cons.mp hmem with rfl | hmem
      · omega
      · have := (List.pairwise_cons.mp hrest).1 role hmem
        omega

theorem dedupAfter_of_pairwise {previous : HostRole} {roles : List HostRole}
    (h : (previous :: roles).Pairwise fun a b => a.rank < b.rank) :
    dedupAfter previous roles = roles := by
  induction roles generalizing previous with
  | nil => rfl
  | cons first rest ih =>
    have hlt := (List.pairwise_cons.mp h).1 first (by simp)
    have hne : first ≠ previous := by
      rintro rfl
      omega
    rw [dedupAfter, if_neg hne, ih h.of_cons]

theorem normalizeRoles_pairwise (roles : List HostRole) :
    (normalizeRoles roles).Pairwise fun a b => a.rank < b.rank := by
  unfold normalizeRoles
  have hsorted : ((if roles.isEmpty then [.collect] else roles).insertionSort
      fun a b : HostRole => a.rank ≤ b.rank).Pairwise fun a b => a.rank ≤ b.rank := by
    have : Std.Total fun a b : HostRole => a.rank ≤ b.rank := ⟨fun a b => Nat.le_total _ _⟩
    have : IsTrans HostRole fun a b => a.rank ≤ b.rank := ⟨fun _ _ _ => Nat.le_trans⟩
    exact List.pairwise_insertionSort _ _
  revert hsorted
  generalize (if roles.isEmpty then [.collect] else roles).insertionSort
    (fun a b : HostRole => a.rank ≤ b.rank) = sorted
  intro hsorted
  cases sorted with
  | nil => exact List.Pairwise.nil
  | cons first rest => exact pairwise_dedupAfter hsorted

theorem mem_normalizeRoles {role : HostRole} {roles : List HostRole} :
    role ∈ normalizeRoles roles ↔ role ∈ roles ∨ roles = [] ∧ role = .collect := by
  unfold normalizeRoles
  rw [mem_dedup, List.mem_insertionSort]
  cases roles with
  | nil => simp
  | cons first rest => simp

theorem normalizeRoles_ne_nil (roles : List HostRole) : normalizeRoles roles ≠ [] := by
  cases roles with
  | nil => decide
  | cons first rest =>
    intro hnil
    have hmem : first ∈ normalizeRoles (first :: rest) := mem_normalizeRoles.mpr (Or.inl (by simp))
    rw [hnil] at hmem
    cases hmem

theorem normalizeRoles_of_pairwise {roles : List HostRole} (hne : roles ≠ [])
    (h : roles.Pairwise fun a b => a.rank < b.rank) : normalizeRoles roles = roles := by
  have hle : roles.Pairwise fun a b => a.rank ≤ b.rank := h.imp fun hlt => Nat.le_of_lt hlt
  cases roles with
  | nil => exact absurd rfl hne
  | cons first rest =>
    have hsort : (first :: rest).insertionSort (fun a b : HostRole => a.rank ≤ b.rank) =
        first :: rest := hle.insertionSort_eq
    simp only [normalizeRoles, List.isEmpty_cons, Bool.false_eq_true, if_false, hsort, dedup,
      dedupAfter_of_pairwise h]

@[simp] theorem normalizeRoles_normalizeRoles (roles : List HostRole) :
    normalizeRoles (normalizeRoles roles) = normalizeRoles roles :=
  normalizeRoles_of_pairwise (normalizeRoles_ne_nil roles) (normalizeRoles_pairwise roles)

end Roles

section Entries

variable {Url : Type} {lib : UrlLibrary Url}

theorem all_present {key : String} {value : Option Yaml} {known : List String} (h : key ∈ known) :
    (present key value).all (fun field => decide (field.1 ∈ known)) = true := by
  cases value with
  | none => rfl
  | some value => simp [present, h]

theorem deserializeHostApp_key (app : Application) :
    deserializeHostApp (.string app.key) = some (some app) := by
  cases app <;> decide

theorem readRoles_write (roles : List HostRole) :
    readRoles (.sequence (roles.map fun role => .string role.key)) = some roles := by
  show readAll readRole (roles.map fun role => Yaml.string role.key) = some roles
  apply readAll_map
  intro role
  exact HostRole.ofKey_key role

theorem readLegacyWire_writeHost (host : KnownHost Url) :
    readLegacyWire lib (writeHost lib host) = none := by
  unfold readLegacyWire writeHost
  simp [Yaml.asMapping, required, hostFields]

/-- A flat entry reads back field by field. -/
theorem readFlatWire_writeHost (hlib : lib.Lawful) (host : KnownHost Url) :
    readFlatWire lib (writeHost lib host) =
      some { acceptInvalidCerts := host.acceptInvalidCerts
             app := host.app
             cloudId := host.cloudId
             roles := host.roles
             secret := host.credential.secretReference
             viewer := host.viewer
             url := host.url
             urlTemplate := host.urlTemplate
             apikey := none
             username := none
             password := none } := by
  have hknown : denyUnknownFields ["accept_invalid_certs", "app", "cloud_id", "roles", "secret",
      "viewer", "url", "url_template", "apikey", "username", "password"] (hostFields lib host) =
      some () := by
    simp only [denyUnknownFields, hostFields, List.all_append]
    rw [all_present (by simp), all_present (by simp), all_present (by simp), all_present (by simp),
      all_present (by simp), all_present (by simp), all_present (by simp), all_present (by simp)]
    rfl
  have hcerts : withDefault "accept_invalid_certs" Yaml.asBool false (hostFields lib host) =
      some host.acceptInvalidCerts := by
    cases hvalue : host.acceptInvalidCerts <;>
      simp [hostFields, withDefault, hvalue, Yaml.asBool]
  have happ : withDefault "app" deserializeHostApp none (hostFields lib host) =
      some host.app := by
    cases hvalue : host.app <;> simp [hostFields, withDefault, hvalue, deserializeHostApp_key]
  have hcloud : ifPresent "cloud_id" readCloud (hostFields lib host) = some host.cloudId := by
    apply ifPresent_of_findEntry fun cloud => .string (ElasticCloud.name cloud)
    · simp [hostFields]
    · intro cloud _
      exact ⟨ElasticCloud.ofName_name cloud, rfl⟩
  have hroles : withDefault "roles" readRoles defaultCollectRoles (hostFields lib host) =
      some host.roles := by
    by_cases hdefault : host.roles = defaultCollectRoles
    · simp [hostFields, withDefault, hdefault]
    · simp [hostFields, withDefault, hdefault, readRoles_write]
  have htext : ∀ key value, findEntry key (hostFields lib host) = value.map Yaml.string →
      ifPresent key Yaml.asString (hostFields lib host) = some value := fun key value hfield =>
    ifPresent_of_findEntry .string hfield fun text _ => ⟨rfl, rfl⟩
  have hsecret := htext "secret" host.credential.secretReference (by simp [hostFields])
  have hviewer := htext "viewer" host.viewer (by simp [hostFields])
  have htemplate := htext "url_template" host.urlTemplate (by simp [hostFields])
  have hapikey := htext "apikey" none (by simp [hostFields])
  have husername := htext "username" none (by simp [hostFields])
  have hpassword := htext "password" none (by simp [hostFields])
  have hurl : ifPresent "url" (readUrl lib) (hostFields lib host) = some host.url := by
    apply ifPresent_of_findEntry fun url => .string (lib.display url)
    · simp [hostFields]
    · intro url _
      exact ⟨hlib.parse_display url, rfl⟩
  refine (bind_of_eq_some hknown _).trans ?_
  refine (bind_of_eq_some hcerts _).trans ?_
  refine (bind_of_eq_some happ _).trans ?_
  refine (bind_of_eq_some hcloud _).trans ?_
  refine (bind_of_eq_some hroles _).trans ?_
  refine (bind_of_eq_some hsecret _).trans ?_
  refine (bind_of_eq_some hviewer _).trans ?_
  refine (bind_of_eq_some hurl _).trans ?_
  refine (bind_of_eq_some htemplate _).trans ?_
  refine (bind_of_eq_some hapikey _).trans ?_
  refine (bind_of_eq_some husername _).trans ?_
  exact bind_of_eq_some hpassword _

/-- What is written of a host reads back as what its parts make. -/
theorem readHost_writeHost (hlib : lib.Lawful) {host : KnownHost Url} {kept : Credential}
    (hkept : kept.persisted = .ok host.credential) :
    readHost lib (writeHost lib host) = (KnownHost.fromParts lib host).toOption := by
  have hcredential := (Credential.fromHostsYml_of_persisted hkept).1
  simp only [readHost, readLegacyWire_writeHost, readFlatWire_writeHost hlib, Option.bind_some,
    fromFlatWire, hostsYmlCredential, Auth.fromParts, hcredential]
  rfl

end Entries

section Canonical

variable {Url : Type} {lib : UrlLibrary Url}

/-- A host that is as its own parts make it. -/
def IsCanonical (lib : UrlLibrary Url) (host : KnownHost Url) : Prop :=
  KnownHost.fromParts lib host = .ok host

theorem endsWith_proxy_append_slash (path : String) :
    Texts.endsWith (path ++ "/") "/proxy" = false := by
  by_contra h
  have hsuffix : "/proxy".toList <:+ (path ++ "/").toList := by
    simpa [Texts.endsWith] using h
  obtain ⟨start, hstart⟩ := hsuffix
  have hlast := congrArg List.getLast? hstart
  simp at hlast

theorem normalizeElasticCloudProxyUrl_twice (hlib : lib.Lawful) (url : Url)
    (cloudId : Option ElasticCloud) :
    normalizeElasticCloudProxyUrl lib (normalizeElasticCloudProxyUrl lib url cloudId) cloudId =
      normalizeElasticCloudProxyUrl lib url cloudId := by
  by_cases hproxy : (cloudId.isSome && Texts.endsWith (lib.path url) "/proxy") = true
  · have hurl : normalizeElasticCloudProxyUrl lib url cloudId =
        lib.setPath url (lib.path url ++ "/") := if_pos hproxy
    rw [hurl]
    unfold normalizeElasticCloudProxyUrl
    rw [hlib.path_setPath, endsWith_proxy_append_slash, Bool.and_false, if_neg (by simp)]
  · have hurl : normalizeElasticCloudProxyUrl lib url cloudId = url := if_neg hproxy
    rw [hurl, hurl]

/-- Every host that is made of parts is canonical. -/
theorem isCanonical_of_fromParts (hlib : lib.Lawful) {parts host : KnownHost Url}
    (h : KnownHost.fromParts lib parts = .ok host) : IsCanonical lib host := by
  obtain ⟨certs, app, cloudId, roles, viewer, url, urlTemplate, credential⟩ := parts
  cases url with
  | none =>
    cases urlTemplate with
    | none => simp [KnownHost.fromParts] at h
    | some template =>
      cases htemplate : validateUrlTemplate lib template with
      | error message => simp [KnownHost.fromParts, htemplate] at h
      | ok _ =>
        simp only [KnownHost.fromParts, htemplate, Except.ok.injEq] at h
        subst h
        simp [IsCanonical, KnownHost.fromParts, htemplate]
  | some url =>
    cases urlTemplate with
    | some template => simp [KnownHost.fromParts] at h
    | none =>
      obtain rfl := Except.ok.inj h
      simp only [IsCanonical, KnownHost.fromParts]
      cases hcloud : cloudId.or (ElasticCloud.tryFrom (lib.domain url)) with
      | some cloud =>
        rw [Option.some_or, normalizeElasticCloudProxyUrl_twice hlib]
      | none =>
        have hurl : normalizeElasticCloudProxyUrl lib url none = url := rfl
        rw [hurl, (Option.or_eq_none_iff.mp hcloud).2]
        rfl

/-- Whether a host is canonical depends on how it is reached alone. -/
theorem IsCanonical.congr {host other : KnownHost Url} (h : IsCanonical lib host)
    (hurl : other.url = host.url) (htemplate : other.urlTemplate = host.urlTemplate)
    (hcloud : other.cloudId = host.cloudId) : IsCanonical lib other := by
  obtain ⟨certs, app, cloudId, roles, viewer, url, urlTemplate, credential⟩ := host
  obtain ⟨certs', app', cloudId', roles', viewer', url', urlTemplate', credential'⟩ := other
  simp only at hurl htemplate hcloud
  subst hurl htemplate hcloud
  unfold IsCanonical KnownHost.fromParts at h ⊢
  cases url' with
  | none =>
    cases urlTemplate' with
    | none => cases h
    | some template =>
      cases hvalid : validateUrlTemplate lib template with
      | error message => simp [hvalid] at h
      | ok _ => simpa [hvalid] using h
  | some url =>
    cases urlTemplate' with
    | some template => cases h
    | none => simpa using h

/-- Of its parts a host keeps all but the way it is reached. -/
theorem kept_of_fromParts {parts host : KnownHost Url}
    (h : KnownHost.fromParts lib parts = .ok host) :
    host.app = parts.app ∧ host.roles = parts.roles ∧ host.credential = parts.credential := by
  obtain ⟨certs, app, cloudId, roles, viewer, url, urlTemplate, credential⟩ := parts
  cases url with
  | none =>
    cases urlTemplate with
    | none => cases h
    | some template =>
      cases htemplate : validateUrlTemplate lib template with
      | error message => simp [KnownHost.fromParts, htemplate] at h
      | ok _ =>
        simp only [KnownHost.fromParts, htemplate, Except.ok.injEq] at h
        rw [← h]
        exact ⟨rfl, rfl, rfl⟩
  | some url =>
    cases urlTemplate with
    | some template => cases h
    | none =>
      rw [← Except.ok.inj h]
      exact ⟨rfl, rfl, rfl⟩

theorem hostsYmlCredential_ne_runtime {secret apikey username password : Option String}
    {credential : Credential}
    (h : hostsYmlCredential secret apikey username password = .ok credential) (auth : SecretAuth) :
    credential ≠ .runtime auth := by
  unfold hostsYmlCredential at h
  cases hauth : Auth.fromParts apikey username password with
  | error message => simp [hauth] at h
  | ok parsed =>
    obtain rfl : Credential.fromHostsYml secret parsed = credential := by simpa [hauth] using h
    cases parsed with
    | apikey key => exact Credential.noConfusion
    | basic username password => exact Credential.noConfusion
    | none => cases secret <;> exact Credential.noConfusion

/-- A host that is read is made of parts, of which the credential is not a runtime one. -/
theorem fromParts_of_readHost {value : Yaml} {host : KnownHost Url}
    (h : readHost lib value = some host) :
    ∃ parts, KnownHost.fromParts lib parts = .ok host ∧
      ∀ auth, parts.credential ≠ .runtime auth := by
  have hparts : ∀ (credential : Except String Credential) (parts : Credential → KnownHost Url),
      (∀ c, credential = .ok c → ∀ auth, (parts c).credential ≠ .runtime auth) →
      (credential >>= fun c => KnownHost.fromParts lib (parts c)).toOption = some host →
      ∃ parts, KnownHost.fromParts lib parts = .ok host ∧
        ∀ auth, parts.credential ≠ .runtime auth := by
    intro credential parts hplain hhost
    cases credential with
    | error message => cases hhost
    | ok credential =>
      refine ⟨parts credential, ?_, hplain credential rfl⟩
      cases hmade : KnownHost.fromParts lib (parts credential) with
      | error message =>
        have hnone : (KnownHost.fromParts lib (parts credential)).toOption = some host := hhost
        rw [hmade] at hnone
        cases hnone
      | ok made =>
        have hsome : (KnownHost.fromParts lib (parts credential)).toOption = some host := hhost
        rw [hmade] at hsome
        exact congrArg Except.ok (Option.some.inj hsome)
  unfold readHost at h
  cases hlegacy : readLegacyWire lib value with
  | some legacy =>
    rw [hlegacy] at h
    cases legacy with
    | apiKey certs apikey app cloudId roles secret viewer url =>
      exact hparts _ _ (fun c hc => hostsYmlCredential_ne_runtime hc) h
    | basic certs app password roles secret viewer url username =>
      exact hparts _ _ (fun c hc => hostsYmlCredential_ne_runtime hc) h
    | noAuth certs app roles viewer url =>
      refine hparts (.ok .none) (fun c => ⟨certs, app, none, roles, viewer, some url, none, c⟩)
        (fun c hc auth => ?_) h
      obtain rfl := Except.ok.inj hc
      exact Credential.noConfusion
  | none =>
    rw [hlegacy] at h
    obtain ⟨flat, -, hflat⟩ := Option.bind_eq_some_iff.mp h
    exact hparts _ _ (fun c hc => hostsYmlCredential_ne_runtime hc) hflat

end Canonical

section Checks

variable {Url : Type} {lib : UrlLibrary Url}

theorem checkEach_eq_ok_iff {α ε : Type} {check : α → Except ε Unit} {items : List α} :
    checkEach check items = .ok () ↔ ∀ a ∈ items, check a = .ok () := by
  induction items with
  | nil => simp [checkEach]
  | cons a rest ih =>
    cases ha : check a with
    | error error => simp [checkEach, ha]
    | ok _ => simp [checkEach, ha, ih]

/-- Checking and normalizing roles touches nothing else. -/
theorem normalizeAndValidateRoles_eq_ok {name : String} {host out : KnownHost Url}
    (h : normalizeAndValidateRoles name host = .ok out) :
    out = { host with roles := normalizeRoles host.roles } ∧
      normalizeAndValidateRoles name out = .ok out := by
  unfold normalizeAndValidateRoles at h
  cases hroles : checkEach (validateRole name host.app host.urlTemplate.isSome)
      (normalizeRoles host.roles) with
  | error message => simp [hroles] at h
  | ok _ =>
    obtain rfl : { host with roles := normalizeRoles host.roles } = out := by
      simpa [hroles] using h
    refine ⟨rfl, ?_⟩
    simp only [normalizeAndValidateRoles, normalizeRoles_normalizeRoles, hroles]

/-- What a write accepts of a host, and that it accepts the result again. -/
theorem normalizeForWrite_eq_ok {name : String} {host out : KnownHost Url}
    (h : normalizeForWrite name host = .ok out) :
    ∃ credential, host.credential.persisted = .ok credential ∧
      out = { host with roles := normalizeRoles host.roles, credential } ∧
      normalizeAndValidateRoles name out = .ok out ∧ normalizeForWrite name out = .ok out := by
  unfold normalizeForWrite at h
  cases hroles : normalizeAndValidateRoles name host with
  | error error => simp [hroles] at h
  | ok normalized =>
    obtain ⟨rfl, hagain⟩ := normalizeAndValidateRoles_eq_ok hroles
    cases htemplate : validateTemplateHost name
        { host with roles := normalizeRoles host.roles } with
    | error message => simp [hroles, htemplate] at h
    | ok _ =>
      cases hcredential : host.credential.persisted with
      | error error => simp [hroles, htemplate, hcredential] at h
      | ok credential =>
        obtain rfl : { host with roles := normalizeRoles host.roles, credential } = out := by
          simpa [hroles, htemplate, hcredential] using h
        have hkept := (Credential.fromHostsYml_of_persisted hcredential).2.1
        have hroles' : normalizeAndValidateRoles name
            { host with roles := normalizeRoles host.roles, credential } =
            .ok { host with roles := normalizeRoles host.roles, credential } := by
          unfold normalizeAndValidateRoles at hagain ⊢
          simp only [normalizeRoles_normalizeRoles] at hagain ⊢
          cases hcheck : checkEach (validateRole name host.app host.urlTemplate.isSome)
              (normalizeRoles host.roles) with
          | error message => simp [hcheck] at hagain
          | ok _ => rfl
        refine ⟨credential, rfl, rfl, hroles', ?_⟩
        have htemplate' : validateTemplateHost name
            { host with roles := normalizeRoles host.roles, credential } = .ok () := htemplate
        simp only [normalizeForWrite, hroles', htemplate', hkept]

theorem normalizeHosts_eq_ok {file : HostsFile} {hosts out : KeyedMap String (KnownHost Url)}
    (h : normalizeHosts lib file hosts = .ok out) :
    traverseEntries normalizeForWrite hosts.entries = .ok out.entries ∧
      validateViewerLinks out = .ok () := by
  obtain ⟨_, -, h⟩ := bind_eq_ok h
  obtain ⟨normalized, hhosts, h⟩ := bind_eq_ok h
  obtain ⟨_, hviewers, h⟩ := bind_eq_ok h
  obtain rfl : normalized = out := Except.ok.inj h
  exact ⟨KeyedMap.traverse_eq_ok_iff.mp hhosts, hviewers⟩

/-- Where no name is new, the reserved ones are let through. -/
theorem rejectNewReservedNames_of_existing {file : HostsFile}
    {existing hosts : KeyedMap String (KnownHost Url)} (hfile : parseHostsYml lib file = .ok existing)
    (hnames : ∀ e ∈ hosts.entries, e.1 ∈ existing.entries.map Prod.fst) :
    rejectNewReservedNames lib file hosts = .ok () := by
  unfold rejectNewReservedNames
  rw [hfile]
  apply checkEach_eq_ok_iff.mpr
  intro e he
  have hcontains : (existing.entries.map Prod.fst).contains e.1 = true := by
    simpa using hnames e he
  have hold : ((Except.ok existing : Except HostsError _).toOption.getD .empty) = existing := rfl
  rw [hold, hcontains, Bool.not_true, Bool.and_false]
  rfl

theorem readHost_of_readMap {content : Yaml} {hosts : KeyedMap String (KnownHost Url)}
    (h : readMap HostsError.unreadable (readHost lib) content = .ok hosts)
    {e : String × KnownHost Url} (he : e ∈ hosts.entries) :
    ∃ value, readHost lib value = some e.2 := by
  unfold readMap at h
  cases hfields : content.asMapping.bind KeyedMap.ofEntries? with
  | none => simp [hfields] at h
  | some fields =>
    simp only [hfields] at h
    obtain ⟨value, -, hvalue⟩ :=
      mem_of_mem_traverseEntries (KeyedMap.traverse_eq_ok_iff.mp h) he
    refine ⟨value, ?_⟩
    cases hread : readHost lib value with
    | none => simp [hread] at hvalue
    | some host => simpa [hread] using hvalue

/-- What a file that is read holds: hosts of parts, with normal roles and checked links. -/
theorem parseHostsYml_eq_ok {file : HostsFile} {hosts : KeyedMap String (KnownHost Url)}
    (h : parseHostsYml lib file = .ok hosts) :
    (∀ e ∈ hosts.entries, (lib.Lawful → IsCanonical lib e.2) ∧
      normalizeAndValidateRoles e.1 e.2 = .ok e.2 ∧
      ∀ auth, e.2.credential ≠ .runtime auth) ∧ validateViewerLinks hosts = .ok () := by
  cases file with
  | absent =>
    obtain rfl : KeyedMap.empty = hosts := Except.ok.inj h
    exact ⟨fun e he => absurd he List.not_mem_nil, rfl⟩
  | unparsed => cases h
  | document content =>
    obtain ⟨raw, hraw, h⟩ := bind_eq_ok h
    obtain ⟨normalized, hnormalized, h⟩ := bind_eq_ok h
    obtain ⟨_, hviewers, h⟩ := bind_eq_ok h
    obtain rfl : normalized = hosts := Except.ok.inj h
    refine ⟨fun e he => ?_, hviewers⟩
    obtain ⟨host, hhost, hroles⟩ :=
      mem_of_mem_traverseEntries (KeyedMap.traverse_eq_ok_iff.mp hnormalized) he
    obtain ⟨hout, hagain⟩ := normalizeAndValidateRoles_eq_ok hroles
    obtain ⟨value, hvalue⟩ := readHost_of_readMap hraw hhost
    obtain ⟨parts, hparts, hplain⟩ := fromParts_of_readHost hvalue
    refine ⟨fun hlib => ?_, hagain, ?_⟩
    · refine (isCanonical_of_fromParts hlib hparts).congr ?_ ?_ ?_ <;> rw [hout]
    · rw [hout, (kept_of_fromParts hparts).2.2]
      exact hplain

end Checks

section RoundTrips

variable {Url : Type} {lib : UrlLibrary Url}

/-- A host comes back as it was saved, in normal form and without plaintext. -/
structure SavedFrom (host out : KnownHost Url) : Prop where
  acceptInvalidCerts : out.acceptInvalidCerts = host.acceptInvalidCerts
  app : out.app = host.app
  cloudId : out.cloudId = host.cloudId
  viewer : out.viewer = host.viewer
  url : out.url = host.url
  urlTemplate : out.urlTemplate = host.urlTemplate
  roles_sorted : out.roles.Pairwise fun a b => a.rank < b.rank
  mem_roles : ∀ role, role ∈ out.roles ↔ role ∈ host.roles ∨ host.roles = [] ∧ role = .collect
  secret : out.credential.secretReference = host.credential.secretReference
  plain : out.credential = .none ∨ ∃ secret, out.credential = .keystore secret

/-- What a file owes to the map it was written from. -/
structure RoundTrips (lib : UrlLibrary Url) (file : HostsFile)
    (hosts read : KeyedMap String (KnownHost Url)) : Prop where
  parsed : parseHostsYml lib file = .ok read
  names : read.entries.map Prod.fst = hosts.entries.map Prod.fst
  saved : ∀ name host out, (name, host) ∈ hosts.entries → (name, out) ∈ read.entries →
    SavedFrom host out
  viewers : validateViewerLinks read = .ok ()
  rewritten : writeHostsYml lib .completes file read = (.ok (), file)

theorem savedFrom_of_normalizeForWrite {name : String} {host out : KnownHost Url}
    (h : normalizeForWrite name host = .ok out) : SavedFrom host out := by
  obtain ⟨credential, hcredential, rfl, -, -⟩ := normalizeForWrite_eq_ok h
  obtain ⟨-, -, hsecret, hlegacy⟩ := Credential.fromHostsYml_of_persisted hcredential
  refine ⟨rfl, rfl, rfl, rfl, rfl, rfl, normalizeRoles_pairwise _, fun _ => mem_normalizeRoles,
    hsecret, ?_⟩
  cases hkept : host.credential with
  | none =>
    rw [hkept] at hcredential
    exact Or.inl (Except.ok.inj hcredential).symm
  | keystore secret =>
    rw [hkept] at hcredential
    exact Or.inr ⟨secret, (Except.ok.inj hcredential).symm⟩
  | runtime auth =>
    rw [hkept] at hcredential
    cases hcredential
  | legacy auth secret =>
    rw [hkept] at hcredential
    cases secret with
    | none => cases hcredential
    | some secret => exact Or.inr ⟨secret, (Except.ok.inj hcredential).symm⟩

/-- A file of canonical hosts in normal form is read back exactly. -/
theorem parseHostsYml_hostsDocument (hlib : lib.Lawful) {hosts : KeyedMap String (KnownHost Url)}
    (hcanonical : ∀ e ∈ hosts.entries, IsCanonical lib e.2)
    (hnormal : ∀ e ∈ hosts.entries, normalizeForWrite e.1 e.2 = .ok e.2)
    (hviewers : validateViewerLinks hosts = .ok ()) :
    parseHostsYml lib (hostsDocument lib hosts) = .ok hosts := by
  have hread : readMap HostsError.unreadable (readHost lib)
      (.mapping (hosts.mapValues fun _ host => writeHost lib host).entries) = .ok hosts := by
    rw [readMap_mapValues (g := fun host => host), KeyedMap.mapValues_id]
    intro e he
    obtain ⟨credential, hcredential, hout, -, -⟩ := normalizeForWrite_eq_ok (hnormal e he)
    have hkept : e.2.credential.persisted = .ok e.2.credential := by
      rw [hcredential]
      exact congrArg (fun host => Except.ok host.credential) hout.symm
    rw [readHost_writeHost hlib hkept, hcanonical e he]
    rfl
  have hroles : hosts.traverse normalizeAndValidateRoles = .ok hosts := by
    rw [KeyedMap.traverse_of_forall (g := fun _ host => host), KeyedMap.mapValues_id]
    intro e he
    obtain ⟨-, -, -, hagain, -⟩ := normalizeForWrite_eq_ok (hnormal e he)
    exact hagain
  simp only [hostsDocument, parseHostsYml, hread, hroles, hviewers, bind, Except.bind]
  rfl

/-- What is accepted of canonical hosts is canonical and needs no further change. -/
theorem normalizeHosts_canonical {file : HostsFile}
    {hosts normalized : KeyedMap String (KnownHost Url)}
    (h : normalizeHosts lib file hosts = .ok normalized)
    (hcanonical : ∀ e ∈ hosts.entries, IsCanonical lib e.2) :
    ∀ e ∈ normalized.entries, IsCanonical lib e.2 ∧ normalizeForWrite e.1 e.2 = .ok e.2 := by
  intro e he
  obtain ⟨host, hmem, hhost⟩ := mem_of_mem_traverseEntries (normalizeHosts_eq_ok h).1 he
  have hsaved := savedFrom_of_normalizeForWrite hhost
  obtain ⟨-, -, -, -, hagain⟩ := normalizeForWrite_eq_ok hhost
  exact ⟨(hcanonical _ hmem).congr hsaved.url hsaved.urlTemplate hsaved.cloudId, hagain⟩

/-- What is written of canonical hosts is read back exactly. -/
theorem parseHostsYml_normalized (hlib : lib.Lawful) {file : HostsFile}
    {hosts normalized : KeyedMap String (KnownHost Url)}
    (h : normalizeHosts lib file hosts = .ok normalized)
    (hcanonical : ∀ e ∈ hosts.entries, IsCanonical lib e.2) :
    parseHostsYml lib (hostsDocument lib normalized) = .ok normalized :=
  parseHostsYml_hostsDocument hlib (fun e he => (normalizeHosts_canonical h hcanonical e he).1)
    (fun e he => (normalizeHosts_canonical h hcanonical e he).2) (normalizeHosts_eq_ok h).2

/-- The flush of the writer completes, or what it leaves is the whole document all the same. -/
def FlushesWhole (lib : UrlLibrary Url) (outcome : HostsWrite) (file : HostsFile)
    (hosts : KeyedMap String (KnownHost Url)) : Prop :=
  ∀ left written, outcome = .unflushed left → normalizeHosts lib file hosts = .ok written →
    left = hostsDocument lib written

theorem FlushesWhole.of_flushed {outcome : HostsWrite} (h : outcome.Flushed) (file : HostsFile)
    (hosts : KeyedMap String (KnownHost Url)) : FlushesWhole lib outcome file hosts :=
  fun left _ hleft => absurd hleft (h left)

/-- What a write that reports success has written, or lost with the flush. -/
theorem writeHostsYml_cases {outcome : HostsWrite} {file written : HostsFile}
    {hosts : KeyedMap String (KnownHost Url)}
    (h : writeHostsYml lib outcome file hosts = (.ok (), written)) :
    ∃ normalized, normalizeHosts lib file hosts = .ok normalized ∧
      (outcome = .completes ∧ written = hostsDocument lib normalized ∨
        outcome = .unflushed written) := by
  unfold writeHostsYml at h
  cases hnormalized : normalizeHosts lib file hosts with
  | error error => simp [hnormalized] at h
  | ok normalized =>
    refine ⟨normalized, rfl, ?_⟩
    cases outcome with
    | completes => exact Or.inl ⟨rfl, by simpa [hnormalized] using h.symm⟩
    | createFails => simp [hnormalized] at h
    | interrupted left => simp [hnormalized] at h
    | unflushed left => exact Or.inr (by simpa [hnormalized] using h)

theorem writeHostsYml_eq_ok {outcome : HostsWrite} {file written : HostsFile}
    {hosts : KeyedMap String (KnownHost Url)} (hflushed : FlushesWhole lib outcome file hosts)
    (h : writeHostsYml lib outcome file hosts = (.ok (), written)) :
    ∃ normalized, normalizeHosts lib file hosts = .ok normalized ∧
      written = hostsDocument lib normalized := by
  obtain ⟨normalized, hnormalized, ⟨-, hwritten⟩ | hleft⟩ := writeHostsYml_cases h
  · exact ⟨normalized, hnormalized, hwritten⟩
  · exact ⟨normalized, hnormalized, hflushed written normalized hleft hnormalized⟩

theorem eq_of_sorted_roles {roles others : List HostRole}
    (hroles : roles.Pairwise fun a b => a.rank < b.rank)
    (hothers : others.Pairwise fun a b => a.rank < b.rank)
    (hmem : ∀ role, role ∈ roles ↔ role ∈ others) : roles = others := by
  have hnodup : ∀ {list : List HostRole}, list.Pairwise (fun a b => a.rank < b.rank) →
      list.Nodup := by
    intro list hlist
    exact hlist.imp fun hlt heq => absurd (congrArg HostRole.rank heq) (Nat.ne_of_lt hlt)
  refine ((List.perm_ext_iff_of_nodup (hnodup hroles) (hnodup hothers)).mpr hmem).eq_of_pairwise
    ?_ hroles hothers
  intro a b _ _ hab hba
  exact absurd hab (Nat.lt_asymm hba)

/-- What is saved of a host is determined. -/
theorem SavedFrom.unique {host out other : KnownHost Url} (h : SavedFrom host out)
    (h' : SavedFrom host other) : out = other := by
  have hroles : out.roles = other.roles := eq_of_sorted_roles h.roles_sorted h'.roles_sorted
    fun role => (h.mem_roles role).trans (h'.mem_roles role).symm
  have hsecret : out.credential.secretReference = other.credential.secretReference :=
    h.secret.trans h'.secret.symm
  have hcredential : out.credential = other.credential := by
    rcases h.plain with hnone | ⟨secret, hkept⟩ <;> rcases h'.plain with hnone' | ⟨secret', hkept'⟩
    · rw [hnone, hnone']
    · rw [hnone, hkept'] at hsecret
      cases hsecret
    · rw [hkept, hnone'] at hsecret
      cases hsecret
    · rw [hkept, hkept'] at hsecret ⊢
      exact congrArg Credential.keystore (Option.some.inj hsecret)
  obtain ⟨acceptInvalidCerts, app, cloudId, roles, viewer, url, urlTemplate, credential⟩ := out
  obtain ⟨acceptInvalidCerts', app', cloudId', roles', viewer', url', urlTemplate',
    credential'⟩ := other
  simp only [KnownHost.mk.injEq]
  exact ⟨h.acceptInvalidCerts.trans h'.acceptInvalidCerts.symm, h.app.trans h'.app.symm,
    h.cloudId.trans h'.cloudId.symm, hroles, h.viewer.trans h'.viewer.symm,
    h.url.trans h'.url.symm, h.urlTemplate.trans h'.urlTemplate.symm, hcredential⟩

/-- Hosts that come back from a file were canonical: what is read is, and it keeps the parts that
make an address so. -/
theorem isCanonical_of_roundTrips (hlib : lib.Lawful) {written : HostsFile}
    {hosts read : KeyedMap String (KnownHost Url)} (hround : RoundTrips lib written hosts read) :
    ∀ e ∈ hosts.entries, IsCanonical lib e.2 := by
  rintro ⟨name, host⟩ he
  have hmem : name ∈ read.entries.map Prod.fst := by
    rw [hround.names]
    exact List.mem_map_of_mem he
  obtain ⟨⟨_, out⟩, hout, rfl⟩ := List.mem_map.mp hmem
  have hsaved := hround.saved _ host out he hout
  have hcanonical := ((parseHostsYml_eq_ok hround.parsed).1 _ hout).1 hlib
  exact hcanonical.congr hsaved.url.symm hsaved.urlTemplate.symm hsaved.cloudId.symm

/-- Each host that is accepted is written as what is saved of it. -/
theorem savedFrom_normalized {file : HostsFile} {hosts normalized : KeyedMap String (KnownHost Url)}
    (h : normalizeHosts lib file hosts = .ok normalized) {name : String}
    {host out : KnownHost Url} (hhost : (name, host) ∈ hosts.entries)
    (hout : (name, out) ∈ normalized.entries) : SavedFrom host out := by
  obtain ⟨other, hother, hfromOther⟩ :=
    mem_of_mem_traverseEntries (normalizeHosts_eq_ok h).1 hout
  have hfind := KeyedMap.find?_eq_some_iff.mpr hhost
  rw [KeyedMap.find?_eq_some_iff.mpr hother] at hfind
  obtain rfl := Option.some.inj hfind
  exact savedFrom_of_normalizeForWrite hfromOther

/-- Hosts in the form in which they are written are accepted again. -/
theorem normalizeHosts_normalized {file current : HostsFile}
    {hosts normalized : KeyedMap String (KnownHost Url)}
    (h : normalizeHosts lib file hosts = .ok normalized)
    (hparsed : parseHostsYml lib current = .ok normalized) :
    normalizeHosts lib current normalized = .ok normalized := by
  obtain ⟨htraverse, hviewers⟩ := normalizeHosts_eq_ok h
  have hnormal : ∀ e ∈ normalized.entries, normalizeForWrite e.1 e.2 = .ok e.2 := by
    intro e he
    obtain ⟨_, _, hhost⟩ := mem_of_mem_traverseEntries htraverse he
    obtain ⟨-, -, -, -, hagain⟩ := normalizeForWrite_eq_ok hhost
    exact hagain
  have hreserved : rejectNewReservedNames lib current normalized = .ok () :=
    rejectNewReservedNames_of_existing hparsed fun e he => List.mem_map_of_mem he
  have hagain : normalized.traverse normalizeForWrite = .ok normalized := by
    rw [KeyedMap.traverse_of_forall (g := fun _ host => host) hnormal, KeyedMap.mapValues_id]
  simp only [normalizeHosts, hreserved, hagain, hviewers, bind, Except.bind]
  rfl

/-- A file that owes nothing to the map it was written from is the document of that map. -/
theorem eq_hostsDocument_of_roundTrips {file written : HostsFile}
    {hosts normalized read : KeyedMap String (KnownHost Url)}
    (hnormalized : normalizeHosts lib file hosts = .ok normalized)
    (hround : RoundTrips lib written hosts read) : written = hostsDocument lib normalized := by
  have hnames := keys_traverseEntries (normalizeHosts_eq_ok hnormalized).1
  have hread : read = normalized := by
    refine KeyedMap.ext_values (hround.names.trans hnames.symm) ?_
    intro name out other hout hother
    have hname : name ∈ hosts.entries.map Prod.fst := by
      rw [← hround.names]
      exact List.mem_map_of_mem hout
    obtain ⟨⟨_, host⟩, hhost, rfl⟩ := List.mem_map.mp hname
    exact (hround.saved _ host out hhost hout).unique
      (savedFrom_normalized hnormalized hhost hother)
  subst hread
  have hrewritten := hround.rewritten
  simp only [writeHostsYml, normalizeHosts_normalized hnormalized hround.parsed, Prod.mk.injEq,
    true_and] at hrewritten
  exact hrewritten.symm

theorem accepted_hosts_round_trip_iff (hlib : lib.Lawful) (outcome : HostsWrite)
    (file written : HostsFile) (hosts : KeyedMap String (KnownHost Url))
    (hwrite : writeHostsYml lib outcome file hosts = (.ok (), written)) :
    (∃ read, RoundTrips lib written hosts read) ↔
      (∀ e ∈ hosts.entries, IsCanonical lib e.2) ∧ FlushesWhole lib outcome file hosts := by
  constructor
  · rintro ⟨read, hround⟩
    refine ⟨isCanonical_of_roundTrips hlib hround, fun left normalized hleft hnormalized => ?_⟩
    obtain ⟨_, -, ⟨hcompletes, -⟩ | hunflushed⟩ := writeHostsYml_cases hwrite
    · rw [hcompletes] at hleft
      cases hleft
    · obtain rfl := HostsWrite.unflushed.inj (hleft.symm.trans hunflushed)
      exact eq_hostsDocument_of_roundTrips hnormalized hround
  · rintro ⟨hcanonical, hflushed⟩
    obtain ⟨normalized, hnormalized, rfl⟩ := writeHostsYml_eq_ok hflushed hwrite
    have hparsed := parseHostsYml_normalized hlib hnormalized hcanonical
    obtain ⟨htraverse, hviewers⟩ := normalizeHosts_eq_ok hnormalized
    refine ⟨normalized, hparsed, keys_traverseEntries htraverse, ?_, hviewers, ?_⟩
    · intro name host out hhost hout
      exact savedFrom_normalized hnormalized hhost hout
    · simp only [writeHostsYml, normalizeHosts_normalized hnormalized hparsed]

end RoundTrips

section Sample

structure SampleUrl where
  domain : String
  rest : String
  domain_plain : '/' ∉ domain.toList
  deriving DecidableEq

/-- Addresses of a secure host with a path. -/
def sampleUrls : UrlLibrary SampleUrl where
  parse text :=
    ((Texts.stripPrefix "https://" text).bind (Texts.splitOnce '/')).bind fun parts =>
      if h : '/' ∉ parts.1.toList then some ⟨parts.1, parts.2, h⟩ else none
  display url := "https://" ++ url.domain ++ "/" ++ url.rest
  domain url := some url.domain
  path url := "/" ++ url.rest
  setPath url path := { url with rest := String.ofList path.toList.tail }

theorem sampleUrls_lawful : sampleUrls.Lawful where
  parse_display url := by
    obtain ⟨domain, rest, hplain⟩ := url
    have htext : ("https://" ++ domain ++ "/" ++ rest).toList =
        "https://".toList ++ (domain.toList ++ '/' :: rest.toList) := by simp
    have hstrip : Texts.stripPrefix "https://" ("https://" ++ domain ++ "/" ++ rest) =
        some (String.ofList (domain.toList ++ '/' :: rest.toList)) := by
      rw [Texts.stripPrefix, htext, Texts.stripPrefixList_append]
      rfl
    have hsplit : Texts.splitOnce '/' (String.ofList (domain.toList ++ '/' :: rest.toList)) =
        some (domain, rest) := by
      rw [Texts.splitOnce, String.toList_ofList, Texts.splitOnceList_append _ hplain]
      simp
    show ((Texts.stripPrefix "https://" ("https://" ++ domain ++ "/" ++ rest)).bind
      (Texts.splitOnce '/')).bind _ = _
    rw [hstrip, Option.bind_some, hsplit, Option.bind_some, dif_pos hplain]
  path_setPath url := by
    simp [sampleUrls, String.append_assoc]

def rootUrl : SampleUrl where
  domain := "es.example"
  rest := ""
  domain_plain := by decide

def proxyUrl : SampleUrl where
  domain := "cloud.elastic.co"
  rest := "api/v1/deployments/prod/elasticsearch/_main/proxy"
  domain_plain := by decide

def savedHost : KnownHost SampleUrl where
  acceptInvalidCerts := false
  app := some .elasticsearch
  cloudId := none
  roles := [.collect]
  viewer := none
  url := some rootUrl
  urlTemplate := none
  credential := .none

def savedHosts : KeyedMap String (KnownHost SampleUrl) := KeyedMap.empty.insert "prod" savedHost

/-- A write of a host that reports success and loses what it wrote. -/
def LosesHost (left : HostsFile) : Prop :=
  (writeHostsYml sampleUrls (.unflushed left) .absent savedHosts).1 = .ok () ∧
    ¬ ∃ read, RoundTrips sampleUrls
      (writeHostsYml sampleUrls (.unflushed left) .absent savedHosts).2 savedHosts read

set_option maxRecDepth 20000 in
/-- On a full disk the write of a host reports success and leaves an empty file, whether that is
read as no hosts or refused. -/
theorem lost_flush_reported_ok : LosesHost (.document (.mapping [])) ∧ LosesHost .unparsed := by
  refine ⟨⟨rfl, ?_⟩, rfl, ?_⟩
  · rintro ⟨read, hround⟩
    obtain rfl := Except.ok.inj hround.parsed
    cases hround.names
  · rintro ⟨read, hround⟩
    cases hround.parsed

set_option maxRecDepth 20000 in
theorem saved_hosts_round_trip :
    ∃ read, RoundTrips sampleUrls (writeHostsYml sampleUrls .completes .absent savedHosts).2
      savedHosts read := by
  apply (accepted_hosts_round_trip_iff sampleUrls_lawful .completes .absent _ savedHosts rfl).mpr
  refine ⟨fun e he => ?_, .of_flushed HostsWrite.flushed_completes _ _⟩
  obtain rfl := List.mem_singleton.mp he
  rfl

end Sample

end Esdiag.HostRoundTrip
