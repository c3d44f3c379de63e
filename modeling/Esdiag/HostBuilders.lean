import Esdiag.KnownHosts

/-!
Hosts as they are built from the fields of a form, of an environment or of a
context. A builder begins with an address or a template and has its other fields
set one by one. The address of a deployment page of a known cloud is replaced by
the address of the proxy to that deployment, with the query that it had.
-/
namespace Esdiag.HostBuilders

open Deployments KnownHosts

/-- Addresses with queries, whose pairs one address may take over from another. -/
structure QueryLibrary (Url : Type) extends UrlLibrary Url where
  hasQuery : Url → Bool
  extendPairs : Url → Url → Url

structure KnownHostBuilder (Url : Type) where
  acceptInvalidCerts : Bool
  app : Option Application
  auth : Auth
  cloudId : Option ElasticCloud
  roles : List HostRole
  secret : Option String
  url : Option Url
  urlTemplate : Option String
  viewer : Option String

namespace KnownHostBuilder

variable {Url : Type}

def new (url : Url) : KnownHostBuilder Url where
  acceptInvalidCerts := false
  app := some .elasticsearch
  auth := .none
  cloudId := none
  roles := defaultCollectRoles
  secret := none
  url := some url
  urlTemplate := none
  viewer := none

def newTemplate (urlTemplate : String) : KnownHostBuilder Url where
  acceptInvalidCerts := false
  app := none
  auth := .none
  cloudId := none
  roles := defaultCollectRoles
  secret := none
  url := none
  urlTemplate := some urlTemplate
  viewer := none

end KnownHostBuilder

def defaultTemplateProduct : String := "elasticsearch"

def elasticCloudProxyTemplate (domain : Option String) : Option String :=
  if domain = some "admin.found.no" then
    some "https://admin.found.no/api/v1/deployments/\x7bid\x7d/elasticsearch/_main/proxy/"
  else if domain = some "api.elastic-cloud.com" then
    some "https://api.elastic-cloud.com/api/v1/deployments/\x7bid\x7d/elasticsearch/_main/proxy/"
  else if domain = some "cloud.elastic.co" then
    some "https://cloud.elastic.co/api/v1/deployments/\x7bid\x7d/elasticsearch/_main/proxy/"
  else if domain = some "admin.us-gov-east-1.aws.elastic-cloud.com" then
    some ("https://admin.us-gov-east-1.aws.elastic-cloud.com/api/v1/deployments/\x7bid\x7d/" ++
      "elasticsearch/_main/proxy/")
  else none

section Building

variable {Url : Type} (lib : QueryLibrary Url)

/-- What follows the segment `deployments` of a path. -/
def deploymentIdFromCloudUrl (url : Url) : Option String :=
  (((Texts.split '/' (lib.path url)).dropWhile fun segment => segment ≠ "deployments")[1]?).filter
    fun deploymentId => deploymentId ≠ ""

def elasticCloudProxyUrl (url : Url) (app : Option Application) : Option Url :=
  if app ≠ some .elasticsearch then none
  else
    match elasticCloudProxyTemplate (lib.domain url), deploymentIdFromCloudUrl lib url with
    | some template, some deploymentId =>
      (renderUrlTemplateUrl lib.toUrlLibrary template deploymentId defaultTemplateProduct).map
        fun rendered => if lib.hasQuery url then lib.extendPairs rendered url else rendered
    | _, _ => none

namespace KnownHostBuilder

def updateCloudApiPath (builder : KnownHostBuilder Url) : KnownHostBuilder Url :=
  match builder.url with
  | none => { builder with cloudId := none }
  | some url =>
    match ElasticCloud.tryFrom (lib.domain url) with
    | none => builder
    | some cloud =>
      { builder with
        cloudId := some cloud
        url := some ((elasticCloudProxyUrl lib url builder.app).getD url) }

def credential (builder : KnownHostBuilder Url) : Except String Credential :=
  match builder.secret, builder.auth with
  | some secret, .none => .ok (.keystore secret)
  | none, auth => .ok (Credential.ofRuntime auth)
  | some _, _ =>
    .error "Invalid KnownHost configuration: explicit credentials conflict with secret auth"

def build (builder : KnownHostBuilder Url) : Except String (KnownHost Url) :=
  let builder := builder.updateCloudApiPath lib
  match builder.credential with
  | .error message => .error message
  | .ok credential =>
    KnownHost.fromParts lib.toUrlLibrary
      { acceptInvalidCerts := builder.acceptInvalidCerts
        app := builder.app
        cloudId := builder.cloudId
        roles := builder.roles
        viewer := builder.viewer
        url := builder.url
        urlTemplate := builder.urlTemplate
        credential }

def buildWithSecretAuth (builder : KnownHostBuilder Url) : Except String (KnownHost Url) :=
  if builder.auth ≠ .none then
    .error "Invalid KnownHost configuration: explicit credentials conflict with secret auth"
  else if builder.secret.isNone then
    .error "Invalid KnownHost configuration: missing secret reference"
  else builder.build lib

variable {lib}

theorem build_of_buildWithSecretAuth {builder : KnownHostBuilder Url} {host : KnownHost Url}
    (h : builder.buildWithSecretAuth lib = .ok host) : builder.build lib = .ok host := by
  unfold buildWithSecretAuth at h
  split_ifs at h
  exact h

theorem build_eq_ok {builder : KnownHostBuilder Url} {host : KnownHost Url}
    (h : builder.build lib = .ok host) :
    ∃ parts : KnownHost Url, KnownHost.fromParts lib.toUrlLibrary parts = .ok host := by
  unfold build at h
  cases hcredential : (builder.updateCloudApiPath lib).credential with
  | error message => simp [hcredential] at h
  | ok credential => exact ⟨_, by simpa [hcredential] using h⟩

/-- The roles of a builder pass into its host; nothing else of it depends on them. -/
theorem build_withRoles {builder : KnownHostBuilder Url} {host : KnownHost Url}
    (h : builder.build lib = .ok host) (roles : List HostRole) :
    { builder with roles }.build lib = .ok { host with roles } := by
  have hupdate : { builder with roles }.updateCloudApiPath lib =
      { builder.updateCloudApiPath lib with roles } := by
    unfold updateCloudApiPath
    cases hurl : builder.url with
    | none => simp
    | some url => cases hcloud : ElasticCloud.tryFrom (lib.domain url) <;> simp [hurl, hcloud]
  unfold build at h ⊢
  rw [hupdate]
  dsimp only at h ⊢
  generalize builder.updateCloudApiPath lib = updated at h ⊢
  have hcredential : { updated with roles }.credential = updated.credential := rfl
  rw [hcredential]
  cases hresult : updated.credential with
  | error message => simp [hresult] at h
  | ok credential =>
    simp only [hresult, KnownHost.fromParts] at h ⊢
    cases hurl : updated.url with
    | some url =>
      cases htemplate : updated.urlTemplate with
      | none =>
        simp only [hurl, htemplate, Except.ok.injEq] at h ⊢
        rw [← h]
      | some template => simp [hurl, htemplate] at h
    | none =>
      cases htemplate : updated.urlTemplate with
      | none => simp [hurl, htemplate] at h
      | some template =>
        cases hvalid : validateUrlTemplate lib.toUrlLibrary template with
        | error message => simp [hurl, htemplate, hvalid] at h
        | ok valid =>
          simp only [hurl, htemplate, hvalid, Except.ok.injEq] at h ⊢
          rw [← h]

end KnownHostBuilder

end Building

end Esdiag.HostBuilders
