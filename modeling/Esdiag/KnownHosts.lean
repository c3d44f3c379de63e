import Esdiag.Deployments
import Esdiag.Keystores

/-!
Known hosts: where a deployment is reached, in which roles, and where its
credential comes from. A host has a URL or a template of URLs; its other fields
follow from how it was written, in one of three layouts of which only the flat
one is written today. A credential is a reference into the keystore, or was
given at run time, or is plaintext of an older file.
-/
namespace Esdiag.KnownHosts

open KeyedMaps YamlValues Fields Deployments Keystores

inductive HostRole where
  | collect
  | send
  | view
  deriving DecidableEq

namespace HostRole

def key : HostRole → String
  | collect => "collect"
  | send => "send"
  | view => "view"

def ofKey (text : String) : Option HostRole :=
  if text = "collect" then some collect
  else if text = "send" then some send
  else if text = "view" then some view
  else none

def rank : HostRole → ℕ
  | collect => 0
  | send => 1
  | view => 2

theorem rank_injective : Function.Injective rank := by
  intro a b h
  cases a <;> cases b <;> first | rfl | cases h

theorem ofKey_key (role : HostRole) : ofKey role.key = some role := by
  cases role <;> decide

end HostRole

inductive ElasticCloud where
  | elasticGovCloudAdmin
  | elasticCloudAdmin
  | elasticCloud
  deriving DecidableEq

namespace ElasticCloud

def name : ElasticCloud → String
  | elasticGovCloudAdmin => "ElasticGovCloudAdmin"
  | elasticCloudAdmin => "ElasticCloudAdmin"
  | elasticCloud => "ElasticCloud"

def ofName (text : String) : Option ElasticCloud :=
  if text = "ElasticGovCloudAdmin" then some elasticGovCloudAdmin
  else if text = "ElasticCloudAdmin" then some elasticCloudAdmin
  else if text = "ElasticCloud" then some elasticCloud
  else none

def tryFrom (domain : Option String) : Option ElasticCloud :=
  if domain = some "admin.us-gov-east-1.aws.elastic-cloud.com" then some elasticGovCloudAdmin
  else if domain = some "admin.found.no" ∨ domain = some "api.elastic-cloud.com" then
    some elasticCloudAdmin
  else if domain = some "cloud.elastic.co" then some elasticCloud
  else none

theorem ofName_name (cloud : ElasticCloud) : ofName cloud.name = some cloud := by
  cases cloud <;> decide

end ElasticCloud

/-- Addresses, by a library that reads its own texts back. -/
structure UrlLibrary (Url : Type) where
  parse : String → Option Url
  display : Url → String
  domain : Url → Option String
  path : Url → String
  setPath : Url → String → Url

structure UrlLibrary.Lawful {Url : Type} (lib : UrlLibrary Url) : Prop where
  parse_display : ∀ url, lib.parse (lib.display url) = some url
  path_setPath : ∀ url, lib.path (lib.setPath url (lib.path url ++ "/")) = lib.path url ++ "/"

inductive Auth where
  | apikey (apikey : String)
  | basic (username password : String)
  | none
  deriving DecidableEq

namespace Auth

def fromParts (apikey username password : Option String) : Except String Auth :=
  match apikey, username, password with
  | some apikey, .none, .none => .ok (.apikey apikey)
  | .none, some username, some password => .ok (.basic username password)
  | .none, .none, .none => .ok .none
  | some _, _, _ => .error "API key auth cannot be combined with username or password"
  | _, _, _ => .error "basic auth requires both username and password"

def ofSecret : SecretAuth → Auth
  | .apiKey key => .apikey key
  | .basic username password => .basic username password

end Auth

/-- Where the credential of a host comes from. -/
inductive Credential where
  | none
  | keystore (secret : String)
  | runtime (auth : SecretAuth)
  | legacy (auth : SecretAuth) (secret : Option String)
  deriving DecidableEq

inductive PersistError where
  | legacy
  | runtime
  deriving DecidableEq

namespace Credential

def ofRuntime : Auth → Credential
  | .apikey key => .runtime (.apiKey key)
  | .basic username password => .runtime (.basic username password)
  | .none => .none

def ofKeystore (secret : Option String) : Credential := secret.elim .none .keystore

/-- The credential fields of an entry: plaintext makes it a legacy one. -/
def fromHostsYml (secret : Option String) (auth : Auth) : Credential :=
  match ofRuntime auth with
  | .runtime auth => .legacy auth secret
  | _ => ofKeystore secret

def secretReference : Credential → Option String
  | .keystore secret => some secret
  | .legacy _ secret => secret
  | .none | .runtime _ => .none

def legacyAuth : Credential → Option SecretAuth
  | .legacy auth _ => some auth
  | _ => .none

/-- What a file may hold of a credential. -/
def persisted : Credential → Except PersistError Credential
  | .none => .ok .none
  | .keystore secret => .ok (.keystore secret)
  | .legacy _ (some secret) => .ok (.keystore secret)
  | .legacy _ .none => .error .legacy
  | .runtime _ => .error .runtime

/-- What is written of a credential is a reference, and reads back as what may be held. -/
theorem fromHostsYml_of_persisted {credential kept : Credential}
    (h : credential.persisted = .ok kept) :
    fromHostsYml kept.secretReference .none = kept ∧ kept.persisted = .ok kept ∧
      kept.secretReference = credential.secretReference ∧ kept.legacyAuth = .none := by
  cases credential with
  | none =>
    obtain rfl := Except.ok.inj h
    exact ⟨rfl, rfl, rfl, rfl⟩
  | keystore secret =>
    obtain rfl := Except.ok.inj h
    exact ⟨rfl, rfl, rfl, rfl⟩
  | runtime auth => cases h
  | legacy auth secret =>
    cases secret with
    | none => cases h
    | some secret =>
      obtain rfl := Except.ok.inj h
      exact ⟨rfl, rfl, rfl, rfl⟩

end Credential

structure KnownHost (Url : Type) where
  acceptInvalidCerts : Bool
  app : Option Application
  cloudId : Option ElasticCloud
  roles : List HostRole
  viewer : Option String
  url : Option Url
  urlTemplate : Option String
  credential : Credential
  deriving DecidableEq

def defaultCollectRoles : List HostRole := [.collect]

section Templates

variable {Url : Type} (lib : UrlLibrary Url)

/-- The placeholders of a template, read character by character. -/
def placeholdersOf : Option (List Char) → List Char → Except String (List String)
  | none, [] => .ok []
  | some _, [] => .error "Unsupported `url_template`: unterminated placeholder"
  | none, c :: rest =>
    if c = '\x7b' then placeholdersOf (some []) rest
    else if c = '\x7d' then .error "Unsupported `url_template`: unmatched closing brace"
    else placeholdersOf none rest
  | some current, c :: rest =>
    if c = '\x7b' then
      .error "Unsupported `url_template`: nested placeholders are not allowed"
    else if c = '\x7d' then
      (placeholdersOf none rest).map (String.ofList current.reverse :: ·)
    else placeholdersOf (some (c :: current)) rest

def renderUrlTemplateUrl (template id product : String) : Option Url :=
  lib.parse (Texts.replace "\x7bproduct\x7d" product (Texts.replace "\x7bid\x7d" id template))

def validateUrlTemplate (template : String) : Except String Unit :=
  match placeholdersOf none template.toList with
  | .error message => .error message
  | .ok placeholders =>
    match placeholders.find? fun one => one ≠ "id" ∧ one ≠ "product" with
    | some placeholder =>
      .error ("Unsupported `url_template` placeholder '\x7b" ++ placeholder ++ "\x7d'. " ++
        "Supported placeholders are `\x7bid\x7d` and `\x7bproduct\x7d`.")
    | none =>
      if "id" ∉ placeholders then
        .error ("Unsupported `url_template`: template-backed hosts must include the " ++
          "`\x7bid\x7d` placeholder")
      else if (renderUrlTemplateUrl lib template "test-id" "elasticsearch").isNone then
        .error "Invalid `url_template`: Invalid rendered URL from template host"
      else .ok ()

def isSchemeStart (c : Char) : Bool := 'a' ≤ c && c ≤ 'z'

def isSchemeChar (c : Char) : Bool :=
  isSchemeStart c || ('0' ≤ c && c ≤ '9') || c = '+' || c = '-' || c = '.'

/-- A template's name is used as the scheme of the references to it. -/
def validateTemplateHostName (hostName : String) : Except String Unit :=
  match hostName.toList with
  | [] => .error "Template host names cannot be empty"
  | first :: rest =>
    if !isSchemeStart first then
      .error ("Template host '" ++ hostName ++ "' must start with a lowercase ASCII letter to " ++
        "support custom-scheme resolution")
    else if !rest.all isSchemeChar then
      .error ("Template host '" ++ hostName ++ "' must use lowercase scheme-compatible " ++
        "characters: [a-z][a-z0-9+.-]*")
    else .ok ()

end Templates

section References

/-- What a URL library reads of a reference with a scheme. -/
structure UrlParts where
  scheme : String
  hostStr : Option String
  pathSegments : List String

structure TemplateReference where
  templateName : String
  id : String
  product : Option String

/-- A reference `template://id/product`; addresses and files are none. -/
def parseTemplateReference (parseUrl : String → Option UrlParts) (reference : String) :
    Except String (Option TemplateReference) :=
  match parseUrl reference with
  | none => .ok none
  | some url =>
    if url.scheme ∈ ["http", "https", "file", "stdin", "stdio"] then .ok none
    else
      match url.hostStr with
      | none => .error ("Template reference '" ++ reference ++ "' is missing required `id`")
      | some id =>
        if Texts.isBlank id then
          .error ("Template reference '" ++ reference ++ "' is missing required `id`")
        else
          match url.pathSegments.filter fun segment => !Texts.isBlank segment with
          | [] => .ok (some ⟨url.scheme, id, none⟩)
          | [product] => .ok (some ⟨url.scheme, id, some product⟩)
          | _ => .error ("Template reference '" ++ reference ++ "' contains too many path " ++
              "segments; expected at most one optional `product` segment")

end References

section Parts

variable {Url : Type} (lib : UrlLibrary Url)

def normalizeElasticCloudProxyUrl (url : Url) (cloudId : Option ElasticCloud) : Url :=
  if cloudId.isSome && Texts.endsWith (lib.path url) "/proxy" then
    lib.setPath url (lib.path url ++ "/")
  else url

/-- Make a host of its parts, which have the same fields. -/
def KnownHost.fromParts (parts : KnownHost Url) : Except String (KnownHost Url) :=
  match parts.url, parts.urlTemplate with
  | some url, none =>
    let cloudId := parts.cloudId.or (ElasticCloud.tryFrom (lib.domain url))
    .ok { parts with cloudId, url := some (normalizeElasticCloudProxyUrl lib url cloudId) }
  | none, some template =>
    match validateUrlTemplate lib template with
    | .error message => .error message
    | .ok () => .ok { parts with cloudId := none }
  | some _, some _ =>
    .error "Invalid KnownHost configuration: `url` and `url_template` are mutually exclusive"
  | none, none =>
    .error "Invalid KnownHost configuration: one of `url` or `url_template` is required"

def hostsYmlCredential (secret apikey username password : Option String) :
    Except String Credential :=
  match Auth.fromParts apikey username password with
  | .error message => .error ("Invalid KnownHost configuration: " ++ message)
  | .ok auth => .ok (Credential.fromHostsYml secret auth)

end Parts

end Esdiag.KnownHosts
