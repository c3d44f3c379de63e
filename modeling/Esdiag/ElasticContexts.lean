import Esdiag.HostBuilders
import Esdiag.HostFiles
import Esdiag.KeystoreMigration

/-!
Contexts of the Elastic CLI. A context names the services of a deployment, with
an address and an authentication for each, and their texts may hold expressions
that refer to environment variables, files, commands and keyrings. Without a
name the current context is meant, or under the Elastic CLI itself the services
that its environment declares.
-/
namespace Esdiag.ElasticContexts

open KeyedMaps Deployments Keystores KnownHosts HostFiles HostBuilders KeystoreMigration

/-- A variable of the process environment; its value may be no text. -/
inductive EnvValue where
  | unset
  | text (value : String)
  | notUnicode
  deriving DecidableEq

namespace EnvValue

def isSet : EnvValue → Bool
  | unset => false
  | text _ | notUnicode => true

def var : EnvValue → Option String
  | text value => some value
  | unset | notUnicode => none

def notBlank (value : EnvValue) : Option String := value.var.filter fun text => !Texts.isBlank text

/-- The text of a failed reading. -/
def failure : EnvValue → String
  | unset => "environment variable not found"
  | _ => "environment variable was not valid unicode"

end EnvValue

structure AuthConfig where
  apiKey : Option String
  username : Option String
  password : Option String
  deriving DecidableEq

structure ServiceConfig where
  url : String
  auth : Option AuthConfig
  deriving DecidableEq

structure Context where
  elasticsearch : Option ServiceConfig
  kibana : Option ServiceConfig
  deriving DecidableEq

structure ElasticConfig where
  currentContext : String
  contexts : KeyedMap String Context

inductive ContextError where
  | unreadable
  | missingContext (name : String) (available : List String)
  | missingService (context service : String)
  | invalidServiceUrl (context service : String)
  | invalidServiceUrlScheme (context service : String)
  | invalidAuth (context service message : String)
  | invalidResolverExpression (field value : String)
  | unknownResolver (resolver field : String)
  | shellSyntaxUnsupported (resolver field : String)
  | resolverFailed (resolver field message : String)
  | invalidShape (message : String)
  deriving DecidableEq

/-- What expressions can refer to. -/
structure Resolvers where
  env : String → EnvValue
  external : String → String → String → Except ContextError String

section Expressions

/-- The text with its expressions resolved from the left, while one is collected in reverse. -/
def resolveChars {ε : Type} (resolve : List Char → Except ε (List Char)) (unterminated : ε) :
    Option (List Char) → List Char → Except ε (List Char)
  | none, [] => .ok []
  | some _, [] => .error unterminated
  | none, '$' :: '(' :: rest => resolveChars resolve unterminated (some []) rest
  | none, c :: rest => (resolveChars resolve unterminated none rest).map (c :: ·)
  | some expression, c :: rest =>
    if c = ')' then
      match resolve expression.reverse with
      | .error error => .error error
      | .ok value => (resolveChars resolve unterminated none rest).map (value ++ ·)
    else resolveChars resolve unterminated (some (c :: expression)) rest

/-- The expressions of a text. -/
def expressionsOf : Option (List Char) → List Char → List (List Char)
  | none, [] => []
  | some _, [] => []
  | none, '$' :: '(' :: rest => expressionsOf (some []) rest
  | none, _ :: rest => expressionsOf none rest
  | some expression, c :: rest =>
    if c = ')' then expression.reverse :: expressionsOf none rest
    else expressionsOf (some (c :: expression)) rest

/-- A text depends on what its expressions resolve to. -/
theorem resolveChars_congr {ε : Type} {resolve resolve' : List Char → Except ε (List Char)}
    (unterminated : ε) (expression : Option (List Char)) (text : List Char)
    (h : ∀ e ∈ expressionsOf expression text, resolve e = resolve' e) :
    resolveChars resolve unterminated expression text =
      resolveChars resolve' unterminated expression text := by
  fun_induction expressionsOf expression text with
  | case1 => simp [resolveChars]
  | case2 expression => simp [resolveChars]
  | case3 rest ih =>
    rw [resolveChars, resolveChars]
    exact ih h
  | case4 c rest hne ih =>
    have hstep : ∀ resolve : List Char → Except ε (List Char),
        resolveChars resolve unterminated none (c :: rest) =
          (resolveChars resolve unterminated none rest).map (c :: ·) := by
      intro resolve
      rw [resolveChars]
      exact hne
    rw [hstep, hstep, ih h]
  | case5 expression rest ih =>
    rw [List.forall_mem_cons] at h
    rw [resolveChars, resolveChars, if_pos rfl, if_pos rfl, h.1, ih h.2]
  | case6 expression c rest hne ih =>
    rw [resolveChars, resolveChars, if_neg hne, if_neg hne]
    exact ih h

def externalResolvers : List String :=
  ["file", "cmd", "pass", "keychain", "secret_service", "credential_manager"]

def resolveExpression (resolvers : Resolvers) (field expression : String) :
    Except ContextError String :=
  match Texts.splitOnce ':' expression with
  | none => .error (.invalidResolverExpression field "expected \x60$(resolver:parameters)\x60")
  | some (resolver, params) =>
    if resolver = "env" then
      match (resolvers.env params).var with
      | some value => .ok value
      | none => .error (.resolverFailed resolver field (resolvers.env params).failure)
    else if resolver ∈ externalResolvers then resolvers.external resolver params field
    else .error (.unknownResolver resolver field)

def resolveStringExpressions (resolvers : Resolvers) (field value : String) :
    Except ContextError String :=
  (resolveChars (fun expression =>
      (resolveExpression resolvers field (String.ofList expression)).map String.toList)
    (.invalidResolverExpression field "unterminated \x60$(\x60") none value.toList).map
      String.ofList

/-- The variables that the expressions of a text name. -/
def namedVariables (value : String) : List String :=
  (expressionsOf none value.toList).filterMap fun expression =>
    match Texts.splitOnce ':' (String.ofList expression) with
    | some (resolver, params) => if resolver = "env" then some params else none
    | none => none

theorem resolveStringExpressions_congr {resolvers resolvers' : Resolvers} (field value : String)
    (henv : ∀ name ∈ namedVariables value, resolvers.env name = resolvers'.env name)
    (hexternal : resolvers.external = resolvers'.external) :
    resolveStringExpressions resolvers field value =
      resolveStringExpressions resolvers' field value := by
  unfold resolveStringExpressions
  congr 1
  apply resolveChars_congr
  intro expression he
  congr 1
  unfold resolveExpression
  cases hsplit : Texts.splitOnce ':' (String.ofList expression) with
  | none => rfl
  | some parts =>
    obtain ⟨resolver, params⟩ := parts
    by_cases hresolver : resolver = "env"
    · have hnamed : params ∈ namedVariables value := by
        refine List.mem_filterMap.mpr ⟨expression, he, ?_⟩
        simp only [hsplit, hresolver, if_true]
      simp only [hresolver, henv params hnamed, if_true]
    · simp only [if_neg hresolver, hexternal]

end Expressions

inductive ServiceKind where
  | elasticsearch
  | kibana
  deriving DecidableEq

def ServiceKind.key : ServiceKind → String
  | elasticsearch => "elasticsearch"
  | kibana => "kibana"

def Context.service (context : Context) : ServiceKind → Option ServiceConfig
  | .elasticsearch => context.elasticsearch
  | .kibana => context.kibana

/-- A service at run time, with an authentication in the clear. -/
structure ContextService (Url : Type) where
  url : Url
  auth : Auth

/-- Addresses whose scheme can be read. -/
structure ServiceLibrary (Url : Type) extends QueryLibrary Url where
  scheme : Url → String

namespace AuthConfig

def validate (auth : AuthConfig) (context service : String) : Except ContextError Unit :=
  match auth.apiKey, auth.username, auth.password with
  | some _, none, none | none, none, none | none, some _, some _ => .ok ()
  | some _, _, _ =>
    .error (.invalidAuth context service "api_key cannot be combined with username or password")
  | _, _, _ =>
    .error (.invalidAuth context service
      "basic authentication requires both username and password")

def resolve (resolvers : Resolvers) (auth : AuthConfig) (context service : String) :
    Except ContextError Auth :=
  let resolveField := fun (name value : String) =>
    resolveStringExpressions resolvers (context ++ "." ++ service ++ ".auth." ++ name) value
  match auth.apiKey, auth.username, auth.password with
  | some apiKey, none, none => (resolveField "api_key" apiKey).map .apikey
  | none, some username, some password => do
    let username ← resolveField "username" username
    let password ← resolveField "password" password
    pure (.basic username password)
  | none, none, none => .ok .none
  | _, _, _ => .error (.invalidShape "invalid auth block")

/-- The texts that may hold expressions. -/
def texts (auth : AuthConfig) : List String :=
  auth.apiKey.toList ++ auth.username.toList ++ auth.password.toList

end AuthConfig

namespace ServiceConfig

variable {Url : Type} (lib : ServiceLibrary Url)

def resolve (resolvers : Resolvers) (config : ServiceConfig) (context service : String) :
    Except ContextError (ContextService Url) := do
  let text ← resolveStringExpressions resolvers (context ++ "." ++ service ++ ".url") config.url
  match lib.parse text with
  | none => .error (.invalidServiceUrl context service)
  | some url =>
    if lib.scheme url ∉ ["http", "https"] then .error (.invalidServiceUrlScheme context service)
    else
      match config.auth with
      | none => pure ⟨url, .none⟩
      | some auth => do
        auth.validate context service
        let auth ← auth.resolve resolvers context service
        pure ⟨url, auth⟩

def texts (config : ServiceConfig) : List String :=
  config.url :: (config.auth.map AuthConfig.texts).getD []

end ServiceConfig

section Services

variable {Url : Type} (lib : ServiceLibrary Url)

/-- One service of a named context, or of the current one. -/
def resolveConfigService (resolvers : Resolvers) (config : ElasticConfig)
    (context : Option String) (kind : ServiceKind) : Except ContextError (ContextService Url) :=
  let name := context.getD config.currentContext
  match config.contexts.find? name with
  | none => .error (.missingContext name (config.contexts.inOrder.map Prod.fst))
  | some services =>
    match services.service kind with
    | none => .error (.missingService name kind.key)
    | some service => service.resolve lib resolvers name kind.key

end Services

end Esdiag.ElasticContexts
