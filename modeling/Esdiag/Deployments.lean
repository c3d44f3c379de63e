import Esdiag.Texts

/-!
The application a diagnostic is about, the platform it is deployed on, and the
identifiers that a job and its report carry.
-/
namespace Esdiag.Deployments

inductive Application where
  | elasticsearch
  | kibana
  | logstash
  | agent
  deriving DecidableEq

namespace Application

/-- The stable lowercase key of identifiers and selection texts. -/
def key : Application → String
  | elasticsearch => "elasticsearch"
  | kibana => "kibana"
  | logstash => "logstash"
  | agent => "agent"

def fromStr (text : String) : Option Application :=
  let lowered := Texts.toLowercase text
  if lowered ∈ ["es", "elasticsearch"] then some elasticsearch
  else if lowered ∈ ["kb", "kibana"] then some kibana
  else if lowered ∈ ["ls", "logstash"] then some logstash
  else if lowered = "agent" then some agent
  else none

end Application

inductive Platform where
  | selfManaged
  | elasticCloudHosted
  | ece
  | eck
  | kubernetesPlatform
  | unknown
  deriving DecidableEq

namespace Platform

/-- The stable key of identifiers and selection texts. -/
def key : Platform → String
  | selfManaged => "self-managed"
  | elasticCloudHosted => "elastic-cloud-hosted"
  | ece => "elastic-cloud-enterprise"
  | eck => "elastic-cloud-kubernetes"
  | kubernetesPlatform => "kubernetes-platform"
  | unknown => "unknown"

def fromStr (text : String) : Option Platform :=
  let lowered := Texts.toLowercase text
  if lowered ∈ ["selfmanaged", "self-managed", "self_managed"] then some selfManaged
  else if lowered ∈ ["hosted", "elastic-cloud-hosted", "elasticcloudhosted", "ech"] then
    some elasticCloudHosted
  else if lowered ∈ ["ece", "elastic-cloud-enterprise"] then some ece
  else if lowered ∈ ["eck", "elastic-cloud-kubernetes"] then some eck
  else if lowered ∈ ["mki", "kubernetes-platform", "kubernetesplatform"] then
    some kubernetesPlatform
  else if lowered = "unknown" then some unknown
  else none

theorem fromStr_trim_key (platform : Platform) :
    fromStr (Texts.trim platform.key) = some platform := by
  cases platform <;> decide +kernel

end Platform

structure Identifiers where
  account : Option String
  caseNumber : Option String
  filename : Option String
  opportunity : Option String
  user : Option String
  parentId : Option String
  platform : Option Platform
  deriving DecidableEq

def normalizeIdentifier (value : Option String) : Option String :=
  value.bind fun text => if Texts.isBlank text then none else some (Texts.trim text)

namespace Identifiers

def withParentId (self : Identifiers) (parentId : String) : Identifiers :=
  { self with parentId := normalizeIdentifier (some parentId) }

def withPlatform (self : Identifiers) (platform : Platform) : Identifiers :=
  { self with platform := some platform }

def isEmpty (self : Identifiers) : Bool :=
  self.account.isNone && self.caseNumber.isNone && self.filename.isNone &&
    self.opportunity.isNone && self.user.isNone && self.parentId.isNone && self.platform.isNone

def defaultUser (self : Identifiers) (username : Option String) : Identifiers :=
  { self with user := self.user.or (normalizeIdentifier username) }

/-- `Identifiers::default`, with the user that the environment or the
configuration supplies. -/
def default (ambientUser : Option String) : Identifiers :=
  { account := none
    caseNumber := none
    filename := none
    opportunity := none
    user := normalizeIdentifier ambientUser
    parentId := none
    platform := none }

theorem default_eq_defaultUser (self : Identifiers) (h : self.isEmpty = true)
    (ambientUser : Option String) : default ambientUser = self.defaultUser ambientUser := by
  obtain ⟨account, caseNumber, filename, opportunity, user, parentId, platform⟩ := self
  simp only [isEmpty, Bool.and_eq_true, Option.isNone_iff_eq_none] at h
  obtain ⟨⟨⟨⟨⟨⟨rfl, rfl⟩, rfl⟩, rfl⟩, rfl⟩, rfl⟩, rfl⟩ := h
  simp [default, defaultUser]

end Identifiers

end Esdiag.Deployments
