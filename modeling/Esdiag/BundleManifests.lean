import Esdiag.Executor

/-!
The manifest of a bundle: which application it is about, which platform it was collected
from, and so what processes it. Older manifests say both with one word, their `product`.
Newer ones carry platform and application as well, and still write a `product` for older
readers.
-/
namespace Esdiag.BundleManifests

open Deployments ProcessSelections Executor

section Products

/-- The one word of older manifests. -/
inductive ManifestProduct where
  | agent
  | ece
  | eck
  | elasticCloudHosted
  | elasticsearch
  | kibana
  | kubernetesPlatform
  | logstash
  | unknown
  deriving DecidableEq

namespace ManifestProduct

def split : ManifestProduct → Platform × Option Application
  | agent => (.unknown, some .agent)
  | elasticsearch => (.unknown, some .elasticsearch)
  | kibana => (.unknown, some .kibana)
  | logstash => (.unknown, some .logstash)
  | ece => (.ece, none)
  | eck => (.eck, none)
  | elasticCloudHosted => (.elasticCloudHosted, none)
  | kubernetesPlatform => (.kubernetesPlatform, none)
  | unknown => (.unknown, none)

def application (self : ManifestProduct) : Option Application := self.split.2

def fromClassification (platform : Platform) : Option Application → ManifestProduct
  | some .elasticsearch => elasticsearch
  | some .kibana => kibana
  | some .logstash => logstash
  | some .agent => agent
  | none =>
    match platform with
    | .ece => ece
    | .eck => eck
    | .elasticCloudHosted => elasticCloudHosted
    | .kubernetesPlatform => kubernetesPlatform
    | .selfManaged | .unknown => unknown

/-- The word as it is written. -/
def wireName : ManifestProduct → String
  | agent => "agent"
  | ece => "ece"
  | eck => "eck"
  | elasticCloudHosted => "elasticcloudhosted"
  | elasticsearch => "elasticsearch"
  | kibana => "kibana"
  | kubernetesPlatform => "kubernetesplatform"
  | logstash => "logstash"
  | unknown => "unknown"

def fromStr (value : String) : Except String ManifestProduct :=
  let lowered := Texts.toLowercase value
  if lowered = "agent" then .ok agent
  else if lowered = "ece" then .ok ece
  else if lowered = "eck" then .ok eck
  else if lowered ∈ ["hosted", "elastic-cloud-hosted", "elasticcloudhosted"] then
    .ok elasticCloudHosted
  else if lowered ∈ ["es", "elasticsearch"] then .ok elasticsearch
  else if lowered ∈ ["kb", "kibana"] then .ok kibana
  else if lowered ∈ ["ls", "logstash"] then .ok logstash
  else if lowered ∈ ["mki", "kubernetesplatform"] then .ok kubernetesPlatform
  else if lowered = "unknown" then .ok unknown
  else .error "Unknown product"

theorem fromStr_wireName (product : ManifestProduct) : fromStr product.wireName = .ok product := by
  cases product <;> decide +kernel

theorem application_fromClassification (platform : Platform) (application : Option Application) :
    (fromClassification platform application).application = application := by
  cases application with
  | none => cases platform <;> rfl
  | some application => cases application <;> rfl

end ManifestProduct

end Products

section Files

/-- The fields of `diagnostic_manifest.json` that classify a bundle; every one may be absent. -/
structure ManifestFile where
  product : Option String
  platform : Option String
  application : Option String
  diagType : Option String
  runner : Option String
  includedDiagnostics : Option (List DiagPath)
  deriving DecidableEq

structure DiagnosticManifest where
  product : ManifestProduct
  explicitPlatform : Option Platform
  explicitApplication : Option Application
  diagType : Option String
  runner : Option String
  includedDiagnostics : Option (List DiagPath)
  deriving DecidableEq

def readOptional {α : Type} (read : String → Except String α) :
    Option String → Except String (Option α)
  | none => .ok none
  | some text => (read text).map some

def readProduct (text : String) : Except String ManifestProduct :=
  (ManifestProduct.fromStr text).mapError fun error => "Unknown product: " ++ error

def readPlatform (text : String) : Except String Platform :=
  (Platform.fromStr text).elim (.error ("Unknown platform: " ++ text)) .ok

def readApplication (text : String) : Except String Application :=
  (Application.fromStr text).elim (.error ("Unknown application: " ++ text)) .ok

def ManifestFile.read (file : ManifestFile) : Except String DiagnosticManifest := do
  let product ← readOptional readProduct file.product
  let platform ← readOptional readPlatform file.platform
  let application ← readOptional readApplication file.application
  pure
    { product := product.getD .unknown
      explicitPlatform := platform
      explicitApplication := application
      diagType := file.diagType
      runner := file.runner
      includedDiagnostics := file.includedDiagnostics }

def DiagnosticManifest.write (self : DiagnosticManifest) : ManifestFile where
  product := some self.product.wireName
  platform := self.explicitPlatform.map Platform.key
  application := self.explicitApplication.map Application.key
  diagType := self.diagType
  runner := self.runner
  includedDiagnostics := self.includedDiagnostics

/-- What is left of a file for a reader that does not know the two newer keys. -/
def ManifestFile.older (file : ManifestFile) : ManifestFile :=
  { file with platform := none, application := none }

theorem readPlatform_key (platform : Platform) : readPlatform platform.key = .ok platform := by
  cases platform <;> decide +kernel

theorem readApplication_key (application : Application) :
    readApplication application.key = .ok application := by
  cases application <;> decide +kernel

theorem readOptional_map {α : Type} {read : String → Except String α} {write : α → String}
    (h : ∀ a, read (write a) = .ok a) (value : Option α) :
    readOptional read (value.map write) = .ok value := by
  cases value with
  | none => rfl
  | some a =>
    change (read (write a)).map some = .ok (some a)
    rw [h]
    rfl

theorem read_product (product : ManifestProduct) :
    readOptional readProduct (some product.wireName) = .ok (some product) := by
  change ((ManifestProduct.fromStr product.wireName).mapError _).map some = _
  rw [ManifestProduct.fromStr_wireName]
  rfl

theorem read_write (m : DiagnosticManifest) : m.write.read = .ok m := by
  unfold ManifestFile.read DiagnosticManifest.write
  rw [read_product, readOptional_map readPlatform_key, readOptional_map readApplication_key]
  rfl

theorem read_older_write (m : DiagnosticManifest) :
    m.write.older.read = .ok { m with explicitPlatform := none, explicitApplication := none } := by
  unfold ManifestFile.read ManifestFile.older DiagnosticManifest.write
  simp only
  rw [read_product]
  rfl

end Files

section Origins

/-- What produced a bundle, which decides how it is processed. -/
inductive BundleOrigin where
  | platform (platform : Platform)
  | application (application : Application)
  | unknown
  deriving DecidableEq

def BundleOrigin.application? : BundleOrigin → Option Application
  | .application named => some named
  | .platform _ | .unknown => none

/-- A known platform is an origin. -/
def BundleOrigin.ofPlatform : Platform → BundleOrigin
  | .unknown => .unknown
  | known => .platform known

theorem BundleOrigin.ofPlatform_injective : Function.Injective BundleOrigin.ofPlatform := by
  intro one other h
  cases one <;> cases other <;> first | rfl | cases h

/-- The types that the platform collectors write. -/
def platformCollectorType (diagType : Option String) : Option Platform :=
  if diagType = some "eck-diagnostics" then some .eck
  else if diagType = some "k8s-platform-diagnostics" then some .kubernetesPlatform
  else none

/-- The platform that a runner stands for. -/
def runnerPlatform (runner : Option String) : Option Platform :=
  runner.bind fun text =>
    let lowered := Texts.toLowercase text
    if lowered ∈ ["ece", "elastic-cloud-enterprise"] then some .ece
    else if lowered ∈ ["eck", "eck-diagnostics"] then some .eck
    else none

namespace DiagnosticManifest

variable (self : DiagnosticManifest)

def new (includedDiagnostics : Option (List DiagPath)) (application : Option Application)
    (diagType runner : Option String) : DiagnosticManifest where
  product := .fromClassification .unknown application
  explicitPlatform := none
  explicitApplication := application
  diagType := diagType
  runner := runner
  includedDiagnostics := includedDiagnostics

def detectPlatformFromIndicators : Platform :=
  ((runnerPlatform self.runner).or (platformCollectorType self.diagType)).getD
    self.product.split.1

def platform : Platform := self.explicitPlatform.getD self.detectPlatformFromIndicators

def application : Option Application := self.explicitApplication.or self.product.application

/-- The word for older readers follows where it says nothing yet. -/
def setPlatform (platform : Platform) : DiagnosticManifest :=
  { self with
    explicitPlatform := some platform
    product :=
      if self.product = .unknown ∧ self.explicitApplication = none then
        .fromClassification platform none
      else self.product }

def bundleOrigin : BundleOrigin :=
  match platformCollectorType self.diagType with
  | some platform => .platform platform
  | none =>
    match self.application with
    | some application => .application application
    | none => .ofPlatform self.platform

def childDiagnostics : Option (List DiagPath) :=
  match self.bundleOrigin with
  | .platform _ => self.includedDiagnostics
  | .application _ | .unknown => none

def typeKey : String :=
  match self.application with
  | some application => application.key
  | none => self.platform.key

end DiagnosticManifest

/-- `manifest.json`, as support diagnostics and platform collectors write it. -/
structure Manifest where
  diagType : Option String
  product : Option ManifestProduct
  runner : Option String
  includedDiagnostics : Option (List DiagPath)

/-- Without a `product`, a bundle is one of Elasticsearch, unless a platform collector wrote it. -/
def Manifest.classification (manifest : Manifest) : Platform × Option Application :=
  match platformCollectorType manifest.diagType with
  | some platform => (platform, none)
  | none => (manifest.product.getD .elasticsearch).split

def DiagnosticManifest.ofManifest (manifest : Manifest) : DiagnosticManifest :=
  let classified := manifest.classification
  let diagnostic := new manifest.includedDiagnostics classified.2 manifest.diagType
    manifest.runner
  if classified.1 = .unknown then diagnostic else diagnostic.setPlatform classified.1

/-- What a receiver can tell about the platform of the bundle it reads. -/
structure PlatformEvidence where
  platformHint : Option Platform
  hasSyscalls : Bool
  licenseImpliesCloud : Bool

def resolvePlatform (manifest : DiagnosticManifest) (receiver : PlatformEvidence)
    (identifiers : Identifiers) : Platform :=
  match identifiers.platform with
  | some platform => platform
  | none =>
    if manifest.explicitPlatform.isSome then manifest.platform
    else
      match receiver.platformHint with
      | some platform => platform
      | none =>
        if manifest.platform ≠ .unknown then manifest.platform
        else if receiver.hasSyscalls then .selfManaged
        else if receiver.licenseImpliesCloud then .elasticCloudHosted
        else .unknown

/-- The manifest that is processed. -/
def prepare (manifest : DiagnosticManifest) (receiver : PlatformEvidence)
    (identifiers : Identifiers) : DiagnosticManifest :=
  manifest.setPlatform (resolvePlatform manifest receiver identifiers)

inductive Diagnostic where
  | elasticsearch
  | elasticCloudKubernetes
  | kubernetesPlatform
  | logstash
  deriving DecidableEq

/-- The processor of a bundle, by its origin alone. -/
def processorFor : BundleOrigin → Except String Diagnostic
  | .platform .eck => .ok .elasticCloudKubernetes
  | .platform .kubernetesPlatform => .ok .kubernetesPlatform
  | .application .elasticsearch => .ok .elasticsearch
  | .application .logstash => .ok .logstash
  | .application .kibana => .error kibanaProcessingNotImplemented
  | .application .agent => .error agentProcessingNotImplemented
  | .platform _ | .unknown => .error unsupportedProductOrDiagnosticBundle

def Diagnostic.tryNew (manifest : DiagnosticManifest) (selection : Option ProcessSelection) :
    Except String Diagnostic :=
  match selection with
  | some selection =>
    if manifest.typeKey ≠ selection.product then
      .error ("Selected processing product '" ++ selection.product ++
        "' does not match diagnostic product '" ++ manifest.typeKey ++ "'")
    else processorFor manifest.bundleOrigin
  | none => processorFor manifest.bundleOrigin

/-- What the executor reads of a manifest. -/
def bundleManifest (manifest : DiagnosticManifest) (receiver : PlatformEvidence)
    (identifiers : Identifiers) : BundleManifest where
  detectedPlatform := resolvePlatform manifest receiver { identifiers with platform := none }
  platformBundle :=
    match (prepare manifest receiver identifiers).bundleOrigin with
    | .platform _ => true
    | .application _ | .unknown => false
  includedDiagnostics := manifest.includedDiagnostics

end Origins

section Preparation

variable {manifest : DiagnosticManifest} {receiver : PlatformEvidence} {identifiers : Identifiers}

@[simp] theorem explicitPlatform_setPlatform (platform : Platform) :
    (manifest.setPlatform platform).explicitPlatform = some platform := rfl

@[simp] theorem explicitApplication_setPlatform (platform : Platform) :
    (manifest.setPlatform platform).explicitApplication = manifest.explicitApplication := rfl

@[simp] theorem diagType_setPlatform (platform : Platform) :
    (manifest.setPlatform platform).diagType = manifest.diagType := rfl

@[simp] theorem platform_setPlatform (platform : Platform) :
    (manifest.setPlatform platform).platform = platform := rfl

theorem application_setPlatform (platform : Platform) :
    (manifest.setPlatform platform).application = manifest.application := by
  unfold DiagnosticManifest.application
  rw [explicitApplication_setPlatform]
  unfold DiagnosticManifest.setPlatform
  simp only
  split
  · next h =>
    rw [h.1, ManifestProduct.application_fromClassification]
    rfl
  · rfl

theorem setPlatform_setPlatform (platform : Platform) :
    (manifest.setPlatform platform).setPlatform platform = manifest.setPlatform platform := by
  unfold DiagnosticManifest.setPlatform
  simp only [DiagnosticManifest.mk.injEq, and_true]
  by_cases h : manifest.product = .unknown ∧ manifest.explicitApplication = none
  · rw [if_pos h]
    split <;> rfl
  · rw [if_neg h, if_neg h]

/-- A platform reroutes only a bundle of neither a collector nor an application. -/
theorem bundleOrigin_setPlatform_of_classified (platform : Platform)
    (h : (platformCollectorType manifest.diagType).isSome = true ∨
      manifest.application.isSome = true) :
    (manifest.setPlatform platform).bundleOrigin = manifest.bundleOrigin := by
  unfold DiagnosticManifest.bundleOrigin
  rw [diagType_setPlatform, application_setPlatform]
  cases hcollector : platformCollectorType manifest.diagType with
  | some collector => rfl
  | none =>
    cases happlication : manifest.application with
    | some application => rfl
    | none =>
      rw [hcollector, happlication] at h
      simp at h

/-- A platform that was written wins over all that a receiver could find. -/
theorem resolvePlatform_of_explicit {platform : Platform}
    (hexplicit : manifest.explicitPlatform = some platform) (h : identifiers.platform = none) :
    resolvePlatform manifest receiver identifiers = platform := by
  unfold resolvePlatform
  rw [h, hexplicit]
  simp only [Option.isSome_some, if_true]
  unfold DiagnosticManifest.platform
  rw [hexplicit]
  rfl

theorem prepare_prepare {later : PlatformEvidence} {laterIdentifiers : Identifiers}
    (h : laterIdentifiers.platform = none) :
    prepare (prepare manifest receiver identifiers) later laterIdentifiers =
      prepare manifest receiver identifiers := by
  unfold prepare
  rw [resolvePlatform_of_explicit (explicitPlatform_setPlatform _) h]
  exact setPlatform_setPlatform _

/-- A bundle without a processor is skipped, and the skip names its application. -/
theorem skipped_of_processorFor {origin : BundleOrigin} {error : String}
    (h : processorFor origin = .error error) :
    (skipKindFor error).isSome = true ∧
      skippedApplication error = origin.application? := by
  cases origin with
  | unknown =>
    obtain rfl := Except.error.inj h
    exact ⟨by decide, by decide⟩
  | application application =>
    cases application <;> cases h <;> exact ⟨by decide, by decide⟩
  | platform platform =>
    cases platform <;> cases h <;> exact ⟨by decide, by decide⟩

theorem detectedPlatform_bundleManifest :
    identifiers.platform.getD (bundleManifest manifest receiver identifiers).detectedPlatform =
      (prepare manifest receiver identifiers).platform := by
  unfold prepare bundleManifest
  rw [platform_setPlatform]
  unfold resolvePlatform
  cases identifiers.platform <;> rfl

theorem childDiagnostics_bundleManifest :
    (bundleManifest manifest receiver identifiers).childDiagnostics =
      (prepare manifest receiver identifiers).childDiagnostics.getD [] := by
  unfold BundleManifest.childDiagnostics bundleManifest DiagnosticManifest.childDiagnostics
  cases (prepare manifest receiver identifiers).bundleOrigin <;> rfl

end Preparation

section Results

/-- Whatever a bundle says of itself and wherever it is read, what is processed is on the
platform that was resolved and about the application it named, has its classification read back
as it was written, and is processed the same way again. Its children and its platform are those
that the job executor goes by, and without a processor it is skipped. -/
theorem classification_survives (manifest : DiagnosticManifest) (receiver : PlatformEvidence)
    (identifiers : Identifiers) :
    (prepare manifest receiver identifiers).write.read =
        .ok (prepare manifest receiver identifiers) ∧
    (prepare manifest receiver identifiers).platform =
        identifiers.platform.getD
          (bundleManifest manifest receiver identifiers).detectedPlatform ∧
    (prepare manifest receiver identifiers).application = manifest.application ∧
    ((platformCollectorType manifest.diagType).isSome = true ∨
        manifest.application.isSome = true →
      (prepare manifest receiver identifiers).bundleOrigin = manifest.bundleOrigin) ∧
    (∀ (later : PlatformEvidence) (laterIdentifiers : Identifiers),
      laterIdentifiers.platform = none →
        prepare (prepare manifest receiver identifiers) later laterIdentifiers =
          prepare manifest receiver identifiers) ∧
    (bundleManifest manifest receiver identifiers).childDiagnostics =
        (prepare manifest receiver identifiers).childDiagnostics.getD [] ∧
    ∀ error, Diagnostic.tryNew (prepare manifest receiver identifiers) none = .error error →
      (skipKindFor error).isSome = true ∧
        skippedApplication error =
          (prepare manifest receiver identifiers).bundleOrigin.application? := by
  refine ⟨read_write _, detectedPlatform_bundleManifest.symm, application_setPlatform _,
    bundleOrigin_setPlatform_of_classified _, fun _ _ h => prepare_prepare h,
    childDiagnostics_bundleManifest, fun _ h => skipped_of_processorFor h⟩

/-- The first of the platforms that the older word can name. -/
def firstNamed (platforms : List Platform) : Platform :=
  (platforms.find? fun platform =>
    ManifestProduct.fromClassification platform none ≠ .unknown).getD .unknown

theorem split_firstNamed (platforms : List Platform) :
    (ManifestProduct.fromClassification (firstNamed platforms) none).split.1 =
      firstNamed platforms := by
  unfold firstNamed
  cases h : platforms.find? fun platform =>
      ManifestProduct.fromClassification platform none ≠ .unknown with
  | none => rfl
  | some platform =>
    have hnamed := List.find?_some h
    cases platform <;> first | rfl | exact absurd hnamed (by decide)

theorem product_foldl_of_application {manifest : DiagnosticManifest} (platforms : List Platform)
    (h : manifest.explicitApplication ≠ none) :
    (platforms.foldl DiagnosticManifest.setPlatform manifest).product = manifest.product := by
  induction platforms generalizing manifest with
  | nil => rfl
  | cons platform rest ih =>
    have hset : (manifest.setPlatform platform).explicitApplication ≠ none := h
    rw [List.foldl_cons, ih hset]
    unfold DiagnosticManifest.setPlatform
    exact if_neg fun hboth => h hboth.2

/-- The older word names the first of the platforms that it can name, and keeps it. -/
theorem product_foldl {manifest : DiagnosticManifest} (platforms : List Platform)
    (h : manifest.explicitApplication = none) :
    (platforms.foldl DiagnosticManifest.setPlatform manifest).product =
      if manifest.product = .unknown then .fromClassification (firstNamed platforms) none
      else manifest.product := by
  induction platforms generalizing manifest with
  | nil =>
    split
    · next hunknown => exact hunknown
    · rfl
  | cons platform rest ih =>
    have hproduct : (manifest.setPlatform platform).product =
        if manifest.product = .unknown then .fromClassification platform none
        else manifest.product := by
      unfold DiagnosticManifest.setPlatform
      simp only [h, and_true]
    have hset : (manifest.setPlatform platform).explicitApplication = none := h
    rw [List.foldl_cons, ih hset, hproduct]
    by_cases hunknown : manifest.product = .unknown
    · rw [if_pos hunknown, if_pos hunknown]
      unfold firstNamed
      rw [List.find?_cons]
      split
      · next hplatform =>
        rw [hplatform]
        simp
      · next hplatform => simp [hplatform]
    · rw [if_neg hunknown, if_neg hunknown, if_neg hunknown]

def DiagnosticManifest.setPlatforms (self : DiagnosticManifest) (platforms : List Platform) :
    DiagnosticManifest := platforms.foldl DiagnosticManifest.setPlatform self

/-- Setting platforms changes the platform and the older word alone. -/
theorem setPlatforms_eq (manifest : DiagnosticManifest) (platforms : List Platform) :
    manifest.setPlatforms platforms =
      { manifest with
        explicitPlatform := platforms.getLast?.or manifest.explicitPlatform
        product := (manifest.setPlatforms platforms).product } := by
  unfold DiagnosticManifest.setPlatforms
  induction platforms generalizing manifest with
  | nil => rfl
  | cons platform rest ih =>
    rw [List.foldl_cons, ih, List.getLast?_cons, explicitPlatform_setPlatform]
    cases rest.getLast? <;> rfl

/-- The platform that runner and type name, before the older word is asked. -/
def indicatedPlatform (diagType runner : Option String) : Option Platform :=
  (runnerPlatform runner).or (platformCollectorType diagType)

section Readers

variable (includedDiagnostics : Option (List DiagPath)) (application : Option Application)
  (diagType runner : Option String) (platforms : List Platform)

/-- A manifest as the collectors make it, with the platforms that are set on it. -/
def madeManifest : DiagnosticManifest :=
  (DiagnosticManifest.new includedDiagnostics application diagType runner).setPlatforms platforms

/-- The same for a reader that knows only the older word. -/
def olderManifest : DiagnosticManifest :=
  { madeManifest includedDiagnostics application diagType runner platforms with
    explicitPlatform := none
    explicitApplication := none }

theorem product_madeManifest :
    (madeManifest includedDiagnostics application diagType runner platforms).product =
      .fromClassification (firstNamed platforms) application := by
  unfold madeManifest DiagnosticManifest.setPlatforms
  cases application with
  | some named =>
    rw [product_foldl_of_application platforms (by simp [DiagnosticManifest.new])]
    cases named <;> rfl
  | none =>
    rw [product_foldl platforms rfl]
    rfl

theorem application_madeManifest :
    (madeManifest includedDiagnostics application diagType runner platforms).application =
      application := by
  unfold DiagnosticManifest.application
  rw [product_madeManifest, ManifestProduct.application_fromClassification]
  unfold madeManifest
  rw [setPlatforms_eq]
  cases application <;> rfl

theorem application_olderManifest :
    (olderManifest includedDiagnostics application diagType runner platforms).application =
      application := by
  unfold DiagnosticManifest.application olderManifest
  simp only
  rw [product_madeManifest, ManifestProduct.application_fromClassification]
  rfl

theorem platform_madeManifest :
    (madeManifest includedDiagnostics none diagType runner platforms).platform =
      platforms.getLast?.getD ((indicatedPlatform diagType runner).getD .unknown) := by
  have hproduct := product_madeManifest includedDiagnostics none diagType runner platforms
  unfold DiagnosticManifest.platform DiagnosticManifest.detectPlatformFromIndicators
  rw [hproduct, split_firstNamed]
  unfold madeManifest
  rw [setPlatforms_eq]
  cases platforms with
  | nil => rfl
  | cons platform rest =>
    rw [List.getLast?_cons]
    rfl

theorem platform_olderManifest :
    (olderManifest includedDiagnostics none diagType runner platforms).platform =
      (indicatedPlatform diagType runner).getD (firstNamed platforms) := by
  have hproduct := product_madeManifest includedDiagnostics none diagType runner platforms
  unfold olderManifest DiagnosticManifest.platform
    DiagnosticManifest.detectPlatformFromIndicators
  simp only
  rw [hproduct, split_firstNamed]
  unfold madeManifest
  rw [setPlatforms_eq]
  rfl

/-- A reader that knows only the older word sees the application that was written. It sees the
origin as well, but for a bundle of neither a collector nor an application: there the word keeps
the first platform that it can name, while the last one counts. -/
theorem older_readers_agree :
    (madeManifest includedDiagnostics application diagType runner platforms).write.older.read =
      .ok (olderManifest includedDiagnostics application diagType runner platforms) ∧
    (olderManifest includedDiagnostics application diagType runner platforms).application =
      (madeManifest includedDiagnostics application diagType runner platforms).application ∧
    ((olderManifest includedDiagnostics application diagType runner platforms).bundleOrigin =
        (madeManifest includedDiagnostics application diagType runner platforms).bundleOrigin ↔
      (platformCollectorType diagType).isSome = true ∨ application.isSome = true ∨
        (indicatedPlatform diagType runner).getD (firstNamed platforms) =
          platforms.getLast?.getD ((indicatedPlatform diagType runner).getD .unknown)) := by
  have hmade := application_madeManifest includedDiagnostics application diagType runner platforms
  have holder :=
    application_olderManifest includedDiagnostics application diagType runner platforms
  refine ⟨read_older_write _, holder.trans hmade.symm, ?_⟩
  have hmadeType : (madeManifest includedDiagnostics application diagType runner
      platforms).diagType = diagType := by
    unfold madeManifest
    rw [setPlatforms_eq]
    rfl
  have holderType : (olderManifest includedDiagnostics application diagType runner
      platforms).diagType = diagType := hmadeType
  unfold DiagnosticManifest.bundleOrigin
  rw [hmade, holder, hmadeType, holderType]
  cases hcollector : platformCollectorType diagType with
  | some collector => simp
  | none =>
    cases application with
    | some named => simp
    | none =>
      rw [platform_madeManifest, platform_olderManifest]
      simp only [BundleOrigin.ofPlatform_injective.eq_iff]
      simp

end Readers

/-- A converted `manifest.json` is one as the collectors make it, with its platform if known. -/
theorem ofManifest_eq (manifest : Manifest) :
    DiagnosticManifest.ofManifest manifest =
      madeManifest manifest.includedDiagnostics manifest.classification.2 manifest.diagType
        manifest.runner
        (if manifest.classification.1 = .unknown then [] else [manifest.classification.1]) := by
  unfold DiagnosticManifest.ofManifest madeManifest
  simp only
  split <;> rfl

theorem application_ofManifest (manifest : Manifest) :
    (DiagnosticManifest.ofManifest manifest).application = manifest.classification.2 := by
  rw [ofManifest_eq]
  exact application_madeManifest _ _ _ _ _

theorem platform_ofManifest {manifest : Manifest} (h : manifest.classification.1 ≠ .unknown) :
    (DiagnosticManifest.ofManifest manifest).platform = manifest.classification.1 := by
  unfold DiagnosticManifest.ofManifest
  simp only
  rw [if_neg h, platform_setPlatform]

/-- Without a `product`, the origin is a platform for the collectors and Elasticsearch else. -/
theorem bundleOrigin_ofManifest {manifest : Manifest} (h : manifest.product = none) :
    (DiagnosticManifest.ofManifest manifest).bundleOrigin =
      ((platformCollectorType manifest.diagType).map BundleOrigin.platform).getD
        (.application .elasticsearch) := by
  have happlication := application_ofManifest manifest
  have htype : (DiagnosticManifest.ofManifest manifest).diagType = manifest.diagType := by
    rw [ofManifest_eq, madeManifest, setPlatforms_eq]
    rfl
  unfold DiagnosticManifest.bundleOrigin
  rw [htype, happlication]
  unfold Manifest.classification
  cases platformCollectorType manifest.diagType with
  | some platform => rfl
  | none =>
    rw [h]
    rfl

end Results

end Esdiag.BundleManifests
