import Esdiag.JsonTrees
import Esdiag.TemplateUpgrades

/-!
Templates adapted for a serverless project, which manages lifecycles itself. The
settings that name an ILM policy are taken out of the template, however the nested
and the dotted spellings of their names are mixed, and everything else stays.
-/
namespace Esdiag.ServerlessSettings

open JsonTrees JsonValues

/-- The path of a setting from the path of what holds it. -/
def joinPath (parent key : String) : String :=
  if parent.isEmpty then key else parent ++ "." ++ key

def isIlmSetting (path : String) : Bool :=
  path == "index.lifecycle.name" || path == "index.lifecycle.prefer_ilm"

mutual
def removeServerlessIlmSettings (parent : String) : Value → Value
  | .object settings => .object (retainSettings parent settings)
  | value => value

/-- `retain` over the entries of one object. -/
def retainSettings (parent : String) : List (String × Value) → List (String × Value)
  | [] => []
  | (key, value) :: rest =>
    let path := joinPath parent key
    if isIlmSetting path then retainSettings parent rest
    else
      let adapted := removeServerlessIlmSettings path value
      if isEmptyObject adapted then retainSettings parent rest
      else (key, adapted) :: retainSettings parent rest
end

mutual
theorem removeServerlessIlmSettings_eq_prune (parent : String) (value : Value) :
    removeServerlessIlmSettings parent value = prune joinPath isIlmSetting parent value := by
  cases value with
  | object settings => exact congrArg Value.object (retainSettings_eq_pruneFields parent settings)
  | _ => rfl

theorem retainSettings_eq_pruneFields (parent : String) (settings : List (String × Value)) :
    retainSettings parent settings = pruneFields joinPath isIlmSetting parent settings := by
  match settings with
  | [] => rfl
  | (key, value) :: rest =>
    rw [retainSettings, pruneFields, removeServerlessIlmSettings_eq_prune (joinPath parent key),
      retainSettings_eq_pruneFields parent rest]
end

/-! ### Assets -/

section Assets

def isTemplateAsset (endpoint : String) : Bool :=
  let trimmed := String.ofList (Texts.trimList (· == '/') endpoint.toList)
  trimmed == "_component_template" || trimmed == "_index_template"

/-- What the endpoint of an asset is in an upgrade. -/
def endpointOf (endpoint : String) : TemplateUpgrades.Endpoint :=
  let trimmed := String.ofList (Texts.trimList (· == '/') endpoint.toList)
  if trimmed = "_component_template" then .componentTemplate
  else if trimmed = "_index_template" then .indexTemplate
  else .other

/-- The assets that are adapted are those that an upgrade looks up. -/
theorem isTemplateAsset_endpointOf (asset : TemplateUpgrades.Asset) (endpoint : String)
    (h : asset.endpoint = endpointOf endpoint) :
    TemplateUpgrades.isTemplateAsset asset = isTemplateAsset endpoint := by
  rw [TemplateUpgrades.isTemplateAsset, h, endpointOf, isTemplateAsset]
  split_ifs with hcomponent hindex <;> simp [*]

/-- Long-lived data for a template that turns its lifecycle off. -/
def enableLifecycle (lifecycle : Value) : Value :=
  match lifecycle.get "enabled" with
  | some (.bool false) =>
    .object [("enabled", .bool true), ("data_retention", .string "3650d")]
  | _ => lifecycle

def serverlessBody (body : Value) : Value :=
  modifyPointer enableLifecycle ["template", "lifecycle"]
    (modifyPointer (removeServerlessIlmSettings "") ["template", "settings"] body)

variable {C ε : Type}

/-- Adapt only template settings. -/
def serverlessAssetContents (fromSlice : C → Except ε Value) (toVec : Value → C)
    (endpoint : String) (contents : C) : Except ε C :=
  if isTemplateAsset endpoint then (fromSlice contents).map fun body => toVec (serverlessBody body)
  else .ok contents

/-- The settings of a template are adapted, -/
theorem settings_serverlessBody (body : Value) :
    pointer ["template", "settings"] (serverlessBody body) =
      (pointer ["template", "settings"] body).map (removeServerlessIlmSettings "") := by
  have hlifecycle := pointer_modifyPointer_of_ne enableLifecycle
    (by decide : "settings" ≠ "lifecycle") ["template"] [] []
    (modifyPointer (removeServerlessIlmSettings "") ["template", "settings"] body)
  exact hlifecycle.trans (pointer_modifyPointer_self _ _ _)

/-- and so is its lifecycle, -/
theorem lifecycle_serverlessBody (body : Value) :
    pointer ["template", "lifecycle"] (serverlessBody body) =
      (pointer ["template", "lifecycle"] body).map enableLifecycle := by
  have hsettings := pointer_modifyPointer_of_ne (removeServerlessIlmSettings "")
    (by decide : "lifecycle" ≠ "settings") ["template"] [] [] body
  rw [serverlessBody, pointer_modifyPointer_self]
  exact congrArg (Option.map enableLifecycle) hsettings

/-- while its mappings and whatever else it has stay as they are. -/
theorem other_serverlessBody (body : Value) {name : String} (names : List String)
    (hsettings : name ≠ "settings") (hlifecycle : name ≠ "lifecycle") :
    pointer ("template" :: name :: names) (serverlessBody body) =
      pointer ("template" :: name :: names) body :=
  (pointer_modifyPointer_of_ne enableLifecycle hlifecycle ["template"] [] names _).trans
    (pointer_modifyPointer_of_ne (removeServerlessIlmSettings "") hsettings ["template"] [] names
      body)

end Assets

/-! ### Flattened settings -/

/-- The names on the way to a setting, joined with dots; leading empty names leave no dot. -/
def settingPath (names : List String) : String := names.foldl joinPath ""

/-- The leaf settings by their dotted paths. Arrays are values. -/
def flattened (settings : Value) : List (String × Value) :=
  (leaves settings).map fun leaf => (settingPath leaf.1, leaf.2)

/-- An ILM setting, or a part of one that is written as an object. -/
def belowIlmSetting (names : List String) : Bool :=
  names.inits.any fun way => isIlmSetting (settingPath way)

theorem passesDropped_eq_belowIlmSetting (names : List String) :
    passesDropped joinPath isIlmSetting "" names = belowIlmSetting names := by
  cases names with
  | nil => rfl
  | cons name names =>
    rw [belowIlmSetting, List.inits_cons, List.any_cons]
    change _ = (isIlmSetting "" || _)
    rw [show isIlmSetting "" = false from by decide, Bool.false_or]
    rfl

/-- What the adaptation comes to: it filters the leaves, leaves no empty object behind and has
nothing left to do. -/
structure Adapted (settings adapted : Value) : Prop where
  leaves : leaves adapted = (leaves settings).filter fun leaf => !belowIlmSetting leaf.1
  noEmpty : noEmptyBelow adapted = true
  again : removeServerlessIlmSettings "" adapted = adapted

/-- For every settings tree, the settings at and below the two ILM paths go, no others do. -/
theorem settings_adapted (settings : Value) :
    Adapted settings (removeServerlessIlmSettings "" settings) where
  leaves := by
    rw [removeServerlessIlmSettings_eq_prune, leaves_prune]
    exact List.filter_congr fun leaf _ => by rw [passesDropped_eq_belowIlmSetting]
  noEmpty := by
    rw [removeServerlessIlmSettings_eq_prune]
    exact noEmptyBelow_prune "" settings
  again := by
    rw [removeServerlessIlmSettings_eq_prune, removeServerlessIlmSettings_eq_prune]
    exact prune_prune "" settings

/-- Where nothing is nested below an ILM setting, the flattened settings lose these two paths
and no others. -/
theorem flattened_removeServerlessIlmSettings {settings : Value}
    (h : ∀ leaf ∈ leaves settings,
      belowIlmSetting leaf.1 = isIlmSetting (settingPath leaf.1)) :
    flattened (removeServerlessIlmSettings "" settings) =
      (flattened settings).filter fun setting => !isIlmSetting setting.1 := by
  rw [flattened, (settings_adapted settings).leaves, flattened, List.filter_map]
  congr 1
  exact List.filter_congr fun leaf hleaf => by rw [h leaf hleaf]; rfl

/-- A policy name that is an object goes with all that it holds. -/
def nestedName : Value :=
  .object [("index", .object [("lifecycle", .object [("name",
    .object [("x", .number (.posInt 1#64))])])])]

theorem nested_name_removed :
    flattened (removeServerlessIlmSettings "" nestedName) ≠
      (flattened nestedName).filter fun setting => !isIlmSetting setting.1 := by
  intro h
  have hlength := congrArg List.length h
  exact absurd hlength (by decide)

end Esdiag.ServerlessSettings
