import Esdiag.OutputSources
import Esdiag.SettingsRenames

/-!
The move of the settings of earlier releases into the application configuration, at the
start of the server in user mode. It names the active target as the output when that is an
Elasticsearch host to send to with a linked Kibana host to view with, and when a Kibana
address that the settings name is the viewer's own. The settings themselves stay, with a copy.
-/
namespace Esdiag.SettingsMigration

open KeyedMaps KnownHosts Keystores KeystoreMigration ApplicationConfigs ElasticContexts
  OutputDeployments OutputSources SettingsRenames

inductive LegacySettingsMigration where
  | noLegacySettings
  | alreadyConfigured
  | migrated
  | notRepresentable
  deriving DecidableEq

inductive MigrationError where
  | settings
  | backup
  | config (error : ConfigError)
  deriving DecidableEq

/-- What the copy of the settings comes to. -/
inductive CopyOutcome where
  | copied
  | failed
  | failedPartway
  deriving DecidableEq

/-- The files of the migration; the backup is missing until the first copy. -/
structure Files where
  system : System
  settings : SettingsFile
  backup : Option SettingsFile

section Migration

variable {Url : Type} (lib : ServiceLibrary Url)

/-- The active target, when its hosts are a deployment. -/
def representable (legacy : Settings) (system : System) : Option String :=
  match legacy.activeTarget with
  | none => none
  | some activeTarget =>
    match getKnown lib system activeTarget with
    | none => none
    | some output =>
      if output.app ≠ some .elasticsearch ∨ .send ∉ output.roles then none
      else
        match output.viewer with
        | none => none
        | some viewerName =>
          match getKnown lib system viewerName with
          | none => none
          | some viewer =>
            if viewer.app ≠ some .kibana ∨ .view ∉ viewer.roles then none
            else if legacy.kibanaUrl.isSome ∧ viewer.url.map lib.display ≠ legacy.kibanaUrl then
              none
            else some activeTarget

/-- The backup is made once; a copy that fails may leave part of one. -/
def backUp (copy : CopyOutcome) (files : Files) : Except MigrationError Unit × Files :=
  match files.backup, copy with
  | some _, _ => (.ok (), files)
  | none, .copied => (.ok (), { files with backup := some files.settings })
  | none, .failed => (.error .backup, files)
  | none, .failedPartway => (.error .backup, { files with backup := some .unparsed })

def migrateToApplicationConfig (copy : CopyOutcome) (saveFails : Bool) (files : Files) :
    Except MigrationError LegacySettingsMigration × Files :=
  match files.settings with
  | .absent => (.ok .noLegacySettings, files)
  | .unparsed => (.error .settings, files)
  | .document legacy =>
    match ApplicationConfig.load files.system.config with
    | .error error => (.error (.config error), files)
    | .ok config =>
      if config.output.default.isSome then (.ok .alreadyConfigured, files)
      else
        match representable lib legacy files.system with
        | none => (.ok .notRepresentable, files)
        | some activeTarget =>
          match backUp copy files with
          | (.error error, files) => (.error error, files)
          | (.ok (), files) =>
            match ApplicationConfig.save { config with output.default := some activeTarget }
                saveFails files.system.config with
            | (.error error, _) => (.error (.config error), files)
            | (.ok (), saved) => (.ok .migrated, { files with system.config := saved })

end Migration

section Results

variable {Url : Type} {lib : ServiceLibrary Url} {copy : CopyOutcome} {saveFails : Bool}
  {files : Files}

/-- A deployment that the saved hosts hold under a name. -/
structure Represents (lib : ServiceLibrary Url) (legacy : Settings) (system : System)
    (output viewer : KnownHost Url) (name viewerName : String) : Prop where
  active : legacy.activeTarget = some name
  foundOutput : getKnown lib system name = some output
  sends : output.app = some .elasticsearch ∧ .send ∈ output.roles
  linked : output.viewer = some viewerName
  foundViewer : getKnown lib system viewerName = some viewer
  views : viewer.app = some .kibana ∧ .view ∈ viewer.roles
  kibana : ∀ url, legacy.kibanaUrl = some url → viewer.url.map lib.display = some url

theorem representable_eq_some_iff {legacy : Settings} {system : System} {name : String} :
    representable lib legacy system = some name ↔
      ∃ output viewer viewerName, Represents lib legacy system output viewer name viewerName := by
  constructor
  · intro h
    unfold representable at h
    split at h
    · cases h
    · next activeTarget hactive =>
      split at h
      · cases h
      · next output houtput =>
        split at h
        · cases h
        · next hsends =>
          split at h
          · cases h
          · next viewerName hlinked =>
            split at h
            · cases h
            · next viewer hviewer =>
              split at h
              · cases h
              · next hviews =>
                split at h
                · cases h
                · next hkibana =>
                  obtain rfl := Option.some.inj h
                  refine ⟨output, viewer, viewerName, hactive, houtput, ?_, hlinked, hviewer,
                    ?_, ?_⟩
                  · simpa using hsends
                  · simpa using hviews
                  · intro url hurl
                    rw [hurl] at hkibana
                    simpa using hkibana
  · rintro ⟨output, viewer, viewerName, h⟩
    unfold representable
    have hkibana : ¬(legacy.kibanaUrl.isSome = true ∧
        viewer.url.map lib.display ≠ legacy.kibanaUrl) := by
      rintro ⟨hsome, hne⟩
      obtain ⟨url, hurl⟩ := Option.isSome_iff_exists.mp hsome
      exact hne ((h.kibana url hurl).trans hurl.symm)
    simp [h.active, h.foundOutput, h.sends, h.linked, h.foundViewer, h.views, hkibana]

/-- The backup alone changes, and only where there was none. -/
theorem backUp_spec (copy : CopyOutcome) (files : Files) :
    (backUp copy files).2 = { files with backup := (backUp copy files).2.backup } ∧
      (files.backup.isSome = true → (backUp copy files).2.backup = files.backup) ∧
      ((backUp copy files).1 = .ok () → (backUp copy files).2.backup.isSome = true) := by
  unfold backUp
  obtain ⟨system, settings, backup⟩ := files
  cases backup with
  | some backup => exact ⟨rfl, fun _ => rfl, fun _ => rfl⟩
  | none =>
    cases copy with
    | copied => exact ⟨rfl, nofun, fun _ => rfl⟩
    | failed => exact ⟨rfl, nofun, nofun⟩
    | failedPartway => exact ⟨rfl, nofun, nofun⟩

theorem validateVersion_withDefault {file : ConfigFile} {config : ApplicationConfig} (name : String)
    (h : ApplicationConfig.load file = .ok config) :
    ApplicationConfig.validateVersion { config with output.default := some name } = .ok () := by
  have hversion := ApplicationConfig.validateVersion_of_load h
  exact hversion

theorem load_withDefault {file : ConfigFile} {config : ApplicationConfig} (name : String)
    (h : ApplicationConfig.load file = .ok config) :
    ApplicationConfig.load (.document { config with output.default := some name }) =
      .ok { config with output.default := some name } := by
  unfold ApplicationConfig.load
  simp only [validateVersion_withDefault name h]

/-- What a migration does: it saves the target of a deployment, or changes the backup at most. -/
inductive Outcome (lib : ServiceLibrary Url) (files : Files) :
    Except MigrationError LegacySettingsMigration × Files → Prop
  | unsaved {result : Except MigrationError LegacySettingsMigration}
      {backup : Option SettingsFile} :
      result ≠ .ok .migrated → (files.backup.isSome = true → backup = files.backup) →
        Outcome lib files (result, { files with backup := backup })
  | migrated {legacy : Settings} {config : ApplicationConfig} {backup : SettingsFile}
      {output viewer : KnownHost Url} {name viewerName : String} :
      files.settings = .document legacy →
      ApplicationConfig.load files.system.config = .ok config → config.output.default = none →
      Represents lib legacy files.system output viewer name viewerName →
      (files.backup.isSome = true → some backup = files.backup) →
        Outcome lib files (.ok .migrated,
          { files with
            backup := some backup
            system.config := .document { config with output.default := some name } })

theorem Outcome.same {result : Except MigrationError LegacySettingsMigration}
    (h : result ≠ .ok .migrated) : Outcome lib files (result, files) := by
  have hunsaved : Outcome lib files (result, { files with backup := files.backup }) :=
    .unsaved h fun _ => rfl
  exact hunsaved

theorem outcome_migrate (lib : ServiceLibrary Url) (copy : CopyOutcome) (saveFails : Bool)
    (files : Files) : Outcome lib files (migrateToApplicationConfig lib copy saveFails files) := by
  unfold migrateToApplicationConfig
  split
  · exact .same nofun
  · exact .same nofun
  · next legacy hlegacy =>
    split
    · exact .same nofun
    · next config hload =>
      split
      · exact .same nofun
      · next hdefault =>
        have hdefault : config.output.default = none := by simpa using hdefault
        split
        · exact .same nofun
        · next name hname =>
          obtain ⟨output, viewer, viewerName, hrepresents⟩ := representable_eq_some_iff.mp hname
          obtain ⟨hbackedUp, hkept, hmade⟩ := backUp_spec copy files
          cases hbackup : backUp copy files with
          | mk result backedUp =>
            rw [hbackup] at hbackedUp hkept hmade
            simp only at hbackedUp hkept hmade
            cases result with
            | error error =>
              rw [hbackedUp]
              exact .unsaved nofun hkept
            | ok done =>
              obtain ⟨backup, hsome⟩ := Option.isSome_iff_exists.mp (hmade rfl)
              have hversion := validateVersion_withDefault name hload
              unfold ApplicationConfig.save
              rw [hbackedUp, hversion]
              cases saveFails with
              | true => exact .unsaved nofun hkept
              | false =>
                rw [hsome] at hkept ⊢
                exact .migrated hlegacy hload hdefault hrepresents hkept

/-- Sources above the saved output do not look at it. -/
theorem resolveSource_withConfig {resolveAuth : Credential → Except OutputError Auth}
    {source : Source} (system : System) (config : ConfigFile) (requireKibana : Bool) :
    resolveSource lib resolveAuth { system with config := config } source requireKibana =
      resolveSource lib resolveAuth system source requireKibana := by
  cases source with
  | persisted name => cases name <;> rfl
  | _ => rfl

/-- The new default takes the place of no output at all, and of nothing else. -/
theorem selectSource_withDefault {system : System} {config : ApplicationConfig} {name : String}
    (hload : ApplicationConfig.load system.config = .ok config)
    (hdefault : config.output.default = none) (explicitTarget : Option String) :
    selectSource explicitTarget
        { system with config := .document { config with output.default := some name } } =
      if selectSource explicitTarget system = .ok (.persisted none) then
        .ok (.persisted (some name))
      else selectSource explicitTarget system := by
  unfold selectSource
  cases explicitTarget with
  | some target => simp
  | none =>
    simp only [load_withDefault name hload, hload, hdefault]
    cases config.output.elasticContext with
    | some context => simp
    | none =>
      change (if runtimeOutputIsDeclared system = true then _ else _) = _
      cases runtimeOutputIsDeclared system <;> simp

/-- A deployment whose credentials resolve is the saved output. -/
theorem resolveSource_of_represents {resolveAuth : Credential → Except OutputError Auth}
    {legacy : Settings} {system : System} {output viewer : KnownHost Url}
    {name viewerName : String} {outputAuth viewerAuth : Auth}
    (h : Represents lib legacy system output viewer name viewerName)
    (houtput : resolveAuth output.credential = .ok outputAuth)
    (hviewer : resolveAuth viewer.credential = .ok viewerAuth) :
    resolveSource lib resolveAuth system (.persisted (some name)) true =
      .ok (.assemble .persisted ⟨output, outputAuth, some viewer, some viewerAuth⟩) := by
  have hsends : validateSendHost output "output deployment" = .ok () := by
    unfold validateSendHost
    rw [if_neg (by simp [h.sends])]
  have hviews : validateViewHost viewer viewerName = .ok () := by
    unfold validateViewHost
    rw [if_neg (by simp [h.views])]
  have hlinked : linkedViewer lib resolveAuth system output = .ok (some (viewer, viewerAuth)) := by
    unfold linkedViewer
    simp only [h.linked, h.foundViewer, hviews, hviewer]
    rfl
  unfold resolveSource
  simp only [h.foundOutput]
  unfold fromSaved
  rw [hsends, houtput, hlinked, h.linked]
  rfl

/-- The output after a migration, compared with the one before. -/
structure KeepsOutput (lib : ServiceLibrary Url)
    (resolveAuth : Credential → Except OutputError Auth) (files : Files)
    (result : Except MigrationError LegacySettingsMigration × Files) : Prop where
  settings : result.2.settings = files.settings
  system : { result.2.system with config := files.system.config } = files.system
  backup : files.backup.isSome = true → result.2.backup = files.backup
  unmigrated : result.1 ≠ .ok .migrated → result.2.system = files.system
  sources : ∀ explicitTarget requireKibana,
    selectSource explicitTarget files.system ≠ .ok (.persisted none) →
      resolveWith lib resolveAuth result.2.system explicitTarget requireKibana =
        resolveWith lib resolveAuth files.system explicitTarget requireKibana
  migrated : result.1 = .ok .migrated →
    result.2.backup.isSome = true ∧
    (∀ copy saveFails, migrateToApplicationConfig lib copy saveFails result.2 =
      (.ok .alreadyConfigured, result.2)) ∧
    ∃ legacy output viewer name viewerName, files.settings = .document legacy ∧
      Represents lib legacy files.system output viewer name viewerName ∧
      ∀ outputAuth viewerAuth, resolveAuth output.credential = .ok outputAuth →
        resolveAuth viewer.credential = .ok viewerAuth →
        selectSource none files.system = .ok (.persisted none) →
          resolveWith lib resolveAuth result.2.system none true =
            .ok (.assemble .persisted ⟨output, outputAuth, some viewer, some viewerAuth⟩)

/-- However the migration ends, the settings stay as they are, and what was resolved before is
resolved alike. A migration that is done makes the saved output the Elasticsearch host that the
settings named, with its viewer, and is not done again. -/
theorem migration_keeps_output (lib : ServiceLibrary Url)
    (resolveAuth : Credential → Except OutputError Auth) (copy : CopyOutcome) (saveFails : Bool)
    (files : Files) :
    KeepsOutput lib resolveAuth files (migrateToApplicationConfig lib copy saveFails files) := by
  have houtcome := outcome_migrate lib copy saveFails files
  generalize migrateToApplicationConfig lib copy saveFails files = result at houtcome
  cases houtcome with
  | unsaved hresult hbackup =>
    exact ⟨rfl, rfl, hbackup, fun _ => rfl, fun _ _ _ => rfl, fun h => absurd h hresult⟩
  | @migrated legacy config backup output viewer name viewerName hlegacy hload hdefault
      hrepresents hbackup =>
    refine ⟨rfl, rfl, hbackup, fun h => absurd rfl h, ?_, fun _ => ⟨rfl, ?_, ?_⟩⟩
    · intro explicitTarget requireKibana hselected
      rw [resolveWith_eq, resolveWith_eq]
      simp only [selectSource_withDefault hload hdefault, if_neg hselected,
        resolveSource_withConfig]
    · intro copy saveFails
      unfold migrateToApplicationConfig
      simp only [hlegacy, load_withDefault name hload, Option.isSome_some, if_true]
    · refine ⟨legacy, output, viewer, name, viewerName, hlegacy, hrepresents, ?_⟩
      intro outputAuth viewerAuth houtput hviewer hselected
      rw [resolveWith_eq]
      simp only [selectSource_withDefault hload hdefault, if_pos hselected,
        resolveSource_withConfig]
      exact resolveSource_of_represents hrepresents houtput hviewer

end Results

end Esdiag.SettingsMigration
