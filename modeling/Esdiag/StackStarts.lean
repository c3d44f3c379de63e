import Esdiag.LocalStacks

/-!
The values that a start of a local stack writes. They fit on their lines, each pinned
image carries the recorded version, and what was recorded before stays recorded. Values
with these properties keep them when a key is written or removed that they do not bind,
so that each write of a start keeps them, and a start that fails at any step has done
nothing else.
-/
namespace Esdiag.StackStarts

open KeyedMaps Texts EnvFiles FailingPrograms WebUrls KibanaSpaces LocalStacks

section Texts

/-- A text without line ends. -/
def Plain (text : List Char) : Prop := ∀ c ∈ text, c ≠ '\n' ∧ c ≠ '\r'

theorem Plain.fitsLine {text : List Char} (h : Plain text) : FitsLine text := by
  refine ⟨fun hmem => (h _ hmem).1 rfl, ?_⟩
  intro hlast
  exact (h _ (List.mem_of_getLast? hlast)).2 rfl

theorem Plain.append {left right : List Char} (hleft : Plain left) (hright : Plain right) :
    Plain (left ++ right) := by
  intro c hc
  rcases List.mem_append.mp hc with hmem | hmem
  · exact hleft c hmem
  · exact hright c hmem

theorem plain_of_all {text : List Char} {p : Char → Bool} (hp : p '\n' = false ∧ p '\r' = false)
    (h : ∀ c ∈ text, p c = true) : Plain text := by
  intro c hc
  have hpc := h c hc
  constructor
  · rintro rfl
    rw [hp.1] at hpc
    cases hpc
  · rintro rfl
    rw [hp.2] at hpc
    cases hpc

theorem plain_version {version : String} (h : ∀ c ∈ version.toList, isVersionChar c = true) :
    Plain version.toList := plain_of_all (by decide) h

theorem plain_secret (secret : Secret) : Plain secret.text.toList :=
  plain_of_all (by decide) secret.hex

instance (text : List Char) : Decidable (Plain text) := List.decidableBAll _ text

end Texts

section Defaults

theorem find?_setDefault (values : Values) (entry : String × String) (name : String) :
    (setDefault values entry).find? name =
      (values.find? name).or (if entry.1 = name then some entry.2 else none) := by
  unfold setDefault
  by_cases hname : name = entry.1
  · rw [hname, KeyedMap.find?_upsert_self, if_pos rfl]
    cases values.find? entry.1 <;> rfl
  · rw [KeyedMap.find?_upsert_of_ne _ hname, if_neg (Ne.symm hname), Option.or_none]

theorem find?_foldl_setDefault (defaults : List (String × String)) (values : Values)
    (name : String) :
    (defaults.foldl setDefault values).find? name =
      (values.find? name).or (findEntry name defaults) := by
  induction defaults generalizing values with
  | nil => exact Option.or_none.symm
  | cons entry rest ih =>
    rw [List.foldl_cons, ih, find?_setDefault, Option.or_assoc, findEntry]
    by_cases hname : entry.1 = name
    · rw [if_pos hname, if_pos hname]
      rfl
    · rw [if_neg hname, if_neg hname, Option.none_or]

end Defaults

section Coherence

/-- Values whose images carry the recorded versions, and that fit on their lines. -/
structure Coherent (values : Values) : Prop where
  writable : ∀ name text, values.find? name = some text → Writable name text
  elasticsearch : values.find? "ELASTICSEARCH_IMAGE" =
    (values.find? "STACK_ELASTIC_VERSION").map elasticsearchImage
  kibana : values.find? "KIBANA_IMAGE" = (values.find? "STACK_ELASTIC_VERSION").map kibanaImage
  esdiag : values.find? "ESDIAG_IMAGE" = (values.find? "STACK_ESDIAG_VERSION").map esdiagImage
  version : ∀ version, values.find? "STACK_ESDIAG_VERSION" = some version →
    ∀ c ∈ version.toList, isVersionChar c = true
  port : ∀ port, values.find? "ESDIAG_KIBANA_PORT" = some port → port = "5601"
  space : ∀ space, values.find? "ESDIAG_KIBANA_SPACE" = some space → space = "esdiag"

/-- The versions that are recorded stay so. -/
def KeepsVersions (base values : Values) : Prop :=
  ∀ key ∈ ["STACK_ELASTIC_VERSION", "STACK_ESDIAG_VERSION"], ∀ version,
    base.find? key = some version → values.find? key = some version

structure Kept (base values : Values) : Prop where
  coherent : Coherent values
  versions : KeepsVersions base values

theorem Coherent.congr {values values' : Values} (h : Coherent values)
    (hfind : ∀ name, values'.find? name = values.find? name) : Coherent values' := by
  obtain ⟨hwritable, helasticsearch, hkibana, hesdiag, hversion, hport, hspace⟩ := h
  constructor <;> simp only [hfind]
  · exact hwritable
  · exact helasticsearch
  · exact hkibana
  · exact hesdiag
  · exact hversion
  · exact hport
  · exact hspace

theorem coherent_empty : Coherent .empty := by
  constructor
  · exact fun _ _ h => absurd h (by simp [KeyedMap.find?, KeyedMap.empty, findEntry])
  · rfl
  · rfl
  · rfl
  · exact fun _ h => absurd h (by simp [KeyedMap.find?, KeyedMap.empty, findEntry])
  · exact fun _ h => absurd h (by simp [KeyedMap.find?, KeyedMap.empty, findEntry])
  · exact fun _ h => absurd h (by simp [KeyedMap.find?, KeyedMap.empty, findEntry])

/-- The keys on which the values have to agree with each other. -/
def boundKeys : List String :=
  ["STACK_ELASTIC_VERSION", "STACK_ESDIAG_VERSION", "ELASTICSEARCH_IMAGE", "KIBANA_IMAGE",
    "ESDIAG_IMAGE", "ESDIAG_KIBANA_PORT", "ESDIAG_KIBANA_SPACE"]

/-- Values that agree on the bound keys are coherent together. -/
theorem Kept.of_agree {base values values' : Values} (h : Kept base values)
    (hagree : ∀ key ∈ boundKeys, values'.find? key = values.find? key)
    (hwritable : ∀ name text, values'.find? name = some text → Writable name text) :
    Kept base values' := by
  obtain ⟨⟨-, helasticsearch, hkibana, hesdiag, hversion, hport, hspace⟩, hversions⟩ := h
  have helastic := hagree "STACK_ELASTIC_VERSION" (by decide)
  have hesdiagVersion := hagree "STACK_ESDIAG_VERSION" (by decide)
  refine ⟨⟨hwritable, ?_, ?_, ?_, ?_, ?_, ?_⟩, ?_⟩
  · rw [hagree _ (by decide), helastic, helasticsearch]
  · rw [hagree _ (by decide), helastic, hkibana]
  · rw [hagree _ (by decide), hesdiagVersion, hesdiag]
  · rw [hesdiagVersion]
    exact hversion
  · rw [hagree _ (by decide)]
    exact hport
  · rw [hagree _ (by decide)]
    exact hspace
  · intro key hkey version hfind
    have hbound : key ∈ boundKeys := by
      rcases List.mem_cons.mp hkey with rfl | hkey
      · decide
      · rw [List.mem_singleton.mp hkey]
        decide
    rw [hagree key hbound]
    exact hversions key hkey version hfind

theorem Kept.insert {base values : Values} (h : Kept base values) {key text : String}
    (hkey : key ∉ boundKeys) (hwritable : Writable key text) :
    Kept base (values.insert key text) := by
  apply h.of_agree
  · intro name hname
    have hne : name ≠ key := fun heq => hkey (by rwa [heq] at hname)
    exact KeyedMap.find?_insert_of_ne _ hne _
  · intro name found hfound
    by_cases hname : name = key
    · subst hname
      rw [KeyedMap.find?_insert_self] at hfound
      obtain rfl := Option.some.inj hfound
      exact hwritable
    · rw [KeyedMap.find?_insert_of_ne _ hname] at hfound
      exact h.coherent.writable name found hfound

theorem Kept.remove {base values : Values} (h : Kept base values) {key : String}
    (hkey : key ∉ boundKeys) : Kept base (values.remove key) := by
  apply h.of_agree
  · intro name hname
    have hne : name ≠ key := fun heq => hkey (by rwa [heq] at hname)
    rw [KeyedMap.find?_remove, if_neg hne]
  · intro name found hfound
    rw [KeyedMap.find?_remove] at hfound
    split at hfound
    · cases hfound
    · exact h.coherent.writable name found hfound

end Coherence

section Writing

variable {V Url : Type} {lib : Libraries V Url} {binary : Binary}

/-- What the library makes of the address where every stack publishes Kibana. -/
def ReadsLoopback (urls : Library Url) : Prop :=
  ∃ url, urls.parse "http://127.0.0.1:5601" = some url ∧ urls.path url = "/" ∧
    urls.display (urls.setPath url "/s/esdiag") = "http://127.0.0.1:5601/s/esdiag"

theorem kibanaUrlWithSpace_loopback {urls : Library Url} (hurl : ReadsLoopback urls) :
    kibanaUrlWithSpace urls "http://127.0.0.1:5601" (some "esdiag") =
      "http://127.0.0.1:5601/s/esdiag" := by
  obtain ⟨url, hparse, hpath, hdisplay⟩ := hurl
  have htrim : AgentLocations.trimEndSlashes "http://127.0.0.1:5601" =
      "http://127.0.0.1:5601" := by decide
  have hspace : scopingSpace (some "esdiag") = some "esdiag" := by decide
  have hsegments : nonEmptySegments urls url = some [] := by
    rw [nonEmptySegments, Library.pathSegments, hpath]
    decide
  unfold kibanaUrlWithSpace
  simp only [htrim, hspace, hparse, hsegments]
  exact hdisplay

theorem Plain.writable {name text : String} (hname : Writable name "") (h : Plain text.toList) :
    Writable name text := ⟨hname.1, hname.2.1, hname.2.2.1, h.fitsLine⟩

theorem plain_image {registry version : String} (hregistry : Plain registry.toList)
    (hversion : ∀ c ∈ version.toList, isVersionChar c = true) :
    Plain (registry ++ version).toList := by
  rw [String.toList_append]
  exact hregistry.append (plain_version hversion)

theorem writable_versionDefaults :
    ∀ entry ∈ versionDefaults binary, Writable entry.1 entry.2 := by
  simp only [versionDefaults, List.forall_mem_cons]
  refine ⟨?_, ?_, ?_, by simp⟩
  · decide +kernel
  · exact (plain_version binary.esdiag_chars).writable (by decide +kernel)
  · exact (plain_version binary.elastic_chars).writable (by decide +kernel)

theorem writable_stackDefaults (secrets : Secrets) :
    ∀ entry ∈ stackDefaults binary secrets, Writable entry.1 entry.2 := by
  simp only [stackDefaults, List.forall_mem_cons]
  refine ⟨by decide +kernel, ?_, ?_, ?_, by decide +kernel, ?_, ?_, ?_, by decide +kernel,
    by decide +kernel, by decide +kernel, by decide +kernel, by simp⟩
  · exact (plain_secret secrets.elastic).writable (by decide +kernel)
  · exact (plain_secret secrets.kibanaSystem).writable (by decide +kernel)
  · exact (plain_secret secrets.kibanaEncryption).writable (by decide +kernel)
  · exact (plain_image (by decide +kernel) binary.elastic_chars).writable (by decide +kernel)
  · exact (plain_image (by decide +kernel) binary.elastic_chars).writable (by decide +kernel)
  · exact (plain_image (by decide +kernel) binary.esdiag_chars).writable (by decide +kernel)

theorem writable_foldl_setDefault {defaults : List (String × String)} {values : Values}
    (hvalues : ∀ name text, values.find? name = some text → Writable name text)
    (hdefaults : ∀ entry ∈ defaults, Writable entry.1 entry.2) (name text : String)
    (h : (defaults.foldl setDefault values).find? name = some text) : Writable name text := by
  rw [find?_foldl_setDefault, Option.or_eq_some_iff] at h
  rcases h with hfind | ⟨-, hentry⟩
  · exact hvalues name text hfind
  · exact hdefaults (name, text) (mem_of_findEntry hentry)

theorem find?_startValues (runtime : String) (secrets : Secrets) (base : Values) {name : String}
    (hname : name ≠ "ESDIAG_CONTAINER_RUNTIME") :
    (startValues binary runtime secrets base).find? name =
      (base.find? name).or
        ((findEntry name (versionDefaults binary)).or (findEntry name (stackDefaults binary secrets)))
    := by
  unfold startValues
  rw [find?_foldl_setDefault, KeyedMap.find?_insert_of_ne _ hname, find?_foldl_setDefault,
    Option.or_assoc]

theorem writable_startValues {runtime : String} (hruntime : FitsLine runtime.toList)
    (secrets : Secrets) {base : Values}
    (hbase : ∀ name text, base.find? name = some text → Writable name text) (name text : String)
    (h : (startValues binary runtime secrets base).find? name = some text) :
    Writable name text := by
  refine writable_foldl_setDefault ?_ (writable_stackDefaults secrets) name text h
  intro name text hfind
  by_cases hname : name = "ESDIAG_CONTAINER_RUNTIME"
  · subst hname
    rw [KeyedMap.find?_insert_self] at hfind
    obtain rfl := Option.some.inj hfind
    exact ⟨by decide, by decide, by decide, hruntime⟩
  · rw [KeyedMap.find?_insert_of_ne _ hname] at hfind
    exact writable_foldl_setDefault hbase writable_versionDefaults name text hfind

variable (binary) in
/-- What a start records and pins where there is nothing yet. -/
theorem bound_startValues (runtime : String) (secrets : Secrets) (base : Values) :
    let values := startValues binary runtime secrets base
    values.find? "STACK_ELASTIC_VERSION" =
        (base.find? "STACK_ELASTIC_VERSION").or (some binary.elasticVersion) ∧
      values.find? "STACK_ESDIAG_VERSION" =
        (base.find? "STACK_ESDIAG_VERSION").or (some binary.esdiagVersion) ∧
      values.find? "ELASTICSEARCH_IMAGE" =
        (base.find? "ELASTICSEARCH_IMAGE").or (some (elasticsearchImage binary.elasticVersion)) ∧
      values.find? "KIBANA_IMAGE" =
        (base.find? "KIBANA_IMAGE").or (some (kibanaImage binary.elasticVersion)) ∧
      values.find? "ESDIAG_IMAGE" =
        (base.find? "ESDIAG_IMAGE").or (some (esdiagImage binary.esdiagVersion)) ∧
      values.find? "ESDIAG_KIBANA_PORT" = (base.find? "ESDIAG_KIBANA_PORT").or (some "5601") ∧
      values.find? "ESDIAG_KIBANA_SPACE" = (base.find? "ESDIAG_KIBANA_SPACE").or (some "esdiag") := by
  refine ⟨?_, ?_, ?_, ?_, ?_, ?_, ?_⟩ <;>
    rewrite [find?_startValues runtime secrets base (by decide)] <;>
    simp [versionDefaults, stackDefaults, findEntry]

variable (binary) in
theorem kept_startValues {base : Values} (hbase : Coherent base) {runtime : String}
    (hruntime : FitsLine runtime.toList) (secrets : Secrets) :
    Kept base (startValues binary runtime secrets base) := by
  obtain ⟨hwritable, helasticsearch, hkibana, hesdiag, hversion, hport, hspace⟩ := hbase
  obtain ⟨helastic', hesdiag', hsearch', hkibana', himage', hport', hspace'⟩ :=
    bound_startValues binary runtime secrets base
  refine ⟨⟨writable_startValues hruntime secrets hwritable, ?_, ?_, ?_, ?_, ?_, ?_⟩, ?_⟩
  · rw [hsearch', helastic', helasticsearch]
    cases base.find? "STACK_ELASTIC_VERSION" <;> rfl
  · rw [hkibana', helastic', hkibana]
    cases base.find? "STACK_ELASTIC_VERSION" <;> rfl
  · rw [himage', hesdiag', hesdiag]
    cases base.find? "STACK_ESDIAG_VERSION" <;> rfl
  · intro version hfind
    rw [hesdiag', Option.or_eq_some_iff] at hfind
    rcases hfind with hbase | ⟨-, hnew⟩
    · exact hversion version hbase
    · exact Option.some.inj hnew ▸ binary.esdiag_chars
  · intro port hfind
    rw [hport', Option.or_eq_some_iff] at hfind
    rcases hfind with hbase | ⟨-, hnew⟩
    · exact hport port hbase
    · exact (Option.some.inj hnew).symm
  · intro space hfind
    rw [hspace', Option.or_eq_some_iff] at hfind
    rcases hfind with hbase | ⟨-, hnew⟩
    · exact hspace space hbase
    · exact (Option.some.inj hnew).symm
  · intro key hkey version hfind
    rcases List.mem_cons.mp hkey with rfl | hkey
    · rw [helastic', hfind]
      rfl
    · rw [List.mem_singleton.mp hkey] at hfind ⊢
      rw [hesdiag', hfind]
      rfl

/-- The values of a start, from those that it finds. -/
theorem kept_initializeValues (hurl : ReadsLoopback lib.urls) {base values : Values}
    (hbase : Coherent base) {runtime : String} (hruntime : FitsLine runtime.toList)
    {secrets : Secrets} (h : initializeValues lib binary runtime secrets base = .ok values) :
    Kept base values := by
  have hstart := kept_startValues binary hbase hruntime secrets
  unfold initializeValues at h
  dsimp only at h
  generalize startValues binary runtime secrets base = start at h hstart
  cases hport : start.find? "ESDIAG_KIBANA_PORT" with
  | none => simp [required, hport] at h
  | some port =>
    cases hspace : start.find? "ESDIAG_KIBANA_SPACE" with
    | none => simp [required, hport, hspace] at h
    | some space =>
      obtain rfl := hstart.coherent.port port hport
      obtain rfl := hstart.coherent.space space hspace
      simp only [required, hport, hspace, Except.ok.injEq] at h
      subst h
      have haddress : "http://127.0.0.1:" ++ "5601" = "http://127.0.0.1:5601" := by decide +kernel
      rw [haddress, kibanaUrlWithSpace_loopback hurl]
      apply hstart.of_agree
      · intro key hkey
        have habsent : findEntry key [("ESDIAG_KIBANA_PUBLIC_URL",
            "http://127.0.0.1:5601/s/esdiag"), ("LOG_LEVEL", "info")] = none := by
          revert key
          decide
        rw [find?_foldl_setDefault, habsent, Option.or_none]
      · exact writable_foldl_setDefault hstart.coherent.writable (by decide +kernel)

end Writing

section Disks

/-- The values that a disk holds: none yet, or those that were written last. -/
def Holds (values : Values) (disk : Disk) : Prop :=
  (disk.env = .absent ∧ disk.lastWritten = none ∧ values = .empty) ∨
    (disk.env = .text (envText values) ∧ disk.lastWritten = some values)

def KeptOn (base : Values) (disk : Disk) : Prop := ∃ values, Holds values disk ∧ Kept base values

theorem Holds.lastWritten {values : Values} {disk : Disk} (h : Holds values disk) :
    disk.lastWritten.getD .empty = values := by
  rcases h with ⟨-, hnone, rfl⟩ | ⟨-, hsome⟩
  · rw [hnone]
    rfl
  · rw [hsome]
    rfl

theorem load_of_holds {values : Values} {disk : Disk} (h : Holds values disk)
    (hcoherent : Coherent values) :
    ∃ state, load disk = .ok state ∧ ∀ name, state.values.find? name = values.find? name := by
  rcases h with ⟨henv, -, rfl⟩ | ⟨henv, -⟩
  · refine ⟨⟨.empty, false⟩, ?_, fun _ => rfl⟩
    unfold load
    rw [henv]
  · obtain ⟨read, hread, hfind⟩ := parseEnv_envText hcoherent.writable
    refine ⟨⟨read, true⟩, ?_, hfind⟩
    unfold load
    rw [henv]
    dsimp only
    rw [hread]

/-- A program after which the disk holds values that are coherent and keep the versions. -/
def Keeps (base : Values) {α : Type} (prog : Action α) : Prop :=
  Triple (KeptOn base) prog (fun _ => KeptOn base) fun _ => KeptOn base

theorem write_keeps {base values : Values} (h : Kept base values) {fate : WriteFate}
    (hfate : fate.isTorn = false) : Keeps base (write values fate) := by
  intro disk hdisk
  cases fate with
  | complete => exact ⟨values, Or.inr ⟨rfl, rfl⟩, h⟩
  | unopened => exact hdisk
  | torn length decodable => cases hfate
  | unprotected => exact ⟨values, Or.inr ⟨rfl, rfl⟩, h⟩

/-- One write of the values, on a given disk. -/
theorem write_spec {values : Values} {fate : WriteFate} (hfate : fate.isTorn = false)
    (disk : Disk) :
    Triple (fun d => d = disk) (write values fate)
      (fun _ d => fate = .complete ∧ Holds values d ∧ d.compose = disk.compose)
      fun error d => error = .write ∧
        ((d = disk ∧ fate = .unopened) ∨ (Holds values d ∧ d.compose = disk.compose)) := by
  rintro d rfl
  cases fate with
  | complete => exact ⟨rfl, Or.inr ⟨rfl, rfl⟩, rfl⟩
  | unopened => exact ⟨rfl, Or.inl ⟨rfl, rfl⟩⟩
  | torn length decodable => cases hfate
  | unprotected => exact ⟨rfl, Or.inr ⟨Or.inr ⟨rfl, rfl⟩, rfl⟩⟩

variable {V Url : Type} {lib : Libraries V Url} {binary : Binary}

theorem writeCompose_spec (mode : StackMode) (values recorded : Values) (fate : WriteFate) :
    Triple (Holds recorded) (writeCompose lib mode values fate)
      (fun _ d => fate = .complete ∧ Holds recorded d ∧
        d.compose = .services (composeServices lib mode values))
      fun error d => error = .write ∧ Holds recorded d := by
  intro d hd
  cases fate with
  | complete => exact ⟨rfl, hd, rfl⟩
  | unopened => exact ⟨rfl, hd⟩
  | torn length decodable => exact ⟨rfl, hd⟩
  | unprotected => exact ⟨rfl, hd⟩

theorem writeCompose_keeps (base : Values) (mode : StackMode) (values : Values)
    (fate : WriteFate) : Keeps base (writeCompose lib mode values fate) := by
  intro disk hdisk
  cases fate with
  | complete => exact hdisk
  | unopened => exact hdisk
  | torn length decodable => exact hdisk
  | unprotected => exact hdisk

end Disks

section Starts

variable {V Url : Type} {lib : Libraries V Url} {binary : Binary}

/-- The texts that a start puts into the state fit on lines, and no write of it is torn. -/
structure UpCareful (options : LocalOptions) (answers : UpAnswers) : Prop where
  writes : answers.firstWrite.isTorn = false ∧ answers.secondWrite.isTorn = false ∧
    answers.lastWrite.isTorn = false
  runtime : ∀ runtime, options.runtime = some runtime → answers.usable runtime = true →
    FitsLine runtime.toList
  logLevel : ∀ level, options.logLevel = some level → FitsLine level.toList
  apiKey : ∀ key, answers.apiKey = some key → FitsLine key.toList

theorem fitsLine_detectRuntime {requested : Option String} {usable : String → Bool}
    {runtime : String} (h : detectRuntime requested usable = .ok runtime)
    (hrequested : ∀ runtime, requested = some runtime → usable runtime = true →
      FitsLine runtime.toList) : FitsLine runtime.toList := by
  unfold detectRuntime at h
  cases hfind : (requested.toList ++ ["podman", "docker"]).find? usable with
  | none =>
    rw [hfind] at h
    cases h
  | some found =>
    rw [hfind] at h
    obtain rfl := Except.ok.inj h
    rcases List.mem_append.mp (List.mem_of_find?_eq_some hfind) with hmem | hmem
    · exact hrequested _ (Option.mem_toList.mp hmem) (List.find?_some hfind)
    · revert hmem
      simp only [List.mem_cons, List.not_mem_nil, or_false]
      rintro (rfl | rfl) <;> decide

theorem kept_withLogLevel {base values : Values} (h : Kept base values) {options : LocalOptions}
    (hlevel : ∀ level, options.logLevel = some level → FitsLine level.toList) :
    Kept base (withLogLevel options values) := by
  unfold withLogLevel
  cases hoption : options.logLevel with
  | none => exact h
  | some level =>
    exact h.insert (by decide) ⟨by decide, by decide, by decide, hlevel level hoption⟩

theorem kept_configureSecurity {base values values' : Values} (h : Kept base values)
    {answers : UpAnswers} (hkey : ∀ key, answers.apiKey = some key → FitsLine key.toList)
    (hsecurity : configureSecurity answers values = .ok values') : Kept base values' := by
  unfold configureSecurity at hsecurity
  cases helastic : required values "ELASTIC_PASSWORD" with
  | error error => simp [helastic] at hsecurity
  | ok elastic =>
    cases hkibana : required values "KIBANA_SYSTEM_PASSWORD" with
    | error error => simp [helastic, hkibana] at hsecurity
    | ok kibana =>
      cases hset : answers.passwordSet with
      | false => simp [helastic, hkibana, hset] at hsecurity
      | true =>
        cases hold : required values "ESDIAG_OUTPUT_APIKEY" with
        | error error => simp [helastic, hkibana, hset, hold] at hsecurity
        | ok key =>
          by_cases hpending : key = "pending"
          · cases hcreated : answers.apiKey with
            | none => simp [helastic, hkibana, hset, hold, hpending, hcreated] at hsecurity
            | some created =>
              simp [helastic, hkibana, hset, hold, hpending, hcreated] at hsecurity
              subst hsecurity
              exact h.insert (by decide)
                ⟨by decide, by decide, by decide, hkey created hcreated⟩
          · simp [helastic, hkibana, hset, hold, hpending] at hsecurity
            exact hsecurity ▸ h

theorem keeps_stopUnless {base : Values} {ok : Bool} {error : LocalError} {α : Type}
    {next : Unit → Action α} (h : Keeps base (next ())) :
    Keeps base (stopUnless ok error >>= next) :=
  Triple.stopUnless_bind (fun _ _ hdisk => hdisk) fun _ => h

theorem keeps_liftResult {base : Values} {α β : Type} {result : Except LocalError α}
    {next : α → Action β} (h : ∀ a, result = .ok a → Keeps base (next a)) :
    Keeps base (liftResult result >>= next) :=
  Triple.liftResult_bind (fun _ _ _ hdisk => hdisk) h

theorem keeps_bind {base : Values} {α β : Type} {prog : Action α} {next : α → Action β}
    (h : Keeps base prog) (hnext : ∀ a, Keeps base (next a)) : Keeps base (prog >>= next) :=
  Triple.bind h hnext

theorem startServices_keeps (base : Values) (options : LocalOptions) (answers : UpAnswers)
    (mode : StackMode) : Keeps base (startServices options answers mode) := by
  unfold startServices
  iterate 4 refine keeps_stopUnless ?_
  exact Triple.stopUnless (fun _ _ hdisk => hdisk) fun _ _ hdisk => hdisk

theorem asStr_fitsLine (mode : StackMode) : FitsLine mode.asStr.toList := by
  cases mode <;> decide

theorem upInner_keeps (hurl : ReadsLoopback lib.urls) {options : LocalOptions} {answers : UpAnswers}
    (hcareful : UpCareful options answers) {state : LocalState} (hbase : Coherent state.values) :
    Keeps state.values (upInner lib binary options answers state) := by
  obtain ⟨⟨hfirst, hsecond, hlast⟩, hruntime, hlevel, hkey⟩ := hcareful
  unfold upInner
  refine keeps_liftResult ?_
  intro runtime hdetected
  refine keeps_liftResult ?_
  intro _ _
  refine keeps_stopUnless ?_
  refine keeps_liftResult ?_
  intro mode _
  refine keeps_liftResult ?_
  intro values hvalues
  have hstart := kept_initializeValues hurl hbase (fitsLine_detectRuntime hdetected hruntime)
    hvalues
  have huser : "ESDIAG_USER" ∉ boundKeys := by decide
  have hkept := (kept_withLogLevel hstart hlevel).remove huser
  refine keeps_bind (writeCompose_keeps _ _ _ _) ?_
  intro _
  refine keeps_stopUnless ?_
  refine keeps_bind (write_keeps hkept hfirst) ?_
  intro _
  iterate 3 refine keeps_stopUnless ?_
  refine keeps_liftResult ?_
  intro _ _
  refine keeps_stopUnless ?_
  refine keeps_liftResult ?_
  intro secured hsecured
  have hsecured := kept_configureSecurity hkept hkey hsecured
  refine keeps_bind (write_keeps hsecured hsecond) ?_
  intro _
  iterate 2 refine keeps_stopUnless ?_
  refine keeps_bind (startServices_keeps _ _ _ _) ?_
  intro _
  have hwritable : Writable "STACK_MODE" mode.asStr :=
    ⟨by decide, by decide, by decide, asStr_fitsLine mode⟩
  have hmode := hsecured.insert (by decide) hwritable
  refine keeps_bind (write_keeps hmode hlast) ?_
  intro _
  exact Triple.stopUnless (fun _ _ hdisk => hdisk) fun _ _ hdisk => hdisk

theorem up_keeps (hurl : ReadsLoopback lib.urls) {options : LocalOptions} {answers : UpAnswers}
    (hcareful : UpCareful options answers) {state : LocalState} (hbase : Coherent state.values) :
    Keeps state.values (up lib binary options answers state) := by
  unfold up
  refine keeps_liftResult ?_
  intro _ _
  apply Triple.mapError
  exact upInner_keeps hurl hcareful hbase

variable (lib binary) in
/-- A start of a given mode fails as a start only. -/
theorem up_errors {options : LocalOptions} (hmode : options.stack ≠ .auto) (answers : UpAnswers)
    (state : LocalState) :
    Triple (fun _ => True) (up lib binary options answers state) (fun _ _ => True)
      fun error _ => ∃ reason, error = .startup reason := by
  have hresolve : resolveMode state options.stack = .ok options.stack := if_neg hmode
  unfold up
  apply Triple.liftResult_bind
  · intro error herror
    rw [hresolve] at herror
    split at herror <;> cases herror
  · intro _ _
    apply Triple.mapError
    intro disk _
    cases upInner lib binary options answers state disk with
    | ok _ _ => trivial
    | error error _ => exact ⟨error, rfl⟩

end Starts

end Esdiag.StackStarts
