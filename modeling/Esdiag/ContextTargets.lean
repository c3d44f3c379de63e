import Esdiag.OutputDeployments
import Esdiag.TextParts

/-!
References to contexts, printed and read. A target that was read is read back
from its printed form. A text with a leading dot that names no known service is
passed on, to be tried as a file or a host, except where its service is empty:
a name that ends in a dot is refused instead.
-/
namespace Esdiag.ContextTargets

open Deployments HostFiles OutputDeployments ElasticContextTarget

section Services

/-- A context with the dot that ends it. -/
def contextPart (context : Option String) : String := context.elim "" fun name => name ++ "."

theorem splitService_eq_ok {base service : String} {context : Option String}
    (h : splitService base = .ok (context, service)) :
    base = contextPart context ++ service ∧ context ≠ some "" ∧ '.' ∉ service.toList ∧
      (base ≠ "" → service ≠ "") := by
  unfold splitService splitContextService at h
  cases hsplit : Texts.rsplitOnce '.' base with
  | none =>
    simp only [hsplit] at h
    obtain ⟨rfl, rfl⟩ := Prod.mk.inj (Except.ok.inj h)
    exact ⟨by simp [contextPart], by simp, Texts.rsplitOnce_eq_none.mp hsplit, id⟩
  | some parts =>
    obtain ⟨before, after⟩ := parts
    simp only [hsplit] at h
    by_cases hempty : before = "" ∨ after = ""
    · simp [hempty] at h
    · simp only [if_neg hempty] at h
      obtain ⟨rfl, rfl⟩ := Prod.mk.inj (Except.ok.inj h)
      obtain ⟨rfl, hdot⟩ := Texts.rsplitOnce_eq_some.mp hsplit
      rw [not_or] at hempty
      exact ⟨rfl, by simpa using hempty.1, hdot, fun _ => hempty.2⟩

/-- A service without a dot is found after its context. -/
theorem splitService_contextPart {context : Option String} {service : String}
    (hcontext : context ≠ some "") (hservice : service ≠ "") (hdot : '.' ∉ service.toList) :
    splitService (contextPart context ++ service) = .ok (context, service) := by
  unfold splitService splitContextService
  cases context with
  | none =>
    have hpart : contextPart none ++ service = service := by simp [contextPart]
    rw [hpart, Texts.rsplitOnce_eq_none.mpr hdot]
  | some name =>
    have hsplit : Texts.rsplitOnce '.' (contextPart (some name) ++ service) =
        some (name, service) := Texts.rsplitOnce_eq_some.mpr ⟨rfl, hdot⟩
    have hname : name ≠ "" := by simpa using hcontext
    simp [hsplit, hname, hservice]

/-- The service that a text after the leading dot ends in, before its first slash. -/
def serviceSegment (reference : String) : String :=
  let base := (Texts.split '/' reference).headD ""
  match Texts.rsplitOnce '.' base with
  | some (_, service) => service
  | none => base

theorem serviceSegment_of_splitService {reference base service : String} {rest : List String}
    {context : Option String} (hsplit : Texts.split '/' reference = base :: rest)
    (h : splitService base = .ok (context, service)) : serviceSegment reference = service := by
  obtain ⟨hbase, -, hdot, -⟩ := splitService_eq_ok h
  unfold serviceSegment
  rw [hsplit, List.headD_cons]
  cases context with
  | none =>
    have hbase : base = service := by simpa [contextPart] using hbase
    simp only [hbase, Texts.rsplitOnce_eq_none.mpr hdot]
  | some name =>
    have hsome : Texts.rsplitOnce '.' base = some (name, service) :=
      Texts.rsplitOnce_eq_some.mpr ⟨hbase, hdot⟩
    simp [hsome]

end Services

section Shapes

/-- A text that is no reference by its first character, or by a backslash. -/
def PassedByShape (reference : String) : Prop :=
  reference = "" ∨ reference.toList.head? = some '.' ∨ reference.toList.head? = some '/' ∨
    '\\' ∈ reference.toList

theorem parse_of_shape {reference : String} (h : PassedByShape reference) :
    parse ("." ++ reference) = .ok none := by
  have hstrip : Texts.stripPrefix "." ("." ++ reference) = some reference :=
    Texts.stripPrefix_eq_some.mpr rfl
  unfold parse
  simp only [hstrip]
  exact if_pos h

/-- The parts of a text that has the shape of a reference. -/
theorem exists_base {reference : String} (h : ¬PassedByShape reference) :
    ∃ base rest, Texts.split '/' reference = base :: rest ∧ base ≠ "" := by
  obtain ⟨base, rest, hsplit⟩ := List.exists_cons_of_ne_nil (Texts.split_ne_nil '/' reference)
  refine ⟨base, rest, hsplit, ?_⟩
  rintro rfl
  obtain ⟨-, ⟨hempty, -⟩ | ⟨after, hslash, -⟩⟩ := Texts.split_eq_cons hsplit
  · exact h (Or.inl hempty)
  · refine h (Or.inr (Or.inr (Or.inl ?_)))
    simp [hslash]

theorem parse_of_base {reference base : String} {rest : List String}
    (hshape : ¬PassedByShape reference) (hsplit : Texts.split '/' reference = base :: rest)
    (hrest : rest ≠ []) : parse ("." ++ reference) = parseCloudSegments base rest := by
  have hstrip : Texts.stripPrefix "." ("." ++ reference) = some reference :=
    Texts.stripPrefix_eq_some.mpr rfl
  obtain ⟨next, others, rfl⟩ := List.exists_cons_of_ne_nil hrest
  unfold parse
  simp only [hstrip, hsplit]
  exact if_neg hshape

/-- A reference without a slash, by its service. -/
theorem parse_of_singleton {reference base service : String} {context : Option String}
    (hshape : ¬PassedByShape reference) (hsplit : Texts.split '/' reference = [base])
    (hservice : splitService base = .ok (context, service)) :
    parse ("." ++ reference) =
      if service ∈ ["es", "elasticsearch"] then .ok (some ⟨context, .elasticsearch, none⟩)
      else if service ∈ ["kb", "kibana"] then .ok (some ⟨context, .kibana, none⟩)
      else if service = "cloud" then
        .error (.refused ("Elastic Cloud target '" ++ ("." ++ reference) ++ "' requires a deployment " ++
          "identifier and application, for example '" ++ ("." ++ reference) ++
          "/<deployment-id>/es'"))
      else .ok none := by
  have hstrip : Texts.stripPrefix "." ("." ++ reference) = some reference :=
    Texts.stripPrefix_eq_some.mpr rfl
  unfold parse
  simp only [hstrip, hsplit, hservice]
  exact if_neg hshape

theorem parse_of_error {reference base : String} {rest : List String} {error : OutputError}
    (hshape : ¬PassedByShape reference) (hsplit : Texts.split '/' reference = base :: rest)
    (hservice : splitService base = .error error) :
    parse ("." ++ reference) = .error error := by
  have hstrip : Texts.stripPrefix "." ("." ++ reference) = some reference :=
    Texts.stripPrefix_eq_some.mpr rfl
  cases rest with
  | nil =>
    unfold parse
    simp only [hstrip, hsplit, hservice]
    exact if_neg hshape
  | cons next others =>
    rw [parse_of_base hshape hsplit (List.cons_ne_nil _ _), parseCloudSegments, hservice]

end Shapes

section Printing

/-- `Display for ElasticContextTarget`. -/
def display (target : ElasticContextTarget) : String :=
  "." ++ (contextPart target.context ++
    match target.cloudDeployment with
    | some deployment => "cloud/" ++ deployment ++ "/" ++ target.application.key
    | none => target.application.key)

/-- A text within a reference: not empty, and without a slash or a backslash. -/
structure IsSegment (text : String) : Prop where
  ne_empty : text ≠ ""
  no_slash : '/' ∉ text.toList
  no_backslash : '\\' ∉ text.toList

/-- What can be said of every target that was read. -/
structure Printable (target : ElasticContextTarget) : Prop where
  context : ∀ name ∈ target.context, IsSegment name ∧ name.toList.head? ≠ some '.'
  deployment : ∀ name ∈ target.cloudDeployment,
    IsSegment name ∧ target.application = .elasticsearch
  application : target.application = .elasticsearch ∨ target.application = .kibana

theorem printable_context {reference base service : String} {rest : List String}
    {context : Option String} (hshape : ¬PassedByShape reference)
    (hsplit : Texts.split '/' reference = base :: rest)
    (hservice : splitService base = .ok (context, service)) :
    ∀ name ∈ context, IsSegment name ∧ name.toList.head? ≠ some '.' := by
  rintro name rfl
  obtain ⟨hbase, hne, -, -⟩ := splitService_eq_ok hservice
  obtain ⟨hslash, hreference⟩ := Texts.split_eq_cons hsplit
  have hname : name ≠ "" := by simpa using hne
  -- The name stands at the start of the whole text.
  have hstart : ∃ after, reference.toList = name.toList ++ after := by
    rw [hbase] at hreference
    rcases hreference with ⟨rfl, -⟩ | ⟨after, rfl, -⟩
    · exact ⟨('.' :: service.toList), by simp [contextPart]⟩
    · exact ⟨('.' :: service.toList) ++ '/' :: after.toList, by simp [contextPart]⟩
  obtain ⟨after, hstart⟩ := hstart
  simp only [PassedByShape, not_or] at hshape
  refine ⟨⟨hname, fun hmem => hslash ?_, fun hmem => hshape.2.2.2 ?_⟩, fun hhead => ?_⟩
  · rw [hbase]
    simp [contextPart, hmem]
  · rw [hstart]
    exact List.mem_append_left _ hmem
  · apply hshape.2.1
    rw [hstart, List.head?_append, hhead]
    rfl

theorem parseCloudSegments_eq_some {base : String} {rest : List String}
    {target : ElasticContextTarget} (h : parseCloudSegments base rest = .ok (some target)) :
    ∃ context deployment application, splitService base = .ok (context, "cloud") ∧
      rest = [deployment, application] ∧ deployment ≠ "" ∧
      target = ⟨context, .elasticsearch, some deployment⟩ := by
  unfold parseCloudSegments at h
  cases hservice : splitService base with
  | error error => simp [hservice] at h
  | ok parts =>
    obtain ⟨context, service⟩ := parts
    simp only [hservice] at h
    by_cases hcloud : service = "cloud"
    · subst hcloud
      simp only [ne_eq, not_true_eq_false, if_false] at h
      split at h
      · rename_i deployment application
        split_ifs at h with hempty
        rw [not_or] at hempty
        split at h
        · cases h
        · obtain rfl := Option.some.inj (Except.ok.inj h)
          exact ⟨context, deployment, application, rfl, rfl, hempty.1, rfl⟩
        · cases h
      · cases h
    · rw [if_pos hcloud] at h
      cases h

theorem printable_deployment {reference base deployment application : String}
    (hshape : ¬PassedByShape reference)
    (hsplit : Texts.split '/' reference = [base, deployment, application])
    (hne : deployment ≠ "") : IsSegment deployment := by
  obtain ⟨-, ⟨-, hnil⟩ | ⟨after, rfl, hafter⟩⟩ := Texts.split_eq_cons hsplit
  · cases hnil
  obtain ⟨hslash, ⟨-, hnil⟩ | ⟨last, rfl, -⟩⟩ := Texts.split_eq_cons hafter.symm
  · cases hnil
  simp only [PassedByShape, not_or] at hshape
  refine ⟨hne, hslash, fun hmem => hshape.2.2.2 ?_⟩
  simp [hmem]

theorem printable_of_parse {value : String} {target : ElasticContextTarget}
    (h : parse value = .ok (some target)) : Printable target := by
  cases hstrip : Texts.stripPrefix "." value with
  | none => simp [parse, hstrip] at h
  | some reference =>
    obtain rfl := Texts.stripPrefix_eq_some.mp hstrip
    by_cases hshape : PassedByShape reference
    · rw [parse_of_shape hshape] at h
      cases h
    obtain ⟨base, rest, hsplit, -⟩ := exists_base hshape
    cases hservice : splitService base with
    | error error =>
      rw [parse_of_error hshape hsplit hservice] at h
      cases h
    | ok parts =>
      obtain ⟨context, service⟩ := parts
      have hcontext := printable_context hshape hsplit hservice
      cases rest with
      | nil =>
        rw [parse_of_singleton hshape hsplit hservice] at h
        split_ifs at h
        · obtain rfl := Option.some.inj (Except.ok.inj h)
          exact ⟨hcontext, by simp, Or.inl rfl⟩
        · obtain rfl := Option.some.inj (Except.ok.inj h)
          exact ⟨hcontext, by simp, Or.inr rfl⟩
        · cases h
      | cons next others =>
        rw [parse_of_base hshape hsplit (List.cons_ne_nil _ _)] at h
        obtain ⟨found, deployment, application, hfound, hrest, hne, rfl⟩ :=
          parseCloudSegments_eq_some h
        obtain rfl := (Prod.mk.inj (Except.ok.inj (hservice.symm.trans hfound))).1
        rw [hrest] at hsplit
        have hdeployment := printable_deployment hshape hsplit hne
        exact ⟨hcontext, by simpa using hdeployment, Or.inl rfl⟩

/-- What follows a context that can be printed decides the shape of a reference. -/
theorem not_passedByShape {context : Option String} {tail : String} {c : Char}
    (hcontext : ∀ name ∈ context, IsSegment name ∧ name.toList.head? ≠ some '.')
    (hhead : tail.toList.head? = some c) (hc : c ≠ '.' ∧ c ≠ '/')
    (hbackslash : '\\' ∉ tail.toList) : ¬PassedByShape (contextPart context ++ tail) := by
  cases context with
  | none =>
    have htext : contextPart none ++ tail = tail := by simp [contextPart]
    rw [htext]
    rintro (rfl | hdot | hslash | hmem)
    · cases hhead
    · exact hc.1 (Option.some.inj (hhead.symm.trans hdot))
    · exact hc.2 (Option.some.inj (hhead.symm.trans hslash))
    · exact hbackslash hmem
  | some name =>
    obtain ⟨hname, hdot⟩ := hcontext name rfl
    have hne : name.toList ≠ [] := by simpa using hname.ne_empty
    obtain ⟨first, others, hfirst⟩ := List.exists_cons_of_ne_nil hne
    have htext : (contextPart (some name) ++ tail).toList =
        first :: (others ++ '.' :: tail.toList) := by
      simp [contextPart, hfirst]
    have hslash : first ≠ '/' := by
      rintro rfl
      exact hname.no_slash (by rw [hfirst]; exact List.mem_cons_self)
    rintro (hempty | hhead | hhead | hmem)
    · rw [hempty] at htext
      cases htext
    · rw [htext] at hhead
      rw [hfirst] at hdot
      exact hdot hhead
    · rw [htext] at hhead
      exact hslash (Option.some.inj hhead)
    · have hmem : '\\' ∈ name.toList ∨ '\\' ∈ tail.toList := by
        simpa [contextPart] using hmem
      exact hmem.elim hname.no_backslash hbackslash

theorem no_slash_contextPart {context : Option String} {service : String}
    (hcontext : ∀ name ∈ context, IsSegment name ∧ name.toList.head? ≠ some '.')
    (hservice : '/' ∉ service.toList) : '/' ∉ (contextPart context ++ service).toList := by
  cases context with
  | none => simpa [contextPart] using hservice
  | some name =>
    have hname := (hcontext name rfl).1.no_slash
    simp [contextPart, hname, hservice]

/-- A target that can be printed is read back. -/
theorem parse_display {target : ElasticContextTarget} (h : Printable target) :
    parse (display target) = .ok (some target) := by
  obtain ⟨context, application, deployment⟩ := target
  obtain ⟨hcontext, hdeployment, happlication⟩ := h
  have hne : context ≠ some "" := by
    rintro rfl
    exact (hcontext "" rfl).1.ne_empty rfl
  cases deployment with
  | none =>
    have hkey : ∃ c, application.key.toList.head? = some c ∧ c ≠ '.' ∧ c ≠ '/' ∧
        '\\' ∉ application.key.toList ∧ '/' ∉ application.key.toList ∧
        '.' ∉ application.key.toList ∧ application.key ≠ "" := by
      rcases happlication with rfl | rfl
      · exact ⟨'e', by decide⟩
      · exact ⟨'k', by decide⟩
    obtain ⟨c, hhead, hdot, hslash, hbackslash, hkeySlash, hkeyDot, hkeyNe⟩ := hkey
    have hshape := not_passedByShape hcontext hhead ⟨hdot, hslash⟩ hbackslash
    have hsplit := Texts.split_of_notMem (no_slash_contextPart hcontext hkeySlash)
    have hservice := splitService_contextPart hne hkeyNe hkeyDot
    rw [display, parse_of_singleton hshape hsplit hservice]
    rcases happlication with rfl | rfl <;> rfl
  | some deployment =>
    obtain ⟨hsegment, rfl⟩ := hdeployment deployment rfl
    have hreference : display ⟨context, .elasticsearch, some deployment⟩ =
        "." ++ (contextPart context ++ ("cloud/" ++ deployment ++ "/elasticsearch")) := by
      apply String.toList_inj.mp
      simp [display, Application.key]
    have hhead : ("cloud/" ++ deployment ++ "/elasticsearch").toList.head? = some 'c' := by simp
    have hbackslash : '\\' ∉ ("cloud/" ++ deployment ++ "/elasticsearch").toList := by
      simp [hsegment.no_backslash]
    have hshape := not_passedByShape hcontext hhead (by decide) hbackslash
    have hservice : splitService (contextPart context ++ "cloud") = .ok (context, "cloud") :=
      splitService_contextPart hne (by decide) (by decide)
    have hsplit : Texts.split '/'
        (contextPart context ++ ("cloud/" ++ deployment ++ "/elasticsearch")) =
          [contextPart context ++ "cloud", deployment, "elasticsearch"] := by
      have htext : contextPart context ++ ("cloud/" ++ deployment ++ "/elasticsearch") =
          (contextPart context ++ "cloud") ++ String.singleton '/' ++
            (deployment ++ String.singleton '/' ++ "elasticsearch") := by
        apply String.toList_inj.mp
        simp
      rw [htext, Texts.split_append (no_slash_contextPart hcontext (by decide)),
        Texts.split_append hsegment.no_slash, Texts.split_of_notMem (by decide)]
    rw [hreference, parse_of_base hshape hsplit (List.cons_ne_nil _ _), parseCloudSegments]
    simp only [hservice]
    simp [hsegment.ne_empty]
    rfl

end Printing

section Results

/-- The services that a reference can select. -/
def knownServices : List String := ["es", "elasticsearch", "kb", "kibana", "cloud"]

/-- What is read is read back from its printed form, and what names no service is passed on. -/
structure ReadsContexts (value : String) : Prop where
  read_back : ∀ target, parse value = .ok (some target) →
    parse (display target) = .ok (some target)
  passed_on : ∀ reference, value = "." ++ reference →
    serviceSegment reference ∉ knownServices → parse value = .ok none

theorem splitService_eq_error {base : String} {error : OutputError} (hbase : base ≠ "")
    (hhead : base.toList.head? ≠ some '.') (h : splitService base = .error error) :
    ∃ context, Texts.rsplitOnce '.' base = some (context, "") := by
  unfold splitService splitContextService at h
  cases hsplit : Texts.rsplitOnce '.' base with
  | none => simp [hsplit] at h
  | some parts =>
    obtain ⟨context, service⟩ := parts
    by_cases hservice : service = ""
    · exact ⟨context, by rw [hservice]⟩
    · have hcontext : context ≠ "" := by
        rintro rfl
        obtain ⟨rfl, -⟩ := Texts.rsplitOnce_eq_some.mp hsplit
        simp at hhead
      simp [hsplit, hservice, hcontext] at h

theorem head?_base {reference base : String} {rest : List String}
    (hsplit : Texts.split '/' reference = base :: rest) (hbase : base ≠ "") :
    base.toList.head? = reference.toList.head? := by
  obtain ⟨first, others, hfirst⟩ :=
    List.exists_cons_of_ne_nil (show base.toList ≠ [] by simpa using hbase)
  obtain ⟨-, ⟨rfl, -⟩ | ⟨after, rfl, -⟩⟩ := Texts.split_eq_cons hsplit
  · rfl
  · simp [hfirst]

/-- A text that names no service is passed on, unless the service is missing. -/
theorem parse_of_unknown {reference : String} (hservice : serviceSegment reference ∉ knownServices)
    (hne : serviceSegment reference ≠ "") : parse ("." ++ reference) = .ok none := by
  by_cases hshape : PassedByShape reference
  · exact parse_of_shape hshape
  obtain ⟨base, rest, hsplit, hbase⟩ := exists_base hshape
  have hhead : base.toList.head? ≠ some '.' := by
    rw [head?_base hsplit hbase]
    exact fun hdot => hshape (Or.inr (Or.inl hdot))
  cases hparts : splitService base with
  | error error =>
    obtain ⟨context, hempty⟩ := splitService_eq_error hbase hhead hparts
    refine absurd ?_ hne
    simp [serviceSegment, hsplit, hempty]
  | ok parts =>
    obtain ⟨context, service⟩ := parts
    obtain rfl := serviceSegment_of_splitService hsplit hparts
    simp only [knownServices, List.mem_cons, List.not_mem_nil, or_false, not_or] at hservice
    obtain ⟨hes, helastic, hkb, hkibana, hcloud⟩ := hservice
    cases rest with
    | nil =>
      rw [parse_of_singleton hshape hsplit hparts]
      simp [hes, helastic, hkb, hkibana, hcloud]
    | cons next others =>
      rw [parse_of_base hshape hsplit (List.cons_ne_nil _ _), parseCloudSegments]
      simp [hparts, hcloud]

/-- A text whose service is empty is refused. -/
theorem parse_of_empty_service {reference : String} (hshape : ¬PassedByShape reference)
    (hempty : serviceSegment reference = "") : ∃ error, parse ("." ++ reference) = .error error := by
  obtain ⟨base, rest, hsplit, hbase⟩ := exists_base hshape
  cases hparts : splitService base with
  | error error => exact ⟨error, parse_of_error hshape hsplit hparts⟩
  | ok parts =>
    obtain ⟨context, service⟩ := parts
    obtain rfl := serviceSegment_of_splitService hsplit hparts
    exact absurd hempty ((splitService_eq_ok hparts).2.2.2 hbase)

/-- References to contexts are read as documented exactly where the text after the leading
dot does not end in a dot before its first slash, or is passed on by its shape. -/
theorem contexts_read_iff (value : String) :
    ReadsContexts value ↔ ∀ reference, value = "." ++ reference →
      serviceSegment reference = "" → PassedByShape reference := by
  constructor
  · rintro h reference rfl hempty
    by_contra hshape
    obtain ⟨error, herror⟩ := parse_of_empty_service hshape hempty
    have hnone := h.passed_on reference rfl (by rw [hempty]; decide)
    rw [herror] at hnone
    cases hnone
  · intro h
    refine ⟨fun target htarget => parse_display (printable_of_parse htarget), ?_⟩
    rintro reference rfl hservice
    by_cases hempty : serviceSegment reference = ""
    · exact parse_of_shape (h reference rfl hempty)
    · exact parse_of_unknown hservice hempty

/-- A file in a directory whose name ends in a dot is refused. -/
theorem trailing_dot_refused :
    parse ".data./bundle.zip" =
        .error (.refused "Elastic CLI context reference has an empty context or service") ∧
      ¬ReadsContexts ".data./bundle.zip" := by
  have hparse : parse ".data./bundle.zip" =
      .error (.refused "Elastic CLI context reference has an empty context or service") := by
    decide +kernel
  refine ⟨hparse, fun h => ?_⟩
  have hnone := h.passed_on "data./bundle.zip" rfl (by decide +kernel)
  rw [hparse] at hnone
  cases hnone

end Results

end Esdiag.ContextTargets
