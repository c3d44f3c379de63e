import Esdiag.VersionRanges

/-!
The generated functions of the lite scripts. Each range of a source becomes a
branch of one conditional, in the order of the ranges, with numeric tests for
its bounds, and the last branch skips the source. The shell compares 64-bit
integers, and reads quoted texts back as they were before they were escaped.
-/
namespace Esdiag.LiteScripts

open KeyedMaps SourceRegistry VersionRanges

inductive TestFunction where
  | versionAtLeast
  | versionGreaterThan
  | versionAtMost
  | versionLessThan

def TestFunction.name : TestFunction → String
  | versionAtLeast => "version_at_least"
  | versionGreaterThan => "version_greater_than"
  | versionAtMost => "version_at_most"
  | versionLessThan => "version_less_than"

structure VersionTest where
  function : TestFunction
  version : VersionParts

def VersionTest.text (test : VersionTest) : String :=
  test.function.name ++ " " ++ toString test.version.major ++ " " ++
    toString test.version.minor ++ " " ++ toString test.version.patch

def boundCondition (lower : Bool) : Bound → VersionTest
  | .inclusive version => ⟨if lower then .versionAtLeast else .versionAtMost, version⟩
  | .exclusive version => ⟨if lower then .versionGreaterThan else .versionLessThan, version⟩

def ruleTests (rule : Rule) : List VersionTest :=
  (rule.lower.map (boundCondition true)).toList ++ (rule.upper.map (boundCondition false)).toList

def condition (tests : List VersionTest) : String :=
  Texts.join " && " (tests.map VersionTest.text)

section Validation

def isAsciiLetter (c : Char) : Bool := ('a' ≤ c && c ≤ 'z') || ('A' ≤ c && c ≤ 'Z')

def bashIdentifier (value : String) : Bool :=
  match value.toList with
  | [] => false
  | first :: rest =>
    (first == '_' || isAsciiLetter first) &&
      rest.all fun c => c == '_' || isAsciiLetter c || c.isDigit

def isControl (c : Char) : Bool := c.toNat < 0x20 || (0x7F ≤ c.toNat && c.toNat ≤ 0x9F)

def boundParts : Bound → VersionParts × Bool
  | .inclusive version => (version, true)
  | .exclusive version => (version, false)

def laterBound (left right : VersionParts × Bool) : VersionParts × Bool :=
  if left.1.lt right.1 then right
  else if right.1.lt left.1 then left
  else (left.1, left.2 && right.2)

def earlierBound (left right : VersionParts × Bool) : VersionParts × Bool :=
  if left.1.lt right.1 then left
  else if right.1.lt left.1 then right
  else (left.1, left.2 && right.2)

/-- The bound of two rules together; none where neither has one. -/
def combined (pick : VersionParts × Bool → VersionParts × Bool → VersionParts × Bool)
    (left right : Option Bound) : Option (VersionParts × Bool) :=
  match left.map boundParts, right.map boundParts with
  | some left, some right => some (pick left right)
  | some bound, none | none, some bound => some bound
  | none, none => none

def rulesOverlap (left right : Rule) : Bool :=
  match combined laterBound left.lower right.lower,
    combined earlierBound left.upper right.upper with
  | some lower, some upper =>
    lower.1.lt upper.1 || (lower.1 == upper.1 && lower.2 && upper.2)
  | _, _ => true

/-- The first rule that overlaps an earlier one, after that one. -/
def firstOverlap : List Rule → List Rule → Option (Rule × Rule)
  | _, [] => none
  | previous, rule :: rest =>
    match previous.find? fun earlier => rulesOverlap earlier rule with
    | some earlier => some (earlier, rule)
    | none => firstOverlap (previous ++ [rule]) rest

def validateSourceRules (name : String) (rules : List Rule) : Except String Unit :=
  if !bashIdentifier name then
    .error ("lite source '" ++ name ++ "' is not a valid script function identifier")
  else if rules.isEmpty then .error ("lite source '" ++ name ++ "' has no version rules")
  else
    match firstOverlap [] rules with
    | some (previous, rule) =>
      .error ("lite source '" ++ name ++ "' has ambiguous overlapping rules '" ++
        previous.expression ++ "' and '" ++ rule.expression ++ "'")
    | none => .ok ()

end Validation

section Rendering

def bashString (value context : String) : Except String String :=
  if value.toList.any isControl then
    .error (context ++ " contains a control character that cannot be rendered in Bash")
  else
    .ok (Texts.replace "`" "\\`" (Texts.replace "$" "\\$" (Texts.replace "\"" "\\\""
      (Texts.replace "\\" "\\\\" value))))

/-- A branch: its tests, and its address as it stands between quotes. -/
structure Branch where
  tests : List VersionTest
  api : String

structure BashFunction where
  name : String
  branches : List Branch
  outputPath : String

def renderBranches (name : String) : List Rule → Except String (List Branch)
  | [] => .ok []
  | rule :: rest =>
    match bashString rule.url ("lite source '" ++ name ++ "' URL") with
    | .error error => .error error
    | .ok api => (renderBranches name rest).map fun branches => ⟨ruleTests rule, api⟩ :: branches

def renderBashSource (name outputPath : String) (rules : List Rule) :
    Except String BashFunction :=
  match validateSourceRules name rules with
  | .error error => .error error
  | .ok () =>
    match bashString outputPath ("lite source '" ++ name ++ "' output path") with
    | .error error => .error error
    | .ok outputPath =>
      (renderBranches name rules).map fun branches => { name, branches, outputPath }

def Branch.text (outputPath keyword : String) (branch : Branch) : String :=
  "  " ++ keyword ++ " " ++ condition branch.tests ++ "; then\n" ++
    "    get_api \"" ++ branch.api ++ "\" \"" ++ outputPath ++ "\"\n"

/-- The text that is written into the script. -/
def BashFunction.text (function : BashFunction) : String :=
  "get_api_" ++ function.name ++ "() \x7b\n" ++
    Texts.join "" (function.branches.zipIdx.map fun e =>
      e.1.text function.outputPath (if e.2 = 0 then "if" else "elif")) ++
    "  else\n    skip_api \"" ++ function.name ++ "\"\n  fi\n\x7d\n"

def sourceRulesFrom (lib : SemverLibrary) (name : String) :
    List (String × VersionSource) → Except String (List Rule)
  | [] => .ok []
  | (_, .structured ..) :: _ =>
    .error ("lite source '" ++ name ++
      "' uses structured request details unsupported by esdiag-lite")
  | (expression, .url url) :: rest =>
    match parseRule lib name expression url with
    | .error error => .error error
    | .ok rule => (sourceRulesFrom lib name rest).map fun rules => rule :: rules

def sourceRules (lib : SemverLibrary) (name : String) (source : Source) :
    Except String (List Rule) :=
  sourceRulesFrom lib name source.versions.inOrder

end Rendering

section Running

/-- The shell, as far as it is not the same everywhere: the value of a number. -/
structure Shell where
  integer : ℕ → ℤ

/-- Numbers of 63 bits have their values. -/
def Shell.Lawful (shell : Shell) : Prop := ∀ n, n < 2 ^ 63 → shell.integer n = n

inductive ScriptAction where
  | getApi (api output : String)
  | skipApi (name : String)
  deriving DecidableEq

variable (shell : Shell)

/-- The frame of the version functions: the first part that differs decides. -/
def versionTest (wins last : ℤ → ℤ → Bool) (es bound : VersionParts) : Bool :=
  if wins (shell.integer es.major) (shell.integer bound.major) then true
  else if wins (shell.integer bound.major) (shell.integer es.major) then false
  else if wins (shell.integer es.minor) (shell.integer bound.minor) then true
  else if wins (shell.integer bound.minor) (shell.integer es.minor) then false
  else last (shell.integer es.patch) (shell.integer bound.patch)

def versionAtLeast (es bound : VersionParts) : Bool :=
  versionTest shell (fun a b => b < a) (fun a b => b ≤ a) es bound

def versionGreaterThan (es bound : VersionParts) : Bool :=
  versionTest shell (fun a b => b < a) (fun a b => b < a) es bound

def versionAtMost (es bound : VersionParts) : Bool :=
  versionTest shell (fun a b => a < b) (fun a b => a ≤ b) es bound

def versionLessThan (es bound : VersionParts) : Bool :=
  versionTest shell (fun a b => a < b) (fun a b => a < b) es bound

def VersionTest.run (es : VersionParts) (test : VersionTest) : Bool :=
  match test.function with
  | .versionAtLeast => versionAtLeast shell es test.version
  | .versionGreaterThan => versionGreaterThan shell es test.version
  | .versionAtMost => versionAtMost shell es test.version
  | .versionLessThan => versionLessThan shell es test.version

/-- The characters that have to be escaped between double quotes. -/
def special : List Char := "\\\"$`".toList

/-- A text between double quotes; none if it ends early or asks for an expansion. -/
def expand : List Char → Option (List Char)
  | [] => some []
  | '\\' :: c :: rest =>
    if c ∈ special then (expand rest).map (c :: ·)
    else if c = '\n' then expand rest
    else (expand (c :: rest)).map ('\\' :: ·)
  | c :: rest => if c ∈ special then none else (expand rest).map (c :: ·)

def expandText (text : String) : Option String := (expand text.toList).map String.ofList

def BashFunction.run (es : VersionParts) (function : BashFunction) : Option ScriptAction :=
  match function.branches.find? fun branch => branch.tests.all (VersionTest.run shell es) with
  | none => some (.skipApi function.name)
  | some branch => do
    let api ← expandText branch.api
    let output ← expandText function.outputPath
    pure (.getApi api output)

end Running

section Quoting

/-- A character as `bashString` writes it. -/
def escape (c : Char) : List Char := if c ∈ special then ['\\', c] else [c]

theorem special_eq : special = ['\\', '"', '$', '`'] := rfl

theorem toList_replace_char (old new : String) (c : Char) (hold : old.toList = [c])
    (text : String) : (Texts.replace old new text).toList =
      text.toList.flatMap fun b => if b = c then new.toList else [b] := by
  rw [Texts.replace, String.toList_ofList, hold, Texts.replaceList_singleton]

theorem toList_bashString {value context quoted : String}
    (h : bashString value context = .ok quoted) : quoted.toList = value.toList.flatMap escape := by
  unfold bashString at h
  split at h
  · cases h
  · obtain rfl := Except.ok.inj h
    rw [toList_replace_char "`" "\\`" '`' rfl, toList_replace_char "$" "\\$" '$' rfl,
      toList_replace_char "\"" "\\\"" '"' rfl, toList_replace_char "\\" "\\\\" '\\' rfl]
    simp only [List.flatMap_assoc]
    congr 1
    funext c
    unfold escape
    rw [special_eq]
    -- Each of the four replacements leaves the others' characters alone.
    by_cases hbackslash : c = '\\'
    · subst hbackslash
      rfl
    · by_cases hquote : c = '"'
      · subst hquote
        rfl
      · by_cases hdollar : c = '$'
        · subst hdollar
          rfl
        · by_cases hbacktick : c = '`'
          · subst hbacktick
            rfl
          · simp [hbackslash, hquote, hdollar, hbacktick]

theorem expand_escape_append (c : Char) (rest : List Char) :
    expand (escape c ++ rest) = (expand rest).map (c :: ·) := by
  unfold escape
  split
  · rename_i hspecial
    simp [expand, hspecial]
  · rename_i hplain
    have hbackslash : c ≠ '\\' := by
      rintro rfl
      exact hplain (by decide)
    rw [List.singleton_append, expand.eq_def]
    simp [hplain, hbackslash]

theorem expand_escape (text : List Char) : expand (text.flatMap escape) = some text := by
  induction text with
  | nil => rfl
  | cons c rest ih => rw [List.flatMap_cons, expand_escape_append, ih, Option.map_some]

/-- The shell reads a quoted text back as it was. -/
theorem expandText_bashString {value context quoted : String}
    (h : bashString value context = .ok quoted) : expandText quoted = some value := by
  rw [expandText, toList_bashString h, expand_escape, Option.map_some, String.ofList_toList]

end Quoting

section Tests

variable {shell : Shell}

/-- A version whose parts are numbers of the shell. -/
def Fits (version : VersionParts) : Prop :=
  version.major < 2 ^ 63 ∧ version.minor < 2 ^ 63 ∧ version.patch < 2 ^ 63

/-- Where all numbers fit, the shell compares as with the integers themselves. -/
theorem versionTest_eq (hshell : shell.Lawful) {es bound : VersionParts} (hes : Fits es)
    (hbound : Fits bound) (wins last : ℤ → ℤ → Bool) :
    versionTest shell wins last es bound = versionTest ⟨Int.ofNat⟩ wins last es bound := by
  obtain ⟨hmajor, hminor, hpatch⟩ := hes
  obtain ⟨hmajor', hminor', hpatch'⟩ := hbound
  simp only [versionTest, hshell _ hmajor, hshell _ hminor, hshell _ hpatch, hshell _ hmajor',
    hshell _ hminor', hshell _ hpatch', Int.ofNat_eq_natCast]

theorem versionAtLeast_eq (hshell : shell.Lawful) {es bound : VersionParts} (hes : Fits es)
    (hbound : Fits bound) : versionAtLeast shell es bound = bound.le es := by
  rw [versionAtLeast, versionTest_eq hshell hes hbound]
  simp only [versionTest, VersionParts.le, Int.ofNat_eq_natCast]
  grind

theorem versionGreaterThan_eq (hshell : shell.Lawful) {es bound : VersionParts} (hes : Fits es)
    (hbound : Fits bound) : versionGreaterThan shell es bound = bound.lt es := by
  rw [versionGreaterThan, versionTest_eq hshell hes hbound]
  simp only [versionTest, VersionParts.lt, Int.ofNat_eq_natCast]
  grind

theorem versionAtMost_eq (hshell : shell.Lawful) {es bound : VersionParts} (hes : Fits es)
    (hbound : Fits bound) : versionAtMost shell es bound = es.le bound := by
  rw [versionAtMost, versionTest_eq hshell hes hbound]
  simp only [versionTest, VersionParts.le, Int.ofNat_eq_natCast]
  grind

theorem versionLessThan_eq (hshell : shell.Lawful) {es bound : VersionParts} (hes : Fits es)
    (hbound : Fits bound) : versionLessThan shell es bound = es.lt bound := by
  rw [versionLessThan, versionTest_eq hshell hes hbound]
  simp only [versionTest, VersionParts.lt, Int.ofNat_eq_natCast]
  grind

theorem run_lower (hshell : shell.Lawful) {es : VersionParts} (hes : Fits es) {bound : Bound}
    (hbound : Fits (boundParts bound).1) :
    (boundCondition true bound).run shell es = bound.admitsAbove es := by
  cases bound with
  | inclusive version => exact versionAtLeast_eq hshell hes hbound
  | exclusive version => exact versionGreaterThan_eq hshell hes hbound

theorem run_upper (hshell : shell.Lawful) {es : VersionParts} (hes : Fits es) {bound : Bound}
    (hbound : Fits (boundParts bound).1) :
    (boundCondition false bound).run shell es = bound.admitsBelow es := by
  cases bound with
  | inclusive version => exact versionAtMost_eq hshell hes hbound
  | exclusive version => exact versionLessThan_eq hshell hes hbound

def RuleFits (rule : Rule) : Prop :=
  (∀ bound ∈ rule.lower, Fits (boundParts bound).1) ∧
    ∀ bound ∈ rule.upper, Fits (boundParts bound).1

/-- The tests of a branch are true of the versions its rule admits. -/
theorem ruleTests_all (hshell : shell.Lawful) {es : VersionParts} (hes : Fits es) {rule : Rule}
    (hrule : RuleFits rule) :
    ((ruleTests rule).all fun test => test.run shell es) = rule.isMatch es := by
  obtain ⟨hlower, hupper⟩ := hrule
  have habove : ((rule.lower.map (boundCondition true)).toList.all fun test => test.run shell es) =
      rule.lower.all (Bound.admitsAbove es) := by
    cases hbound : rule.lower with
    | none => rfl
    | some bound => simp [run_lower hshell hes (hlower bound hbound)]
  have hbelow : ((rule.upper.map (boundCondition false)).toList.all fun test => test.run shell es) =
      rule.upper.all (Bound.admitsBelow es) := by
    cases hbound : rule.upper with
    | none => rfl
    | some bound => simp [run_upper hshell hes (hupper bound hbound)]
  rw [ruleTests, List.all_append, habove, hbelow]
  rfl

end Tests

section Overlap

/-- A version above (or below) two bounds, as the pair of the stricter bound says it. -/
def above (version : VersionParts) (bound : VersionParts × Bool) : Bool :=
  if bound.2 then bound.1.le version else bound.1.lt version

def below (version : VersionParts) (bound : VersionParts × Bool) : Bool :=
  if bound.2 then version.le bound.1 else version.lt bound.1

theorem above_boundParts (version : VersionParts) (bound : Bound) :
    above version (boundParts bound) = bound.admitsAbove version := by
  cases bound <;> rfl

theorem below_boundParts (version : VersionParts) (bound : Bound) :
    below version (boundParts bound) = bound.admitsBelow version := by
  cases bound <;> rfl

theorem above_laterBound {version : VersionParts} {left right : VersionParts × Bool}
    (hleft : above version left = true) (hright : above version right = true) :
    above version (laterBound left right) = true := by
  unfold laterBound
  split
  · exact hright
  · split
    · exact hleft
    · simp only [above, VersionParts.le, VersionParts.lt] at *
      grind

theorem below_earlierBound {version : VersionParts} {left right : VersionParts × Bool}
    (hleft : below version left = true) (hright : below version right = true) :
    below version (earlierBound left right) = true := by
  unfold earlierBound
  split
  · exact hleft
  · split
    · exact hright
    · simp only [below, VersionParts.le, VersionParts.lt] at *
      grind

theorem combined_holds {pick : VersionParts × Bool → VersionParts × Bool → VersionParts × Bool}
    {holds : VersionParts × Bool → Bool} (hpick : ∀ left right, holds left = true →
      holds right = true → holds (pick left right) = true) {left right : Option Bound}
    (hleft : ∀ bound ∈ left, holds (boundParts bound) = true)
    (hright : ∀ bound ∈ right, holds (boundParts bound) = true) :
    ∀ bound ∈ combined pick left right, holds bound = true := by
  intro bound hbound
  cases left with
  | none =>
    cases right with
    | none => cases hbound
    | some right =>
      obtain rfl := Option.some.inj hbound
      exact hright right rfl
  | some left =>
    cases right with
    | none =>
      obtain rfl := Option.some.inj hbound
      exact hleft left rfl
    | some right =>
      obtain rfl := Option.some.inj hbound
      exact hpick _ _ (hleft left rfl) (hright right rfl)

theorem lt_or_eq_of_above_below {version : VersionParts} {lower upper : VersionParts × Bool}
    (habove : above version lower = true) (hbelow : below version upper = true) :
    (lower.1.lt upper.1 || (lower.1 == upper.1 && lower.2 && upper.2)) = true := by
  obtain ⟨⟨major, minor, patch⟩, inclusive⟩ := lower
  obtain ⟨⟨major', minor', patch'⟩, inclusive'⟩ := upper
  simp only [above, below, VersionParts.le, VersionParts.lt, Bool.or_eq_true, Bool.and_eq_true,
    decide_eq_true_eq, beq_iff_eq, VersionParts.mk.injEq] at *
  cases inclusive <;> cases inclusive' <;>
    simp only [Bool.false_eq_true, if_true, if_false, Bool.or_eq_true, Bool.and_eq_true,
      decide_eq_true_eq, beq_iff_eq, and_true, and_false, or_false] at habove hbelow ⊢ <;>
    omega

/-- Two rules that do not overlap admit no version together. -/
theorem rulesOverlap_of_isMatch {left right : Rule} {version : VersionParts}
    (hleft : left.isMatch version = true) (hright : right.isMatch version = true) :
    rulesOverlap left right = true := by
  simp only [Rule.isMatch, admits, Bool.and_eq_true, Option.all_eq_true] at hleft hright
  unfold rulesOverlap
  split
  · rename_i lower upper hlower hupper
    have habove : above version lower = true := by
      refine combined_holds (fun _ _ => above_laterBound) ?_ ?_ lower hlower
      · intro bound hbound
        rw [above_boundParts]
        exact hleft.1 bound hbound
      · intro bound hbound
        rw [above_boundParts]
        exact hright.1 bound hbound
    have hbelow : below version upper = true := by
      refine combined_holds (fun _ _ => below_earlierBound) ?_ ?_ upper hupper
      · intro bound hbound
        rw [below_boundParts]
        exact hleft.2 bound hbound
      · intro bound hbound
        rw [below_boundParts]
        exact hright.2 bound hbound
    exact lt_or_eq_of_above_below habove hbelow
  · rfl

/-- The search finds nothing if no rule overlaps an earlier one. -/
theorem firstOverlap_eq_none (rules previous : List Rule) :
    firstOverlap previous rules = none ↔
      rules.Pairwise (fun left right => rulesOverlap left right = false) ∧
        ∀ earlier ∈ previous, ∀ rule ∈ rules, rulesOverlap earlier rule = false := by
  induction rules generalizing previous with
  | nil => simp [firstOverlap]
  | cons rule rest ih =>
    cases hfound : previous.find? fun earlier => rulesOverlap earlier rule with
    | some earlier =>
      simp only [firstOverlap, hfound, reduceCtorEq, false_iff, not_and]
      intro _ hcross
      have hfalse := hcross earlier (List.mem_of_find?_eq_some hfound) rule List.mem_cons_self
      rw [List.find?_some hfound] at hfalse
      cases hfalse
    | none =>
      have hnone : ∀ earlier ∈ previous, rulesOverlap earlier rule = false := by
        intro earlier hearlier
        simpa using List.find?_eq_none.mp hfound earlier hearlier
      simp only [firstOverlap, hfound, ih, List.pairwise_cons, List.mem_append, List.not_mem_nil,
        or_false, List.mem_cons]
      constructor
      · rintro ⟨hrest, hcross⟩
        refine ⟨⟨fun other => hcross rule (Or.inr rfl) other, hrest⟩, ?_⟩
        rintro earlier hearlier other (rfl | hother)
        · exact hnone earlier hearlier
        · exact hcross earlier (Or.inl hearlier) other hother
      · rintro ⟨⟨hrule, hrest⟩, hcross⟩
        refine ⟨hrest, ?_⟩
        rintro earlier (hearlier | rfl) other hother
        · exact hcross earlier hearlier other (Or.inr hother)
        · exact hrule other hother

/-- A source is accepted if it can be rendered and no two of its rules overlap for the test. -/
theorem validateSourceRules_iff (name : String) (rules : List Rule) :
    validateSourceRules name rules = .ok () ↔ bashIdentifier name = true ∧ rules ≠ [] ∧
      rules.Pairwise fun left right => rulesOverlap left right = false := by
  have hpairwise : firstOverlap [] rules = none ↔
      rules.Pairwise fun left right => rulesOverlap left right = false := by
    simp [firstOverlap_eq_none]
  rw [← hpairwise]
  unfold validateSourceRules
  cases bashIdentifier name with
  | false => simp
  | true =>
    cases rules with
    | nil => simp
    | cons rule rest => cases firstOverlap [] (rule :: rest) <;> simp

/-- In rules that pass the validation, at most one admits a version. -/
theorem isMatch_pairwise {name : String} {rules : List Rule}
    (h : validateSourceRules name rules = .ok ()) (version : VersionParts) :
    rules.Pairwise fun left right => ¬(left.isMatch version = true ∧
      right.isMatch version = true) := by
  apply ((validateSourceRules_iff name rules).mp h).2.2.imp
  rintro left right hfalse ⟨hleft, hright⟩
  rw [rulesOverlap_of_isMatch hleft hright] at hfalse
  cases hfalse

end Overlap

section Agreement

variable {lib : SemverLibrary} {shell : Shell} {name outputPath : String}

/-- The branch that is taken is the one of the first rule that admits the version. -/
theorem find?_renderBranches (hshell : shell.Lawful) {es : VersionParts} (hes : Fits es)
    {rules : List Rule} (hfits : ∀ rule ∈ rules, RuleFits rule) {branches : List Branch}
    (h : renderBranches name rules = .ok branches) :
    ((branches.find? fun branch => branch.tests.all fun test => test.run shell es).map
        fun branch => expandText branch.api) =
      (rules.find? fun rule => rule.isMatch es).map fun rule => some rule.url := by
  induction rules generalizing branches with
  | nil =>
    obtain rfl := Except.ok.inj h
    rfl
  | cons rule rest ih =>
    unfold renderBranches at h
    cases hquoted : bashString rule.url ("lite source '" ++ name ++ "' URL") with
    | error error => simp [hquoted] at h
    | ok api =>
      cases hrest : renderBranches name rest with
      | error error => simp [hquoted, hrest, Except.map] at h
      | ok others =>
        simp only [hquoted, hrest, Except.map, Except.ok.injEq] at h
        obtain rfl := h
        have htests := ruleTests_all hshell hes (hfits rule List.mem_cons_self)
        have hothers := ih (fun other hother => hfits other (List.mem_cons_of_mem _ hother)) hrest
        rw [List.find?_cons, List.find?_cons]
        simp only [htests]
        cases rule.isMatch es with
        | true => exact congrArg some (expandText_bashString hquoted)
        | false => exact hothers

/-- What a generated function does, in terms of the rules it is made from. -/
theorem run_renderBashSource (hshell : shell.Lawful) {es : VersionParts} (hes : Fits es)
    {rules : List Rule} (hfits : ∀ rule ∈ rules, RuleFits rule) {function : BashFunction}
    (h : renderBashSource name outputPath rules = .ok function) :
    function.run shell es = some
      (match rules.find? fun rule => rule.isMatch es with
      | some rule => .getApi rule.url outputPath
      | none => .skipApi name) := by
  unfold renderBashSource at h
  cases hvalid : validateSourceRules name rules with
  | error error => simp [hvalid] at h
  | ok =>
    cases hquoted : bashString outputPath ("lite source '" ++ name ++ "' output path") with
    | error error => simp [hvalid, hquoted] at h
    | ok output =>
      cases hbranches : renderBranches name rules with
      | error error => simp [hvalid, hquoted, hbranches, Except.map] at h
      | ok branches =>
        simp only [hvalid, hquoted, hbranches, Except.map, Except.ok.injEq] at h
        obtain rfl := h
        have hfind := find?_renderBranches hshell hes hfits hbranches
        unfold BashFunction.run
        cases hrule : rules.find? fun rule => rule.isMatch es with
        | none =>
          rw [hrule, Option.map_none, Option.map_eq_none_iff] at hfind
          simp only [hfind]
        | some rule =>
          rw [hrule, Option.map_some, Option.map_eq_some_iff] at hfind
          obtain ⟨branch, hbranch, hapi⟩ := hfind
          simp only [hbranch, hapi, expandText_bashString hquoted]
          rfl

/-- The ranges of a source, as the library itself reads them. -/
def NativeRanges (lib : SemverLibrary) (entries : List (String × VersionSource)) : Prop :=
  ∀ entry ∈ entries, CommasSpaced entry.1.toList ∧ ∃ req, lib.parse entry.1 = .ok req

theorem resolveFrom_eq (hlib : lib.Lawful) {version cleanVersion : Version}
    (hclean : cleanVersion.pre = "") {entries : List (String × VersionSource)}
    (hnative : NativeRanges lib entries) {rules : List Rule}
    (h : sourceRulesFrom lib name entries = .ok rules) :
    resolveFrom lib version cleanVersion entries =
      match rules.find? fun rule => rule.isMatch cleanVersion.parts with
      | some rule => .ok ⟨rule.url, false⟩
      | none => .error (.unsupportedVersion version) := by
  induction entries generalizing rules with
  | nil =>
    obtain rfl := Except.ok.inj h
    rfl
  | cons entry rest ih =>
    obtain ⟨expression, source⟩ := entry
    obtain ⟨hspaced, req, hreq⟩ := hnative _ List.mem_cons_self
    cases source with
    | structured url spaceaware => cases h
    | url url =>
      unfold sourceRulesFrom at h
      cases hrule : parseRule lib name expression url with
      | error error => simp [hrule] at h
      | ok rule =>
        cases hrest : sourceRulesFrom lib name rest with
        | error error => simp [hrule, hrest, Except.map] at h
        | ok others =>
          simp only [hrule, hrest, Except.map, Except.ok.injEq] at h
          obtain rfl := h
          have hmatch := parseRule_isMatch hlib hrule hspaced hreq hclean
          have hurl := (parseRule_eq_ok hrule).1
          have hothers := ih (fun other hother => hnative other (List.mem_cons_of_mem _ hother))
            hrest
          rw [List.find?_cons]
          simp only [resolveFrom, hreq, ← hmatch]
          cases rule.isMatch cleanVersion.parts with
          | true => simp [VersionSource.resolved, hurl]
          | false => simpa using hothers

/-- The script requests the address that the program resolves, and skips the source where the
program finds no range for the version. -/
theorem script_agrees (hlib : lib.Lawful) (hshell : shell.Lawful) {source : Source}
    {rules : List Rule} {function : BashFunction} (hrules : sourceRules lib name source = .ok rules)
    (hrender : renderBashSource name outputPath rules = .ok function)
    (hnative : NativeRanges lib source.versions.inOrder) (hfits : ∀ rule ∈ rules, RuleFits rule)
    (version : Version) (hversion : Fits version.parts) :
    (∀ url, function.run shell version.parts = some (.getApi url outputPath) ↔
      ∃ resolved, resolveVersion lib source version = .ok resolved ∧ resolved.url = url) ∧
    (function.run shell version.parts = some (.skipApi name) ↔
      resolveVersion lib source version = .error (.unsupportedVersion version)) := by
  have hrun := run_renderBashSource hshell hversion hfits hrender
  have hclean : ({ version with pre := "" } : Version).pre = "" := rfl
  have hresolve : resolveVersion lib source version = _ :=
    resolveFrom_eq hlib hclean hnative hrules
  simp only at hresolve
  rw [hrun, hresolve]
  cases rules.find? fun rule => rule.isMatch version.parts with
  | none => simp
  | some rule => simp

end Agreement

section Samples

/-- The library on the ranges of two sources and on their parts. -/
def sampleLibrary : SemverLibrary where
  Req := List (Operator × VersionParts)
  parse text :=
    if text = ">= 6.6.0, < 7.7.0" then .ok [(.greaterEq, ⟨6, 6, 0⟩), (.less, ⟨7, 7, 0⟩)]
    else if text = ">= 6.6.0" then .ok [(.greaterEq, ⟨6, 6, 0⟩)]
    else if text = " < 7.7.0" then .ok [(.less, ⟨7, 7, 0⟩)]
    else if text = ">= 7.7.0" then .ok [(.greaterEq, ⟨7, 7, 0⟩)]
    else .error "expected comma after patch version number, found '<'"
  isMatch req version := req.all fun comparator => comparator.1.holds version.parts comparator.2

def sampleShell : Shell := ⟨Int.ofNat⟩

theorem sampleShell_lawful : sampleShell.Lawful := fun _ _ => rfl

theorem sampleLibrary_parse {text : String} {req : sampleLibrary.Req}
    (h : sampleLibrary.parse text = .ok req) :
    text = ">= 6.6.0, < 7.7.0" ∧ req = [(.greaterEq, ⟨6, 6, 0⟩), (.less, ⟨7, 7, 0⟩)] ∨
      text = ">= 6.6.0" ∧ req = [(.greaterEq, ⟨6, 6, 0⟩)] ∨
      text = " < 7.7.0" ∧ req = [(.less, ⟨7, 7, 0⟩)] ∨
      text = ">= 7.7.0" ∧ req = [(.greaterEq, ⟨7, 7, 0⟩)] := by
  simp only [sampleLibrary] at h
  split at h
  · exact Or.inl ⟨‹_›, (Except.ok.inj h).symm⟩
  · split at h
    · exact Or.inr (Or.inl ⟨‹_›, (Except.ok.inj h).symm⟩)
    · split at h
      · exact Or.inr (Or.inr (Or.inl ⟨‹_›, (Except.ok.inj h).symm⟩))
      · split at h
        · exact Or.inr (Or.inr (Or.inr ⟨‹_›, (Except.ok.inj h).symm⟩))
        · cases h

/-- A comparator of the table: its version has no space and starts no operator. -/
theorem isComparator_operator {text : List Char} {c : Char} {rest : List Char}
    (operator : Operator) (hspaced : ∃ before between after, text = List.replicate before ' ' ++
      (operator.text.toList ++ (List.replicate between ' ' ++
        ((c :: rest) ++ List.replicate after ' '))))
    (hplain : ((c :: rest).all fun d => !Texts.isWhitespace d && !"=<>~^".toList.contains d) =
      true) :
    IsComparator text operator.text (c :: rest) := by
  have hall : ∀ d ∈ c :: rest, Texts.isWhitespace d = false ∧ d ∉ ['=', '<', '>', '~', '^'] := by
    intro d hd
    have hd' := List.all_eq_true.mp hplain d hd
    rw [Bool.and_eq_true] at hd'
    exact ⟨by simpa using hd'.1, by simpa using hd'.2⟩
  refine ⟨hspaced, ?_, List.cons_ne_nil c rest, fun d hd => (hall d hd).1, ?_⟩
  · cases operator <;> decide
  · rintro d ⟨⟩
    exact (hall c List.mem_cons_self).2

/-- What a comparator of the table has to show of its text. -/
theorem sampleLibrary_comparator {text : List Char} {operator : Operator} {bound : VersionParts}
    {version : List Char} (hcomparator : IsComparator text operator.text version)
    (hbound : readVersion (.ofList version) = some bound) :
    ∃ op version, IsComparator text op version ∧
      ∀ other : Operator, op = other.text → ∀ found,
        readVersion (.ofList version) = some found → ∀ release : Version, release.pre = "" →
          sampleLibrary.isMatch [(operator, bound)] release = other.holds release.parts found := by
  refine ⟨operator.text, version, hcomparator, ?_⟩
  intro other htext found hfound release _
  have hoperator : operator = other := by
    cases operator <;> cases other <;> first | rfl | simp [Operator.text] at htext
  rw [hbound] at hfound
  obtain rfl := Option.some.inj hfound
  rw [hoperator]
  exact Bool.and_true _

set_option maxRecDepth 20000 in
theorem sampleLibrary_lawful : sampleLibrary.Lawful where
  parts := by
    intro left right req hleft hreq
    rcases sampleLibrary_parse hreq with ⟨htext, rfl⟩ | ⟨htext, -⟩ | ⟨htext, -⟩ | ⟨htext, -⟩
    · have hlist := congrArg String.toList htext
      rw [String.toList_ofList,
        show ">= 6.6.0, < 7.7.0".toList = ">= 6.6.0".toList ++ ',' :: " < 7.7.0".toList from rfl]
        at hlist
      obtain ⟨rfl, -, rfl⟩ :=
        (List.append_cons_inj_of_notMem (by decide) (by decide)).mp hlist.symm
      refine ⟨[(.greaterEq, ⟨6, 6, 0⟩)], [(.less, ⟨7, 7, 0⟩)], rfl, rfl, ?_⟩
      intro version _
      simp [sampleLibrary]
    all_goals
      have hmem : ',' ∈ left ++ ',' :: right := by simp
      rw [← String.toList_ofList (l := left ++ ',' :: right), htext] at hmem
      exact absurd hmem (by decide)
  comparator := by
    intro text req hcomma hreq
    rcases sampleLibrary_parse hreq with ⟨htext, -⟩ | ⟨htext, rfl⟩ | ⟨htext, rfl⟩ | ⟨htext, rfl⟩
    · have hlist := congrArg String.toList htext
      rw [String.toList_ofList] at hlist
      exact absurd (hlist ▸ hcomma) (by decide)
    all_goals
      have hlist := congrArg String.toList htext
      rw [String.toList_ofList] at hlist
      subst hlist
    · have hcomparator : IsComparator ">= 6.6.0".toList Operator.greaterEq.text "6.6.0".toList :=
        isComparator_operator .greaterEq ⟨0, 1, 0, rfl⟩ rfl
      exact sampleLibrary_comparator hcomparator rfl
    · have hcomparator : IsComparator " < 7.7.0".toList Operator.less.text "7.7.0".toList :=
        isComparator_operator .less ⟨1, 1, 0, rfl⟩ rfl
      exact sampleLibrary_comparator hcomparator rfl
    · have hcomparator : IsComparator ">= 7.7.0".toList Operator.greaterEq.text "7.7.0".toList :=
        isComparator_operator .greaterEq ⟨0, 1, 0, rfl⟩ rfl
      exact sampleLibrary_comparator hcomparator rfl

def sampleSource (first : String) : Source where
  tags := some "lite"
  required := none
  dependencies := []
  collectDependencies := []
  versions := (KeyedMap.empty.insert first (.url "/first")).insert ">= 7.7.0" (.url "/second")

def sampleRules (first : String) : List Rule :=
  [⟨first, "/first", some (.inclusive ⟨6, 6, 0⟩), some (.exclusive ⟨7, 7, 0⟩)⟩,
    ⟨">= 7.7.0", "/second", some (.inclusive ⟨7, 7, 0⟩), none⟩]

def sampleFunction (first : String) : BashFunction where
  name := "licenses"
  branches := (sampleRules first).map fun rule => ⟨ruleTests rule, rule.url⟩
  outputPath := "licenses.json"

set_option maxRecDepth 20000 in
theorem sampleRules_eq : sourceRules sampleLibrary "licenses" (sampleSource ">= 6.6.0, < 7.7.0") =
    .ok (sampleRules ">= 6.6.0, < 7.7.0") := by
  rfl

set_option maxRecDepth 20000 in
theorem sampleFunction_eq : renderBashSource "licenses" "licenses.json"
    (sampleRules ">= 6.6.0, < 7.7.0") = .ok (sampleFunction ">= 6.6.0, < 7.7.0") := by
  rfl

theorem sampleSource_native :
    NativeRanges sampleLibrary (sampleSource ">= 6.6.0, < 7.7.0").versions.inOrder := by
  have hentries : (sampleSource ">= 6.6.0, < 7.7.0").versions.inOrder =
      [(">= 6.6.0, < 7.7.0", .url "/first"), (">= 7.7.0", .url "/second")] := rfl
  rw [hentries]
  intro entry hentry
  simp only [List.mem_cons, List.not_mem_nil, or_false] at hentry
  rcases hentry with rfl | rfl
  · refine ⟨?_, _, rfl⟩
    intro left right htext
    rw [show ">= 6.6.0, < 7.7.0".toList = ">= 6.6.0".toList ++ ',' :: " < 7.7.0".toList from rfl]
      at htext
    obtain ⟨rfl, -, rfl⟩ :=
      (List.append_cons_inj_of_notMem (by decide) (by decide)).mp htext
    exact Or.inr (by decide)
  · refine ⟨?_, _, rfl⟩
    intro left right htext
    have hmem : ',' ∈ left ++ ',' :: right := by simp
    rw [← htext] at hmem
    exact absurd hmem (by decide)

def sampleVersion : Version := ⟨⟨7, 0, 0⟩, "", ""⟩

theorem sampleRules_fit (first : String) : ∀ rule ∈ sampleRules first, RuleFits rule := by
  intro rule hrule
  simp only [sampleRules, List.mem_cons, List.not_mem_nil, or_false] at hrule
  rcases hrule with rfl | rfl
  · refine ⟨?_, ?_⟩
    · rintro bound ⟨⟩
      exact ⟨by decide, by decide, by decide⟩
    · rintro bound ⟨⟩
      exact ⟨by decide, by decide, by decide⟩
  · refine ⟨?_, ?_⟩
    · rintro bound ⟨⟩
      exact ⟨by decide, by decide, by decide⟩
    · rintro bound ⟨⟩

theorem script_agrees_sample :
    (∀ url, (sampleFunction ">= 6.6.0, < 7.7.0").run sampleShell sampleVersion.parts =
        some (.getApi url "licenses.json") ↔
      ∃ resolved, resolveVersion sampleLibrary (sampleSource ">= 6.6.0, < 7.7.0") sampleVersion =
        .ok resolved ∧ resolved.url = url) ∧
    ((sampleFunction ">= 6.6.0, < 7.7.0").run sampleShell sampleVersion.parts =
        some (.skipApi "licenses") ↔
      resolveVersion sampleLibrary (sampleSource ">= 6.6.0, < 7.7.0") sampleVersion =
        .error (.unsupportedVersion sampleVersion)) :=
  script_agrees sampleLibrary_lawful sampleShell_lawful sampleRules_eq sampleFunction_eq
    sampleSource_native (sampleRules_fit _) sampleVersion ⟨by decide, by decide, by decide⟩

set_option maxRecDepth 20000 in
/-- A range without its comma is rendered all the same, while the program cannot read it: the
script requests the source and the program fails. -/
theorem spaced_range_disagrees :
    sampleLibrary.Lawful ∧ sampleShell.Lawful ∧
    sourceRules sampleLibrary "licenses" (sampleSource ">= 6.6.0 < 7.7.0") =
      .ok (sampleRules ">= 6.6.0 < 7.7.0") ∧
    renderBashSource "licenses" "licenses.json" (sampleRules ">= 6.6.0 < 7.7.0") =
      .ok (sampleFunction ">= 6.6.0 < 7.7.0") ∧
    (sampleFunction ">= 6.6.0 < 7.7.0").run sampleShell sampleVersion.parts =
      some (.getApi "/first" "licenses.json") ∧
    resolveVersion sampleLibrary (sampleSource ">= 6.6.0 < 7.7.0") sampleVersion =
      .error (.requirement ("Failed to parse version req '>= 6.6.0 < 7.7.0': " ++
        "expected comma after patch version number, found '<'")) :=
  ⟨sampleLibrary_lawful, sampleShell_lawful, rfl, rfl, by decide +kernel, rfl⟩

end Samples

end Esdiag.LiteScripts
