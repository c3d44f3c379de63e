import Esdiag.TextParts
import Esdiag.VersionRanges

/-!
The ranges of versions that are taken over from the upstream sources. There the
clauses of a range stand beside each other with white space only; the requirement
parser wants a comma between two of them. The normalization puts one where white
space separates a digit from an operator and leaves everything else as it is.
-/

namespace Esdiag.NormalizedRanges

open VersionRanges

/-! ### The normalization -/

/-- White space as `u8::is_ascii_whitespace` has it. -/
def isAsciiWhitespace (c : Char) : Bool :=
  c == ' ' || c == '\t' || c == '\n' || c == '\x0c' || c == '\r'

def startsClause (c : Char) : Bool := c == '<' || c == '>' || c == '=' || c == '~' || c == '^'

/-- The bytes of a text, each as the character that `byte as char` makes of it. -/
def bytesAsChars (text : String) : List Char :=
  (text.toList.flatMap String.utf8EncodeChar).map fun byte => Char.ofNat byte.toNat

/-- The loop over the bytes, with what is normalized so far. -/
def normalizeLoop (normalized : List Char) : List Char → List Char
  | [] => normalized
  | byte :: rest =>
    if isAsciiWhitespace byte then
      let run := byte :: rest.takeWhile isAsciiWhitespace
      let after := rest.dropWhile isAsciiWhitespace
      let followsVersion := normalized.getLast?.any Char.isDigit
      let startsNextClause := after.head?.any startsClause
      normalizeLoop
        (normalized ++ if followsVersion && startsNextClause then [',', ' '] else run) after
    else normalizeLoop (normalized ++ [byte]) rest
termination_by text => text.length
decreasing_by
  · have h := rest.length_dropWhile_le isAsciiWhitespace
    simp only [List.length_cons]
    omega
  · simp

def normalizeSemverRange (expr : String) : String :=
  .ofList (normalizeLoop [] (bytesAsChars (Texts.trim expr)))

/-! ### Steps of the loop -/

/-- Whether white space after the one text and before the other gives way to a comma. -/
def takesComma (normalized after : List Char) : Bool :=
  normalized.getLast?.any Char.isDigit && after.head?.any startsClause

theorem normalizeLoop_word {word : List Char} (hword : ∀ c ∈ word, isAsciiWhitespace c = false)
    (normalized rest : List Char) :
    normalizeLoop normalized (word ++ rest) = normalizeLoop (normalized ++ word) rest := by
  induction word generalizing normalized with
  | nil => rw [List.nil_append, List.append_nil]
  | cons c word ih =>
    rw [List.forall_mem_cons] at hword
    rw [List.cons_append, normalizeLoop]
    simp only [hword.1, Bool.false_eq_true, if_false]
    rw [ih hword.2, List.append_assoc, List.singleton_append]

theorem normalizeLoop_run {run : List Char} (hne : run ≠ [])
    (hrun : ∀ c ∈ run, isAsciiWhitespace c = true) {after : List Char}
    (hafter : after.head?.any isAsciiWhitespace = false) (normalized : List Char) :
    normalizeLoop normalized (run ++ after) =
      normalizeLoop (normalized ++ if takesComma normalized after then [',', ' '] else run)
        after := by
  obtain ⟨c, run, rfl⟩ := List.exists_cons_of_ne_nil hne
  rw [List.forall_mem_cons] at hrun
  have hstop : after.dropWhile isAsciiWhitespace = after ∧
      after.takeWhile isAsciiWhitespace = [] := by
    cases after with
    | nil => exact ⟨rfl, rfl⟩
    | cons d after =>
      have hd : isAsciiWhitespace d = false := hafter
      simp [hd]
  rw [List.cons_append, normalizeLoop]
  simp only [hrun.1, if_true]
  rw [List.takeWhile_append_of_pos hrun.2, List.dropWhile_append_of_pos hrun.2, hstop.1, hstop.2,
    List.append_nil]
  rfl

/-- White space in front, and behind it a character of another kind or nothing. -/
theorem exists_run (text : List Char) :
    ∃ run after, text = run ++ after ∧ (∀ c ∈ run, isAsciiWhitespace c = true) ∧
      after.head?.any isAsciiWhitespace = false := by
  refine ⟨text.takeWhile isAsciiWhitespace, text.dropWhile isAsciiWhitespace,
    List.takeWhile_append_dropWhile.symm, fun c hc => List.mem_takeWhile_imp hc, ?_⟩
  have h := List.head?_dropWhile_not isAsciiWhitespace text
  cases hhead : (text.dropWhile isAsciiWhitespace).head? with
  | none => rfl
  | some d => simpa [hhead] using h

/-- What is left of white space before a character. -/
def keptRun (normalized run : List Char) (d : Char) : List Char :=
  if run ≠ [] ∧ takesComma normalized [d] then [',', ' '] else run

theorem normalizeLoop_step {run : List Char} (hrun : ∀ c ∈ run, isAsciiWhitespace c = true)
    {d : Char} (hd : isAsciiWhitespace d = false) (normalized rest : List Char) :
    normalizeLoop normalized (run ++ d :: rest) =
      normalizeLoop (normalized ++ keptRun normalized run d ++ [d]) rest := by
  have hword := normalizeLoop_word (List.forall_mem_singleton.2 hd)
  unfold keptRun
  by_cases hne : run = []
  · subst hne
    simpa using hword normalized rest
  · have hafter : (d :: rest).head?.any isAsciiWhitespace = false := hd
    rw [normalizeLoop_run hne hrun hafter]
    have hcomma : takesComma normalized (d :: rest) = takesComma normalized [d] := rfl
    rw [hcomma]
    by_cases htakes : takesComma normalized [d] = true
    · rw [if_pos htakes, if_pos ⟨hne, htakes⟩]
      exact hword _ rest
    · rw [if_neg htakes, if_neg fun h => htakes h.2]
      exact hword _ rest

theorem normalizeLoop_end {run : List Char} (hrun : ∀ c ∈ run, isAsciiWhitespace c = true)
    (normalized : List Char) : normalizeLoop normalized run = normalized ++ run := by
  by_cases hne : run = []
  · rw [hne, normalizeLoop, List.append_nil]
  · have hnone : takesComma normalized [] = false := Bool.and_false _
    have h := @normalizeLoop_run run hne hrun [] rfl normalized
    rw [List.append_nil, hnone] at h
    rw [h, normalizeLoop]
    rfl

/-! ### Normalizing again -/

/-- The normalized part is read again as it stands, whatever follows. -/
def IsSettled (normalized : List Char) : Prop :=
  ∀ rest, normalizeLoop [] (normalized ++ rest) = normalizeLoop normalized rest

theorem isSettled_step {normalized run : List Char} (h : IsSettled normalized)
    (hrun : ∀ c ∈ run, isAsciiWhitespace c = true) {d : Char}
    (hd : isAsciiWhitespace d = false) :
    IsSettled (normalized ++ keptRun normalized run d ++ [d]) := by
  intro rest
  rw [List.append_assoc, List.append_assoc, h]
  by_cases htakes : run ≠ [] ∧ takesComma normalized [d] = true
  · -- The comma is no digit, so the space behind it stays.
    have hkept : keptRun normalized run d = [','] ++ [' '] := by
      rw [keptRun, if_pos htakes]
      rfl
    have hcomma : keptRun (normalized ++ [',']) [' '] d = [' '] := by
      rw [keptRun, if_neg]
      simp [takesComma]
    rw [hkept, List.append_assoc, normalizeLoop_word (List.forall_mem_singleton.2 rfl)]
    change normalizeLoop (normalized ++ [',']) ([' '] ++ d :: rest) = _
    rw [normalizeLoop_step (List.forall_mem_singleton.2 rfl) hd, hcomma]
    simp only [List.append_assoc]
  · have hkept : keptRun normalized run d = run := by
      rw [keptRun, if_neg htakes]
    have hstep := normalizeLoop_step hrun hd normalized rest
    rw [hkept] at hstep ⊢
    rw [List.singleton_append, hstep]

/-- The loop takes white space with the character behind it, or white space at the end. -/
theorem normalizeLoop_induction {motive : List Char → List Char → Prop}
    (last : ∀ normalized run, (∀ c ∈ run, isAsciiWhitespace c = true) → motive normalized run)
    (step : ∀ normalized run d rest, (∀ c ∈ run, isAsciiWhitespace c = true) →
      isAsciiWhitespace d = false →
      motive (normalized ++ keptRun normalized run d ++ [d]) rest →
      motive normalized (run ++ d :: rest)) (normalized text : List Char) :
    motive normalized text := by
  induction hlength : text.length using Nat.strong_induction_on generalizing normalized text with
  | _ length ih =>
    obtain ⟨run, after, rfl, hrun, hafter⟩ := exists_run text
    cases after with
    | nil =>
      rw [List.append_nil]
      exact last normalized run hrun
    | cons d rest =>
      refine step normalized run d rest hrun hafter (ih rest.length ?_ _ rest rfl)
      simp only [List.length_append, List.length_cons] at hlength
      omega

theorem normalizeLoop_again {normalized : List Char} (h : IsSettled normalized)
    (text : List Char) :
    normalizeLoop [] (normalizeLoop normalized text) = normalizeLoop normalized text := by
  induction normalized, text using normalizeLoop_induction with
  | last normalized run hrun => rw [normalizeLoop_end hrun, h, normalizeLoop_end hrun]
  | step normalized run d rest hrun hd ih =>
    rw [normalizeLoop_step hrun hd]
    exact ih (isSettled_step h hrun hd)

/-! ### Texts -/

theorem mem_keptRun {normalized run : List Char} {d c : Char} (h : c ∈ keptRun normalized run d) :
    c ∈ run ∨ c = ',' ∨ c = ' ' := by
  unfold keptRun at h
  split_ifs at h
  · right
    simpa using h
  · exact Or.inl h

theorem mem_normalizeLoop {normalized text : List Char} {c : Char}
    (h : c ∈ normalizeLoop normalized text) :
    c ∈ normalized ∨ c ∈ text ∨ c = ',' ∨ c = ' ' := by
  induction normalized, text using normalizeLoop_induction with
  | last normalized run hrun =>
    rw [normalizeLoop_end hrun, List.mem_append] at h
    exact h.imp_right Or.inl
  | step normalized run d rest hrun hd ih =>
    rw [normalizeLoop_step hrun hd] at h
    simp only [List.mem_append, List.mem_cons]
    rcases ih h with hnormalized | hrest | hpad
    · rw [List.mem_append, List.mem_append, List.mem_singleton] at hnormalized
      rcases hnormalized with (hnormalized | hkept) | rfl
      · exact Or.inl hnormalized
      · rcases mem_keptRun hkept with hrun | hpad
        · exact Or.inr (Or.inl (Or.inl hrun))
        · exact Or.inr (Or.inr hpad)
      · exact Or.inr (Or.inl (Or.inr (Or.inl rfl)))
    · exact Or.inr (Or.inl (Or.inr (Or.inr hrest)))
    · exact Or.inr (Or.inr hpad)

theorem prefix_normalizeLoop (normalized text : List Char) :
    normalized <+: normalizeLoop normalized text := by
  induction normalized, text using normalizeLoop_induction with
  | last normalized run hrun =>
    rw [normalizeLoop_end hrun]
    exact List.prefix_append _ _
  | step normalized run d rest hrun hd ih =>
    rw [normalizeLoop_step hrun hd]
    rw [List.append_assoc] at ih ⊢
    exact (List.prefix_append _ _).trans ih

theorem getLast_normalizeLoop {c : Char} (hc : isAsciiWhitespace c = false)
    (normalized text : List Char) :
    (normalizeLoop normalized (text ++ [c])).getLast? = some c := by
  induction normalized, text using normalizeLoop_induction with
  | last normalized run hrun =>
    rw [normalizeLoop_step hrun hc, normalizeLoop, List.getLast?_concat]
  | step normalized run d rest hrun hd ih =>
    rw [List.append_assoc, List.cons_append, normalizeLoop_step hrun hd]
    exact ih

theorem isWhitespace_of_ascii {c : Char} (h : isAsciiWhitespace c = true) :
    Texts.isWhitespace c = true := by
  unfold isAsciiWhitespace at h
  simp only [Bool.or_eq_true, beq_iff_eq] at h
  rcases h with (((rfl | rfl) | rfl) | rfl) | rfl <;> decide

/-- The normalization keeps the first and the last character of a trimmed text. -/
theorem trim_normalizeLoop {text : List Char}
    (h : Texts.trimList Texts.isWhitespace text = text) :
    Texts.trimList Texts.isWhitespace (normalizeLoop [] text) = normalizeLoop [] text := by
  obtain ⟨hhead, hlast⟩ := Texts.ends_trimList Texts.isWhitespace text
  rw [h] at hhead hlast
  have hplain (c : Char) (hc : Texts.isWhitespace c = false) : isAsciiWhitespace c = false := by
    by_contra hspace
    rw [isWhitespace_of_ascii (by simpa using hspace)] at hc
    cases hc
  cases hreverse : text.reverse with
  | nil =>
    rw [List.reverse_eq_nil_iff.1 hreverse, normalizeLoop]
    rfl
  | cons last others =>
    have htext : text = others.reverse ++ [last] := by
      rw [← List.reverse_reverse text, hreverse, List.reverse_cons]
    have hend : Texts.isWhitespace last = false := hlast last (by simp [htext])
    apply Texts.trimList_eq_self
    · intro a ha
      obtain ⟨first, rest, hfirst⟩ := List.exists_cons_of_ne_nil
        (by simp [htext] : text ≠ [])
      have hstart : Texts.isWhitespace first = false := hhead first (by simp [hfirst])
      obtain ⟨tail, htail⟩ := prefix_normalizeLoop [first] rest
      have hsame : normalizeLoop [] text = first :: tail := by
        rw [hfirst, ← List.singleton_append,
          normalizeLoop_word (List.forall_mem_singleton.2 (hplain first hstart))]
        exact htail.symm
      rw [hsame, List.head?_cons, Option.mem_some_iff] at ha
      exact ha ▸ hstart
    · intro a ha
      rw [htext, getLast_normalizeLoop (hplain last hend), Option.mem_some_iff] at ha
      exact ha ▸ hend

theorem bytesAsChars_of_ascii {text : String} (h : ∀ c ∈ text.toList, c.toNat < 128) :
    bytesAsChars text = text.toList := by
  have hbyte : ∀ c ∈ text.toList,
      (String.utf8EncodeChar c).map (fun byte => Char.ofNat byte.toNat) = [c] := by
    intro c hc
    have hsize : c.toNat < UInt8.size := Nat.lt_trans (h c hc) (by decide)
    rw [Texts.utf8EncodeChar_of_lt (h c hc), List.map_singleton,
      UInt8.toNat_ofNat_of_lt' hsize, Char.ofNat_toNat]
  unfold bytesAsChars
  rw [List.map_flatMap, List.flatMap_congr hbyte, List.flatMap_singleton']

/-- A range in ASCII is normalized once and for all. -/
theorem normalizeSemverRange_again {expr : String}
    (h : ∀ c ∈ (Texts.trim expr).toList, c.toNat < 128) :
    normalizeSemverRange (normalizeSemverRange expr) = normalizeSemverRange expr := by
  have htrim : Texts.trimList Texts.isWhitespace (Texts.trim expr).toList =
      (Texts.trim expr).toList := by
    rw [Texts.trim, String.toList_ofList, Texts.trimList_trimList]
  have hkept := trim_normalizeLoop htrim
  unfold normalizeSemverRange
  rw [bytesAsChars_of_ascii h]
  generalize (Texts.trim expr).toList = text at h hkept
  have hout : Texts.trim (.ofList (normalizeLoop [] text)) = .ofList (normalizeLoop [] text) := by
    rw [Texts.trim, String.toList_ofList, hkept]
  rw [hout, bytesAsChars_of_ascii, String.toList_ofList, normalizeLoop_again]
  · exact fun rest => rfl
  · intro c hc
    rw [String.toList_ofList] at hc
    rcases mem_normalizeLoop hc with hc | hc | rfl | rfl
    · cases hc
    · exact h c hc
    · decide
    · decide

/-! ### Clauses -/

inductive ClauseOp where
  | bare
  | exact
  | greater
  | greaterEq
  | less
  | lessEq
  | tilde
  | caret
  deriving DecidableEq, Repr

def ClauseOp.text : ClauseOp → List Char
  | bare => []
  | exact => ['=']
  | greater => ['>']
  | greaterEq => ['>', '=']
  | less => ['<']
  | lessEq => ['<', '=']
  | tilde => ['~']
  | caret => ['^']

/-- A version of which the last numbers may be missing. -/
inductive PartialVersion where
  | major (i : ℕ)
  | minor (i j : ℕ)
  | full (i j k : ℕ)
  deriving DecidableEq, Repr

namespace PartialVersion

def numbers : PartialVersion → List ℕ
  | major i => [i]
  | minor i j => [i, j]
  | full i j k => [i, j, k]

def digits (n : ℕ) : List Char := Nat.toDigits 10 n

def text (version : PartialVersion) : List Char := ['.'].intercalate (version.numbers.map digits)

/-- The first version that is meant. -/
def floor : PartialVersion → VersionParts
  | major i => ⟨i, 0, 0⟩
  | minor i j => ⟨i, j, 0⟩
  | full i j k => ⟨i, j, k⟩

/-- The first version behind those that are meant. -/
def ceiling : PartialVersion → VersionParts
  | major i => ⟨i + 1, 0, 0⟩
  | minor i j => ⟨i, j + 1, 0⟩
  | full i j k => ⟨i, j, k + 1⟩

/-- The first version that a tilde leaves out: the minor version is kept. -/
def tildeCeiling : PartialVersion → VersionParts
  | full i j _ => ⟨i, j + 1, 0⟩
  | version => version.ceiling

/-- The first version that a caret leaves out: the first number but zero is kept. -/
def caretCeiling : PartialVersion → VersionParts
  | major i => ⟨i + 1, 0, 0⟩
  | minor i j => if 0 < i then ⟨i + 1, 0, 0⟩ else ⟨0, j + 1, 0⟩
  | full i j k =>
    if 0 < i then ⟨i + 1, 0, 0⟩ else if 0 < j then ⟨0, j + 1, 0⟩ else ⟨0, 0, k + 1⟩

end PartialVersion

structure Clause where
  op : ClauseOp
  version : PartialVersion
  deriving DecidableEq, Repr

/-- The versions of a clause: releases only, in the interval of its operator. -/
def Clause.holds (clause : Clause) (version : Version) : Bool :=
  let bound := clause.version
  let v := version.parts
  version.pre == "" &&
    match clause.op with
    | .exact => bound.floor.le v && v.lt bound.ceiling
    | .greater => bound.ceiling.le v
    | .greaterEq => bound.floor.le v
    | .less => v.lt bound.floor
    | .lessEq => v.lt bound.ceiling
    | .tilde => bound.floor.le v && v.lt bound.tildeCeiling
    | .caret | .bare => bound.floor.le v && v.lt bound.caretCeiling

/-! ### Requirements -/

/-- A comparator as the requirement parser reads it, with its spaces. -/
structure Comparator where
  before : ℕ
  clause : Clause
  between : ℕ
  after : ℕ

def spaces (n : ℕ) : List Char := List.replicate n ' '

def Comparator.text (comparator : Comparator) : List Char :=
  spaces comparator.before ++ comparator.clause.op.text ++ spaces comparator.between ++
    comparator.clause.version.text ++ spaces comparator.after

def requirementText (comparators : List Comparator) : List Char :=
  [','].intercalate (comparators.map Comparator.text)

/-- What the library documents of requirements in numbers: up to 32 comparators with commas
between them are accepted, and a version matches if every one of them holds. -/
def AcceptsComparators (lib : SemverLibrary) : Prop :=
  ∀ comparators : List Comparator, comparators ≠ [] → comparators.length ≤ 32 →
    (∀ comparator ∈ comparators, ∀ n ∈ comparator.clause.version.numbers, n < 2 ^ 64) →
    ∃ req, lib.parse (.ofList (requirementText comparators)) = .ok req ∧
      ∀ version, lib.isMatch req version =
        comparators.all fun comparator => comparator.clause.holds version

/-! ### Upstream ranges -/

/-- A clause as it is written, with white space behind its operator. -/
structure WrittenClause where
  clause : Clause
  gap : List Char

def WrittenClause.text (written : WrittenClause) : List Char :=
  written.clause.op.text ++ written.gap ++ written.clause.version.text

/-- What separates two clauses. -/
inductive Separator where
  | whitespace (run : List Char)
  | comma (before after : List Char)

def Separator.text : Separator → List Char
  | whitespace run => run
  | comma before after => before ++ ',' :: after

structure Range where
  lead : List Char
  first : WrittenClause
  rest : List (Separator × WrittenClause)
  trail : List Char

def restText (rest : List (Separator × WrittenClause)) : List Char :=
  rest.flatMap fun (separator, written) => separator.text ++ written.text

def Range.text (range : Range) : List Char :=
  range.lead ++ (range.first.text ++ restText range.rest) ++ range.trail

def Range.clauses (range : Range) : List Clause :=
  range.first.clause :: range.rest.map fun (_, written) => written.clause

def IsSpaces (text : List Char) : Prop := ∀ c ∈ text, c = ' '

/-- The white space inside a clause is spaces, and there is none without an operator. -/
structure WrittenClause.Plain (written : WrittenClause) : Prop where
  gap : IsSpaces written.gap
  bare : written.clause.op = .bare → written.gap = []
  numbers : ∀ n ∈ written.clause.version.numbers, n < 2 ^ 64

/-- White space alone stands before an operator, beside a comma there are spaces. -/
def Separator.Plain (next : WrittenClause) : Separator → Prop
  | whitespace run =>
    run ≠ [] ∧ (∀ c ∈ run, isAsciiWhitespace c = true) ∧ next.clause.op ≠ .bare
  | comma before after => IsSpaces before ∧ IsSpaces after

/-- What the normalization can bring into the form of a requirement. -/
structure Range.Plain (range : Range) : Prop where
  lead : ∀ c ∈ range.lead, Texts.isWhitespace c = true
  trail : ∀ c ∈ range.trail, Texts.isWhitespace c = true
  first : range.first.Plain
  rest : ∀ part ∈ range.rest, part.1.Plain part.2 ∧ part.2.Plain
  few : range.rest.length < 32

/-! ### The text of a clause -/

def EndsInDigit (text : List Char) : Prop := text.getLast?.any Char.isDigit = true

theorem EndsInDigit.append {right : List Char} (left : List Char) (h : EndsInDigit right) :
    EndsInDigit (left ++ right) := by
  unfold EndsInDigit at h ⊢
  cases hright : right.getLast? with
  | none => simp [hright] at h
  | some d => rwa [List.getLast?_append, hright, Option.some_or, ← hright]

theorem isWhitespace_of_isDigit {c : Char} (h : c.isDigit = true) :
    Texts.isWhitespace c = false := by
  have hrange : 48 ≤ c.toNat ∧ c.toNat ≤ 57 := by
    simpa [Char.isDigit, UInt32.le_iff_toNat_le] using h
  exact Texts.isWhitespace_of_printable (by omega) (by omega)

theorem toNat_lt_of_isDigit {c : Char} (h : c.isDigit = true) : c.toNat < 128 := by
  have hrange : 48 ≤ c.toNat ∧ c.toNat ≤ 57 := by
    simpa [Char.isDigit, UInt32.le_iff_toNat_le] using h
  omega

theorem not_isAsciiWhitespace {c : Char} (h : Texts.isWhitespace c = false) :
    isAsciiWhitespace c = false := by
  by_contra hspace
  rw [isWhitespace_of_ascii (by simpa using hspace)] at h
  cases h

theorem isDigit_of_mem_digits {n : ℕ} {c : Char} (h : c ∈ PartialVersion.digits n) :
    c.isDigit = true :=
  Nat.isDigit_of_mem_toDigits (by decide) (by decide) h

theorem digits_ne_nil (n : ℕ) : PartialVersion.digits n ≠ [] := Nat.toDigits_ne_nil

theorem endsInDigit_digits (n : ℕ) : EndsInDigit (PartialVersion.digits n) := by
  unfold EndsInDigit
  rw [List.getLast?_eq_some_getLast (digits_ne_nil n)]
  exact isDigit_of_mem_digits (List.getLast_mem _)

theorem endsInDigit_version (version : PartialVersion) : EndsInDigit version.text := by
  unfold PartialVersion.text
  cases version with
  | major i =>
    simpa [PartialVersion.numbers] using endsInDigit_digits i
  | minor i j =>
    simp only [PartialVersion.numbers, List.map_cons, List.map_nil]
    rw [Texts.intercalate_cons_cons, List.append_cons]
    exact EndsInDigit.append _ (by simpa using endsInDigit_digits j)
  | full i j k =>
    simp only [PartialVersion.numbers, List.map_cons, List.map_nil]
    rw [Texts.intercalate_cons_cons, Texts.intercalate_cons_cons, List.append_cons,
      List.append_cons (PartialVersion.digits j), ← List.append_assoc]
    exact EndsInDigit.append _ (by simpa using endsInDigit_digits k)

theorem mem_versionText {version : PartialVersion} {c : Char} (h : c ∈ version.text) :
    c.isDigit = true ∨ c = '.' := by
  rcases Texts.mem_intercalate h with heq | ⟨part, hpart, hc⟩
  · exact Or.inr heq
  · obtain ⟨n, -, rfl⟩ := List.mem_map.1 hpart
    exact Or.inl (isDigit_of_mem_digits hc)

/-- A version begins with a digit. -/
theorem exists_digit_cons (version : PartialVersion) :
    ∃ c tail, version.text = c :: tail ∧ c.isDigit = true := by
  obtain ⟨i, more, hnumbers⟩ : ∃ i more, version.numbers = i :: more := by
    cases version <;> exact ⟨_, _, rfl⟩
  obtain ⟨c, tail, hdigits⟩ := List.exists_cons_of_ne_nil (digits_ne_nil i)
  obtain ⟨rest, hrest, -⟩ :=
    Texts.exists_intercalate_eq '.' (PartialVersion.digits i) (more.map PartialVersion.digits)
  refine ⟨c, tail ++ rest, ?_, isDigit_of_mem_digits (hdigits ▸ List.mem_cons_self)⟩
  rw [PartialVersion.text, hnumbers, List.map_cons, hrest, hdigits, List.cons_append]

theorem plain_version {version : PartialVersion} :
    ∀ c ∈ version.text, isAsciiWhitespace c = false := by
  intro c hc
  rcases mem_versionText hc with hdigit | rfl
  · exact not_isAsciiWhitespace (isWhitespace_of_isDigit hdigit)
  · rfl

theorem mem_opText {op : ClauseOp} {c : Char} (h : c ∈ op.text) :
    c = '=' ∨ c = '>' ∨ c = '<' ∨ c = '~' ∨ c = '^' := by
  cases op <;> simp [ClauseOp.text] at h <;> tauto

theorem plain_op {op : ClauseOp} : ∀ c ∈ op.text, isAsciiWhitespace c = false := by
  intro c hc
  rcases mem_opText hc with rfl | rfl | rfl | rfl | rfl <;> rfl

/-- A clause begins with its operator, or without one with a digit. -/
theorem exists_clause_cons (written : WrittenClause) (hbare : written.clause.op = .bare →
    written.gap = []) :
    ∃ c tail, written.text = c :: tail ∧ Texts.isWhitespace c = false ∧
      startsClause c = decide (written.clause.op ≠ .bare) := by
  obtain ⟨c, tail, htext, hc⟩ := exists_digit_cons written.clause.version
  unfold WrittenClause.text
  cases hop : written.clause.op with
  | bare =>
    refine ⟨c, tail, ?_, isWhitespace_of_isDigit hc, ?_⟩
    · rw [hbare hop, htext]
      rfl
    · have hstart : startsClause c = false := by
        by_contra hstart
        simp only [startsClause, Bool.not_eq_false, Bool.or_eq_true, beq_iff_eq] at hstart
        rcases hstart with (((rfl | rfl) | rfl) | rfl) | rfl <;> exact absurd hc (by decide)
      rw [hstart]
      rfl
  | exact | greater | greaterEq | less | lessEq | tilde | caret =>
    exact ⟨_, _, rfl, by decide, by decide⟩

theorem endsInDigit_clause (written : WrittenClause) : EndsInDigit written.text :=
  (endsInDigit_version _).append _

/-! ### The normalized range -/

def Separator.normal : Separator → List Char
  | whitespace _ => [',', ' ']
  | comma before after => before ++ ',' :: after

def normalRest (rest : List (Separator × WrittenClause)) : List Char :=
  rest.flatMap fun (separator, written) => separator.normal ++ written.text

def Range.normal (range : Range) : List Char := range.first.text ++ normalRest range.rest

theorem normalizeLoop_kept {run after normalized : List Char} (hrun : IsSpaces run)
    (hafter : after.head?.any isAsciiWhitespace = false)
    (hkept : takesComma normalized after = false) :
    normalizeLoop normalized (run ++ after) = normalizeLoop (normalized ++ run) after := by
  by_cases hne : run = []
  · rw [hne, List.nil_append, List.append_nil]
  · rw [normalizeLoop_run hne (fun c hc => by rw [hrun c hc]; rfl) hafter, hkept]
    rfl

theorem normalizeLoop_clause {written : WrittenClause} (h : written.Plain)
    (normalized rest : List Char) :
    normalizeLoop normalized (written.text ++ rest) =
      normalizeLoop (normalized ++ written.text) rest := by
  obtain ⟨d, tail, hversion, hd⟩ := exists_digit_cons written.clause.version
  have hhead : (written.clause.version.text ++ rest).head?.any isAsciiWhitespace = false := by
    rw [hversion]
    exact not_isAsciiWhitespace (isWhitespace_of_isDigit hd)
  have hgap : normalizeLoop (normalized ++ written.clause.op.text)
      (written.gap ++ (written.clause.version.text ++ rest)) =
      normalizeLoop (normalized ++ written.clause.op.text ++ written.gap)
        (written.clause.version.text ++ rest) := by
    by_cases hbare : written.clause.op = .bare
    · rw [h.bare hbare, List.nil_append, List.append_nil]
    · -- An operator is no digit.
      refine normalizeLoop_kept h.gap hhead (Bool.and_eq_false_iff.2 (Or.inl ?_))
      rw [List.getLast?_append]
      cases hop : written.clause.op <;> first | rfl | exact absurd hop hbare
  unfold WrittenClause.text
  rw [List.append_assoc, List.append_assoc, normalizeLoop_word plain_op, hgap,
    normalizeLoop_word plain_version]
  simp only [List.append_assoc]

theorem normalizeLoop_separator {separator : Separator} {next : WrittenClause}
    (h : separator.Plain next) (hnext : next.Plain) {normalized : List Char}
    (hdigit : EndsInDigit normalized) (rest : List Char) :
    normalizeLoop normalized (separator.text ++ (next.text ++ rest)) =
      normalizeLoop (normalized ++ separator.normal) (next.text ++ rest) := by
  obtain ⟨c, tail, htext, hc, hstart⟩ := exists_clause_cons next hnext.bare
  have hplain := not_isAsciiWhitespace hc
  have hhead : (next.text ++ rest).head?.any isAsciiWhitespace = false := by
    rw [htext]
    exact hplain
  cases separator with
  | whitespace run =>
    obtain ⟨hne, hrun, hop⟩ := h
    have htakes : takesComma normalized (next.text ++ rest) = true := by
      rw [takesComma, hdigit, htext]
      simpa [hop] using hstart
    rw [Separator.text, normalizeLoop_run hne hrun hhead, htakes]
    rfl
  | comma before after =>
    have hbefore : takesComma normalized (',' :: (after ++ (next.text ++ rest))) = false :=
      Bool.and_false _
    have hafter : takesComma (normalized ++ before ++ [',']) (next.text ++ rest) = false := by
      rw [takesComma, List.getLast?_concat]
      rfl
    rw [Separator.text, List.append_assoc, List.cons_append,
      normalizeLoop_kept h.1 rfl hbefore, ← List.singleton_append,
      normalizeLoop_word (List.forall_mem_singleton.2 rfl),
      normalizeLoop_kept h.2 hhead hafter]
    simp only [Separator.normal, List.append_assoc, List.singleton_append]

theorem normalizeLoop_rest {rest : List (Separator × WrittenClause)}
    (h : ∀ part ∈ rest, part.1.Plain part.2 ∧ part.2.Plain) {normalized : List Char}
    (hdigit : EndsInDigit normalized) :
    normalizeLoop normalized (restText rest) = normalized ++ normalRest rest := by
  induction rest generalizing normalized with
  | nil =>
    rw [restText, normalRest, List.flatMap_nil, List.flatMap_nil, normalizeLoop, List.append_nil]
  | cons part rest ih =>
    obtain ⟨separator, next⟩ := part
    rw [List.forall_mem_cons] at h
    obtain ⟨⟨hseparator, hnext⟩, hrest⟩ := h
    have hstep : restText ((separator, next) :: rest) =
        separator.text ++ (next.text ++ restText rest) := by
      simp only [restText, List.flatMap_cons, List.append_assoc]
    rw [hstep, normalizeLoop_separator hseparator hnext hdigit, normalizeLoop_clause hnext,
      ih hrest ((endsInDigit_clause next).append _)]
    simp only [normalRest, List.flatMap_cons, List.append_assoc]

theorem normalizeLoop_range {range : Range} (h : range.Plain) :
    normalizeLoop [] (range.first.text ++ restText range.rest) = range.normal := by
  rw [normalizeLoop_clause h.first, List.nil_append,
    normalizeLoop_rest h.rest (endsInDigit_clause _)]
  rfl

theorem endsInDigit_restText (rest : List (Separator × WrittenClause)) {text : List Char}
    (h : EndsInDigit text) : EndsInDigit (text ++ restText rest) := by
  induction rest generalizing text with
  | nil => simpa [restText] using h
  | cons part rest ih =>
    have hpart : EndsInDigit (text ++ (part.1.text ++ part.2.text)) :=
      ((endsInDigit_clause part.2).append _).append _
    have hall := ih hpart
    simpa only [restText, List.flatMap_cons, List.append_assoc] using hall

/-- White space around a range is trimmed. -/
theorem trim_range {range : Range} (h : range.Plain) :
    Texts.trim (.ofList range.text) = .ofList (range.first.text ++ restText range.rest) := by
  obtain ⟨c, tail, htext, hc, -⟩ := exists_clause_cons range.first h.first.bare
  rw [Texts.trim, String.toList_ofList, Range.text,
    Texts.trimList_padded h.lead h.trail]
  · intro a ha
    rw [htext, List.cons_append, List.head?_cons, Option.mem_some_iff] at ha
    exact ha ▸ hc
  · intro a ha
    have hdigit := endsInDigit_restText range.rest (endsInDigit_clause range.first)
    unfold EndsInDigit at hdigit
    rw [Option.mem_def.1 ha] at hdigit
    exact isWhitespace_of_isDigit hdigit

theorem ascii_clause {written : WrittenClause} (h : written.Plain) :
    ∀ c ∈ written.text, c.toNat < 128 := by
  intro c hc
  simp only [WrittenClause.text, List.mem_append] at hc
  rcases hc with (hop | hgap) | hversion
  · rcases mem_opText hop with rfl | rfl | rfl | rfl | rfl <;> decide
  · rw [h.gap c hgap]
    decide
  · rcases mem_versionText hversion with hdigit | rfl
    · exact toNat_lt_of_isDigit hdigit
    · decide

theorem ascii_separator {separator : Separator} {next : WrittenClause}
    (h : separator.Plain next) : ∀ c ∈ separator.text, c.toNat < 128 := by
  intro c hc
  cases separator with
  | whitespace run =>
    have hspace := h.2.1 c hc
    simp only [isAsciiWhitespace, Bool.or_eq_true, beq_iff_eq] at hspace
    rcases hspace with (((rfl | rfl) | rfl) | rfl) | rfl <;> decide
  | comma before after =>
    simp only [Separator.text, List.mem_append, List.mem_cons] at hc
    rcases hc with hbefore | rfl | hafter
    · rw [h.1 c hbefore]
      decide
    · decide
    · rw [h.2 c hafter]
      decide

theorem ascii_range {range : Range} (h : range.Plain) :
    ∀ c ∈ range.first.text ++ restText range.rest, c.toNat < 128 := by
  intro c hc
  rcases List.mem_append.1 hc with hfirst | hrest
  · exact ascii_clause h.first c hfirst
  · obtain ⟨part, hpart, hc⟩ := List.mem_flatMap.1 hrest
    obtain ⟨hseparator, hnext⟩ := h.rest part hpart
    rcases List.mem_append.1 hc with hc | hc
    · exact ascii_separator hseparator c hc
    · exact ascii_clause hnext c hc

theorem normalizeSemverRange_eq {range : Range} (h : range.Plain) :
    normalizeSemverRange (.ofList range.text) = .ofList range.normal := by
  rw [normalizeSemverRange, trim_range h, bytesAsChars_of_ascii, String.toList_ofList,
    normalizeLoop_range h]
  intro c hc
  rw [String.toList_ofList] at hc
  exact ascii_range h c hc

/-! ### The comparators of a range -/

def Separator.spacesBefore : Separator → ℕ
  | whitespace _ => 0
  | comma before _ => before.length

def Separator.spacesAfter : Separator → ℕ
  | whitespace _ => 1
  | comma _ after => after.length

/-- The comparators of a range, a comma's spaces counted to the clauses beside it. -/
def comparatorsFrom (before : ℕ) (written : WrittenClause) :
    List (Separator × WrittenClause) → List Comparator
  | [] => [⟨before, written.clause, written.gap.length, 0⟩]
  | (separator, next) :: rest =>
    ⟨before, written.clause, written.gap.length, separator.spacesBefore⟩ ::
      comparatorsFrom separator.spacesAfter next rest

theorem eq_spaces {text : List Char} (h : IsSpaces text) : text = spaces text.length :=
  List.eq_replicate_iff.2 ⟨rfl, h⟩

theorem normal_separator {separator : Separator} {next : WrittenClause}
    (h : separator.Plain next) :
    separator.normal = spaces separator.spacesBefore ++ ',' :: spaces separator.spacesAfter := by
  cases separator with
  | whitespace run => rfl
  | comma before after =>
    change before ++ ',' :: after = spaces before.length ++ ',' :: spaces after.length
    rw [← eq_spaces h.1, ← eq_spaces h.2]

theorem text_comparator {written : WrittenClause} (h : written.Plain) (before after : ℕ) :
    Comparator.text ⟨before, written.clause, written.gap.length, after⟩ =
      spaces before ++ written.text ++ spaces after := by
  simp only [Comparator.text, WrittenClause.text, List.append_assoc, ← eq_spaces h.gap]

theorem requirementText_comparatorsFrom {rest : List (Separator × WrittenClause)}
    (h : ∀ part ∈ rest, part.1.Plain part.2 ∧ part.2.Plain) (before : ℕ)
    {written : WrittenClause} (hwritten : written.Plain) :
    requirementText (comparatorsFrom before written rest) =
      spaces before ++ written.text ++ normalRest rest := by
  induction rest generalizing before written with
  | nil => simp [requirementText, comparatorsFrom, text_comparator hwritten, normalRest, spaces]
  | cons part rest ih =>
    obtain ⟨separator, next⟩ := part
    rw [List.forall_mem_cons] at h
    obtain ⟨⟨hseparator, hnext⟩, hrest⟩ := h
    obtain ⟨comparator, others, hothers⟩ : ∃ comparator others,
        comparatorsFrom separator.spacesAfter next rest = comparator :: others := by
      cases rest <;> exact ⟨_, _, rfl⟩
    have htail := ih hrest separator.spacesAfter hnext
    unfold requirementText at htail ⊢
    rw [hothers, List.map_cons] at htail
    rw [comparatorsFrom, hothers, List.map_cons, List.map_cons, Texts.intercalate_cons_cons, htail,
      text_comparator hwritten]
    simp only [normalRest, List.flatMap_cons, normal_separator hseparator, List.append_assoc,
      List.cons_append]

theorem clauses_comparatorsFrom (before : ℕ) (written : WrittenClause)
    (rest : List (Separator × WrittenClause)) :
    (comparatorsFrom before written rest).map Comparator.clause =
      written.clause :: rest.map fun (_, written) => written.clause := by
  induction rest generalizing before written with
  | nil => rfl
  | cons part rest ih => rw [comparatorsFrom, List.map_cons, ih, List.map_cons]

theorem numbers_comparatorsFrom {rest : List (Separator × WrittenClause)}
    (h : ∀ part ∈ rest, part.1.Plain part.2 ∧ part.2.Plain) (before : ℕ)
    {written : WrittenClause} (hwritten : written.Plain) :
    ∀ comparator ∈ comparatorsFrom before written rest,
      ∀ n ∈ comparator.clause.version.numbers, n < 2 ^ 64 := by
  intro comparator hcomparator
  have hmem : comparator.clause ∈ (comparatorsFrom before written rest).map Comparator.clause :=
    List.mem_map.2 ⟨comparator, hcomparator, rfl⟩
  rw [clauses_comparatorsFrom, List.mem_cons, List.mem_map] at hmem
  rcases hmem with heq | ⟨part, hpart, heq⟩
  · rw [heq]
    exact hwritten.numbers
  · rw [← heq]
    exact (h part hpart).2.numbers

/-- A range in plain form is accepted once it is normalized, and matches the versions for
which all of its clauses hold; a range in ASCII is normalized once and for all. -/
theorem normalized_range_accepted {lib : SemverLibrary} (hlib : AcceptsComparators lib)
    {range : Range} (h : range.Plain) :
    (∃ req, lib.parse (normalizeSemverRange (.ofList range.text)) = .ok req ∧
      ∀ version, lib.isMatch req version =
        range.clauses.all fun clause => clause.holds version) ∧
    normalizeSemverRange (normalizeSemverRange (.ofList range.text)) =
      normalizeSemverRange (.ofList range.text) ∧
    ∀ expr : String, (∀ c ∈ (Texts.trim expr).toList, c.toNat < 128) →
      normalizeSemverRange (normalizeSemverRange expr) = normalizeSemverRange expr := by
  refine ⟨?_, ?_, fun expr => normalizeSemverRange_again⟩
  · have hclauses := clauses_comparatorsFrom 0 range.first range.rest
    have hlength : (comparatorsFrom 0 range.first range.rest).length = range.rest.length + 1 := by
      simpa using congrArg List.length hclauses
    have hne : comparatorsFrom 0 range.first range.rest ≠ [] := by
      rw [← List.length_pos_iff, hlength]
      exact Nat.succ_pos _
    have hfew : (comparatorsFrom 0 range.first range.rest).length ≤ 32 := by
      rw [hlength]
      exact h.few
    obtain ⟨req, hparse, hmatch⟩ := hlib _ hne hfew (numbers_comparatorsFrom h.rest 0 h.first)
    refine ⟨req, ?_, fun version => ?_⟩
    · rw [normalizeSemverRange_eq h, ← hparse, requirementText_comparatorsFrom h.rest 0 h.first]
      rfl
    · have hall := congrArg (fun clauses => clauses.all fun clause => clause.holds version)
        hclauses
      rw [List.all_map] at hall
      rw [hmatch]
      exact hall
  · apply normalizeSemverRange_again
    intro c hc
    rw [trim_range h, String.toList_ofList] at hc
    exact ascii_range h c hc

/-! ### A reader of requirements -/

def isSpace (c : Char) : Bool := c == ' '

/-- A number without a leading zero, of 64 bits. -/
def readNumber (digits : List Char) : Option ℕ :=
  let n := Nat.ofDigitChars 10 digits 0
  if Nat.toDigits 10 n = digits ∧ n < 2 ^ 64 then some n else none

def readPartial (text : List Char) : Option PartialVersion :=
  match (text.splitOnP (· == '.')).mapM readNumber with
  | some [i] => some (.major i)
  | some [i, j] => some (.minor i j)
  | some [i, j, k] => some (.full i j k)
  | _ => none

def readOp : List Char → ClauseOp × List Char
  | '>' :: '=' :: rest => (.greaterEq, rest)
  | '>' :: rest => (.greater, rest)
  | '<' :: '=' :: rest => (.lessEq, rest)
  | '<' :: rest => (.less, rest)
  | '=' :: rest => (.exact, rest)
  | '~' :: rest => (.tilde, rest)
  | '^' :: rest => (.caret, rest)
  | rest => (.bare, rest)

def readComparator (text : List Char) : Option Clause :=
  let (op, rest) := readOp (text.dropWhile isSpace)
  (readPartial (Texts.trimList isSpace rest)).map fun version => ⟨op, version⟩

def readRequirement (text : String) : Except String (List Clause) :=
  let parts := text.toList.splitOnP (· == ',')
  if 32 < parts.length then .error "excessive number of version comparators"
  else match parts.mapM readComparator with
    | some clauses => .ok clauses
    | none => .error "unexpected character while parsing a version requirement"

/-- The library for requirements in numbers. -/
def semverReader : SemverLibrary where
  Req := List Clause
  parse := readRequirement
  isMatch clauses version := clauses.all fun clause => clause.holds version

theorem readNumber_digits {n : ℕ} (h : n < 2 ^ 64) :
    readNumber (PartialVersion.digits n) = some n := by
  unfold readNumber PartialVersion.digits
  rw [Nat.ofDigitChars_ten_toDigits]
  exact if_pos ⟨rfl, h⟩

theorem readPartial_text {version : PartialVersion} (h : ∀ n ∈ version.numbers, n < 2 ^ 64) :
    readPartial version.text = some version := by
  have hsplit : version.text.splitOnP (· == '.') = version.numbers.map PartialVersion.digits := by
    refine Texts.splitOnP_intercalate rfl ?_ fun part hpart c hc => ?_
    · cases version <;> exact List.cons_ne_nil _ _
    · obtain ⟨n, -, rfl⟩ := List.mem_map.1 hpart
      have hdigit := isDigit_of_mem_digits hc
      by_contra hdot
      simp only [Bool.not_eq_false, beq_iff_eq] at hdot
      rw [hdot] at hdigit
      cases hdigit
  unfold readPartial
  rw [hsplit]
  cases version with
  | major i =>
    have hi := readNumber_digits (h i (by simp [PartialVersion.numbers]))
    simp [PartialVersion.numbers, hi]
  | minor i j =>
    have hi := readNumber_digits (h i (by simp [PartialVersion.numbers]))
    have hj := readNumber_digits (h j (by simp [PartialVersion.numbers]))
    simp [PartialVersion.numbers, hi, hj]
  | full i j k =>
    have hi := readNumber_digits (h i (by simp [PartialVersion.numbers]))
    have hj := readNumber_digits (h j (by simp [PartialVersion.numbers]))
    have hk := readNumber_digits (h k (by simp [PartialVersion.numbers]))
    simp [PartialVersion.numbers, hi, hj, hk]

theorem readOp_bare {c : Char} {tail : List Char} (h : startsClause c = false) :
    readOp (c :: tail) = (.bare, c :: tail) := by
  unfold readOp
  split <;> simp_all [startsClause]

theorem readOp_text {op : ClauseOp} (hop : op ≠ .bare) {rest : List Char}
    (h : rest.head? ≠ some '=') : readOp (op.text ++ rest) = (op, rest) := by
  cases rest with
  | nil => cases op <;> rfl
  | cons c rest =>
    have hc : c ≠ '=' := fun heq => h (congrArg some heq)
    cases op <;> first | rfl | exact absurd rfl hop | (unfold readOp ClauseOp.text; grind)

theorem dropWhile_spaces (n : ℕ) (rest : List Char) :
    (spaces n ++ rest).dropWhile isSpace = rest.dropWhile isSpace :=
  List.dropWhile_append_of_pos fun c hc => by
    rw [List.eq_of_mem_replicate hc]
    rfl

/-- The version with the spaces around it, as it stands behind an operator. -/
theorem trimList_version (before after : ℕ) (version : PartialVersion) :
    Texts.trimList isSpace (spaces before ++ version.text ++ spaces after) = version.text := by
  have hspaces (n : ℕ) : ∀ c ∈ spaces n, isSpace c = true := by
    intro c hc
    rw [List.eq_of_mem_replicate hc]
    rfl
  have hdigit (c : Char) (hc : c.isDigit = true) : isSpace c = false := by
    by_contra hspace
    simp only [isSpace, Bool.not_eq_false, beq_iff_eq] at hspace
    rw [hspace] at hc
    cases hc
  apply Texts.trimList_padded (hspaces before) (hspaces after)
  · intro c hc
    obtain ⟨d, tail, htext, hd⟩ := exists_digit_cons version
    rw [htext, List.head?_cons, Option.mem_some_iff] at hc
    exact hc ▸ hdigit d hd
  · intro c hc
    have h := endsInDigit_version version
    unfold EndsInDigit at h
    rw [Option.mem_def.1 hc] at h
    exact hdigit c h

theorem readComparator_text {comparator : Comparator}
    (h : ∀ n ∈ comparator.clause.version.numbers, n < 2 ^ 64) :
    readComparator comparator.text = some comparator.clause := by
  obtain ⟨before, ⟨op, version⟩, between, after⟩ := comparator
  obtain ⟨d, tail, hversion, hd⟩ := exists_digit_cons version
  have hstart : isSpace d = false ∧ startsClause d = false ∧ d ≠ '=' := by
    refine ⟨?_, ?_, ?_⟩
    · by_contra hspace
      simp only [isSpace, Bool.not_eq_false, beq_iff_eq] at hspace
      rw [hspace] at hd
      cases hd
    · by_contra hop
      simp only [startsClause, Bool.not_eq_false, Bool.or_eq_true, beq_iff_eq] at hop
      rcases hop with (((rfl | rfl) | rfl) | rfl) | rfl <;> cases hd
    · rintro rfl
      cases hd
  have hread := readPartial_text h
  simp only [Comparator.text, List.append_assoc]
  unfold readComparator
  rw [dropWhile_spaces]
  by_cases hop : op = .bare
  · subst hop
    have hdrop : (ClauseOp.text .bare ++
        (spaces between ++ (version.text ++ spaces after))).dropWhile isSpace =
        version.text ++ spaces after := by
      rw [ClauseOp.text, List.nil_append, dropWhile_spaces, hversion, List.cons_append,
        List.dropWhile_cons_of_neg (by simp [hstart.1])]
    have htrim := trimList_version 0 after version
    rw [hdrop, hversion, List.cons_append, readOp_bare hstart.2.1, ← List.cons_append, ← hversion]
    dsimp only
    rw [← List.nil_append (version.text ++ spaces after), ← List.append_assoc]
    rw [show ([] : List Char) = spaces 0 from rfl, htrim, hread]
    rfl
  · have hdrop : (op.text ++ (spaces between ++ (version.text ++ spaces after))).dropWhile isSpace =
        op.text ++ (spaces between ++ (version.text ++ spaces after)) := by
      cases op <;> first | rfl | exact absurd rfl hop
    have hrest : (spaces between ++ (version.text ++ spaces after)).head? ≠ some '=' := by
      cases between with
      | zero =>
        rw [hversion]
        exact fun heq => hstart.2.2 (Option.some.inj heq)
      | succ n => exact fun heq => absurd (Option.some.inj heq) (by decide)
    rw [hdrop, readOp_text hop hrest]
    dsimp only
    rw [← List.append_assoc, trimList_version, hread]
    rfl

theorem comma_notMem_comparator (comparator : Comparator) : ',' ∉ comparator.text := by
  intro hmem
  simp only [Comparator.text, List.mem_append] at hmem
  rcases hmem with (((h | h) | h) | h) | h
  · exact absurd (List.eq_of_mem_replicate h) (by decide)
  · exact absurd (mem_opText h) (by decide)
  · exact absurd (List.eq_of_mem_replicate h) (by decide)
  · exact absurd (mem_versionText h) (by decide)
  · exact absurd (List.eq_of_mem_replicate h) (by decide)

theorem readComparators_texts {comparators : List Comparator}
    (h : ∀ comparator ∈ comparators, ∀ n ∈ comparator.clause.version.numbers, n < 2 ^ 64) :
    (comparators.map Comparator.text).mapM readComparator =
      some (comparators.map Comparator.clause) := by
  induction comparators with
  | nil => rfl
  | cons comparator rest ih =>
    rw [List.forall_mem_cons] at h
    rw [List.map_cons, List.mapM_cons, readComparator_text h.1, ih h.2]
    rfl

theorem readRequirement_text {comparators : List Comparator} (hne : comparators ≠ [])
    (hfew : comparators.length ≤ 32)
    (h : ∀ comparator ∈ comparators, ∀ n ∈ comparator.clause.version.numbers, n < 2 ^ 64) :
    readRequirement (.ofList (requirementText comparators)) =
      .ok (comparators.map Comparator.clause) := by
  have hsplit : (requirementText comparators).splitOnP (· == ',') =
      comparators.map Comparator.text := by
    refine Texts.splitOnP_intercalate rfl (by simpa using hne) fun part hpart c hc => ?_
    obtain ⟨comparator, -, rfl⟩ := List.mem_map.1 hpart
    rw [beq_eq_false_iff_ne]
    rintro rfl
    exact comma_notMem_comparator comparator hc
  unfold readRequirement
  rw [String.toList_ofList, hsplit]
  dsimp only
  rw [List.length_map, if_neg (Nat.not_lt.2 hfew), readComparators_texts h]

theorem acceptsComparators_semverReader : AcceptsComparators semverReader := by
  intro comparators hne hfew hnumbers
  have hmatch : ∀ version, ((comparators.map Comparator.clause).all fun clause =>
      clause.holds version) = comparators.all fun comparator => comparator.clause.holds version :=
    fun version => List.all_map
  have hparse (text : String) : semverReader.parse text = readRequirement text := rfl
  exact ⟨comparators.map Comparator.clause,
    (hparse _).trans (readRequirement_text hne hfew hnumbers), hmatch⟩

/-- A range with a tab between the first two clauses and a comma before the third. -/
def upstreamRange : Range where
  lead := [' ']
  first := ⟨⟨.greaterEq, .full 5 0 0⟩, [' ']⟩
  rest := [(.whitespace ['\t'], ⟨⟨.less, .minor 8 1⟩, []⟩),
    (.comma [] [' '], ⟨⟨.caret, .major 6⟩, []⟩)]
  trail := []

theorem plain_upstreamRange : upstreamRange.Plain := by
  have hspace : IsSpaces [' '] := fun c hc => List.mem_singleton.1 hc
  have hnone : IsSpaces [] := fun c hc => absurd hc List.not_mem_nil
  have htab : ∀ c ∈ ['\t'], isAsciiWhitespace c = true := List.forall_mem_singleton.2 rfl
  constructor
  · exact List.forall_mem_singleton.2 rfl
  · exact fun c hc => absurd hc List.not_mem_nil
  · exact ⟨hspace, nofun, by simp [upstreamRange, PartialVersion.numbers]⟩
  · intro part hpart
    simp only [upstreamRange, List.mem_cons, List.not_mem_nil, or_false] at hpart
    rcases hpart with rfl | rfl
    · exact ⟨⟨List.cons_ne_nil _ _, htab, nofun⟩, hnone, nofun, by simp [PartialVersion.numbers]⟩
    · exact ⟨⟨hnone, hspace⟩, hnone, nofun, by simp [PartialVersion.numbers]⟩
  · simp [upstreamRange]

theorem normalized_range_accepted_upstream :
    (∃ req, semverReader.parse (normalizeSemverRange (.ofList upstreamRange.text)) = .ok req ∧
      ∀ version, semverReader.isMatch req version =
        upstreamRange.clauses.all fun clause => clause.holds version) ∧
    normalizeSemverRange (normalizeSemverRange (.ofList upstreamRange.text)) =
      normalizeSemverRange (.ofList upstreamRange.text) ∧
    ∀ expr : String, (∀ c ∈ (Texts.trim expr).toList, c.toNat < 128) →
      normalizeSemverRange (normalizeSemverRange expr) = normalizeSemverRange expr :=
  normalized_range_accepted acceptsComparators_semverReader plain_upstreamRange

/-- Clauses without operators stay unseparated, and a tab behind an operator stays a tab. -/
theorem bare_clauses_refused :
    readRequirement (normalizeSemverRange "5.0.0 7.0.0") =
      .error "unexpected character while parsing a version requirement" ∧
    readRequirement (normalizeSemverRange ">=\t5.0.0") =
      .error "unexpected character while parsing a version requirement" ∧
    readRequirement (normalizeSemverRange ">= 5.0.0\t< 7.0.0") =
      .ok [⟨.greaterEq, .full 5 0 0⟩, ⟨.less, .full 7 0 0⟩] := by
  decide +kernel

end Esdiag.NormalizedRanges
