import Esdiag.ElasticContexts
import Esdiag.HostRoundTrip
import Esdiag.TextParts

/-!
Expressions within a configured text. A text reads in one way as pieces of plain
text with an expression after each, and a rest that may open an expression without
closing it. Resolving goes through the pieces once, from the left: each expression
is replaced by its value, and what a value contains is not read again.
-/
namespace Esdiag.ResolverExpressions

open ElasticContexts

section Readings

def opening : List Char := ['$', '(']

/-- A text as it is read: a plain text before each expression, and what is left. -/
structure Reading where
  pieces : List (List Char × List Char)
  rest : List Char
  opened : Option (List Char)

namespace Reading

/-- A reading with one more expression at its start. -/
def cons (before expression : List Char) (reading : Reading) : Reading :=
  { reading with pieces := (before, expression) :: reading.pieces }

def text (reading : Reading) : List Char :=
  (reading.pieces.flatMap fun piece => piece.1 ++ (opening ++ (piece.2 ++ [')']))) ++
    (reading.rest ++ (reading.opened.elim [] fun expression => opening ++ expression))

/-- Plain text opens no expression, and an expression ends at its first closing bracket. -/
structure Canonical (reading : Reading) : Prop where
  plain : ∀ piece ∈ reading.pieces, ¬opening <:+: piece.1
  closed : ∀ piece ∈ reading.pieces, ')' ∉ piece.2
  rest : ¬opening <:+: reading.rest
  opened : ∀ expression ∈ reading.opened, ')' ∉ expression

theorem text_cons (before expression : List Char) (reading : Reading) :
    (reading.cons before expression).text =
      before ++ (opening ++ (expression ++ ')' :: reading.text)) := by
  simp [text, cons]

end Reading

theorem splitAtPart_opening {before : List Char} (after : List Char)
    (h : ¬opening <:+: before) :
    Texts.splitAtPart opening (before ++ (opening ++ after)) = some (before, after) := by
  apply Texts.splitAtPart_append
  rintro start rest rfl hrest ⟨tail, htail⟩
  -- An earlier opening would stand within the plain text, or end at the next dollar.
  cases rest with
  | nil => exact hrest rfl
  | cons c rest =>
    cases rest with
    | nil => simp [opening] at htail
    | cons d rest =>
      simp only [opening, List.cons_append, List.cons.injEq, List.nil_append] at htail
      obtain ⟨rfl, rfl, -⟩ := htail
      exact h ⟨start, rest, by simp [opening]⟩

theorem length_lt_of_split {remaining before afterStart expression rest : List Char}
    (h : Texts.splitAtPart opening remaining = some (before, afterStart))
    (hend : Texts.splitOnceList ')' afterStart = some (expression, rest)) :
    rest.length < remaining.length := by
  rw [Texts.splitAtPart_eq_some h, (Texts.splitOnceList_eq_some hend).1]
  simp only [List.length_append, List.length_cons]
  omega

def readingOf (text : List Char) : Reading :=
  match _h : Texts.splitAtPart opening text with
  | none => ⟨[], text, none⟩
  | some (before, afterStart) =>
    match _hend : Texts.splitOnceList ')' afterStart with
    | none => ⟨[], before, some afterStart⟩
    | some (expression, rest) => (readingOf rest).cons before expression
termination_by text.length
decreasing_by exact length_lt_of_split _h _hend

theorem readingOf_of_none {text : List Char} (h : Texts.splitAtPart opening text = none) :
    readingOf text = ⟨[], text, none⟩ := by
  rw [readingOf]
  split
  · rfl
  · rename_i hsome
    cases h.symm.trans hsome

theorem readingOf_of_unterminated {text before afterStart : List Char}
    (h : Texts.splitAtPart opening text = some (before, afterStart))
    (hend : Texts.splitOnceList ')' afterStart = none) :
    readingOf text = ⟨[], before, some afterStart⟩ := by
  rw [readingOf]
  split
  · rename_i hnone
    cases h.symm.trans hnone
  · rename_i hsome
    obtain ⟨rfl, rfl⟩ := Prod.mk.inj (Option.some.inj (h.symm.trans hsome))
    split
    · rfl
    · rename_i hsome
      cases hend.symm.trans hsome

theorem readingOf_of_expression {text before afterStart expression rest : List Char}
    (h : Texts.splitAtPart opening text = some (before, afterStart))
    (hend : Texts.splitOnceList ')' afterStart = some (expression, rest)) :
    readingOf text = (readingOf rest).cons before expression := by
  rw [readingOf]
  split
  · rename_i hnone
    cases h.symm.trans hnone
  · rename_i hsome
    obtain ⟨rfl, rfl⟩ := Prod.mk.inj (Option.some.inj (h.symm.trans hsome))
    split
    · rename_i hnone
      cases hend.symm.trans hnone
    · rename_i hsome
      obtain ⟨rfl, rfl⟩ := Prod.mk.inj (Option.some.inj (hend.symm.trans hsome))
      rfl

theorem plain_of_splitAtPart {text before after : List Char}
    (h : Texts.splitAtPart opening text = some (before, after)) : ¬opening <:+: before :=
  Texts.not_infix_of_splitAtPart (List.cons_ne_nil _ _) h

theorem text_readingOf (text : List Char) : (readingOf text).text = text := by
  fun_induction readingOf text with
  | case1 text hnone => simp [Reading.text]
  | case2 text before afterStart hsome hnone =>
    rw [Texts.splitAtPart_eq_some hsome]
    simp [Reading.text]
  | case3 text before afterStart hsome expression rest hend ih =>
    rw [Reading.text_cons, ih, ← (Texts.splitOnceList_eq_some hend).1,
      ← Texts.splitAtPart_eq_some hsome]

theorem canonical_readingOf (text : List Char) : (readingOf text).Canonical := by
  fun_induction readingOf text with
  | case1 text hnone =>
    exact ⟨by simp, by simp, Texts.splitAtPart_eq_none.mp hnone, by simp⟩
  | case2 text before afterStart hsome hnone =>
    exact ⟨by simp, by simp, plain_of_splitAtPart hsome,
      by simpa using Texts.splitOnceList_eq_none.mp hnone⟩
  | case3 text before afterStart hsome expression rest hend ih =>
    have hplain := plain_of_splitAtPart hsome
    have hclosed := (Texts.splitOnceList_eq_some hend).2
    exact ⟨List.forall_mem_cons.mpr ⟨hplain, ih.plain⟩,
      List.forall_mem_cons.mpr ⟨hclosed, ih.closed⟩, ih.rest, ih.opened⟩

/-- A text has no other canonical reading. -/
theorem readingOf_text {reading : Reading} (h : reading.Canonical) :
    readingOf reading.text = reading := by
  obtain ⟨pieces, rest, opened⟩ := reading
  induction pieces with
  | nil =>
    cases opened with
    | none =>
      have htext : Reading.text ⟨[], rest, none⟩ = rest := by simp [Reading.text]
      rw [htext, readingOf_of_none (Texts.splitAtPart_eq_none.mpr h.rest)]
    | some expression =>
      have htext : Reading.text ⟨[], rest, some expression⟩ = rest ++ (opening ++ expression) := by
        simp [Reading.text]
      rw [htext, readingOf_of_unterminated (splitAtPart_opening expression h.rest)
        (Texts.splitOnceList_of_notMem (h.opened expression rfl))]
  | cons piece pieces ih =>
    have htext : Reading.text ⟨piece :: pieces, rest, opened⟩ =
        piece.1 ++ (opening ++ (piece.2 ++ ')' :: Reading.text ⟨pieces, rest, opened⟩)) :=
      Reading.text_cons piece.1 piece.2 ⟨pieces, rest, opened⟩
    have hplain := List.forall_mem_cons.mp h.plain
    have hclosed := List.forall_mem_cons.mp h.closed
    rw [htext, readingOf_of_expression (splitAtPart_opening _ hplain.1)
      (Texts.splitOnceList_append _ hclosed.1), ih ⟨hplain.2, hclosed.2, h.rest, h.opened⟩]
    rfl

end Readings

section Loop

variable {m : Type → Type} [Monad m]

/-- The loop of `resolve_string_expressions`: what is put out so far, and what remains. It
ends because the text that remains gets shorter, whatever an expression resolves to. -/
def resolveLoop (resolve : List Char → m (List Char)) (unterminated : m (List Char))
    (output remaining : List Char) : m (List Char) :=
  match _h : Texts.splitAtPart opening remaining with
  | none => pure (output ++ remaining)
  | some (before, afterStart) =>
    match _hend : Texts.splitOnceList ')' afterStart with
    | none => unterminated
    | some (expression, rest) => do
      let value ← resolve expression
      resolveLoop resolve unterminated (output ++ before ++ value) rest
termination_by remaining.length
decreasing_by exact length_lt_of_split _h _hend

/-- The plain texts of a reading with a value after each. -/
def substituted (pieces : List (List Char × List Char)) (values : List (List Char)) : List Char :=
  (pieces.zipWith (fun piece value => piece.1 ++ value) values).flatten

/-- A reading with the values of its expressions, which are resolved once each, in order. -/
def Reading.substitute (reading : Reading) (resolve : List Char → m (List Char))
    (unterminated : m (List Char)) (output : List Char) : m (List Char) := do
  let values ← reading.pieces.mapM fun piece => resolve piece.2
  if reading.opened.isSome then unterminated
  else pure (output ++ (substituted reading.pieces values ++ reading.rest))

theorem resolveLoop_eq_substitute [LawfulMonad m] (resolve : List Char → m (List Char))
    (unterminated : m (List Char)) (output text : List Char) :
    resolveLoop resolve unterminated output text =
      (readingOf text).substitute resolve unterminated output := by
  fun_induction resolveLoop resolve unterminated output text with
  | case1 output text hnone =>
    simp [readingOf_of_none hnone, Reading.substitute, substituted]
  | case2 output text before afterStart hsome hnone =>
    simp [readingOf_of_unterminated hsome hnone, Reading.substitute]
  | case3 output text before afterStart hsome expression rest hend ih =>
    rw [readingOf_of_expression hsome hend]
    simp only [ih]
    simp [Reading.substitute, Reading.cons, substituted]

end Loop

section Model

variable {ε : Type} {resolve : List Char → Except ε (List Char)} {unterminated : ε}

theorem map_map (first second : List Char → List Char) (result : Except ε (List Char)) :
    (result.map first).map second = result.map (second ∘ first) := by
  cases result <;> rfl

theorem map_id (result : Except ε (List Char)) : result.map id = result := by
  cases result <;> rfl

/-- Plain text is read character by character up to the next opening. -/
theorem resolveChars_plain {before : List Char} (after : List Char)
    (h : ¬opening <:+: before) (hboundary : after = [] ∨ ∃ rest, after = opening ++ rest) :
    resolveChars resolve unterminated none (before ++ after) =
      (resolveChars resolve unterminated none after).map (before ++ ·) := by
  induction before with
  | nil => exact (map_id _).symm
  | cons c before ih =>
    rw [List.infix_cons_iff, not_or] at h
    have hstep : resolveChars resolve unterminated none (c :: (before ++ after)) =
        (resolveChars resolve unterminated none (before ++ after)).map (c :: ·) := by
      rw [resolveChars]
      rintro rest rfl heq
      cases before with
      | nil =>
        rcases hboundary with rfl | ⟨tail, rfl⟩
        · cases heq
        · simp [opening] at heq
      | cons d before =>
        obtain ⟨rfl, rfl⟩ := List.cons.inj heq
        exact h.1 ⟨before, rfl⟩
    rw [List.cons_append, hstep, ih h.2, map_map]
    rfl

/-- An expression is collected in reverse, up to its closing bracket. -/
theorem resolveChars_expression (collected : List Char) {expression : List Char}
    (rest : List Char) (h : ')' ∉ expression) :
    resolveChars resolve unterminated (some collected) (expression ++ ')' :: rest) =
      match resolve (collected.reverse ++ expression) with
      | .error error => .error error
      | .ok value => (resolveChars resolve unterminated none rest).map (value ++ ·) := by
  induction expression generalizing collected with
  | nil =>
    rw [List.nil_append, List.append_nil]
    cases hvalue : resolve collected.reverse with
    | error error => simp [resolveChars, hvalue]
    | ok value => simp [resolveChars, hvalue]
  | cons c expression ih =>
    rw [List.mem_cons, not_or] at h
    rw [List.cons_append, resolveChars, if_neg (Ne.symm h.1), ih (c :: collected) h.2]
    simp

theorem resolveChars_unterminated (collected : List Char) {expression : List Char}
    (h : ')' ∉ expression) :
    resolveChars resolve unterminated (some collected) expression = .error unterminated := by
  induction expression generalizing collected with
  | nil => rfl
  | cons c expression ih =>
    rw [List.mem_cons, not_or] at h
    rw [resolveChars, if_neg (Ne.symm h.1), ih (c :: collected) h.2]

/-- Reading character by character gives what the loop gives. -/
theorem resolveLoop_eq_resolveChars (output text : List Char) :
    resolveLoop resolve (.error unterminated) output text =
      (resolveChars resolve unterminated none text).map (output ++ ·) := by
  fun_induction resolveLoop resolve (.error unterminated) output text with
  | case1 output text hnone =>
    have hplain := @resolveChars_plain ε resolve unterminated text []
      (Texts.splitAtPart_eq_none.mp hnone) (Or.inl rfl)
    rw [List.append_nil] at hplain
    rw [hplain]
    simp [resolveChars, Except.map]
    rfl
  | case2 output text before afterStart hsome hnone =>
    rw [Texts.splitAtPart_eq_some hsome,
      resolveChars_plain _ (plain_of_splitAtPart hsome) (Or.inr ⟨afterStart, rfl⟩)]
    have hopened : resolveChars resolve unterminated none (opening ++ afterStart) =
        resolveChars resolve unterminated (some []) afterStart := by
      simp [opening, resolveChars]
    rw [hopened, resolveChars_unterminated [] (Texts.splitOnceList_eq_none.mp hnone)]
    rfl
  | case3 output text before afterStart hsome expression rest hend ih =>
    have hopened : resolveChars resolve unterminated none (opening ++ afterStart) =
        resolveChars resolve unterminated (some []) afterStart := by
      simp [opening, resolveChars]
    obtain ⟨hafter, hclosed⟩ := Texts.splitOnceList_eq_some hend
    rw [Texts.splitAtPart_eq_some hsome,
      resolveChars_plain _ (plain_of_splitAtPart hsome) (Or.inr ⟨afterStart, rfl⟩), hopened,
      hafter, resolveChars_expression [] rest hclosed, List.reverse_nil, List.nil_append]
    cases hvalue : resolve expression with
    | error error => rfl
    | ok value =>
      have hloop := ih value
      simp only [map_map]
      rw [show (Except.ok value >>= fun value => resolveLoop resolve (.error unterminated)
        (output ++ before ++ value) rest) = resolveLoop resolve (.error unterminated)
        (output ++ before ++ value) rest from rfl, hloop]
      congr 1
      funext text
      simp

/-- Without a failure every value stands in the place of its expression. -/
theorem substitute_eq_ok {reading : Reading} {output result : List Char} :
    reading.substitute resolve (.error unterminated) output = .ok result ↔
      reading.opened = none ∧ ∃ values,
        List.Forall₂ (fun piece value => resolve piece.2 = .ok value) reading.pieces values ∧
        result = output ++ (substituted reading.pieces values ++ reading.rest) := by
  unfold Reading.substitute
  constructor
  · intro h
    obtain ⟨values, hvalues, h⟩ := Outcomes.bind_eq_ok h
    cases hopened : reading.opened with
    | some expression => simp [hopened] at h
    | none =>
      rw [hopened] at h
      exact ⟨rfl, values, Outcomes.mapM_eq_ok.mp hvalues, (Except.ok.inj h).symm⟩
  · rintro ⟨hopened, values, hvalues, rfl⟩
    rw [Outcomes.mapM_eq_ok.mpr hvalues, hopened]
    rfl

end Model

section Results

variable (resolvers : Resolvers) (field value : String)

/-- An expression that no resolver is named in. -/
def IsUnknown (expression : List Char) : Prop :=
  ∀ resolver params, Texts.splitOnce ':' (String.ofList expression) = some (resolver, params) →
    resolver ∉ "env" :: externalResolvers

/-- The value of an expression takes its place, once and for all; an expression that is
unknown or not closed is an error. -/
structure SubstitutesOnce (reading : Reading) : Prop where
  ok_iff : ∀ result, resolveStringExpressions resolvers field value = .ok result ↔
    reading.opened = none ∧ ∃ values : List String,
      List.Forall₂ (fun piece value =>
        resolveExpression resolvers field (String.ofList piece.2) = .ok value)
        reading.pieces values ∧
      result.toList = substituted reading.pieces (values.map String.toList) ++ reading.rest
  unterminated : reading.opened ≠ none →
    ∃ error, resolveStringExpressions resolvers field value = .error error
  unknown : ∀ piece ∈ reading.pieces, IsUnknown piece.2 →
    ∃ error, resolveStringExpressions resolvers field value = .error error

variable {resolvers field value}

theorem resolveStringExpressions_eq_substitute :
    resolveStringExpressions resolvers field value =
      ((readingOf value.toList).substitute
        (fun expression =>
          (resolveExpression resolvers field (String.ofList expression)).map String.toList)
        (.error (.invalidResolverExpression field "unterminated \x60$(\x60")) []).map
          String.ofList := by
  rw [← resolveLoop_eq_substitute, resolveLoop_eq_resolveChars]
  unfold resolveStringExpressions
  congr 1
  exact (map_id _).symm

theorem resolve_toList_eq_ok {expression chars : List Char} :
    (resolveExpression resolvers field (String.ofList expression)).map String.toList =
        .ok chars ↔
      resolveExpression resolvers field (String.ofList expression) =
        .ok (String.ofList chars) := by
  constructor
  · intro h
    obtain ⟨text, htext, rfl⟩ := Outcomes.map_eq_ok h
    rw [htext, String.ofList_toList]
  · intro h
    rw [h]
    exact congrArg Except.ok String.toList_ofList

theorem resolveStringExpressions_eq_ok {reading : Reading}
    (hreading : readingOf value.toList = reading) {result : String} :
    resolveStringExpressions resolvers field value = .ok result ↔
      reading.opened = none ∧ ∃ values : List String,
        List.Forall₂ (fun piece value =>
          resolveExpression resolvers field (String.ofList piece.2) = .ok value)
          reading.pieces values ∧
        result.toList = substituted reading.pieces (values.map String.toList) ++ reading.rest := by
  rw [resolveStringExpressions_eq_substitute, hreading]
  constructor
  · intro h
    obtain ⟨chars, hchars, rfl⟩ := Outcomes.map_eq_ok h
    obtain ⟨hopened, values, hvalues, rfl⟩ := substitute_eq_ok.mp hchars
    refine ⟨hopened, values.map String.ofList, ?_, ?_⟩
    · rw [List.forall₂_map_right_iff]
      exact hvalues.imp fun piece chars hchars => resolve_toList_eq_ok.mp hchars
    · have hmapped : (values.map String.ofList).map String.toList = values := by
        rw [List.map_map]
        simp [Function.comp_def]
      rw [hmapped, String.toList_ofList, List.nil_append]
  · rintro ⟨hopened, values, hvalues, hresult⟩
    have hsubstituted : reading.substitute
        (fun expression =>
          (resolveExpression resolvers field (String.ofList expression)).map String.toList)
        (.error (.invalidResolverExpression field "unterminated \x60$(\x60")) [] =
          .ok result.toList := by
      refine substitute_eq_ok.mpr ⟨hopened, values.map String.toList, ?_, hresult⟩
      rw [List.forall₂_map_right_iff]
      refine hvalues.imp fun piece value hvalue => resolve_toList_eq_ok.mpr ?_
      rw [hvalue, String.ofList_toList]
    rw [hsubstituted]
    exact congrArg Except.ok String.ofList_toList

theorem resolveExpression_of_unknown {expression : List Char} (h : IsUnknown expression)
    (text : String) : resolveExpression resolvers field (String.ofList expression) ≠ .ok text := by
  unfold resolveExpression
  cases hsplit : Texts.splitOnce ':' (String.ofList expression) with
  | none => simp
  | some parts =>
    obtain ⟨resolver, params⟩ := parts
    have hunknown := h resolver params hsplit
    rw [List.mem_cons, not_or] at hunknown
    simp [hunknown.1, hunknown.2]

theorem exists_of_forall₂_mem {α β : Type} {R : α → β → Prop} {items : List α} {others : List β}
    (h : List.Forall₂ R items others) {item : α} (hitem : item ∈ items) : ∃ other, R item other := by
  induction h with
  | nil => cases hitem
  | @cons first other items others hfirst hrest ih =>
    rcases List.mem_cons.mp hitem with rfl | hitem
    · exact ⟨other, hfirst⟩
    · exact ih hitem

theorem exists_error {result : Except ContextError String} (h : ∀ text, result ≠ .ok text) :
    ∃ error, result = .error error := by
  cases result with
  | error error => exact ⟨error, rfl⟩
  | ok text => exact absurd rfl (h text)

theorem substitutesOnce {reading : Reading} (hreading : readingOf value.toList = reading) :
    SubstitutesOnce resolvers field value reading := by
  refine ⟨fun result => resolveStringExpressions_eq_ok hreading, ?_, ?_⟩
  · intro hopened
    exact exists_error fun text htext =>
      hopened ((resolveStringExpressions_eq_ok hreading).mp htext).1
  · intro piece hpiece hunknown
    refine exists_error fun text htext => ?_
    obtain ⟨-, values, hvalues, -⟩ := (resolveStringExpressions_eq_ok hreading).mp htext
    obtain ⟨text, htext⟩ := exists_of_forall₂_mem hvalues hpiece
    exact resolveExpression_of_unknown hunknown text htext

/-- Every text reads in one way as plain texts and expressions, and each expression is
replaced once by what it resolves to. -/
theorem expressions_substituted_once (resolvers : Resolvers) (field value : String) :
    (∃! reading : Reading, reading.Canonical ∧ reading.text = value.toList) ∧
      ∀ reading : Reading, reading.Canonical → reading.text = value.toList →
        SubstitutesOnce resolvers field value reading := by
  have hunique : ∀ reading : Reading, reading.Canonical → reading.text = value.toList →
      readingOf value.toList = reading := by
    intro reading hcanonical htext
    rw [← htext, readingOf_text hcanonical]
  refine ⟨⟨readingOf value.toList, ⟨canonical_readingOf _, text_readingOf _⟩, ?_⟩, ?_⟩
  · rintro reading ⟨hcanonical, htext⟩
    exact (hunique reading hcanonical htext).symm
  · intro reading hcanonical htext
    exact substitutesOnce (hunique reading hcanonical htext)

end Results

end Esdiag.ResolverExpressions
