import Esdiag.Texts

/-!
More facts on the parts of texts: where a separator is missing, what a text looks
like around its first separator or its first occurrence of a longer part, and
which parts it has then.
-/
namespace Esdiag.Texts

variable {α : Type*} [DecidableEq α]

section Separators

theorem splitOnceList_eq_none {sep : α} {text : List α} :
    splitOnceList sep text = none ↔ sep ∉ text := by
  constructor
  · intro h hmem
    obtain ⟨before, after, rfl, hbefore⟩ := List.eq_append_cons_of_mem hmem
    rw [splitOnceList_append after hbefore] at h
    cases h
  · exact splitOnceList_of_notMem

theorem rsplitOnce_eq_none {sep : Char} {text : String} :
    rsplitOnce sep text = none ↔ sep ∉ text.toList := by
  unfold rsplitOnce
  rw [Option.map_eq_none_iff, splitOnceList_eq_none, List.mem_reverse]

/-- The parts before and after the last separator. -/
def rsplitOnceList (sep : α) (text : List α) : Option (List α × List α) :=
  (splitOnceList sep text.reverse).map fun parts => (parts.2.reverse, parts.1.reverse)

theorem rsplitOnceList_eq_some {sep : α} {text before after : List α}
    (h : rsplitOnceList sep text = some (before, after)) :
    text = before ++ sep :: after ∧ sep ∉ after := by
  obtain ⟨⟨last, first⟩, hparts, heq⟩ := Option.map_eq_some_iff.mp h
  obtain ⟨rfl, rfl⟩ := Prod.mk.inj heq
  obtain ⟨hreverse, hnot⟩ := splitOnceList_eq_some hparts
  refine ⟨?_, by rwa [List.mem_reverse]⟩
  rw [← List.reverse_reverse text, hreverse]
  simp

theorem rsplitOnceList_append {sep : α} {before after : List α} (h : sep ∉ after) :
    rsplitOnceList sep (before ++ sep :: after) = some (before, after) := by
  have hreverse : (before ++ sep :: after).reverse =
      after.reverse ++ sep :: before.reverse := by
    simp
  rw [rsplitOnceList, hreverse,
    splitOnceList_append _ fun hmem => h (List.mem_reverse.mp hmem)]
  simp

/-- The last separator of a text stays the last one behind another text. -/
theorem rsplitOnceList_append_left {sep : α} {text before after : List α}
    (h : rsplitOnceList sep text = some (before, after)) (more : List α) :
    rsplitOnceList sep (more ++ text) = some (more ++ before, after) := by
  obtain ⟨rfl, hafter⟩ := rsplitOnceList_eq_some h
  rw [← List.append_assoc]
  exact rsplitOnceList_append hafter

theorem exists_rsplitOnceList_cons (sep : α) (rest : List α) :
    ∃ before after, rsplitOnceList sep (sep :: rest) = some (before, after) := by
  cases hparts : rsplitOnceList sep (sep :: rest) with
  | some parts => exact ⟨parts.1, parts.2, rfl⟩
  | none =>
    rw [rsplitOnceList, Option.map_eq_none_iff, splitOnceList_eq_none] at hparts
    exact absurd (by simp) hparts

/-- The first part of a text ends at the first separator, where there is one. -/
theorem splitList_eq_cons {sep : α} {text part : List α} {parts : List (List α)}
    (h : splitList sep text = part :: parts) :
    sep ∉ part ∧ (text = part ∧ parts = [] ∨
      ∃ rest, text = part ++ sep :: rest ∧ parts = splitList sep rest) := by
  by_cases hmem : sep ∈ text
  · obtain ⟨before, after, rfl, hbefore⟩ := List.eq_append_cons_of_mem hmem
    rw [splitList_append after hbefore] at h
    obtain ⟨rfl, rfl⟩ := List.cons.inj h
    exact ⟨hbefore, Or.inr ⟨after, rfl, rfl⟩⟩
  · rw [splitList_of_notMem hmem] at h
    obtain ⟨rfl, rfl⟩ := List.cons.inj h
    exact ⟨hmem, Or.inl ⟨rfl, rfl⟩⟩

theorem split_eq_cons {sep : Char} {text part : String} {parts : List String}
    (h : split sep text = part :: parts) :
    sep ∉ part.toList ∧ (text = part ∧ parts = [] ∨
      ∃ rest, text = part ++ String.singleton sep ++ rest ∧ parts = split sep rest) := by
  unfold split at h
  obtain ⟨chars, others, hchars, hpart, hothers⟩ := List.map_eq_cons_iff.mp h
  obtain ⟨hnot, hrest⟩ := splitList_eq_cons hchars
  subst hpart
  rw [String.toList_ofList]
  refine ⟨hnot, ?_⟩
  rcases hrest with ⟨htext, hnil⟩ | ⟨rest, htext, hsplit⟩
  · left
    refine ⟨?_, by rw [← hothers, hnil, List.map_nil]⟩
    rw [← htext, String.ofList_toList]
  · right
    refine ⟨String.ofList rest, ?_, ?_⟩
    · apply String.toList_inj.mp
      simp [htext]
    · rw [split, String.toList_ofList, ← hothers, hsplit]

theorem split_of_notMem {sep : Char} {text : String} (h : sep ∉ text.toList) :
    split sep text = [text] := by
  rw [split, splitList_of_notMem h, List.map_singleton, String.ofList_toList]

theorem split_append {sep : Char} {part rest : String} (h : sep ∉ part.toList) :
    split sep (part ++ String.singleton sep ++ rest) = part :: split sep rest := by
  have htext : (part ++ String.singleton sep ++ rest).toList =
      part.toList ++ sep :: rest.toList := by
    simp
  rw [split, htext, splitList_append _ h, List.map_cons, String.ofList_toList, split]

theorem split_ne_nil (sep : Char) (text : String) : split sep text ≠ [] := by
  simp [split, splitList_ne_nil]

end Separators

section Occurrences

theorem stripPrefixList_eq_none {start text : List α} :
    stripPrefixList start text = none ↔ ¬start <+: text := by
  constructor
  · rintro h ⟨rest, rfl⟩
    rw [stripPrefixList_append] at h
    cases h
  · intro h
    cases hstrip : stripPrefixList start text with
    | none => rfl
    | some rest => exact absurd ⟨rest, (stripPrefixList_eq_some hstrip).symm⟩ h

/-- The texts before and after the first occurrence of a part. -/
def splitAtPart (part : List α) : List α → Option (List α × List α)
  | [] => if part = [] then some ([], []) else none
  | a :: rest =>
    match stripPrefixList part (a :: rest) with
    | some after => some ([], after)
    | none => (splitAtPart part rest).map fun found => (a :: found.1, found.2)

theorem splitAtPart_eq_some {part text before after : List α}
    (h : splitAtPart part text = some (before, after)) : text = before ++ (part ++ after) := by
  induction text generalizing before with
  | nil =>
    rw [splitAtPart] at h
    split_ifs at h with hpart
    obtain ⟨rfl, rfl⟩ := Prod.mk.inj (Option.some.inj h)
    simp [hpart]
  | cons a rest ih =>
    rw [splitAtPart] at h
    cases hstrip : stripPrefixList part (a :: rest) with
    | some found =>
      rw [hstrip] at h
      obtain ⟨rfl, rfl⟩ := Prod.mk.inj (Option.some.inj h)
      rw [List.nil_append]
      exact stripPrefixList_eq_some hstrip
    | none =>
      rw [hstrip] at h
      obtain ⟨found, hfound, heq⟩ := Option.map_eq_some_iff.mp h
      obtain ⟨rfl, rfl⟩ := Prod.mk.inj heq
      rw [ih hfound, List.cons_append]

theorem splitAtPart_eq_none {part text : List α} :
    splitAtPart part text = none ↔ ¬part <:+: text := by
  induction text with
  | nil =>
    rw [splitAtPart, List.infix_nil]
    split_ifs with hpart
    · simp [hpart]
    · simp [hpart]
  | cons a rest ih =>
    rw [splitAtPart, List.infix_cons_iff, not_or]
    cases hstrip : stripPrefixList part (a :: rest) with
    | some found =>
      have hfirst : part <+: a :: rest := ⟨found, (stripPrefixList_eq_some hstrip).symm⟩
      simp [hfirst]
    | none =>
      rw [← ih, Option.map_eq_none_iff]
      simp [stripPrefixList_eq_none.mp hstrip]

/-- The text before the first occurrence does not have the part. -/
theorem not_infix_of_splitAtPart {part text before after : List α} (hpart : part ≠ [])
    (h : splitAtPart part text = some (before, after)) : ¬part <:+: before := by
  induction text generalizing before with
  | nil =>
    rw [splitAtPart, if_neg hpart] at h
    cases h
  | cons a rest ih =>
    rw [splitAtPart] at h
    cases hstrip : stripPrefixList part (a :: rest) with
    | some found =>
      rw [hstrip] at h
      obtain ⟨rfl, rfl⟩ := Prod.mk.inj (Option.some.inj h)
      simpa using hpart
    | none =>
      rw [hstrip] at h
      obtain ⟨found, hfound, heq⟩ := Option.map_eq_some_iff.mp h
      obtain ⟨rfl, rfl⟩ := Prod.mk.inj heq
      rw [List.infix_cons_iff, not_or]
      refine ⟨fun hprefix => stripPrefixList_eq_none.mp hstrip ?_, ih hfound⟩
      rw [splitAtPart_eq_some hfound, ← List.cons_append]
      exact hprefix.trans (List.prefix_append _ _)

/-- An occurrence is the first one where no earlier place has the part. -/
theorem splitAtPart_append {part before : List α} (after : List α)
    (h : ∀ start rest, before = start ++ rest → rest ≠ [] → ¬part <+: rest ++ (part ++ after)) :
    splitAtPart part (before ++ (part ++ after)) = some (before, after) := by
  induction before with
  | nil =>
    rw [List.nil_append]
    cases htext : part ++ after with
    | nil =>
      obtain ⟨rfl, rfl⟩ := List.append_eq_nil_iff.mp htext
      rfl
    | cons a rest =>
      rw [splitAtPart, ← htext, stripPrefixList_append]
  | cons a before ih =>
    have hhead := h [] (a :: before) rfl (List.cons_ne_nil _ _)
    rw [List.cons_append, splitAtPart, ← List.cons_append,
      stripPrefixList_eq_none.mpr hhead, ih, Option.map_some]
    rintro start rest rfl
    exact h (a :: start) rest rfl

theorem stripPrefixList_append_right {part text : List α} (extra : List α)
    (h : part.length ≤ text.length) :
    stripPrefixList part (text ++ extra) = (stripPrefixList part text).map (· ++ extra) := by
  induction part generalizing text with
  | nil => rfl
  | cons a part ih =>
    cases text with
    | nil => simp at h
    | cons b text =>
      rw [List.cons_append, stripPrefixList, stripPrefixList]
      split_ifs with hhead
      · exact ih (Nat.le_of_succ_le_succ h)
      · rfl

/-- What follows does not move the first occurrence. -/
theorem splitAtPart_append_right {part text before after : List α}
    (h : splitAtPart part text = some (before, after)) (extra : List α) :
    splitAtPart part (text ++ extra) = some (before, after ++ extra) := by
  induction text generalizing before with
  | nil =>
    rw [splitAtPart] at h
    split_ifs at h with hpart
    obtain ⟨rfl, rfl⟩ := Prod.mk.inj (Option.some.inj h)
    have hnil := @splitAtPart_append α _ [] [] extra fun start rest hnil hne =>
      absurd (List.append_eq_nil_iff.1 hnil.symm).2 hne
    rw [hpart]
    exact hnil
  | cons a rest ih =>
    have hlength : part.length ≤ (a :: rest).length := by
      have htext := congrArg List.length (splitAtPart_eq_some h)
      simp only [List.length_append] at htext
      omega
    have hstrip := stripPrefixList_append_right extra hlength
    rw [splitAtPart] at h
    rw [List.cons_append] at hstrip ⊢
    rw [splitAtPart, hstrip]
    cases hfound : stripPrefixList part (a :: rest) with
    | some found =>
      rw [hfound] at h
      obtain ⟨rfl, rfl⟩ := Prod.mk.inj (Option.some.inj h)
      rfl
    | none =>
      rw [hfound] at h
      obtain ⟨found, hrest, heq⟩ := Option.map_eq_some_iff.mp h
      obtain ⟨rfl, rfl⟩ := Prod.mk.inj heq
      rw [Option.map_none]
      dsimp only
      rw [ih hrest, Option.map_some]

omit [DecidableEq α] in
/-- A part reaches beyond a text only with the character behind it. -/
theorem prefix_of_prefix_append_cons {part text after : List α} {c : α} (hc : c ∉ part)
    (h : part <+: text ++ c :: after) : part <+: text := by
  induction text generalizing part with
  | nil =>
    cases part with
    | nil => exact List.nil_prefix
    | cons a part =>
      rw [List.nil_append, List.cons_prefix_cons] at h
      exact absurd (h.1 ▸ List.mem_cons_self) hc
  | cons b text ih =>
    cases part with
    | nil => exact List.nil_prefix
    | cons a part =>
      rw [List.cons_append, List.cons_prefix_cons] at h
      rw [List.cons_prefix_cons]
      exact ⟨h.1, ih (fun hmem => hc (List.mem_cons_of_mem a hmem)) h.2⟩

/-- The first occurrence stands behind a text without one, if it cannot reach back into it. -/
theorem splitAtPart_skip {part text : List α} {c : α} (hc : c ∉ part)
    (h : ¬part <:+: text) (after : List α) :
    splitAtPart part (text ++ c :: after) =
      (splitAtPart part (c :: after)).map fun found => (text ++ found.1, found.2) := by
  induction text with
  | nil => simp
  | cons a text ih =>
    rw [List.infix_cons_iff, not_or] at h
    have hstrip : stripPrefixList part (a :: (text ++ c :: after)) = none := by
      rw [stripPrefixList_eq_none, ← List.cons_append]
      exact fun hprefix => h.1 (prefix_of_prefix_append_cons hc hprefix)
    rw [List.cons_append, splitAtPart, hstrip]
    dsimp only
    rw [ih h.2, Option.map_map]
    rfl

end Occurrences

/-! ### Replacing -/

section Replacing

theorem containsList_eq_false {part text : List α} :
    containsList part text = false ↔ ¬part <:+: text := by
  induction text with
  | nil => simp [containsList]
  | cons a rest ih =>
    rw [containsList, List.infix_cons_iff, not_or, Bool.or_eq_false_iff, ih, Bool.eq_false_iff, Ne,
      List.isPrefixOf_iff_prefix]

omit [DecidableEq α] in
/-- An occurrence does not go over a letter that it does not have. -/
theorem infix_append_cons {part before after : List α} {a : α} (ha : a ∉ part)
    (h : part <:+: before ++ a :: after) : part <:+: before ∨ part <:+: after := by
  rcases List.infix_append_iff_ne_nil.1 h with h | h | ⟨first, last, -, hne, rfl, -, hlast⟩
  · exact Or.inl h
  · rcases List.infix_cons_iff.1 h with h | h
    · cases part with
      | nil => exact Or.inr List.nil_infix
      | cons b part =>
        rw [List.cons_prefix_cons] at h
        exact absurd (h.1 ▸ List.mem_cons_self) ha
    · exact Or.inr h
  · obtain ⟨b, last, rfl⟩ := List.exists_cons_of_ne_nil hne
    rw [List.cons_prefix_cons] at hlast
    exact absurd (hlast.1 ▸ by simp) ha

omit [DecidableEq α] in
/-- An occurrence does not begin in a text without its first letter. -/
theorem infix_of_infix_append {part before after : List α} {c : α} (hc : c ∉ before)
    (h : c :: part <:+: before ++ after) : c :: part <:+: after := by
  rcases List.infix_append_iff_ne_nil.1 h with h | h | ⟨first, last, hne, -, hparts, hfirst, -⟩
  · exact absurd (h.mem List.mem_cons_self) hc
  · exact h
  · obtain ⟨b, first, rfl⟩ := List.exists_cons_of_ne_nil hne
    rw [List.cons_append, List.cons.injEq] at hparts
    exact absurd (hfirst.mem (hparts.1 ▸ List.mem_cons_self)) hc

/-- A part whose first letter is nowhere else in it does not overlap with itself. -/
theorem splitAtPart_append_cons {part before : List α} {c : α} (hc : c ∉ part)
    (h : ¬c :: part <:+: before) (after : List α) :
    splitAtPart (c :: part) (before ++ (c :: part ++ after)) = some (before, after) := by
  apply splitAtPart_append
  rintro start rest rfl hne hstart
  obtain ⟨b, rest, rfl⟩ := List.exists_cons_of_ne_nil hne
  rw [List.cons_append, List.cons_prefix_cons] at hstart
  obtain ⟨rfl, hstart⟩ := hstart
  have hrest : part <+: rest := prefix_of_prefix_append_cons hc hstart
  exact h ((List.cons_prefix_cons.2 ⟨rfl, hrest⟩).isInfix.trans (List.suffix_append _ _).isInfix)

theorem replaceList_drop (part new : List α) {skipped : List α} (rest : List α) :
    replaceList part new skipped.length (skipped ++ rest) = replaceList part new 0 rest := by
  induction skipped with
  | nil => rfl
  | cons a skipped ih => exact ih

theorem replaceList_append_part {part : List α} (hpart : part ≠ []) (new rest : List α) :
    replaceList part new 0 (part ++ rest) = new ++ replaceList part new 0 rest := by
  obtain ⟨c, part, rfl⟩ := List.exists_cons_of_ne_nil hpart
  have hstart : (c :: part).isPrefixOf (c :: (part ++ rest)) = true := by
    rw [List.isPrefixOf_iff_prefix]
    exact List.prefix_append _ _
  rw [List.cons_append, replaceList, if_pos hstart, List.length_cons, Nat.add_sub_cancel,
    replaceList_drop]

/-- A text without the first letter of the part stays as it is. -/
theorem replaceList_append_left {part skipped : List α} {c : α} (hc : c ∉ skipped)
    (new rest : List α) :
    replaceList (c :: part) new 0 (skipped ++ rest) =
      skipped ++ replaceList (c :: part) new 0 rest := by
  induction skipped with
  | nil => rfl
  | cons b skipped ih =>
    rw [List.mem_cons, not_or] at hc
    have hstart : (c :: part).isPrefixOf (b :: (skipped ++ rest)) = false := by
      simp [List.isPrefixOf, hc.1]
    rw [List.cons_append, replaceList, if_neg (by simp [hstart]), ih hc.2, List.cons_append]

/-- Replacing goes from one first occurrence to the next. -/
theorem replaceList_eq {part : List α} (hpart : part ≠ []) (new text : List α) :
    replaceList part new 0 text =
      match splitAtPart part text with
      | none => text
      | some (before, after) => before ++ (new ++ replaceList part new 0 after) := by
  induction text with
  | nil => rw [splitAtPart, if_neg hpart, replaceList]
  | cons a rest ih =>
    rw [splitAtPart]
    cases hstrip : stripPrefixList part (a :: rest) with
    | some after =>
      rw [stripPrefixList_eq_some hstrip, replaceList_append_part hpart]
      rfl
    | none =>
      have hstart : part.isPrefixOf (a :: rest) = false := by
        rw [Bool.eq_false_iff, Ne, List.isPrefixOf_iff_prefix]
        exact stripPrefixList_eq_none.mp hstrip
      rw [replaceList, if_neg (by simp [hstart]), ih]
      cases splitAtPart part rest <;> rfl

theorem replaceList_of_not_infix {part : List α} (hpart : part ≠ []) (new : List α)
    {text : List α} (h : ¬part <:+: text) : replaceList part new 0 text = text := by
  rw [replaceList_eq hpart, splitAtPart_eq_none.mpr h]

theorem replaceList_append_cons {part before : List α} {c : α} (hc : c ∉ part)
    (h : ¬c :: part <:+: before) (new after : List α) :
    replaceList (c :: part) new 0 (before ++ (c :: part ++ after)) =
      before ++ (new ++ replaceList (c :: part) new 0 after) := by
  rw [replaceList_eq (List.cons_ne_nil _ _), splitAtPart_append_cons hc h]

/-- Nothing is left to replace where the new text neither begins nor ends an occurrence. -/
theorem not_infix_replaceList {part new : List α} {a c : α} (ha : a ∉ c :: part) (hc : c ∉ new)
    (text : List α) : ¬c :: part <:+: replaceList (c :: part) (a :: new) 0 text := by
  induction hlength : text.length using Nat.strong_induction_on generalizing text with
  | _ length ih =>
    rw [replaceList_eq (List.cons_ne_nil _ _)]
    cases hsplit : splitAtPart (c :: part) text with
    | none => exact splitAtPart_eq_none.mp hsplit
    | some parts =>
      obtain ⟨before, after⟩ := parts
      have htext := congrArg List.length (splitAtPart_eq_some hsplit)
      simp only [List.length_append, List.length_cons] at htext
      intro hinside
      rcases infix_append_cons ha hinside with hbefore | hafter
      · exact not_infix_of_splitAtPart (List.cons_ne_nil _ _) hsplit hbefore
      · exact ih after.length (by omega) after rfl (infix_of_infix_append hc hafter)

end Replacing

/-! ### Trimming -/

/-- A printable character of the ASCII range is no white space. -/
theorem isWhitespace_of_printable {c : Char} (hlow : 33 ≤ c.toNat) (hhigh : c.toNat ≤ 126) :
    isWhitespace c = false := by
  simp only [isWhitespace, Bool.or_eq_false_iff, Bool.and_eq_false_iff, beq_eq_false_iff_ne,
    decide_eq_false_iff_not]
  omega

/-- A text with a character that is no white space is not blank. -/
theorem isBlank_eq_false {text : String} {c : Char} (hc : c ∈ text.toList)
    (h : isWhitespace c = false) : isBlank text = false := by
  rw [Bool.eq_false_iff]
  intro hblank
  rw [isBlank, trim, String.toList_ofList, List.isEmpty_iff, trimList,
    List.rdropWhile_eq_nil_iff] at hblank
  rw [← @List.takeWhile_append_dropWhile _ isWhitespace text.toList, List.mem_append] at hc
  rcases hc with hc | hc
  · rw [List.mem_takeWhile_imp hc] at h
    cases h
  · rw [hblank c hc] at h
    cases h

section Trimming

variable {β : Type*} {p : β → Bool}

/-- What stands between two paddings, if it begins and ends with something else. -/
theorem trimList_padded {lead core trail : List β} (hlead : ∀ a ∈ lead, p a = true)
    (htrail : ∀ a ∈ trail, p a = true) (hhead : ∀ a ∈ core.head?, p a = false)
    (hlast : ∀ a ∈ core.getLast?, p a = false) : trimList p (lead ++ core ++ trail) = core := by
  unfold trimList
  rw [List.append_assoc, List.dropWhile_append_of_pos hlead]
  cases core with
  | nil =>
    have hnone : trail.dropWhile p = [] := List.dropWhile_eq_nil_iff.2 htrail
    rw [List.nil_append, hnone, List.rdropWhile_nil]
  | cons first rest =>
    have hstart : ((first :: rest) ++ trail).dropWhile p = (first :: rest) ++ trail := by
      simp [hhead first rfl]
    have hkept : ((first :: rest).reverse).dropWhile p = (first :: rest).reverse := by
      rw [List.dropWhile_eq_self_iff]
      intro hlength
      have hfirst := hlast ((first :: rest).getLast (List.cons_ne_nil _ _))
        (List.getLast?_eq_some_getLast _)
      simp only [List.getElem_reverse]
      rw [List.getLast_eq_getElem] at hfirst
      simpa using hfirst
    rw [hstart, List.rdropWhile, List.reverse_append,
      List.dropWhile_append_of_pos fun a ha => htrail a (List.mem_reverse.1 ha), hkept,
      List.reverse_reverse]

theorem trimList_eq_self {core : List β} (hhead : ∀ a ∈ core.head?, p a = false)
    (hlast : ∀ a ∈ core.getLast?, p a = false) : trimList p core = core := by
  simpa using @trimList_padded β p [] core [] (by simp) (by simp) hhead hlast

/-- A trimmed text neither begins nor ends with padding. -/
theorem ends_trimList (p : β → Bool) (text : List β) :
    (∀ a ∈ (trimList p text).head?, p a = false) ∧
      ∀ a ∈ (trimList p text).getLast?, p a = false := by
  constructor
  · intro a ha
    have h := List.head?_dropWhile_not p (trimList p text)
    rw [trimList, dropWhile_rdropWhile_dropWhile, ← trimList, Option.mem_def.1 ha] at h
    simpa using h
  · intro a ha
    have hne : trimList p text ≠ [] := fun hnil => by simp [hnil] at ha
    have h := List.rdropWhile_last_not p (text.dropWhile p) hne
    have hlast : a = (trimList p text).getLast hne := by
      rw [List.getLast?_eq_some_getLast hne] at ha
      exact (Option.some.inj ha).symm
    rw [hlast]
    exact eq_false_of_ne_true h

end Trimming

/-! ### Separators of a class -/

section Classes

variable {β : Type*}

/-- Splitting the parts further by a larger class is splitting by that class at once. -/
theorem splitOnP_flatMap {p q : β → Bool} (h : ∀ a, p a = true → q a = true) (l : List β) :
    (l.splitOnP p).flatMap (List.splitOnP q) = l.splitOnP q := by
  induction l with
  | nil => simp
  | cons a l ih =>
    obtain ⟨part, parts, hparts⟩ := List.exists_cons_of_ne_nil (List.splitOnP_ne_nil p l)
    rw [List.splitOnP_cons_eq_if_modifyHead, List.splitOnP_cons_eq_if_modifyHead, ← ih, hparts]
    by_cases hp : p a = true
    · simp [hp, h a hp]
    · obtain ⟨first, others, hfirst⟩ := List.exists_cons_of_ne_nil (List.splitOnP_ne_nil q part)
      by_cases hq : q a = true <;>
        simp [hp, hq, List.splitOnP_cons_eq_if_modifyHead, hfirst]

theorem splitOnP_congr {p q : β → Bool} {l : List β} (h : ∀ a ∈ l, p a = q a) :
    l.splitOnP p = l.splitOnP q := by
  induction l with
  | nil => rfl
  | cons a l ih =>
    rw [List.splitOnP_cons_eq_if_modifyHead, List.splitOnP_cons_eq_if_modifyHead,
      h a List.mem_cons_self, ih fun b hb => h b (List.mem_cons_of_mem a hb)]

theorem splitOnP_map {γ : Type*} (f : β → γ) (p : γ → Bool) (l : List β) :
    (l.map f).splitOnP p = (l.splitOnP (p ∘ f)).map (List.map f) := by
  induction l with
  | nil => rfl
  | cons a l ih =>
    obtain ⟨part, parts, hparts⟩ := List.exists_cons_of_ne_nil (List.splitOnP_ne_nil (p ∘ f) l)
    rw [List.map_cons, List.splitOnP_cons_eq_if_modifyHead,
      List.splitOnP_cons_eq_if_modifyHead, ih, hparts]
    by_cases hp : p (f a) = true <;> simp [hp]

theorem splitList_eq_splitOnP [DecidableEq β] (sep : β) (text : List β) :
    splitList sep text = text.splitOnP (· == sep) := by
  induction text with
  | nil => rfl
  | cons a text ih =>
    obtain ⟨part, parts, hparts⟩ := List.exists_cons_of_ne_nil (splitList_ne_nil sep text)
    rw [List.splitOnP_cons_eq_if_modifyHead, ← ih, splitList, hparts]
    by_cases ha : a = sep <;> simp [ha]

/-- The parts hold what does not separate them. -/
theorem exists_mem_splitOnP_iff {p : β → Bool} {l : List β} {a : β} :
    (∃ part ∈ l.splitOnP p, a ∈ part) ↔ a ∈ l ∧ p a = false := by
  induction l with
  | nil => simp
  | cons b l ih =>
    obtain ⟨part, parts, hparts⟩ := List.exists_cons_of_ne_nil (List.splitOnP_ne_nil p l)
    rw [List.splitOnP_cons_eq_if_modifyHead, hparts]
    rw [hparts] at ih
    by_cases hp : p b = true
    · rw [if_pos hp, List.mem_cons]
      simp only [List.mem_cons, exists_eq_or_imp, List.not_mem_nil, false_or] at ih ⊢
      grind
    · rw [if_neg hp, List.modifyHead_cons, List.mem_cons]
      simp only [List.mem_cons, exists_eq_or_imp] at ih ⊢
      grind

theorem intercalate_cons_cons (sep : β) (part next : List β) (rest : List (List β)) :
    [sep].intercalate (part :: next :: rest) = part ++ sep :: [sep].intercalate (next :: rest) := by
  simp [List.intercalate]

theorem splitOnP_intercalate {p : β → Bool} {sep : β} (hsep : p sep = true)
    {parts : List (List β)} (hne : parts ≠ [])
    (hparts : ∀ part ∈ parts, ∀ a ∈ part, p a = false) :
    ([sep].intercalate parts).splitOnP p = parts := by
  induction parts with
  | nil => exact absurd rfl hne
  | cons part rest ih =>
    have hpart := hparts part List.mem_cons_self
    cases rest with
    | nil => simpa using List.splitOnP_eq_singleton hpart
    | cons next rest =>
      have hrest := ih (List.cons_ne_nil _ _) fun q hq => hparts q (List.mem_cons_of_mem part hq)
      rw [intercalate_cons_cons, List.splitOnP_append_cons_of_forall_mem hpart sep hsep, hrest]

/-- Behind the first part there is nothing, or a separator. -/
theorem exists_intercalate_eq (sep : β) (first : List β) (rest : List (List β)) :
    ∃ tail, [sep].intercalate (first :: rest) = first ++ tail ∧
      (tail = [] ∨ tail.head? = some sep) := by
  cases rest with
  | nil => exact ⟨[], by simp, Or.inl rfl⟩
  | cons next rest =>
    exact ⟨sep :: [sep].intercalate (next :: rest), intercalate_cons_cons sep first next rest,
      Or.inr rfl⟩

theorem mem_intercalate {sep a : β} {parts : List (List β)} (h : a ∈ [sep].intercalate parts) :
    a = sep ∨ ∃ part ∈ parts, a ∈ part := by
  induction parts with
  | nil => simp at h
  | cons part rest ih =>
    cases rest with
    | nil => exact Or.inr ⟨part, List.mem_cons_self, by simpa using h⟩
    | cons next rest =>
      rw [intercalate_cons_cons, List.mem_append, List.mem_cons] at h
      rcases h with hpart | heq | hrest
      · exact Or.inr ⟨part, List.mem_cons_self, hpart⟩
      · exact Or.inl heq
      · obtain heq | ⟨other, hother, ha⟩ := ih hrest
        · exact Or.inl heq
        · exact Or.inr ⟨other, List.mem_cons_of_mem part hother, ha⟩

end Classes

section Joining

@[simp] theorem join_nil (sep : String) : join sep [] = "" := rfl

@[simp] theorem join_singleton (sep part : String) : join sep [part] = part := by
  apply String.toList_inj.mp
  simp [join]

theorem join_cons {sep : String} {rest : List String} (h : rest ≠ []) (part : String) :
    join sep (part :: rest) = part ++ sep ++ join sep rest := by
  obtain ⟨next, others, rfl⟩ := List.exists_cons_of_ne_nil h
  exact join_cons_cons sep part next others

theorem join_append {sep : String} {parts rest : List String} (hparts : parts ≠ [])
    (hrest : rest ≠ []) : join sep (parts ++ rest) = join sep parts ++ sep ++ join sep rest := by
  induction parts with
  | nil => exact absurd rfl hparts
  | cons part parts ih =>
    rcases eq_or_ne parts [] with rfl | hne
    · rw [List.singleton_append, join_cons hrest, join_singleton]
    · rw [List.cons_append, join_cons (List.append_ne_nil_of_left_ne_nil hne rest), ih hne,
        join_cons hne]
      simp only [String.append_assoc]

theorem mem_join {sep c : Char} {parts : List String}
    (h : c ∈ (join (String.singleton sep) parts).toList) :
    c = sep ∨ ∃ part ∈ parts, c ∈ part.toList := by
  have hparts : c ∈ [sep].intercalate (parts.map String.toList) := by
    simpa [join, List.intercalate] using h
  rcases mem_intercalate hparts with heq | ⟨chars, hchars, hc⟩
  · exact Or.inl heq
  · obtain ⟨part, hpart, rfl⟩ := List.mem_map.mp hchars
    exact Or.inr ⟨part, hpart, hc⟩

theorem mem_join_of_mem {sep part : String} {parts : List String} {c : Char}
    (hpart : part ∈ parts) (hc : c ∈ part.toList) : c ∈ (join sep parts).toList := by
  induction parts with
  | nil => cases hpart
  | cons first rest ih =>
    rcases eq_or_ne rest [] with rfl | hne
    · rwa [join_singleton, ← List.mem_singleton.mp hpart]
    rw [join_cons hne, String.toList_append, String.toList_append, List.mem_append,
      List.mem_append]
    rcases List.mem_cons.mp hpart with rfl | hrest
    · exact Or.inl (Or.inl hc)
    · exact Or.inr (ih hrest)

theorem join_ne_empty {sep : String} {parts : List String} (hne : parts ≠ [])
    (h : ∀ part ∈ parts, part ≠ "") : join sep parts ≠ "" := by
  obtain ⟨part, rest, rfl⟩ := List.exists_cons_of_ne_nil hne
  have hpart := h part List.mem_cons_self
  rcases eq_or_ne rest [] with rfl | hrest
  · rwa [join_singleton]
  · rw [join_cons hrest]
    intro hempty
    rw [String.append_eq_empty_iff, String.append_eq_empty_iff] at hempty
    exact hpart hempty.1.1

/-- Groups of parts joined on their own and then together, where an empty group leaves no
separator behind, are all the parts joined at once. -/
theorem join_filter_map_join {sep : String} {groups : List (List String)}
    (h : ∀ group ∈ groups, ∀ part ∈ group, part ≠ "") :
    join sep ((groups.map (join sep)).filter (· ≠ "")) = join sep groups.flatten := by
  induction groups with
  | nil => rfl
  | cons group groups ih =>
    have hrest := ih fun g hg => h g (List.mem_cons_of_mem group hg)
    rcases eq_or_ne group [] with rfl | hgroup
    · simpa using hrest
    have hjoin : join sep group ≠ "" := join_ne_empty hgroup (h group List.mem_cons_self)
    rw [List.map_cons, List.filter_cons_of_pos (by simpa using hjoin), List.flatten_cons]
    rcases eq_or_ne groups.flatten [] with hflat | hflat
    · have hnone : (groups.map (join sep)).filter (· ≠ "") = [] := by
        rw [List.filter_eq_nil_iff]
        intro text htext
        obtain ⟨g, hg, rfl⟩ := List.mem_map.mp htext
        rw [List.flatten_eq_nil_iff.mp hflat g hg]
        simp
      rw [hnone, hflat, List.append_nil, join_singleton]
    · have hsome : (groups.map (join sep)).filter (· ≠ "") ≠ [] := by
        intro hnil
        rw [hnil] at hrest
        refine join_ne_empty hflat ?_ hrest.symm
        intro part hpart
        obtain ⟨g, hg, hmem⟩ := List.mem_flatten.mp hpart
        exact h g (List.mem_cons_of_mem group hg) part hmem
      rw [join_cons hsome, join_append hgroup hflat, hrest]

theorem flatten_intersperse_splitList (sep : α) (text : List α) :
    ((splitList sep text).intersperse [sep]).flatten = text := by
  by_cases h : sep ∈ text
  · obtain ⟨before, after, rfl, hbefore⟩ := List.eq_append_cons_of_mem h
    have hafter := flatten_intersperse_splitList sep after
    rw [splitList_append after hbefore]
    obtain ⟨part, parts, hparts⟩ := List.exists_cons_of_ne_nil (splitList_ne_nil sep after)
    rw [hparts] at hafter ⊢
    rw [List.intersperse_cons_cons, List.flatten_cons, List.flatten_cons, hafter,
      List.singleton_append]
  · simp [splitList_of_notMem h]
termination_by text.length

theorem join_split (sep : Char) (text : String) :
    join (String.singleton sep) (split sep text) = text := by
  apply String.toList_inj.mp
  have hchars : (split sep text).map String.toList = splitList sep text.toList := by
    simp [split, Function.comp_def]
  rw [join, hchars, String.toList_ofList, String.toList_singleton, flatten_intersperse_splitList]

theorem mem_of_mem_split {sep c : Char} {text part : String} (hpart : part ∈ split sep text)
    (hc : c ∈ part.toList) : c ∈ text.toList := by
  rw [← join_split sep text]
  exact mem_join_of_mem hpart hc

end Joining

end Esdiag.Texts
