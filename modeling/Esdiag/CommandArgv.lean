import Esdiag.ElasticContexts

/-!
The command of a command-backed resolver. It is split into a program and its
arguments without a shell: quotes and backslashes group characters, and a
character that a shell would act on is refused outside of quotes. A line break
after a backslash is the one exception, and is taken as it stands.
-/
namespace Esdiag.CommandArgv

open ElasticContexts

section Tokenizer

/-- The characters that are refused outside of quotes. -/
def shellSyntax : List Char :=
  ['|', '&', ';', '<', '>', '(', ')', '\x7b', '\x7d', '\x60', '\n', '\r']

/-- The characters that a backslash is dropped before. -/
def isEscapable (c : Char) : Bool :=
  Texts.isWhitespace c || c = '\'' || c = '"' || c = '\\'

structure Tokens where
  argv : List String
  current : List Char
  quote : Option Char
  tokenStarted : Bool

namespace Tokens

def push (tokens : Tokens) (c : Char) : Tokens :=
  { tokens with current := tokens.current ++ [c], tokenStarted := true }

/-- End the token at white space, where there is one. -/
def endToken (tokens : Tokens) : Tokens :=
  if tokens.tokenStarted then
    { tokens with
      argv := tokens.argv ++ [String.ofList tokens.current]
      current := []
      tokenStarted := false }
  else tokens

/-- The characters of all tokens so far. -/
def content (tokens : Tokens) : List Char := tokens.argv.flatMap String.toList ++ tokens.current

@[simp] theorem push_quote (tokens : Tokens) (c : Char) : (tokens.push c).quote = tokens.quote :=
  rfl

@[simp] theorem endToken_quote (tokens : Tokens) : tokens.endToken.quote = tokens.quote := by
  unfold endToken
  split <;> rfl

theorem content_push (tokens : Tokens) (c : Char) :
    (tokens.push c).content = tokens.content ++ [c] := by
  simp [content, push]

theorem content_endToken (tokens : Tokens) : tokens.endToken.content = tokens.content := by
  unfold endToken
  split
  · simp [content]
  · rfl

end Tokens

variable (resolver field : String)

/-- The loop over the characters, which looks one ahead of a backslash. -/
def scan : Tokens → List Char → Except ContextError Tokens
  | tokens, [] => .ok tokens
  | tokens, c :: rest =>
    match tokens.quote with
    | some quoteChar =>
      if c = quoteChar then scan { tokens with quote := none } rest
      else if c = '\\' then
        match rest with
        | [] => .ok (tokens.push c)
        | next :: others =>
          if isEscapable next then scan (tokens.push next) others
          else scan (tokens.push c) (next :: others)
      else scan (tokens.push c) rest
    | none =>
      if c = '\'' ∨ c = '"' then scan { tokens with quote := some c, tokenStarted := true } rest
      else if c = '\\' then
        match rest with
        | [] => .ok (tokens.push c)
        | next :: others =>
          if isEscapable next then scan (tokens.push next) others
          else scan (tokens.push c) (next :: others)
      else if c ∈ shellSyntax then .error (.shellSyntaxUnsupported resolver field)
      else if Texts.isWhitespace c then scan tokens.endToken rest
      else scan (tokens.push c) rest

def parseCommandArgv (command : String) : Except ContextError (List String) :=
  match scan resolver field ⟨[], [], none, false⟩ command.toList with
  | .error error => .error error
  | .ok tokens =>
    if tokens.quote.isSome then
      .error (.resolverFailed resolver field "command resolver contains an unterminated quote")
    else .ok tokens.endToken.argv

end Tokenizer

section Quoted

variable {resolver field : String}

/-- An argument in double quotes, with quotes and backslashes escaped. -/
def doubleQuoted (argument : String) : String :=
  String.ofList ('"' :: (argument.toList.flatMap fun c =>
    if c = '"' ∨ c = '\\' then ['\\', c] else [c]) ++ ['"'])

def quotedCommand (argv : List String) : String := Texts.join " " (argv.map doubleQuoted)

/-- Within double quotes an escaped text is read back, up to the closing quote. -/
theorem scan_escaped (argv : List String) (current text rest : List Char) :
    scan resolver field ⟨argv, current, some '"', true⟩
        ((text.flatMap fun c => if c = '"' ∨ c = '\\' then ['\\', c] else [c]) ++ '"' :: rest) =
      scan resolver field ⟨argv, current ++ text, none, true⟩ rest := by
  induction text generalizing current with
  | nil =>
    rw [List.flatMap_nil, List.nil_append, List.append_nil, scan.eq_def]
    simp
  | cons c text ih =>
    have hnext := ih (current ++ [c])
    rw [List.append_assoc, List.singleton_append] at hnext
    rw [List.flatMap_cons, List.append_assoc, ← hnext]
    by_cases hc : c = '"' ∨ c = '\\'
    · have hescapable : isEscapable c = true := by
        rcases hc with rfl | rfl <;> decide
      rw [if_pos hc, List.cons_append, List.singleton_append, scan.eq_def]
      simp [hescapable, Tokens.push]
    · rw [if_neg hc, List.singleton_append]
      rw [not_or] at hc
      rw [scan.eq_def]
      simp [hc.1, hc.2, Tokens.push]

theorem scan_doubleQuoted (argv : List String) (argument : String) (rest : List Char) :
    scan resolver field ⟨argv, [], none, false⟩ ((doubleQuoted argument).toList ++ rest) =
      scan resolver field ⟨argv, argument.toList, none, true⟩ rest := by
  have hescaped := @scan_escaped resolver field argv [] argument.toList rest
  rw [List.nil_append] at hescaped
  rw [← hescaped, doubleQuoted, String.toList_ofList, List.append_assoc, List.cons_append,
    scan.eq_def]
  simp

theorem toList_quotedCommand (argument : String) {rest : List String} (h : rest ≠ []) :
    (quotedCommand (argument :: rest)).toList =
      (doubleQuoted argument).toList ++ ' ' :: (quotedCommand rest).toList := by
  obtain ⟨next, others, rfl⟩ := List.exists_cons_of_ne_nil h
  unfold quotedCommand
  rw [List.map_cons, List.map_cons, Texts.join_cons_cons]
  simp

theorem scan_quotedCommand (argv init : List String) (last : String) :
    scan resolver field ⟨argv, [], none, false⟩ (quotedCommand (init ++ [last])).toList =
      .ok ⟨argv ++ init, last.toList, none, true⟩ := by
  induction init generalizing argv with
  | nil =>
    have hquoted := @scan_doubleQuoted resolver field argv last []
    have hcommand : (quotedCommand [last]).toList = (doubleQuoted last).toList ++ [] := by
      simp [quotedCommand, Texts.join]
    rw [List.nil_append, hcommand, hquoted, List.append_nil]
    simp [scan]
  | cons argument init ih =>
    have hspace : Texts.isWhitespace ' ' = true := by decide
    have hplain : ' ' ∉ shellSyntax := by decide
    have hrest := ih (argv ++ [argument])
    rw [List.append_assoc, List.singleton_append] at hrest
    rw [List.cons_append, toList_quotedCommand argument (by simp), scan_doubleQuoted,
      scan.eq_def, ← hrest]
    simp [hspace, hplain, Tokens.endToken]

/-- A list of arguments comes back from its quoted command. -/
theorem parseCommandArgv_quotedCommand (argv : List String) :
    parseCommandArgv resolver field (quotedCommand argv) = .ok argv := by
  unfold parseCommandArgv
  rcases List.eq_nil_or_concat argv with rfl | ⟨init, last, rfl⟩
  · rfl
  · rw [List.concat_eq_append, scan_quotedCommand]
    simp [Tokens.endToken]

end Quoted

section Acceptance

variable {resolver field : String}

/-- Where a reader of the command stands: within which quote, and after a backslash. -/
structure Quoting where
  quote : Option Char
  escaped : Bool

def Quoting.next (quoting : Quoting) (c : Char) : Quoting :=
  if quoting.escaped && isEscapable c then ⟨quoting.quote, false⟩
  else if c = '\\' then ⟨quoting.quote, true⟩
  else
    match quoting.quote with
    | some quoteChar => if c = quoteChar then ⟨none, false⟩ else ⟨some quoteChar, false⟩
    | none => if c = '\'' ∨ c = '"' then ⟨some c, false⟩ else ⟨none, false⟩

def quotingAfter (text : List Char) : Quoting := text.foldl Quoting.next ⟨none, false⟩

/-- Shell syntax stands within quotes, or is a line break after a backslash. -/
def Guarded (quoting : Quoting) (c : Char) : Prop :=
  c ∈ shellSyntax →
    quoting.quote.isSome = true ∨ quoting.escaped = true ∧ Texts.isWhitespace c = true

/-- All characters of a text are guarded, read from the given position on. -/
def AllGuarded : Quoting → List Char → Prop
  | _, [] => True
  | quoting, c :: rest => Guarded quoting c ∧ AllGuarded (quoting.next c) rest

def ShellSyntaxGuarded (command : String) : Prop :=
  ∀ before c after, command.toList = before ++ c :: after → Guarded (quotingAfter before) c

theorem allGuarded_iff {quoting : Quoting} {text : List Char} :
    AllGuarded quoting text ↔ ∀ before c after, text = before ++ c :: after →
      Guarded (before.foldl Quoting.next quoting) c := by
  induction text generalizing quoting with
  | nil => simp [AllGuarded]
  | cons first rest ih =>
    rw [AllGuarded, ih]
    constructor
    · rintro ⟨hfirst, hrest⟩ before c after htext
      cases before with
      | nil =>
        obtain ⟨rfl, rfl⟩ := List.cons.inj htext
        exact hfirst
      | cons b before =>
        obtain ⟨rfl, rfl⟩ := List.cons.inj htext
        exact hrest before c after rfl
    · intro h
      refine ⟨h [] first rest rfl, ?_⟩
      rintro before c after rfl
      exact h (first :: before) c after rfl

theorem not_mem_shellSyntax {c : Char} (h : c = '\'' ∨ c = '"' ∨ c = '\\') :
    c ∉ shellSyntax := by
  rcases h with rfl | rfl | rfl <;> decide

/-- After a backslash a character that cannot be escaped is read like any other. -/
theorem next_of_not_escapable {quote : Option Char} {c : Char} (h : isEscapable c = false) :
    Quoting.next ⟨quote, true⟩ c = Quoting.next ⟨quote, false⟩ c := by
  simp [Quoting.next, h]

theorem guarded_of_not_escapable {quote : Option Char} {c : Char} (h : isEscapable c = false) :
    Guarded ⟨quote, true⟩ c ↔ Guarded ⟨quote, false⟩ c := by
  have hspace : Texts.isWhitespace c = false := by
    simp only [isEscapable, Bool.or_eq_false_iff] at h
    exact h.1.1.1
  simp [Guarded, hspace]

/-- An escaped character is guarded: of the shell's syntax only line breaks can be escaped. -/
theorem guarded_of_escapable {quote : Option Char} {c : Char} (h : isEscapable c = true) :
    Guarded ⟨quote, true⟩ c := by
  intro hsyntax
  right
  refine ⟨rfl, ?_⟩
  simp only [isEscapable, Bool.or_eq_true, decide_eq_true_eq] at h
  rcases h with ((h | h) | h) | h
  · exact h
  · exact absurd hsyntax (not_mem_shellSyntax (Or.inl h))
  · exact absurd hsyntax (not_mem_shellSyntax (Or.inr (Or.inl h)))
  · exact absurd hsyntax (not_mem_shellSyntax (Or.inr (Or.inr h)))

theorem next_backslash (quote : Option Char) :
    Quoting.next ⟨quote, false⟩ '\\' = ⟨quote, true⟩ := by
  simp [Quoting.next]

theorem next_escaped {quote : Option Char} {c : Char} (h : isEscapable c = true) :
    Quoting.next ⟨quote, true⟩ c = ⟨quote, false⟩ := by
  simp [Quoting.next, h]

theorem allGuarded_backslash {quote : Option Char} {rest : List Char}
    (h : ∀ c ∈ rest.head?, isEscapable c = false) :
    AllGuarded ⟨quote, false⟩ ('\\' :: rest) ↔ AllGuarded ⟨quote, false⟩ rest := by
  have hbackslash : Guarded ⟨quote, false⟩ '\\' := fun hsyntax => absurd hsyntax (by decide)
  rw [AllGuarded, next_backslash, and_iff_right hbackslash]
  cases rest with
  | nil => rfl
  | cons c others =>
    have hc := h c rfl
    rw [AllGuarded, AllGuarded, guarded_of_not_escapable hc, next_of_not_escapable hc]

theorem foldl_next_backslash {quote : Option Char} {rest : List Char}
    (h : ∀ c ∈ rest.head?, isEscapable c = false) :
    (('\\' :: rest).foldl Quoting.next ⟨quote, false⟩).quote =
      (rest.foldl Quoting.next ⟨quote, false⟩).quote := by
  rw [List.foldl_cons, next_backslash]
  cases rest with
  | nil => rfl
  | cons c others =>
    rw [List.foldl_cons, List.foldl_cons, next_of_not_escapable (h c rfl)]

theorem allGuarded_escaped {quote : Option Char} {c : Char} {rest : List Char}
    (h : isEscapable c = true) :
    AllGuarded ⟨quote, false⟩ ('\\' :: c :: rest) ↔ AllGuarded ⟨quote, false⟩ rest := by
  have hbackslash : Guarded ⟨quote, false⟩ '\\' := fun hsyntax => absurd hsyntax (by decide)
  rw [AllGuarded, next_backslash, and_iff_right hbackslash, AllGuarded, next_escaped h,
    and_iff_right (guarded_of_escapable h)]

/-- Only the two quote characters open a quote. -/
def QuoteOpen (quote : Option Char) : Prop := ∀ c ∈ quote, c = '\'' ∨ c = '"'

theorem guarded_in_quote {quoteChar c : Char} : Guarded ⟨some quoteChar, false⟩ c :=
  fun _ => Or.inl rfl

theorem next_close {quoteChar : Char} (h : QuoteOpen (some quoteChar)) :
    Quoting.next ⟨some quoteChar, false⟩ quoteChar = ⟨none, false⟩ := by
  have hne : quoteChar ≠ '\\' := by
    rcases h quoteChar rfl with rfl | rfl <;> decide
  simp [Quoting.next, hne]

theorem next_in_quote {quoteChar c : Char} (hquote : c ≠ quoteChar) (hbackslash : c ≠ '\\') :
    Quoting.next ⟨some quoteChar, false⟩ c = ⟨some quoteChar, false⟩ := by
  simp [Quoting.next, hquote, hbackslash]

theorem next_open {c : Char} (h : c = '\'' ∨ c = '"') :
    Quoting.next ⟨none, false⟩ c = ⟨some c, false⟩ := by
  have hne : c ≠ '\\' := by
    rcases h with rfl | rfl <;> decide
  simp [Quoting.next, h, hne]

theorem next_bare {c : Char} (hquote : ¬(c = '\'' ∨ c = '"')) (hbackslash : c ≠ '\\') :
    Quoting.next ⟨none, false⟩ c = ⟨none, false⟩ := by
  simp [Quoting.next, hquote, hbackslash]

/-- What is known of a text that the loop has read to its end. -/
structure Scanned (tokens : Tokens) (text : List Char) (final : Tokens) : Prop where
  guarded : AllGuarded ⟨tokens.quote, false⟩ text
  quote : final.quote = (text.foldl Quoting.next ⟨tokens.quote, false⟩).quote
  content : ∃ kept, kept.Sublist text ∧ final.content = tokens.content ++ kept

/-- One character that is not a backslash is read, and kept or dropped. -/
theorem Scanned.cons {tokens read final : Tokens} {c : Char} {rest : List Char}
    (h : Scanned read rest final) (hguarded : Guarded ⟨tokens.quote, false⟩ c)
    (hnext : Quoting.next ⟨tokens.quote, false⟩ c = ⟨read.quote, false⟩)
    (hcontent : read.content = tokens.content ∨ read.content = tokens.content ++ [c]) :
    Scanned tokens (c :: rest) final := by
  obtain ⟨kept, hsublist, hkept⟩ := h.content
  refine ⟨⟨hguarded, by rw [hnext]; exact h.guarded⟩, ?_, ?_⟩
  · rw [List.foldl_cons, hnext, h.quote]
  · rcases hcontent with hdropped | hpushed
    · exact ⟨kept, hsublist.trans (List.sublist_cons_self c rest), by rw [hkept, hdropped]⟩
    · refine ⟨c :: kept, hsublist.cons_cons c, ?_⟩
      rw [hkept, hpushed, List.append_assoc, List.singleton_append]

/-- A backslash stands for itself where nothing after it can be escaped. -/
theorem Scanned.backslash {tokens final : Tokens} {rest : List Char}
    (hrest : ∀ c ∈ rest.head?, isEscapable c = false)
    (h : Scanned (tokens.push '\\') rest final) : Scanned tokens ('\\' :: rest) final := by
  obtain ⟨kept, hsublist, hkept⟩ := h.content
  refine ⟨(allGuarded_backslash hrest).mpr h.guarded, ?_, '\\' :: kept, ?_, ?_⟩
  · rw [foldl_next_backslash hrest]
    exact h.quote
  · exact hsublist.cons_cons _
  · rw [hkept, Tokens.content_push, List.append_assoc, List.singleton_append]

theorem Scanned.escaped {tokens final : Tokens} {c : Char} {rest : List Char}
    (hc : isEscapable c = true) (h : Scanned (tokens.push c) rest final) :
    Scanned tokens ('\\' :: c :: rest) final := by
  obtain ⟨kept, hsublist, hkept⟩ := h.content
  refine ⟨(allGuarded_escaped hc).mpr h.guarded, ?_, c :: kept, ?_, ?_⟩
  · rw [List.foldl_cons, next_backslash, List.foldl_cons, next_escaped hc]
    exact h.quote
  · exact (hsublist.cons_cons c).trans (List.sublist_cons_self _ _)
  · rw [hkept, Tokens.content_push, List.append_assoc, List.singleton_append]

theorem Scanned.nil (tokens : Tokens) : Scanned tokens [] tokens :=
  ⟨trivial, rfl, [], List.Sublist.slnil, (List.append_nil _).symm⟩

theorem scanned_of_scan {tokens final : Tokens} {text : List Char}
    (hopen : QuoteOpen tokens.quote) (h : scan resolver field tokens text = .ok final) :
    Scanned tokens text final := by
  fun_induction scan resolver field tokens text with
  | case1 tokens =>
    obtain rfl := Except.ok.inj h
    exact Scanned.nil tokens
  | case2 tokens rest quoteChar hquote ih =>
    rw [hquote] at hopen
    refine (ih (by simp [QuoteOpen]) h).cons ?_ ?_ (Or.inl rfl)
    · rw [hquote]
      exact guarded_in_quote
    · rw [hquote]
      exact next_close hopen
  | case3 tokens quoteChar hquote hne =>
    obtain rfl := Except.ok.inj h
    exact Scanned.backslash (by simp) (Scanned.nil _)
  | case4 tokens quoteChar hquote next others hnext hne ih =>
    exact Scanned.escaped hnext (ih hopen h)
  | case5 tokens quoteChar hquote next others hnext hne ih =>
    exact Scanned.backslash (by simpa using hnext) (ih hopen h)
  | case6 tokens c rest quoteChar hquote hne hbackslash ih =>
    refine (ih hopen h).cons ?_ ?_ (Or.inr (Tokens.content_push tokens c))
    · rw [hquote]
      exact guarded_in_quote
    · rw [Tokens.push_quote, hquote]
      exact next_in_quote hne hbackslash
  | case7 tokens c rest hquote hc ih =>
    refine (ih (by simpa [QuoteOpen] using hc) h).cons ?_ ?_ (Or.inl rfl)
    · intro hsyntax
      exact absurd hsyntax (not_mem_shellSyntax (by tauto))
    · rw [hquote]
      exact next_open hc
  | case8 tokens hquote hne =>
    obtain rfl := Except.ok.inj h
    exact Scanned.backslash (by simp) (Scanned.nil _)
  | case9 tokens hquote next others hnext hne ih =>
    exact Scanned.escaped hnext (ih hopen h)
  | case10 tokens hquote next others hnext hne ih =>
    exact Scanned.backslash (by simpa using hnext) (ih hopen h)
  | case11 tokens c rest hquote hc hbackslash hsyntax => cases h
  | case12 tokens c rest hquote hc hbackslash hsyntax hspace ih =>
    have hread := Tokens.content_endToken tokens
    refine (ih (by rwa [Tokens.endToken_quote]) h).cons (fun hmem => absurd hmem hsyntax) ?_
      (Or.inl hread)
    rw [Tokens.endToken_quote, hquote]
    exact next_bare hc hbackslash
  | case13 tokens c rest hquote hc hbackslash hsyntax hspace ih =>
    refine (ih hopen h).cons (fun hmem => absurd hmem hsyntax) ?_
      (Or.inr (Tokens.content_push tokens c))
    rw [Tokens.push_quote, hquote]
    exact next_bare hc hbackslash

/-- The loop stops early at nothing but shell syntax that is not guarded. -/
theorem exists_scan {tokens : Tokens} {text : List Char} (hopen : QuoteOpen tokens.quote)
    (h : AllGuarded ⟨tokens.quote, false⟩ text) :
    ∃ final, scan resolver field tokens text = .ok final := by
  fun_induction scan resolver field tokens text with
  | case1 tokens => exact ⟨tokens, rfl⟩
  | case2 tokens rest quoteChar hquote ih =>
    rw [hquote] at hopen h
    refine ih (by simp [QuoteOpen]) ?_
    rw [← next_close hopen]
    exact h.2
  | case3 tokens quoteChar hquote hne => exact ⟨_, rfl⟩
  | case4 tokens quoteChar hquote next others hnext hne ih =>
    exact ih hopen ((allGuarded_escaped hnext).mp h)
  | case5 tokens quoteChar hquote next others hnext hne ih =>
    exact ih hopen ((allGuarded_backslash (by simpa using hnext)).mp h)
  | case6 tokens c rest quoteChar hquote hne hbackslash ih =>
    refine ih hopen ?_
    rw [hquote] at h
    rw [Tokens.push_quote, hquote, ← next_in_quote hne hbackslash]
    exact h.2
  | case7 tokens c rest hquote hc ih =>
    refine ih (by simpa [QuoteOpen] using hc) ?_
    rw [hquote] at h
    rw [← next_open hc]
    exact h.2
  | case8 tokens hquote hne => exact ⟨_, rfl⟩
  | case9 tokens hquote next others hnext hne ih =>
    exact ih hopen ((allGuarded_escaped hnext).mp h)
  | case10 tokens hquote next others hnext hne ih =>
    exact ih hopen ((allGuarded_backslash (by simpa using hnext)).mp h)
  | case11 tokens c rest hquote hc hbackslash hsyntax =>
    rw [hquote] at h
    have hguarded := h.1 hsyntax
    simp at hguarded
  | case12 tokens c rest hquote hc hbackslash hsyntax hspace ih =>
    refine ih (by rwa [Tokens.endToken_quote]) ?_
    rw [hquote] at h
    rw [Tokens.endToken_quote, hquote, ← next_bare hc hbackslash]
    exact h.2
  | case13 tokens c rest hquote hc hbackslash hsyntax hspace ih =>
    refine ih hopen ?_
    rw [hquote] at h
    rw [Tokens.push_quote, hquote, ← next_bare hc hbackslash]
    exact h.2

/-- A command is accepted where its shell syntax is guarded and its last quote is closed. -/
theorem exists_parseCommandArgv_iff {command : String} :
    (∃ argv, parseCommandArgv resolver field command = .ok argv) ↔
      ShellSyntaxGuarded command ∧ (quotingAfter command.toList).quote = none := by
  have hopen : QuoteOpen none := by simp [QuoteOpen]
  have hguarded : AllGuarded ⟨none, false⟩ command.toList ↔ ShellSyntaxGuarded command :=
    allGuarded_iff
  unfold parseCommandArgv
  constructor
  · rintro ⟨argv, h⟩
    cases hscan : scan resolver field ⟨[], [], none, false⟩ command.toList with
    | error error => simp [hscan] at h
    | ok final =>
      have hscanned := scanned_of_scan hopen hscan
      refine ⟨hguarded.mp hscanned.guarded, ?_⟩
      rw [quotingAfter, ← hscanned.quote]
      cases hquote : final.quote with
      | none => rfl
      | some quoteChar => simp [hscan, hquote] at h
  · rintro ⟨hquoted, hclosed⟩
    obtain ⟨final, hscan⟩ : ∃ final,
        scan resolver field ⟨[], [], none, false⟩ command.toList = .ok final :=
      exists_scan hopen (hguarded.mpr hquoted)
    have hquote : final.quote = none := by
      rw [← hclosed]
      exact (scanned_of_scan hopen hscan).quote
    exact ⟨final.endToken.argv, by simp [hscan, hquote]⟩

/-- Of the characters of a command only quotes, backslashes and white space are left out. -/
theorem sublist_of_parseCommandArgv {command : String} {argv : List String}
    (h : parseCommandArgv resolver field command = .ok argv) :
    (argv.flatMap String.toList).Sublist command.toList := by
  unfold parseCommandArgv at h
  cases hscan : scan resolver field ⟨[], [], none, false⟩ command.toList with
  | error error => simp [hscan] at h
  | ok final =>
    obtain ⟨kept, hsublist, hkept⟩ := (scanned_of_scan (by simp [QuoteOpen]) hscan).content
    have hcontent : final.content = kept := by simpa [Tokens.content] using hkept
    have hargv : final.endToken.argv = argv := by
      cases hquote : final.quote with
      | none => simpa [hscan, hquote] using h
      | some quoteChar => simp [hscan, hquote] at h
    have hprefix : argv.flatMap String.toList <+: final.content := by
      rw [← Tokens.content_endToken, Tokens.content, hargv]
      exact List.prefix_append _ _
    rw [hcontent] at hprefix
    exact hprefix.sublist.trans hsublist

/-- The tokenizer reads what was quoted, and nothing that a shell would act on. -/
theorem commands_read_without_shell (resolver field : String) :
    (∀ argv, parseCommandArgv resolver field (quotedCommand argv) = .ok argv) ∧
      (∀ command, (∃ argv, parseCommandArgv resolver field command = .ok argv) ↔
        ShellSyntaxGuarded command ∧ (quotingAfter command.toList).quote = none) ∧
      ∀ command argv, parseCommandArgv resolver field command = .ok argv →
        (argv.flatMap String.toList).Sublist command.toList :=
  ⟨parseCommandArgv_quotedCommand, fun _ => exists_parseCommandArgv_iff,
    fun _ _ => sublist_of_parseCommandArgv⟩

/-- A line break after a backslash is accepted outside of quotes. -/
theorem line_break_accepted :
    parseCommandArgv "cmd" "field" "echo a\\\nb" = .ok ["echo", "a\nb"] ∧
      ∃ before c after, "echo a\\\nb".toList = before ++ c :: after ∧ c ∈ shellSyntax ∧
        (quotingAfter before).quote = none := by
  refine ⟨by decide +kernel, "echo a\\".toList, '\n', ['b'], rfl, ?_, ?_⟩
  · decide
  · decide

end Acceptance

end Esdiag.CommandArgv
