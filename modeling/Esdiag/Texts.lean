import Mathlib.Algebra.Ring.Nat
import Mathlib.Data.List.DropRight
import Mathlib.Data.String.Basic

/-!
Text operations with the meaning the Rust standard library gives them, on
lists of characters. Trimming removes characters of a class from both ends;
trimming twice is trimming once, which the round trips over form fields use.
-/
namespace Esdiag.Texts

variable {α : Type*}

def trimList (p : α → Bool) (text : List α) : List α := (text.dropWhile p).rdropWhile p

theorem dropWhile_rdropWhile_dropWhile (p : α → Bool) (text : List α) :
    ((text.dropWhile p).rdropWhile p).dropWhile p = (text.dropWhile p).rdropWhile p := by
  cases hdrop : text.dropWhile p with
  | nil => simp
  | cons head rest =>
    have hhead : p head = false := by
      have h := List.head?_dropWhile_not p text
      simpa [hdrop] using h
    have hprefix : (head :: rest).rdropWhile p <+: head :: rest := List.rdropWhile_prefix _ _
    cases htrim : (head :: rest).rdropWhile p with
    | nil => simp
    | cons first others =>
      rw [htrim] at hprefix
      obtain ⟨tail, htail⟩ := hprefix
      have hfirst : first = head := by simpa using (List.cons.inj htail).1
      simp [hfirst, hhead]

theorem trimList_trimList (p : α → Bool) (text : List α) :
    trimList p (trimList p text) = trimList p text := by
  unfold trimList
  rw [dropWhile_rdropWhile_dropWhile, List.rdropWhile_idempotent]

/-- The characters with the Unicode property `White_Space`. -/
def isWhitespace (c : Char) : Bool :=
  let n := c.toNat
  (9 ≤ n && n ≤ 13) || n == 0x20 || n == 0x85 || n == 0xA0 || n == 0x1680 ||
    (0x2000 ≤ n && n ≤ 0x200A) || n == 0x2028 || n == 0x2029 || n == 0x202F ||
    n == 0x205F || n == 0x3000

def trim (text : String) : String := String.ofList (trimList isWhitespace text.toList)

/-- A text that is empty once trimmed. -/
def isBlank (text : String) : Bool := (trim text).toList.isEmpty

@[simp] theorem trim_trim (text : String) : trim (trim text) = trim text := by
  simp only [trim, String.toList_ofList, trimList_trimList]

/-- A text that neither begins nor ends with white space is trimmed already. -/
theorem trim_eq_self {text : String} {first last : Char} {middle : List Char}
    (htext : text.toList = first :: middle ++ [last]) (hfirst : isWhitespace first = false)
    (hlast : isWhitespace last = false) : trim text = text := by
  have hkept : (first :: (middle ++ [last])).rdropWhile isWhitespace =
      first :: (middle ++ [last]) :=
    List.rdropWhile_concat_neg (l := first :: middle) isWhitespace last (by simp [hlast])
  rw [trim, trimList, htext, List.cons_append, List.dropWhile_cons, hfirst]
  simp only [Bool.false_eq_true, if_false]
  rw [hkept, ← List.cons_append, ← htext, String.ofList_toList]

@[simp] theorem isBlank_trim (text : String) : isBlank (trim text) = isBlank text := by
  simp only [isBlank, trim_trim]

/-- Letters of the ASCII range in lowercase. -/
def toAsciiLowercase (text : String) : String := String.ofList (text.toList.map Char.toLower)

/-- The Kelvin sign is the one other character whose lowercase is in the ASCII range. -/
def lowerChar (c : Char) : Char := if c = '\u212A' then 'k' else c.toLower

/-- Lowercase, as far as it is compared with texts of the ASCII range. -/
def toLowercase (text : String) : String := String.ofList (text.toList.map lowerChar)

theorem toLowercase_of_toAsciiLowercase {text lowered : String}
    (h : toAsciiLowercase text = lowered) (hkelvin : '\u212A' ∉ lowered.toList) :
    toLowercase text = lowered := by
  subst h
  rw [toAsciiLowercase, String.toList_ofList, List.mem_map] at hkelvin
  unfold toLowercase toAsciiLowercase
  congr 1
  refine List.map_congr_left fun c hc => if_neg ?_
  rintro rfl
  exact hkelvin ⟨'\u212A', hc, by decide⟩

/-- What follows a given prefix. -/
def stripPrefixList [DecidableEq α] : List α → List α → Option (List α)
  | [], text => some text
  | _ :: _, [] => none
  | a :: start, b :: text => if a = b then stripPrefixList start text else none

theorem stripPrefixList_append [DecidableEq α] (start rest : List α) :
    stripPrefixList start (start ++ rest) = some rest := by
  induction start with
  | nil => rfl
  | cons a start ih => simpa [stripPrefixList] using ih

def stripPrefix (start text : String) : Option String :=
  (stripPrefixList start.toList text.toList).map String.ofList

/-- The parts before and after the first separator. -/
def splitOnceList [DecidableEq α] (sep : α) : List α → Option (List α × List α)
  | [] => none
  | a :: rest =>
    if a = sep then some ([], rest)
    else (splitOnceList sep rest).map fun parts => (a :: parts.1, parts.2)

theorem splitOnceList_append [DecidableEq α] {sep : α} {part : List α} (rest : List α)
    (h : sep ∉ part) : splitOnceList sep (part ++ sep :: rest) = some (part, rest) := by
  induction part with
  | nil => simp [splitOnceList]
  | cons a part ih =>
    rw [List.mem_cons, not_or] at h
    rw [List.cons_append, splitOnceList, if_neg (Ne.symm h.1), ih h.2]
    rfl

theorem splitOnceList_of_notMem [DecidableEq α] {sep : α} {text : List α} (h : sep ∉ text) :
    splitOnceList sep text = none := by
  induction text with
  | nil => rfl
  | cons a text ih =>
    rw [List.mem_cons, not_or] at h
    rw [splitOnceList, if_neg (Ne.symm h.1), ih h.2]
    rfl

def splitOnce (sep : Char) (text : String) : Option (String × String) :=
  (splitOnceList sep text.toList).map fun parts =>
    (String.ofList parts.1, String.ofList parts.2)

/-- The parts before and after the last separator. -/
def rsplitOnce (sep : Char) (text : String) : Option (String × String) :=
  (splitOnceList sep text.toList.reverse).map fun parts =>
    (String.ofList parts.2.reverse, String.ofList parts.1.reverse)

theorem stripPrefixList_eq_some [DecidableEq α] {start text rest : List α}
    (h : stripPrefixList start text = some rest) : text = start ++ rest := by
  induction start generalizing text with
  | nil => exact Option.some.inj h
  | cons a start ih =>
    cases text with
    | nil => exact absurd h (by simp [stripPrefixList])
    | cons b text =>
      rw [stripPrefixList] at h
      by_cases hhead : a = b
      · rw [if_pos hhead] at h
        rw [← hhead, ih h, List.cons_append]
      · rw [if_neg hhead] at h
        exact absurd h (by simp)

theorem stripPrefix_eq_some {start text rest : String} :
    stripPrefix start text = some rest ↔ text = start ++ rest := by
  unfold stripPrefix
  constructor
  · intro h
    obtain ⟨tail, htail, rfl⟩ := Option.map_eq_some_iff.mp h
    apply String.toList_inj.mp
    rw [stripPrefixList_eq_some htail, String.toList_append, String.toList_ofList]
  · rintro rfl
    rw [String.toList_append, stripPrefixList_append, Option.map_some, String.ofList_toList]

theorem splitOnceList_eq_some [DecidableEq α] {sep : α} {text before after : List α}
    (h : splitOnceList sep text = some (before, after)) :
    text = before ++ sep :: after ∧ sep ∉ before := by
  induction text generalizing before with
  | nil => exact absurd h (by simp [splitOnceList])
  | cons a rest ih =>
    rw [splitOnceList] at h
    by_cases hsep : a = sep
    · rw [if_pos hsep, Option.some.injEq, Prod.mk.injEq] at h
      obtain ⟨rfl, rfl⟩ := h
      exact ⟨by rw [hsep, List.nil_append], List.not_mem_nil⟩
    · rw [if_neg hsep] at h
      obtain ⟨parts, hparts, heq⟩ := Option.map_eq_some_iff.mp h
      obtain ⟨rfl, rfl⟩ := Prod.mk.inj heq
      obtain ⟨hrest, hnot⟩ := ih hparts
      refine ⟨by rw [hrest, List.cons_append], ?_⟩
      rw [List.mem_cons, not_or]
      exact ⟨Ne.symm hsep, hnot⟩

theorem rsplitOnce_eq_some {sep : Char} {text before after : String} :
    rsplitOnce sep text = some (before, after) ↔
      text = before ++ String.singleton sep ++ after ∧ sep ∉ after.toList := by
  unfold rsplitOnce
  constructor
  · intro h
    obtain ⟨⟨last, first⟩, hparts, heq⟩ := Option.map_eq_some_iff.mp h
    obtain ⟨rfl, rfl⟩ := Prod.mk.inj heq
    obtain ⟨hreverse, hnot⟩ := splitOnceList_eq_some hparts
    have hlist := congrArg List.reverse hreverse
    rw [List.reverse_reverse, List.reverse_append, List.reverse_cons] at hlist
    refine ⟨?_, by rwa [String.toList_ofList, List.mem_reverse]⟩
    apply String.toList_inj.mp
    simp only [String.toList_append, String.toList_ofList, String.toList_singleton]
    exact hlist
  · rintro ⟨rfl, hnot⟩
    have hreverse : (before ++ String.singleton sep ++ after).toList.reverse =
        after.toList.reverse ++ sep :: before.toList.reverse := by
      simp [String.toList_append]
    have hsplit := splitOnceList_append before.toList.reverse
      (fun hmem => hnot (List.mem_reverse.mp hmem))
    rw [hreverse, hsplit, Option.map_some, List.reverse_reverse, List.reverse_reverse,
      String.ofList_toList, String.ofList_toList]

def endsWith (text ending : String) : Bool := ending.toList.isSuffixOf text.toList

def containsList [DecidableEq α] (part : List α) : List α → Bool
  | [] => part.isEmpty
  | a :: rest => part.isPrefixOf (a :: rest) || containsList part rest

def contains (text part : String) : Bool := containsList part.toList text.toList

/-- Every occurrence of a part replaced, from the left; the count is of the characters
still to drop from the occurrence that was replaced last. -/
def replaceList [DecidableEq α] (part new : List α) : ℕ → List α → List α
  | _, [] => []
  | drop + 1, _ :: rest => replaceList part new drop rest
  | 0, a :: rest =>
    if part.isPrefixOf (a :: rest) then new ++ replaceList part new (part.length - 1) rest
    else a :: replaceList part new 0 rest

def replace (part new text : String) : String :=
  String.ofList (replaceList part.toList new.toList 0 text.toList)

/-- All parts between separators; a text without one is a single part. -/
def splitList [DecidableEq α] (sep : α) : List α → List (List α)
  | [] => [[]]
  | a :: rest =>
    match splitList sep rest with
    | [] => [[a]]
    | part :: parts => if a = sep then [] :: part :: parts else (a :: part) :: parts

def split (sep : Char) (text : String) : List String :=
  (splitList sep text.toList).map String.ofList

/-- The parts with a separator between each two. -/
def join (sep : String) (parts : List String) : String :=
  String.ofList ((parts.map String.toList).intersperse sep.toList).flatten

theorem splitList_of_notMem [DecidableEq α] {sep : α} {part : List α} (h : sep ∉ part) :
    splitList sep part = [part] := by
  induction part with
  | nil => rfl
  | cons a rest ih =>
    have hrest := ih fun hmem => h (List.mem_cons_of_mem a hmem)
    have ha : a ≠ sep := fun heq => h (heq ▸ List.mem_cons_self)
    simp only [splitList, hrest, if_neg ha]

theorem splitList_ne_nil [DecidableEq α] (sep : α) (text : List α) : splitList sep text ≠ [] := by
  cases text with
  | nil => exact List.cons_ne_nil _ _
  | cons a text =>
    unfold splitList
    split
    · exact List.cons_ne_nil _ _
    · split <;> exact List.cons_ne_nil _ _

theorem splitList_append [DecidableEq α] {sep : α} {part : List α} (rest : List α)
    (h : sep ∉ part) : splitList sep (part ++ sep :: rest) = part :: splitList sep rest := by
  induction part with
  | nil =>
    obtain ⟨first, others, hfirst⟩ := List.exists_cons_of_ne_nil (splitList_ne_nil sep rest)
    simp only [List.nil_append, splitList, hfirst, if_true]
  | cons a part ih =>
    have hpart := ih fun hmem => h (List.mem_cons_of_mem a hmem)
    have ha : a ≠ sep := fun heq => h (heq ▸ List.mem_cons_self)
    simp only [List.cons_append, splitList, hpart, if_neg ha]

/-- Parts without the separator come back from their joined text. -/
theorem split_join (sep : Char) {parts : List String} (hne : parts ≠ [])
    (h : ∀ part ∈ parts, sep ∉ part.toList) :
    split sep (join (String.singleton sep) parts) = parts := by
  have hlists : ∀ texts : List (List Char), texts ≠ [] → (∀ text ∈ texts, sep ∉ text) →
      splitList sep (texts.intersperse [sep]).flatten = texts := by
    intro texts
    induction texts with
    | nil => exact fun hnil => absurd rfl hnil
    | cons text rest ih =>
      intro _ htexts
      have htext := htexts text List.mem_cons_self
      cases rest with
      | nil => simpa using splitList_of_notMem htext
      | cons next others =>
        have hrest := ih (List.cons_ne_nil _ _) fun one hone =>
          htexts one (List.mem_cons_of_mem text hone)
        rw [List.intersperse_cons_cons, List.flatten_cons, List.flatten_cons,
          List.singleton_append, splitList_append _ htext, hrest]
  have hmapped : parts.map String.toList ≠ [] := by
    rwa [Ne, List.map_eq_nil_iff]
  have hall : ∀ text ∈ parts.map String.toList, sep ∉ text := by
    intro text htext
    obtain ⟨part, hpart, rfl⟩ := List.mem_map.mp htext
    exact h part hpart
  rw [split, join, String.toList_ofList, String.toList_singleton, hlists _ hmapped hall,
    List.map_map]
  have hid : String.ofList ∘ String.toList = id := by
    funext text
    exact String.ofList_toList
  rw [hid, List.map_id]

theorem notMem_of_mem_splitList [DecidableEq α] {sep : α} {part text : List α}
    (h : part ∈ splitList sep text) : sep ∉ part := by
  induction text generalizing part with
  | nil =>
    obtain rfl := List.mem_singleton.mp h
    exact List.not_mem_nil
  | cons a rest ih =>
    obtain ⟨first, parts, hrest⟩ := List.exists_cons_of_ne_nil (splitList_ne_nil sep rest)
    unfold splitList at h
    rw [hrest] at h ih
    by_cases ha : a = sep
    · simp only [ha, if_true, List.mem_cons] at h
      rcases h with rfl | h
      · exact List.not_mem_nil
      · exact ih (List.mem_cons.mpr h)
    · simp only [if_neg ha, List.mem_cons] at h
      rcases h with rfl | h
      · have hfirst := ih List.mem_cons_self
        simp [Ne.symm ha, hfirst]
      · exact ih (List.mem_cons_of_mem first h)

theorem notMem_of_mem_split {sep : Char} {part text : String} (h : part ∈ split sep text) :
    sep ∉ part.toList := by
  obtain ⟨chars, hchars, rfl⟩ := List.mem_map.mp h
  rw [String.toList_ofList]
  exact notMem_of_mem_splitList hchars

theorem mem_of_mem_trim {c : Char} {text : String} (h : c ∈ (trim text).toList) :
    c ∈ text.toList := by
  rw [trim, String.toList_ofList, trimList] at h
  exact (List.dropWhile_suffix _).subset ((List.rdropWhile_prefix _ _).subset h)

/-- A single character is replaced wherever it stands. -/
theorem replaceList_singleton [DecidableEq α] (a : α) (new text : List α) :
    replaceList [a] new 0 text = text.flatMap fun b => if b = a then new else [b] := by
  induction text with
  | nil => rfl
  | cons b rest ih =>
    rw [List.flatMap_cons, ← ih]
    by_cases hb : b = a
    · subst hb
      simp [replaceList]
    · have hprefix : [a].isPrefixOf (b :: rest) = false := by
        simpa [List.isPrefixOf] using Ne.symm hb
      simp [replaceList, hprefix, hb]

/-- The words between characters of white space. -/
def words (text : List Char) : List (List Char) :=
  (text.splitOnP isWhitespace).filter fun word => !word.isEmpty

def splitWhitespace (text : String) : List String := (words text.toList).map String.ofList

theorem words_append_cons {c : Char} (hc : isWhitespace c = true) (left right : List Char) :
    words (left ++ c :: right) = words left ++ words right := by
  unfold words
  rw [List.splitOnP_append_cons _ _ hc, List.filter_append]

theorem words_cons {c : Char} (hc : isWhitespace c = true) (text : List Char) :
    words (c :: text) = words text := words_append_cons hc [] text

theorem words_concat {c : Char} (hc : isWhitespace c = true) (text : List Char) :
    words (text ++ [c]) = words text := by
  rw [words_append_cons hc]
  exact List.append_nil _

theorem words_eq_singleton {word : List Char} (hne : word ≠ [])
    (hword : ∀ c ∈ word, isWhitespace c = false) : words word = [word] := by
  unfold words
  rw [List.splitOnP_eq_singleton hword]
  simp [hne]

theorem words_replicate_append (n : ℕ) (text : List Char) :
    words (List.replicate n ' ' ++ text) = words text := by
  induction n with
  | zero => rfl
  | succ n ih =>
    rw [List.replicate_succ, List.cons_append, words_cons (by decide), ih]

theorem words_append_replicate (n : ℕ) (text : List Char) :
    words (text ++ List.replicate n ' ') = words text := by
  induction n with
  | zero => rw [List.replicate_zero, List.append_nil]
  | succ n ih =>
    rw [List.replicate_succ', ← List.append_assoc, words_concat (by decide), ih]

section Bytes

theorem loop_toList (bytes : ByteArray) (left : ℕ) :
    ∀ i read, bytes.size - i = left →
      ByteArray.toList.loop bytes i read = read.reverse ++ bytes.data.toList.drop i := by
  have hsize : bytes.data.toList.length = bytes.size := rfl
  induction left with
  | zero =>
    intro i read hleft
    rw [ByteArray.toList.loop, if_neg (by omega), List.drop_eq_nil_of_le (by omega),
      List.append_nil]
  | succ left ih =>
    intro i read hleft
    have hi : i < bytes.data.toList.length := by omega
    have hbyte : bytes.get! i = bytes.data.toList[i] := by
      change bytes.data[i]! = _
      rw [getElem!_pos bytes.data i hi, Array.getElem_toList]
    rw [ByteArray.toList.loop, if_pos (by omega), ih (i + 1) _ (by omega), List.reverse_cons,
      List.append_assoc, List.drop_eq_getElem_cons hi, hbyte, List.singleton_append]

theorem toList_eq_data (bytes : ByteArray) : bytes.toList = bytes.data.toList :=
  loop_toList bytes bytes.size 0 [] rfl

theorem bytes_ofList (chars : List Char) :
    (String.ofList chars).toByteArray.data.toList = chars.flatMap String.utf8EncodeChar := by
  rw [String.toByteArray_ofList, List.utf8Encode, List.toList_data_toByteArray]

theorem toList_toUTF8 (text : String) :
    text.toUTF8.toList = text.toList.flatMap String.utf8EncodeChar := by
  have hbytes := bytes_ofList text.toList
  rw [String.ofList_toList] at hbytes
  rw [String.toUTF8_eq_toByteArray, toList_eq_data, hbytes]

theorem utf8EncodeChar_of_lt {c : Char} (h : c.toNat < 128) :
    String.utf8EncodeChar c = [UInt8.ofNat c.toNat] := by
  unfold String.utf8EncodeChar
  rw [if_pos (show c.val.toNat ≤ 127 from Nat.le_of_lt_succ h)]
  rfl

theorem le_toNat_ofNat {n : ℕ} (hlow : 128 ≤ n) (hhigh : n < 256) :
    128 ≤ (UInt8.ofNat n).toNat := by
  rw [UInt8.toNat_ofNat', Nat.mod_eq_of_lt hhigh]
  exact hlow

/-- Every byte of a character beyond ASCII has its high bit set. -/
theorem le_of_mem_utf8EncodeChar {c : Char} (h : 128 ≤ c.toNat) {byte : UInt8}
    (hmem : byte ∈ String.utf8EncodeChar c) : 128 ≤ byte.toNat := by
  change 128 ≤ c.val.toNat at h
  unfold String.utf8EncodeChar at hmem
  dsimp only at hmem
  generalize c.val.toNat = v at h hmem
  rw [if_neg (by omega)] at hmem
  split at hmem
  · simp only [List.mem_cons, List.not_mem_nil, or_false] at hmem
    rcases hmem with rfl | rfl <;> exact le_toNat_ofNat (by omega) (by omega)
  split at hmem
  · simp only [List.mem_cons, List.not_mem_nil, or_false] at hmem
    rcases hmem with rfl | rfl | rfl <;> exact le_toNat_ofNat (by omega) (by omega)
  · simp only [List.mem_cons, List.not_mem_nil, or_false] at hmem
    rcases hmem with rfl | rfl | rfl | rfl <;> exact le_toNat_ofNat (by omega) (by omega)

/-- A byte of ASCII is no part of another character. -/
theorem toNat_eq_of_mem_utf8EncodeChar {c : Char} {byte : UInt8} (hbyte : byte.toNat < 128)
    (h : byte ∈ String.utf8EncodeChar c) : c.toNat = byte.toNat := by
  have hc : c.toNat < 128 := by
    by_contra hlarge
    have hhigh := le_of_mem_utf8EncodeChar (Nat.le_of_not_lt hlarge) h
    omega
  rw [utf8EncodeChar_of_lt hc, List.mem_singleton] at h
  rw [h, UInt8.toNat_ofNat', Nat.mod_eq_of_lt (by omega)]

theorem utf8ByteSize_eq (text : String) :
    text.utf8ByteSize = (text.toList.map Char.utf8Size).sum := by
  have hbytes := congrArg List.length (bytes_ofList text.toList)
  rw [String.ofList_toList, List.length_flatMap] at hbytes
  simp only [String.length_utf8EncodeChar] at hbytes
  exact hbytes

/-- The parts before and from a byte index, unless it is past the end or within
a character. -/
def splitAtList : ℕ → List Char → Option (List Char × List Char)
  | 0, text => some ([], text)
  | _ + 1, [] => none
  | index + 1, c :: rest =>
    if c.utf8Size ≤ index + 1 then
      (splitAtList (index + 1 - c.utf8Size) rest).map fun parts => (c :: parts.1, parts.2)
    else none

def splitAt (index : ℕ) (text : String) : Option (String × String) :=
  (splitAtList index text.toList).map fun parts =>
    (String.ofList parts.1, String.ofList parts.2)

theorem splitAtList_append (left right : List Char) :
    splitAtList (left.map Char.utf8Size).sum (left ++ right) = some (left, right) := by
  induction left with
  | nil => cases right <;> rfl
  | cons c left ih =>
    have hpos := c.utf8Size_pos
    obtain ⟨index, hindex⟩ : ∃ index, c.utf8Size + (left.map Char.utf8Size).sum = index + 1 :=
      ⟨c.utf8Size + (left.map Char.utf8Size).sum - 1, by omega⟩
    have hrest : index + 1 - c.utf8Size = (left.map Char.utf8Size).sum := by omega
    rw [List.map_cons, List.sum_cons, hindex, List.cons_append, splitAtList,
      if_pos (by omega), hrest, ih]
    rfl

theorem splitAtList_eq_some {index : ℕ} {text left right : List Char}
    (h : splitAtList index text = some (left, right)) :
    text = left ++ right ∧ (left.map Char.utf8Size).sum = index := by
  induction text generalizing index left with
  | nil =>
    cases index with
    | zero =>
      cases h
      exact ⟨rfl, rfl⟩
    | succ index => cases h
  | cons c rest ih =>
    cases index with
    | zero =>
      cases h
      exact ⟨rfl, rfl⟩
    | succ index =>
      rw [splitAtList] at h
      by_cases hfits : c.utf8Size ≤ index + 1
      · rw [if_pos hfits] at h
        obtain ⟨parts, hparts, heq⟩ := Option.map_eq_some_iff.mp h
        obtain ⟨rfl, rfl⟩ := Prod.mk.inj heq
        obtain ⟨hrest, hsum⟩ := ih hparts
        refine ⟨by rw [hrest, List.cons_append], ?_⟩
        rw [List.map_cons, List.sum_cons, hsum]
        omega
      · rw [if_neg hfits] at h
        cases h

theorem splitAt_eq_some {index : ℕ} {text left right : String} :
    splitAt index text = some (left, right) ↔
      text = left ++ right ∧ left.utf8ByteSize = index := by
  rw [utf8ByteSize_eq]
  unfold splitAt
  constructor
  · intro h
    obtain ⟨parts, hparts, heq⟩ := Option.map_eq_some_iff.mp h
    obtain ⟨rfl, rfl⟩ := Prod.mk.inj heq
    obtain ⟨htext, hsum⟩ := splitAtList_eq_some hparts
    refine ⟨?_, by rwa [String.toList_ofList]⟩
    apply String.toList_inj.mp
    rw [htext, String.toList_append, String.toList_ofList, String.toList_ofList]
  · rintro ⟨rfl, rfl⟩
    rw [String.toList_append, splitAtList_append, Option.map_some, String.ofList_toList,
      String.ofList_toList]

/-- The bytes of parts with a comma before each, but not before the first of all. -/
def separatedSize : (first : Bool) → List String → ℕ
  | _, [] => 0
  | first, part :: rest =>
    (if first then 0 else 1) + part.utf8ByteSize + separatedSize false rest

theorem join_cons_cons (sep part next : String) (rest : List String) :
    join sep (part :: next :: rest) = part ++ sep ++ join sep (next :: rest) := by
  apply String.toList_inj.mp
  simp [join]

theorem utf8ByteSize_join (parts : List String) :
    (join "," parts).utf8ByteSize = separatedSize true parts := by
  induction parts with
  | nil => rfl
  | cons part rest ih =>
    cases rest with
    | nil =>
      have hjoin : join "," [part] = part := by
        apply String.toList_inj.mp
        simp [join]
      rw [hjoin]
      simp [separatedSize]
    | cons next rest =>
      have hcomma : (",": String).utf8ByteSize = 1 := by decide
      rw [join_cons_cons, String.utf8ByteSize_append, String.utf8ByteSize_append, ih, hcomma]
      simp [separatedSize]
      omega

end Bytes

end Esdiag.Texts
