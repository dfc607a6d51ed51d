import Mathlib.Algebra.Group.Nat.Defs
import Mathlib.Data.List.Basic
import Mathlib.Data.List.Infix

/-!
# Reading texts

The Worker reads what is configured and what it is sent by splitting texts, and reads numbers in
the parts.
-/

namespace Gpq

/-- What is behind a prefix of a text. -/
def stripPrefix (pre s : String) : Option String :=
  if pre.toList <+: s.toList then some (String.ofList (s.toList.drop pre.toList.length)) else none

/-- The parts of a text between such characters. -/
def splitChar (sep : Char) (s : String) : List String := (s.toList.splitOn sep).map String.ofList

/-- What is before the first such character, and what is behind it. -/
def splitOnce (sep : Char) : List Char → Option (List Char × List Char)
  | [] => none
  | c :: line => if c = sep then some ([], line)
    else (splitOnce sep line).map fun (a, b) => (c :: a, b)

/-- Another digit of a number of so many bits. -/
def pushDigit (bits n : ℕ) (c : Char) : Except String ℕ :=
  if ¬ c.isDigit then .error "invalid digit found in string"
  else if 2 ^ bits ≤
    n * 10 + (c.toNat - '0'.toNat) then .error "number too large to fit in target type"
  else .ok (n * 10 + (c.toNat - '0'.toNat))

/-- The number of so many bits that a text writes. -/
def parseUnsigned (bits : ℕ) (text : List Char) : Except String ℕ :=
  match text with
  | [] => .error "cannot parse integer from empty string"
  | ['+'] => .error "invalid digit found in string"
  | '+' :: digits => digits.foldlM (pushDigit bits) 0
  | digits => digits.foldlM (pushDigit bits) 0

/-- The characters of a text, with ASCII letters in lower case. -/
def asciiLowercase (s : String) : List Char := s.toList.map Char.toLower

/-- Texts that differ in the case of ASCII letters only. -/
def eqIgnoreAsciiCase (s t : String) : Bool := asciiLowercase s = asciiLowercase t

/-- A line is parted at its first such character. -/
theorem splitOnce_append {sep : Char} {before : List Char} (h : sep ∉ before) (after : List Char) :
    splitOnce sep (before ++ sep :: after) = some (before, after) := by
  induction before with
  | nil => exact if_pos rfl
  | cons c before ih =>
    obtain ⟨hne, hmem⟩ := List.ne_and_not_mem_of_not_mem_cons h
    rw [List.cons_append, splitOnce, if_neg (Ne.symm hne), ih hmem]
    rfl

/-- Where a line is parted, it was what is before, the character, and what is behind. -/
theorem splitOnce_eq_some {sep : Char} {line before after : List Char}
    (h : splitOnce sep line = some (before, after)) : line = before ++ sep :: after := by
  induction line generalizing before with
  | nil => cases h
  | cons c line ih =>
    rw [splitOnce] at h
    split at h
    · rename_i hsep
      cases h
      rw [hsep]
      rfl
    · obtain ⟨⟨before', after'⟩, hline, heq⟩ := Option.map_eq_some_iff.1 h
      cases heq
      rw [ih hline]
      rfl

/-- The parts of a text are of the text. -/
theorem mem_of_mem_splitChar {sep : Char} {part text : String} (hpart : part ∈ splitChar sep text)
    {c : Char}
    (hc : c ∈ part.toList) : c ∈ text.toList := by
  obtain ⟨chars, hchars, rfl⟩ := List.mem_map.1 hpart
  rw [String.toList_ofList] at hc
  clear hpart
  generalize text.toList = l at *
  induction l generalizing chars with
  | nil =>
    rw [List.splitOn_nil, List.mem_singleton] at hchars
    rwa [hchars] at hc
  | cons x l ih =>
    rw [List.splitOn_cons_eq_if_modifyHead] at hchars
    split at hchars
    · rcases List.mem_cons.1 hchars with rfl | hchars
      · cases hc
      · exact List.mem_cons_of_mem _ (ih chars hc hchars)
    · rcases hl : l.splitOn sep with _ | ⟨first, rest⟩
      · exact absurd hl (List.splitOn_ne_nil sep l)
      · rw [hl] at hchars ih
        rcases List.mem_cons.1 hchars with rfl | hchars
        · rcases List.mem_cons.1 hc with rfl | hc
          · exact List.mem_cons_self
          · exact List.mem_cons_of_mem _ (ih first hc List.mem_cons_self)
        · exact List.mem_cons_of_mem _ (ih chars hc (List.mem_cons_of_mem _ hchars))

/-- A text has parts. -/
theorem splitChar_ne_nil (sep : Char) (text : String) : splitChar sep text ≠ [] := fun h =>
  List.splitOn_ne_nil sep text.toList (List.map_eq_nil_iff.1 h)

/-- A number only grows by more digits. -/
theorem le_ofDigitChars (digits : List Char) (n : ℕ) : n ≤ Nat.ofDigitChars 10 digits n := by
  rw [Nat.ofDigitChars_eq_ofDigitChars_zero]
  exact (Nat.le_mul_of_pos_left n (Nat.pow_pos (by decide))).trans (Nat.le_add_right _ _)

/-- Digits write the number that is read from them, where a machine word holds it. -/
theorem foldlM_pushDigit {digits : List Char} {bits n : ℕ} (hdigits : ∀ c ∈ digits, c.isDigit)
    (hlt : Nat.ofDigitChars 10 digits n < 2 ^ bits) :
    digits.foldlM (pushDigit bits) n = .ok (Nat.ofDigitChars 10 digits n) := by
  induction digits generalizing n with
  | nil => rfl
  | cons c digits ih =>
    have hdigit : ¬ ¬ c.isDigit := not_not_intro (hdigits c List.mem_cons_self)
    rw [Nat.ofDigitChars_cons, Nat.mul_comm 10 n] at hlt ⊢
    have hfits := (le_ofDigitChars digits _).trans_lt hlt
    rw [List.foldlM_cons, pushDigit, if_neg hdigit, if_neg (Nat.not_le.2 hfits)]
    exact ih (fun c hc => hdigits c (List.mem_cons_of_mem _ hc)) hlt

/-- A text of digits is read as their number. -/
theorem parseUnsigned_digits {digits : List Char} (hne : digits ≠ [])
    (hdigits : ∀ c ∈ digits, c.isDigit) (hlt : Nat.ofDigitChars 10 digits 0 < 2 ^ bits) :
    parseUnsigned bits digits = .ok (Nat.ofDigitChars 10 digits 0) := by
  have hsign : '+' ∉ digits := fun hmem => absurd (hdigits _ hmem) (by decide)
  rw [parseUnsigned, foldlM_pushDigit hdigits hlt]
  · exact hne
  · rintro rfl
    exact hsign List.mem_cons_self
  · rintro _ rfl
    exact hsign List.mem_cons_self

/-- What is read digit by digit is a number of digits that a machine word holds. -/
theorem foldlM_pushDigit_eq_ok {bits m n : ℕ} {digits : List Char} (hn : n < 2 ^ bits)
    (h : digits.foldlM (pushDigit bits) n = .ok m) :
    (∀ c ∈ digits, c.isDigit) ∧ Nat.ofDigitChars 10 digits n < 2 ^ bits := by
  induction digits generalizing n with
  | nil => exact ⟨nofun, hn⟩
  | cons c digits ih =>
    rw [List.foldlM_cons, pushDigit] at h
    split at h
    · cases h
    · rename_i hdigit
      split at h
      · cases h
      · rename_i hfits
        obtain ⟨hdigits, hlt⟩ := ih (Nat.not_le.1 hfits) h
        rw [Nat.ofDigitChars_cons, Nat.mul_comm 10 n]
        exact ⟨List.forall_mem_cons.2 ⟨not_not.1 hdigit, hdigits⟩, hlt⟩

/-- A number is written in digits, behind a sign or not. -/
theorem parseUnsigned_eq_ok {bits n : ℕ} {text : List Char} (h : parseUnsigned bits text = .ok n) :
    ∃ digits, digits ≠ [] ∧ (text = digits ∨ text = '+' :: digits) ∧ (∀ c ∈ digits, c.isDigit) ∧
      Nat.ofDigitChars 10 digits 0 < 2 ^ bits := by
  have hpos : 0 < 2 ^ bits := Nat.pow_pos (by decide)
  rw [parseUnsigned.eq_def] at h
  split at h
  · cases h
  · cases h
  · rename_i digits hne
    exact ⟨digits, fun hnil => hne (hnil ▸ rfl), .inr rfl, foldlM_pushDigit_eq_ok hpos h⟩
  · rename_i hne _ _
    exact ⟨text, hne, .inl rfl, foldlM_pushDigit_eq_ok hpos h⟩

end Gpq
