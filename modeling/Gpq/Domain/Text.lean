import Mathlib.Tactic.IntervalCases
import Gpq.Domain.Parameters

/-!
# Text forms

Content hashes and identifiers as lower-case hexadecimal text. A content hash is what its
text parses to (`parseContentHash_toHex`), and different identifiers have different texts
(`displayUuid_injective`).
-/

namespace Gpq

/-- The value of a hexadecimal digit. -/
def hexDigit (c : Char) : Option ℕ :=
  if '0' ≤ c ∧ c ≤ '9' then some (c.toNat - '0'.toNat)
  else if 'a' ≤ c ∧ c ≤ 'f' then some (c.toNat - 'a'.toNat + 10)
  else if 'A' ≤ c ∧ c ≤ 'F' then some (c.toNat - 'A'.toNat + 10)
  else none

/-- Parses a content hash: 64 hexadecimal characters. -/
def parseContentHash (s : String) : Option ContentHash := do
  if s.utf8ByteSize ≠ 64 then none
  let digits ← s.toList.mapM hexDigit
  return BitVec.ofNat 256 (digits.foldl (fun n d => 16 * n + d) 0)

/-- Why a text is no content hash. -/
def contentHashError (s : String) : String :=
  if s.utf8ByteSize ≠ 64 then "content hash must be 64 hex characters, got " ++ s.utf8ByteSize.repr
  else "content hash is not valid hex"

/-- Hexadecimal digits, padded with zeros on the left to a width. -/
def hexDigits (width n : ℕ) : List Char :=
  let digits := Nat.toDigits 16 n
  List.replicate (width - digits.length) '0' ++ digits

/-- The text form of a content hash. -/
def ContentHash.toHex (hash : ContentHash) : String := String.ofList (hexDigits 64 hash.toNat)

/-- The text form of an identifier: hyphenated lower-case hexadecimal. -/
def displayUuid (id : Uuid) : String :=
  let digits := hexDigits 32 id
  String.ofList (digits.take 8 ++ ['-'] ++ (digits.drop 8).take 4 ++ ['-'] ++
    (digits.drop 12).take 4 ++ ['-'] ++ (digits.drop 16).take 4 ++ ['-'] ++ digits.drop 20)

/-- Parses the text of an identifier, or says why it is none. The parser is outside the
    repository. -/
class UuidText where
  parse : String → Except String Uuid

/-! ## Digits -/

theorem hexDigit_digitChar {d : ℕ} (h : d < 16) : hexDigit (Nat.digitChar d) = some d := by
  interval_cases d <;> rfl

/-- What digits are worth after a value. -/
def hexValue (start : ℕ) (cs : List Char) : Option ℕ :=
  (cs.mapM hexDigit).map fun digits => digits.foldl (fun n d => 16 * n + d) start

/-- The first digit counts before all others. -/
theorem hexValue_cons {c : Char} {d n : ℕ} (cs : List Char) (h : hexDigit c = some d) :
    hexValue n (c :: cs) = hexValue (16 * n + d) cs := by
  simp only [hexValue, List.mapM_cons, h]
  cases cs.mapM hexDigit <;> rfl

/-- Digits may be read in two parts. -/
theorem hexValue_append {n m : ℕ} (cs cs' : List Char) (h : hexValue n cs = some m) :
    hexValue n (cs ++ cs') = hexValue m cs' := by
  induction cs generalizing n with
  | nil =>
    cases h
    rfl
  | cons c cs ih =>
    cases hc : hexDigit c with
    | none => simp [hexValue, hc] at h
    | some d =>
      rw [hexValue_cons _ hc] at h
      rw [List.cons_append, hexValue_cons _ hc, ih h]

/-- The hexadecimal digits of a number have its value. -/
theorem hexValue_toDigits (n : ℕ) : hexValue 0 (Nat.toDigits 16 n) = some n := by
  induction n using Nat.strong_induction_on with
  | h n ih =>
    rw [Nat.toDigits_eq_if (by decide)]
    split
    · -- a single digit
      rename_i h
      rw [hexValue_cons _ (hexDigit_digitChar h)]
      simp [hexValue]
    · rename_i h
      -- the last digit comes behind those of the sixteenth
      have hlast : n % 16 < 16 := Nat.mod_lt _ (by decide)
      rw [hexValue_append _ _ (ih (n / 16) (by omega)), hexValue_cons _ (hexDigit_digitChar hlast)]
      simp only [hexValue, List.mapM_nil, Option.pure_def, Option.map_some, List.foldl_nil]
      congr 1
      omega

/-- Zeros before the digits of a number leave its value as it is. -/
theorem hexValue_hexDigits (width n : ℕ) : hexValue 0 (hexDigits width n) = some n := by
  have hzeros : ∀ k, hexValue 0 (List.replicate k '0') = some 0 := by
    intro k
    induction k with
    | zero => rfl
    | succ k ih => exact (hexValue_cons _ rfl).trans ih
  rw [hexDigits, hexValue_append _ _ (hzeros _), hexValue_toDigits]

/-- Numbers of the same digits are the same. -/
theorem hexDigits_injective (width : ℕ) : Function.Injective (hexDigits width) := by
  intro n m h
  have hn := hexValue_hexDigits width n
  rw [h, hexValue_hexDigits] at hn
  exact (Option.some_inj.1 hn).symm

/-- A number that fits has exactly so many digits. -/
theorem length_hexDigits {width n : ℕ} (hw : 0 < width) (h : n < 16 ^ width) :
    (hexDigits width n).length = width := by
  have hle := (Nat.length_toDigits_le_iff (by decide) hw).2 h
  simp only [hexDigits, List.length_append, List.length_replicate]
  omega

/-- A digit is an ASCII character. -/
theorem toNat_le_of_hexDigit {c : Char} {d : ℕ} (h : hexDigit c = some d) : c.toNat ≤ 102 := by
  unfold hexDigit at h
  split at h
  · rename_i hc
    have hc : c.toNat ≤ 57 := hc.2
    omega
  split at h
  · rename_i hc
    exact hc.2
  split at h
  · rename_i hc
    have hc : c.toNat ≤ 70 := hc.2
    omega
  · cases h

/-- A character that is a digit is encoded in one byte. -/
theorem utf8Size_of_hexDigit {c : Char} {d : ℕ} (h : hexDigit c = some d) : c.utf8Size = 1 := by
  refine Char.utf8Size_eq_one_iff.2 ?_
  rw [UInt32.le_iff_toNat_le]
  exact (toNat_le_of_hexDigit h).trans (by decide)

/-- What a number is written with are digits. -/
theorem exists_hexDigit {width n : ℕ} {c : Char} (h : c ∈ hexDigits width n) :
    ∃ d, hexDigit c = some d := by
  have hv := hexValue_hexDigits width n
  generalize hexDigits width n = cs at h hv
  generalize 0 = m at hv
  induction cs generalizing m with
  | nil => cases h
  | cons c' cs ih =>
    cases hc : hexDigit c' with
    | none => simp [hexValue, hc] at hv
    | some d =>
      obtain rfl | h := List.mem_cons.1 h
      · exact ⟨d, hc⟩
      · exact ih h _ (hexValue_cons _ hc ▸ hv)

/-- Every digit takes one byte. -/
theorem utf8ByteSize_ofList {cs : List Char} (h : ∀ c ∈ cs, ∃ d, hexDigit c = some d) :
    (String.ofList cs).utf8ByteSize = cs.length := by
  induction cs with
  | nil => rfl
  | cons c cs ih =>
    obtain ⟨d, hd⟩ := h c List.mem_cons_self
    rw [String.ofList_cons, String.utf8ByteSize_append, String.utf8ByteSize_singleton,
      utf8Size_of_hexDigit hd, ih fun c hc => h c (List.mem_cons_of_mem _ hc), List.length_cons,
      Nat.add_comm]

/-! ## Hashes and identifiers -/

/-- A hash is read from its own text. -/
theorem parseContentHash_toHex (hash : ContentHash) : parseContentHash hash.toHex = some hash := by
  have hsize : hash.toHex.utf8ByteSize = 64 := by
    rw [ContentHash.toHex, utf8ByteSize_ofList fun c => exists_hexDigit]
    exact length_hexDigits (by decide) (hash.isLt.trans_le (by decide))
  have hvalue := hexValue_hexDigits 64 hash.toNat
  rw [hexValue] at hvalue
  obtain ⟨digits, hdigits, hfold⟩ := Option.map_eq_some_iff.1 hvalue
  rw [parseContentHash, hsize]
  simp only [ne_eq, not_true, if_false, ContentHash.toHex, String.toList_ofList, hdigits]
  simp [hfold]

/-- Hashes of the same text are the same. -/
theorem ContentHash.toHex_injective : Function.Injective ContentHash.toHex := by
  intro a b h
  have ha := parseContentHash_toHex a
  rw [h, parseContentHash_toHex] at ha
  exact (Option.some_inj.1 ha).symm

/-- Without its hyphens the text of an identifier is its digits. -/
theorem filter_displayUuid (id : Uuid) :
    (displayUuid id).toList.filter (· ≠ '-') = hexDigits 32 id := by
  have hkeep : ∀ cs : List Char, cs ⊆ hexDigits 32 id → cs.filter (· ≠ '-') = cs := by
    intro cs hcs
    refine List.filter_eq_self.2 fun c hc => decide_eq_true ?_
    obtain ⟨d, hd⟩ := exists_hexDigit (hcs hc)
    rintro rfl
    cases hd
  have hdrop : ∀ n, (hexDigits 32 id).drop n ⊆ hexDigits 32 id := fun n => List.drop_subset n _
  have htake : ∀ n m, ((hexDigits 32 id).drop n).take m ⊆ hexDigits 32 id := fun n m =>
    List.Subset.trans (List.take_subset m _) (hdrop n)
  have hyphen : ['-'].filter (· ≠ '-') = [] := rfl
  rw [displayUuid, String.toList_ofList]
  simp only [List.filter_append, hyphen, List.nil_append, hkeep _ (hdrop 20), hkeep _ (htake _ _),
    hkeep _ (List.take_subset 8 _), List.append_assoc]
  rw [← List.drop_drop (i := 4) (j := 16), List.take_append_drop, ← List.drop_drop (i := 4) (j := 12),
    List.take_append_drop, ← List.drop_drop (i := 4) (j := 8), List.take_append_drop,
    List.take_append_drop]

/-- Identifiers of the same text are the same. -/
theorem displayUuid_injective : Function.Injective displayUuid := by
  intro a b h
  have ha := filter_displayUuid a
  rw [h, filter_displayUuid] at ha
  exact hexDigits_injective 32 ha.symm

end Gpq
