import Mathlib.Algebra.Group.Nat.Defs
import Mathlib.Logic.Function.Basic

/-!
# JSON values

The values that a serializer is given, before they become text. An encoding of a record is
faithful where each of its fields is: `ofOption_inj` and `ofList_inj` say so for optional
values and for sequences.

`Json.text` is the compact text of a value. `Json.readBack` is what is read of a value that was
stored, and the typed readers fail with what they met and what they expected.
-/

/-- A JSON value. A 32-bit or 64-bit float is given by its bits. -/
inductive Json
  | null
  | uint (n : Nat)
  | float (bits : BitVec 32)
  | double (bits : BitVec 64)
  | string (s : String)
  | array (items : List Json)
  | object (fields : List (String × Json))

namespace Json

variable {α : Type} {f : α → Json}

/-- An optional value: `null` where there is none. -/
def ofOption (f : α → Json) : Option α → Json
  | none => null
  | some a => f a

/-- A sequence. -/
def ofList (f : α → Json) (l : List α) : Json := array (l.map f)

/-- Options that are written alike are the same, if nothing is written like `null`. -/
theorem ofOption_inj {o o' : Option α} (hnull : ∀ a ∈ o, f a ≠ null) (hnull' : ∀ a ∈ o', f a ≠ null)
    (hf : ∀ a ∈ o, ∀ b ∈ o', f a = f b → a = b) (h : ofOption f o = ofOption f o') : o = o' := by
  cases o with
  | none =>
    cases o' with
    | none => rfl
    | some b => exact absurd h.symm (hnull' b rfl)
  | some a =>
    cases o' with
    | none => exact absurd h (hnull a rfl)
    | some b => exact congrArg some (hf a rfl b rfl h)

/-- Lists that are written alike are the same. -/
theorem ofList_inj {l l' : List α} (hf : ∀ a ∈ l, ∀ b ∈ l', f a = f b → a = b)
    (h : ofList f l = ofList f l') : l = l' := by
  replace h : l.map f = l'.map f := array.inj h
  induction l generalizing l' with
  | nil => exact (List.map_eq_nil_iff.1 h.symm).symm
  | cons a l ih =>
    cases l' with
    | nil => cases h
    | cons b l' =>
      obtain ⟨hab, hl⟩ := List.cons_eq_cons.1 h
      obtain rfl := hf a List.mem_cons_self b List.mem_cons_self hab
      rw [ih (fun a ha b hb => hf a (List.mem_cons_of_mem _ ha) b (List.mem_cons_of_mem _ hb)) hl]

/-! ## Text -/

/-- The characters that have a short escape: quotes, backslashes, line feeds, carriage returns,
    tabs, backspaces and form feeds. -/
def shortEscapes : List (Char × Char) :=
  [('"', '"'), ('\\', '\\'), ('\n', 'n'), ('\r', 'r'), ('\t', 't'), (Char.ofNat 8, 'b'),
    (Char.ofNat 12, 'f')]

/-- A character of a string literal; the other control characters are written by their number. -/
def escape (c : Char) : List Char :=
  match shortEscapes.lookup c with
  | some short => ['\\', short]
  | none =>
    if c.toNat < 32 then ['\\', 'u', '0', '0'] ++ (Nat.toDigits 16 (256 + c.toNat)).tail
    else [c]

/-- A string literal: quotes, backslashes and control characters are escaped. -/
def quote (s : String) : List Char :=
  ['"'] ++ s.toList.flatMap escape ++ ['"']

example : quote "a\n\"b\x7f" = "\"a\\n\\\"b\x7f\"".toList ∧
    escape (Char.ofNat 11) = "\\u000b".toList := by decide

mutual

/-- The characters of the compact text of a value; a float, whose shortest decimal text is
    not computed here, by its bits. -/
def text : Json → List Char
  | null => ['n', 'u', 'l', 'l']
  | uint n => Nat.toDigits 10 n
  | float bits => Nat.toDigits 10 bits.toNat
  | double bits => Nat.toDigits 10 bits.toNat
  | string s => quote s
  | array items => ['['] ++ itemTexts items ++ [']']
  | object fields => ['\x7b'] ++ fieldTexts fields ++ ['\x7d']

/-- The items of an array, separated by commas. -/
def itemTexts : List Json → List Char
  | [] => []
  | [j] => text j
  | j :: items => text j ++ [','] ++ itemTexts items

/-- The fields of an object, separated by commas. -/
def fieldTexts : List (String × Json) → List Char
  | [] => []
  | [(name, j)] => quote name ++ [':'] ++ text j
  | (name, j) :: fields => quote name ++ [':'] ++ text j ++ [','] ++ fieldTexts fields

end

/-! ## Stored values -/

section ReadBack

variable (reread : BitVec 64 → Option (BitVec 64))

mutual

/-- The value that is read of one that was stored: a 64-bit float may be another one, or out of
    range. -/
def readBack : Json → Option Json
  | double bits => (reread bits).map double
  | array items => (readItemsBack items).map array
  | object fields => (readFieldsBack fields).map object
  | j => some j

/-- What is read of the items of an array. -/
def readItemsBack : List Json → Option (List Json)
  | [] => some []
  | j :: items => do return (← readBack j) :: (← readItemsBack items)

/-- What is read of the fields of an object. -/
def readFieldsBack : List (String × Json) → Option (List (String × Json))
  | [] => some []
  | (name, j) :: fields => do return (name, ← readBack j) :: (← readFieldsBack fields)

end

end ReadBack

/-! ## Typed reading -/

/-- Why a value is not of a type. -/
inductive Error
  | missingField (name : String)
  | invalidType (unexpected : Json) (expected : String)
  | invalidValue (unexpected : Json) (expected : String)
  | custom (message : String)

/-- A natural number as a 64-bit float: the nearest, and of two the even one. -/
def doubleOfNat (n : Nat) : BitVec 64 :=
  if n = 0 then 0
  else
    let shift := Nat.log2 n - 52
    let scaled := n * 2 ^ (52 - Nat.log2 n)
    let quotient := scaled / 2 ^ shift
    let remainder := scaled % 2 ^ shift
    let roundsUp := 2 ^ shift < 2 * remainder ∨ (2 ^ shift = 2 * remainder ∧ quotient % 2 = 1)
    BitVec.ofNat 64 ((Nat.log2 n + 1022) * 2 ^ 52 + quotient + if roundsUp then 1 else 0)

/-- A 32-bit float as a 64-bit one. -/
def doubleOfFloat (bits : BitVec 32) : BitVec 64 :=
  let sign := bits.toNat / 2 ^ 31
  let exponent := bits.toNat / 2 ^ 23 % 2 ^ 8
  let fraction := bits.toNat % 2 ^ 23
  let magnitude :=
    if exponent = 255 then 2047 * 2 ^ 52 + fraction * 2 ^ 29
    else if exponent ≠ 0 then (exponent + 896) * 2 ^ 52 + fraction * 2 ^ 29
    else if fraction = 0 then 0
    else (Nat.log2 fraction + 873) * 2 ^ 52 + fraction * 2 ^ (52 - Nat.log2 fraction)
  BitVec.ofNat 64 (sign * 2 ^ 63 + magnitude)

/-- An `f64`, which any number is read as. -/
def readDouble : Json → Except Error (BitVec 64)
  | double bits => .ok bits
  | float bits => .ok (doubleOfFloat bits)
  | uint n => .ok (doubleOfNat n)
  | j => .error (.invalidType j "f64")

/-- A `u32`: a number that is too large is no value of it. -/
def readUInt32 : Json → Except Error UInt32
  | uint n => if n < 2 ^ 32 then .ok (UInt32.ofNat n) else .error (.invalidValue (uint n) "u32")
  | j => .error (.invalidType j "u32")

/-- A string. -/
def readString : Json → Except Error String
  | string s => .ok s
  | j => .error (.invalidType j "a string")

/-- The fields of an object. -/
def readObject (expected : String) : Json → Except Error (List (String × Json))
  | object fields => .ok fields
  | j => .error (.invalidType j expected)

/-- A field that is read where it is there. -/
def readField (fields : List (String × Json)) (name : String) (read : Json → Except Error α) :
    Except Error (Option α) := (fields.lookup name).mapM read

/-- A field that is there is read. -/
theorem readField_of_lookup {fields : List (String × Json)} {name : String}
    {read : Json → Except Error α} {j : Json}
    (h : fields.lookup name = some j) : readField fields name read = (read j).map some := by
  rw [readField, h, Option.mapM_some]
  cases read j <;> rfl

/-- A field that must be there. -/
def required (name : String) : Option α → Except Error α
  | some a => .ok a
  | none => .error (.missingField name)

end Json
