import Mathlib.Data.Option.Basic
import Mathlib.Data.List.Basic

/-!
# Percent-encoding

`encode allowed s` keeps the allowed ASCII characters of a string and writes every byte of the
UTF-8 encoding of the others as `%` and two hexadecimal digits.  `decode read s` reads such a
string, in which every character that stands for itself is read as `read` says.  What was
encoded is read as it was, apart from the characters that `read` changes.
-/

namespace LCCFileService

namespace PercentEncoding

/-! ### Hexadecimal digits -/

/-- The hexadecimal digit of a number below 16. -/
def digit (n : Nat) : Char := Char.ofNat (if n < 10 then 48 + n else 55 + n)

/-- The value of a hexadecimal digit. -/
def value (c : Char) : Option Nat :=
  if '0' ≤ c ∧ c ≤ '9' then some (c.toNat - 48)
  else if 'A' ≤ c ∧ c ≤ 'F' then some (c.toNat - 55)
  else if 'a' ≤ c ∧ c ≤ 'f' then some (c.toNat - 87)
  else none

theorem value_digit {n : Nat} (h : n < 16) :
  value (digit n) = some n
  := by
  have hall : ∀ n : Fin 16, value (digit n) = some n.val := by decide
  apply hall ⟨n, h⟩

/-! ### Encoding -/

/-- A byte, as `%` and two digits. -/
def encodeByte (b : UInt8) : List Char := ['%', digit (b.toNat / 16), digit (b.toNat % 16)]

/-- The character is kept: allowed characters that are not ASCII are ignored. -/
def keeps (allowed : Char → Bool) (c : Char) : Bool := allowed c && decide (c.toNat < 128)

/-- A character of an encoded string. -/
def encodeChar (allowed : Char → Bool) (c : Char) : List Char :=
  if keeps allowed c then [c] else (String.utf8EncodeChar c).flatMap encodeByte

/-- The percent-encoding of a string. -/
def encode (allowed : Char → Bool) (s : String) : String :=
  String.ofList (s.toList.flatMap (encodeChar allowed))

/-! ### Decoding -/

/-- The bytes an encoded string stands for, if it is well formed. -/
def decodeBytes (read : Char → Char) : List Char → Option (List UInt8)
  | [] => some []
  | '%' :: high :: low :: cs => do
      let high ← value high
      let low ← value low
      let bytes ← decodeBytes read cs
      pure (UInt8.ofNat (16 * high + low) :: bytes)
  | c :: cs =>
      if c = '%' then none
      else do
        let bytes ← decodeBytes read cs
        pure (String.utf8EncodeChar (read c) ++ bytes)

/-- The string that an encoded string stands for, if its bytes are the UTF-8 encoding of one. -/
def decode (read : Char → Char) (s : String) : Option String := do
  let bytes ← decodeBytes read s.toList
  let chars ← bytes.toByteArray.utf8Decode?
  pure (String.ofList chars.toList)

section

variable {read : Char → Char}

theorem decodeBytes_cons_of_ne {c : Char} (h : c ≠ '%') (cs : List Char) :
  decodeBytes read (c :: cs)
    = (decodeBytes read cs).map (String.utf8EncodeChar (read c) ++ ·)
  := by
  rw [decodeBytes, if_neg h]
  · cases decodeBytes read cs with
    | none => rfl
    | some bytes => rfl
  · intro _ _ _ heq
    apply absurd heq h

/-- Bytes are read as they were encoded. -/
theorem decodeBytes_flatMap_encodeByte (bytes : List UInt8) (cs : List Char) :
  decodeBytes read (bytes.flatMap encodeByte ++ cs) = (decodeBytes read cs).map (bytes ++ ·)
  := by
  induction bytes with
  | nil => simp
  | cons b bytes ih =>
      have hlt : b.toNat < 256 := b.toNat_lt
      have hb : UInt8.ofNat (16 * (b.toNat / 16) + b.toNat % 16) = b := by
        rw [Nat.div_add_mod]
        apply UInt8.ofNat_toNat
      rw [List.flatMap_cons, List.append_assoc, encodeByte]
      simp only [List.cons_append, List.nil_append, decodeBytes, ih]
      rw [value_digit (by omega), value_digit (by omega)]
      cases decodeBytes read cs with
      | none => rfl
      | some bytes' =>
          apply congrArg (fun b => some (b :: (bytes ++ bytes')))
          apply hb

/-- What a character is read as after it was encoded. -/
def readBack (allowed : Char → Bool) (read : Char → Char) (c : Char) : Char :=
  if keeps allowed c then read c else c

theorem decodeBytes_encodeChar {allowed : Char → Bool} (hpercent : allowed '%' = false) (c : Char)
    (cs : List Char) :
  decodeBytes read (encodeChar allowed c ++ cs)
    = (decodeBytes read cs).map (String.utf8EncodeChar (readBack allowed read c) ++ ·)
  := by
  rw [encodeChar, readBack]
  split
  · next hkeeps =>
      have hne : c ≠ '%' := by
        rintro rfl
        rw [keeps, hpercent] at hkeeps
        cases hkeeps
      apply decodeBytes_cons_of_ne hne
  · apply decodeBytes_flatMap_encodeByte

theorem decodeBytes_encode {allowed : Char → Bool} (hpercent : allowed '%' = false)
    (cs : List Char) :
  decodeBytes read (cs.flatMap (encodeChar allowed))
    = some ((cs.map (readBack allowed read)).flatMap String.utf8EncodeChar)
  := by
  induction cs with
  | nil => rfl
  | cons c cs ih =>
      rw [List.flatMap_cons, decodeBytes_encodeChar hpercent, ih]
      rfl

/-- An encoded string is read as it was, apart from the characters that were kept and are read as
others. -/
theorem decode_encode {allowed : Char → Bool} (hpercent : allowed '%' = false) (s : String) :
  decode read (encode allowed s) = some (String.ofList (s.toList.map (readBack allowed read)))
  := by
  have hdecode := List.utf8Decode?_utf8Encode (l := s.toList.map (readBack allowed read))
  rw [decode, encode, String.toList_ofList, decodeBytes_encode hpercent]
  rw [List.utf8Encode] at hdecode
  simp only [Option.bind_eq_bind, Option.bind_some, hdecode]
  simp

/-- What was encoded is read as it was exactly if it has no character that is kept and is read as
another. -/
theorem decode_encode_eq_iff {allowed : Char → Bool} (hpercent : allowed '%' = false)
    (s : String) :
  decode read (encode allowed s) = some s ↔ ∀ c ∈ s.toList, keeps allowed c → read c = c
  := by
  rw [decode_encode hpercent, Option.some.injEq]
  have hlist : String.ofList (s.toList.map (readBack allowed read)) = s ↔
      s.toList.map (readBack allowed read) = s.toList := by
    constructor
    · intro h
      rw [← String.toList_ofList (l := s.toList.map (readBack allowed read)), h]
    · intro h
      rw [h, String.ofList_toList]
  rw [hlist]
  constructor
  · intro h c hc hkeeps
    have hread := (List.map_inj_left.mp (h.trans (List.map_id _).symm)) c hc
    rw [readBack, if_pos hkeeps] at hread
    apply hread
  · intro h
    apply (List.map_inj_left.mpr _).trans (List.map_id _)
    intro c hc
    rw [readBack]
    split
    · next hkeeps => apply h c hc hkeeps
    · rfl

end

end PercentEncoding

end LCCFileService
