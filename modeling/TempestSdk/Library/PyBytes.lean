import TempestSdk.Library.Numerals

/-!
# Byte strings of Python

The text that UTF-8 bytes stand for, and the text that `str` makes of a byte
string: its literal.  The literal is always longer than the text.
-/

namespace PyBytes

/-- `bytes.decode("utf-8")`. -/
def decode (bytes : List UInt8) : Option (List Char) :=
  bytes.toByteArray.utf8Decode?.map Array.toList

def byteText (quote : Char) (byte : UInt8) : List Char :=
  let char := Char.ofNat byte.toNat
  if char = quote ∨ char = '\\' then ['\\', char]
  else if char = '\t' then ['\\', 't']
  else if char = '\n' then ['\\', 'n']
  else if char = '\r' then ['\\', 'r']
  else if 32 ≤ byte.toNat ∧ byte.toNat ≤ 126 then [char]
  else '\\' :: 'x' :: Numerals.fixed 16 2 byte.toNat

def quoteFor (bytes : List UInt8) : Char :=
  if 39 ∈ bytes ∧ 34 ∉ bytes then '"' else '\''

/-- `str` of a byte string. -/
def literal (bytes : List UInt8) : List Char :=
  'b' :: quoteFor bytes :: bytes.flatMap (byteText (quoteFor bytes)) ++ [quoteFor bytes]

theorem length_decode {bytes : List UInt8} {text : List Char}
    (decoded : decode bytes = some text) : text.length ≤ bytes.length := by
  obtain ⟨chars, found, rfl⟩ := Option.map_eq_some_iff.mp decoded
  have valid : bytes.toByteArray.utf8Decode?.isSome := by simp [found]
  have encoded := @ByteArray.utf8Encode_get_utf8Decode? _ valid
  have same : bytes.toByteArray.utf8Decode?.get valid = chars := by
    simp [found]
  rw [same] at encoded
  have sizes := congrArg ByteArray.size encoded
  have least : ∀ chars : List Char,
      chars.length ≤ (chars.flatMap String.utf8EncodeChar).length := by
    intro chars
    induction chars with
    | nil => exact Nat.le_refl _
    | cons char chars induction =>
      have positive := Char.utf8Size_pos char
      simp only [List.flatMap_cons, List.length_append, List.length_cons,
        String.length_utf8EncodeChar]
      omega
  have longer := least chars.toList
  simp only [List.utf8Encode, List.size_toByteArray] at sizes
  omega

theorem length_byteText (quote : Char) (byte : UInt8) : 1 ≤ (byteText quote byte).length := by
  unfold byteText
  simp only
  repeat' split
  all_goals simp

theorem length_literal (bytes : List UInt8) : bytes.length < (literal bytes).length := by
  have least : ∀ rest : List UInt8, rest.length ≤
      (rest.flatMap (byteText (quoteFor bytes))).length := by
    intro rest
    induction rest with
    | nil => exact Nat.le_refl _
    | cons byte rest induction =>
      have one := length_byteText (quoteFor bytes) byte
      simp only [List.flatMap_cons, List.length_append, List.length_cons]
      omega
  have longer := least bytes
  simp only [literal, List.length_append, List.length_cons]
  omega

end PyBytes
