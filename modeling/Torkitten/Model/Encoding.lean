import Mathlib.Algebra.Ring.Nat
import Torkitten.Model.Json

/-!
# Encodings of bytes

The encodings of the standard library that the program uses: hexadecimal, base32 without padding
in lower case, and the URL alphabet of base64 without padding; and the digests. The decoder of base64 skips line
breaks and does not look at the bits that are left over at the end.
-/

namespace Torkitten

/-- Write the bits of a sequence of digits, each of `old` bits, as `count` digits of `new` bits.
Zero bits are added at the end, or bits are cut off there. -/
def regroup (old new count : ℕ) (digits : List ℕ) : List ℕ :=
  let bits := digits.foldl (fun n d => 2 ^ old * n + d) 0
  let value := bits * 2 ^ (new * count) / 2 ^ (old * digits.length)
  (List.range count).map fun i => value / 2 ^ (new * (count - 1 - i)) % 2 ^ new

/-- The bytes of a text. -/
def utf8 (v : String) : List UInt8 := v.toList.flatMap String.utf8EncodeChar

/-- `sha256.Sum256`, of which the program needs only the length of what it returns. -/
structure Digest where
  sum : List UInt8 → List UInt8
  length_sum : ∀ data, (sum data).length = 32

/-- Consecutive characters. -/
def charRange (first : Char) (n : ℕ) : List Char :=
  (List.range n).map fun i => Char.ofNat (first.toNat + i)

/-- `hex.EncodeToString`. -/
def hexEncode (data : List UInt8) : String := String.join (data.map fun b => hexByte b.toNat)

/-- The lower-case alphabet of base32. -/
def base32Alphabet : List Char := charRange 'a' 26 ++ charRange '2' 6

/-- `base32.StdEncoding` without padding, in lower case. -/
def base32Encode (data : List UInt8) : String :=
  String.ofList ((regroup 8 5 ((8 * data.length + 4) / 5) (data.map UInt8.toNat)).map
    fun n => base32Alphabet.getD n 'a')

/-- The URL alphabet of base64. -/
def base64Alphabet : List Char :=
  charRange 'A' 26 ++ charRange 'a' 26 ++ charRange '0' 10 ++ ['-', '_']

/-- `base64.RawURLEncoding.EncodeToString`. -/
def base64Encode (data : List UInt8) : String :=
  String.ofList ((regroup 8 6 ((8 * data.length + 5) / 6) (data.map UInt8.toNat)).map
    fun n => base64Alphabet.getD n 'A')

/-- `base64.RawURLEncoding.DecodeString`. -/
def base64Decode (v : String) : Option (List UInt8) :=
  let chars := v.toList.filter fun c => c != '\r' && c != '\n'
  if chars.all (base64Alphabet.contains ·) && chars.length % 4 != 1 then
    some ((regroup 6 8 (6 * chars.length / 8) (chars.map base64Alphabet.idxOf)).map UInt8.ofNat)
  else none

example : base64Encode [0xfb, 0xff, 0x01] = "-_8B" ∧ base64Decode "-_8B" = some [0xfb, 0xff, 0x01] ∧
    base32Encode [0xff, 0x01] = "74aq" ∧ hexEncode [0xff, 0x01] = "ff01" := by
  decide +kernel

end Torkitten
