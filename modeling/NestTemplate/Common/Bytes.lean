import Mathlib.Algebra.GroupWithZero.Nat
import Mathlib.Data.List.Basic
import Mathlib.Data.Char

/-!
# Byte strings and their text encodings

Byte strings are `List UInt8`. The decoders are the ones of Node's `Buffer` and
`StringDecoder`: they are total and never refuse an input.

* `utf8`, `utf8Decode`: an ill-formed part decodes to U+FFFD
  (`utf8Decode_utf8`).
* `hex`, `hexDecode`: decoding stops at the first pair that is not two
  hexadecimal digits (`hexDecode_hex`).
* `base64Decode`: both alphabets, characters outside them are skipped, a
  padding character ends the input.
* `xorBytes`: the key stream of a counter-mode cipher (`xorBytes_xorBytes`).
-/

namespace Common

abbrev Bytes := List UInt8

/-! ## UTF-16 -/

/-- `text.length` in JavaScript: the number of UTF-16 code units. -/
def utf16Length (s : String) : ℕ :=
  (s.toList.map fun c => if c.toNat < 0x10000 then 1 else 2).sum

/-- The UTF-16 code units of a character. -/
def utf16Units (c : Char) : List ℕ :=
  if c.toNat < 0x10000 then [c.toNat]
  else [0xD800 + (c.toNat - 0x10000) / 0x400, 0xDC00 + (c.toNat - 0x10000) % 0x400]

/-- The low bytes of the code units of a text, as characters: the decoders of hexadecimal and
    base64 look at no more. -/
def lowBytes (s : String) : List Char :=
  (s.toList.flatMap utf16Units).map fun u => Char.ofNat (u % 0x100)

theorem lowBytes_of_lt {s : String} (h : ∀ c ∈ s.toList, c.toNat < 0x100) :
    lowBytes s = s.toList := by
  unfold lowBytes
  generalize s.toList = cs at h
  induction cs with
  | nil => rfl
  | cons c cs ih =>
    rw [List.forall_mem_cons] at h
    have hunits : utf16Units c = [c.toNat] := if_pos (by omega)
    rw [List.flatMap_cons, List.map_append, ih h.2, hunits, List.map_singleton,
      Nat.mod_eq_of_lt h.1, Char.ofNat_toNat, List.singleton_append]

/-! ## UTF-8 -/

/-- The UTF-8 encoding of a text. -/
def utf8 (s : String) : Bytes := s.toList.flatMap String.utf8EncodeChar

/-- The range the byte after the first byte `b` must lie in, and how many bytes follow `b`. -/
def utf8Follow (b : UInt8) : ℕ × UInt8 × UInt8 :=
  if 0xC2 ≤ b ∧ b ≤ 0xDF then (1, 0x80, 0xBF)
  else if b = 0xE0 then (2, 0xA0, 0xBF)
  else if b = 0xED then (2, 0x80, 0x9F)
  else if 0xE1 ≤ b ∧ b ≤ 0xEF then (2, 0x80, 0xBF)
  else if b = 0xF0 then (3, 0x90, 0xBF)
  else if b = 0xF4 then (3, 0x80, 0x8F)
  else if 0xF1 ≤ b ∧ b ≤ 0xF3 then (3, 0x80, 0xBF)
  else (0, 0x80, 0xBF)

/-- The length of the ill-formed part at the head of `b :: bs`: `b` and the bytes after it that
    a well-formed character could have had there. -/
def utf8BadLength (b : UInt8) (bs : Bytes) : ℕ :=
  let (n, lo, hi) := utf8Follow b
  match bs.take n with
  | [] => 1
  | c :: cs =>
    if lo ≤ c ∧ c ≤ hi then 2 + (cs.takeWhile fun d => 0x80 ≤ d ∧ d ≤ 0xBF).length else 1

/-- At most `fuel` characters of a byte string. -/
def utf8DecodeChars : ℕ → Bytes → List Char
  | 0, _ => []
  | _, [] => []
  | fuel + 1, b :: bs =>
    match ((b :: bs).take 4).toByteArray.utf8DecodeChar? 0 with
    | some c => c :: utf8DecodeChars fuel ((b :: bs).drop c.utf8Size)
    | none => '\uFFFD' :: utf8DecodeChars fuel ((b :: bs).drop (utf8BadLength b bs))

/-- `buffer.toString('utf8')`. -/
def utf8Decode (bs : Bytes) : String := String.ofList (utf8DecodeChars bs.length bs)

theorem utf8EncodeChar_ne_nil (c : Char) : String.utf8EncodeChar c ≠ [] := by
  intro h
  have := String.length_utf8EncodeChar c
  have := c.utf8Size_pos
  simp_all

theorem utf8DecodeChars_encode (cs : List Char) (fuel : ℕ)
    (h : (cs.flatMap String.utf8EncodeChar).length ≤ fuel) :
    utf8DecodeChars fuel (cs.flatMap String.utf8EncodeChar) = cs := by
  induction cs generalizing fuel with
  | nil => cases fuel <;> rfl
  | cons c cs ih =>
    rw [List.flatMap_cons] at h ⊢
    have hlen := String.length_utf8EncodeChar c
    have hpos := c.utf8Size_pos
    rw [List.length_append, hlen] at h
    obtain ⟨fuel, rfl⟩ : ∃ n, fuel = n + 1 := ⟨fuel - 1, by omega⟩
    obtain ⟨b, bs, hb⟩ : ∃ b bs, String.utf8EncodeChar c = b :: bs :=
      List.exists_cons_of_ne_nil (utf8EncodeChar_ne_nil c)
    have hdec : ByteArray.utf8DecodeChar?
        ((String.utf8EncodeChar c ++ cs.flatMap String.utf8EncodeChar).take 4).toByteArray 0 =
          some c := by
      rw [List.take_append, List.take_of_length_le (hlen ▸ c.utf8Size_le_four),
        List.toByteArray_append]
      exact ByteArray.utf8DecodeChar?_utf8EncodeChar_append
    have hdrop : (String.utf8EncodeChar c ++ cs.flatMap String.utf8EncodeChar).drop c.utf8Size
        = cs.flatMap String.utf8EncodeChar := List.drop_left' hlen
    rw [hb, List.cons_append] at hdec hdrop ⊢
    simp only [utf8DecodeChars, hdec, hdrop]
    rw [ih fuel (by omega)]

/-- Decoding undoes encoding. -/
@[simp] theorem utf8Decode_utf8 (s : String) : utf8Decode (utf8 s) = s := by
  unfold utf8Decode utf8
  rw [utf8DecodeChars_encode _ _ le_rfl, String.ofList_toList]

/-! ## Hexadecimal -/

/-- The digit of `n < 16`. -/
def hexDigit (n : ℕ) : Char := "0123456789abcdef".toList.getD n '0'

/-- The value of a hexadecimal digit of either case. -/
def hexValue (c : Char) : Option ℕ :=
  if '0' ≤ c ∧ c ≤ '9' then some (c.toNat - '0'.toNat)
  else if 'a' ≤ c ∧ c ≤ 'f' then some (c.toNat - 'a'.toNat + 10)
  else if 'A' ≤ c ∧ c ≤ 'F' then some (c.toNat - 'A'.toNat + 10)
  else none

/-- The two digits of every byte. -/
def hexChars (bs : Bytes) : List Char :=
  bs.flatMap fun b => [hexDigit (b.toNat / 16), hexDigit (b.toNat % 16)]

/-- `buffer.toString('hex')`. -/
def hex (bs : Bytes) : String := String.ofList (hexChars bs)

/-- `Buffer.from(text, 'hex')` on the characters of the text. -/
def hexDecodeChars : List Char → Bytes
  | a :: b :: cs =>
    match hexValue a, hexValue b with
    | some x, some y => UInt8.ofNat (16 * x + y) :: hexDecodeChars cs
    | _, _ => []
  | _ => []

/-- `Buffer.from(text, 'hex')`. -/
def hexDecode (s : String) : Bytes := hexDecodeChars (lowBytes s)

theorem hexValue_hexDigit {n : ℕ} (h : n < 16) : hexValue (hexDigit n) = some n := by
  have : ∀ m : Fin 16, hexValue (hexDigit m) = some m.val := by decide
  exact this ⟨n, h⟩

@[simp] theorem hexDecodeChars_hexChars (bs : Bytes) : hexDecodeChars (hexChars bs) = bs := by
  induction bs with
  | nil => rfl
  | cons b bs ih =>
    have hb := b.toNat_lt
    simp only [hexChars, List.flatMap_cons, List.cons_append, List.nil_append, hexDecodeChars,
      hexValue_hexDigit (show b.toNat / 16 < 16 by omega),
      hexValue_hexDigit (show b.toNat % 16 < 16 by omega)]
    rw [show 16 * (b.toNat / 16) + b.toNat % 16 = b.toNat by omega, UInt8.ofNat_toNat]
    exact congrArg (b :: ·) ih

theorem hexDigit_lt {n : ℕ} (h : n < 16) : (hexDigit n).toNat < 0x100 := by
  have : ∀ m : Fin 16, (hexDigit m).toNat < 0x100 := by decide
  exact this ⟨n, h⟩

theorem hexChars_lt (bs : Bytes) : ∀ c ∈ hexChars bs, c.toNat < 0x100 := by
  intro c hc
  obtain ⟨b, -, hc⟩ := List.mem_flatMap.mp hc
  have hb := b.toNat_lt
  rcases List.mem_pair.mp hc with rfl | rfl
  · exact hexDigit_lt (by omega)
  · exact hexDigit_lt (by omega)

/-- Decoding undoes encoding. -/
@[simp] theorem hexDecode_hex (bs : Bytes) : hexDecode (hex bs) = bs := by
  have hlow : lowBytes (hex bs) = hexChars bs := by
    rw [lowBytes_of_lt, hex, String.toList_ofList]
    rw [hex, String.toList_ofList]
    exact hexChars_lt bs
  rw [hexDecode, hlow, hexDecodeChars_hexChars]

@[simp] theorem length_hexChars (bs : Bytes) : (hexChars bs).length = 2 * bs.length := by
  induction bs with
  | nil => rfl
  | cons b bs ih => simp only [hexChars, List.flatMap_cons, List.length_append] at ih ⊢; simp; omega

@[simp] theorem utf16Length_hex (bs : Bytes) : utf16Length (hex bs) = 2 * bs.length := by
  have hunit {n : ℕ} (h : n < 16) : (hexDigit n).toNat < 0x10000 :=
    Nat.lt_trans (hexDigit_lt h) (by decide)
  unfold utf16Length hex
  rw [String.toList_ofList]
  induction bs with
  | nil => rfl
  | cons b bs ih =>
    have hb := b.toNat_lt
    simp only [hexChars, List.flatMap_cons, List.map_append, List.sum_append, List.map_cons,
      List.map_nil, if_pos (hunit (show b.toNat / 16 < 16 by omega)),
      if_pos (hunit (show b.toNat % 16 < 16 by omega))] at ih ⊢
    simp only [ih, List.length_cons]
    simp +arith

/-! ## Base64 -/

/-- The value of a character of either base64 alphabet. -/
def base64Value (c : Char) : Option ℕ :=
  if 'A' ≤ c ∧ c ≤ 'Z' then some (c.toNat - 'A'.toNat)
  else if 'a' ≤ c ∧ c ≤ 'z' then some (c.toNat - 'a'.toNat + 26)
  else if '0' ≤ c ∧ c ≤ '9' then some (c.toNat - '0'.toNat + 52)
  else if c = '+' ∨ c = '-' then some 62
  else if c = '/' ∨ c = '_' then some 63
  else none

/-- The bytes of a list of six-bit values. A rest of two or three values holds one or two bytes,
    a rest of one value none. -/
def base64Bytes : List ℕ → Bytes
  | a :: b :: c :: d :: vs =>
    UInt8.ofNat (4 * a + b / 16) :: UInt8.ofNat (16 * (b % 16) + c / 4) ::
      UInt8.ofNat (64 * (c % 4) + d) :: base64Bytes vs
  | [a, b, c] => [UInt8.ofNat (4 * a + b / 16), UInt8.ofNat (16 * (b % 16) + c / 4)]
  | [a, b] => [UInt8.ofNat (4 * a + b / 16)]
  | _ => []

/-- `Buffer.from(text, 'base64')`. -/
def base64Decode (s : String) : Bytes :=
  base64Bytes (((lowBytes s).takeWhile (· ≠ '=')).filterMap base64Value)

/-! ## Key streams -/

/-- Byte `i` of the input against byte `i` of the key stream. -/
def xorBytes (keystream : ℕ → UInt8) (bs : Bytes) : Bytes :=
  bs.mapIdx fun i b => b ^^^ keystream i

/-- The same key stream twice cancels. -/
@[simp] theorem xorBytes_xorBytes (keystream : ℕ → UInt8) (bs : Bytes) :
    xorBytes keystream (xorBytes keystream bs) = bs := by
  apply List.ext_getElem
  · simp [xorBytes]
  · intro i h₁ h₂
    simp only [xorBytes, List.getElem_mapIdx, UInt8.xor_assoc, UInt8.xor_self, UInt8.xor_zero]

end Common
