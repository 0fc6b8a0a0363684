import NestTemplate.Common.Bytes

/-!
# Encoding in base64

The encoders to the decoder of `Common.Bytes`: standard base64 with padding,
and base64url without.

* `base64Bytes_sextets`: the six-bit values of a byte string determine it.
* `base64Decode_base64Encode`: decoding undoes encoding.
* `base64Url_toStandard`: how the one encoding becomes the other.
-/

namespace Common

/-- The six-bit values of a byte string; a rest of one or two bytes is filled up with zero bits. -/
def sextets : Bytes → List ℕ
  | a :: b :: c :: bs =>
    a.toNat / 4 :: (16 * (a.toNat % 4) + b.toNat / 16) :: (4 * (b.toNat % 16) + c.toNat / 64) ::
      c.toNat % 64 :: sextets bs
  | [a, b] => [a.toNat / 4, 16 * (a.toNat % 4) + b.toNat / 16, 4 * (b.toNat % 16)]
  | [a] => [a.toNat / 4, 16 * (a.toNat % 4)]
  | [] => []

/-- The character of a six-bit value. -/
def base64Char (n : ℕ) : Char :=
  "ABCDEFGHIJKLMNOPQRSTUVWXYZabcdefghijklmnopqrstuvwxyz0123456789+/".toList.getD n 'A'

/-- The character of a six-bit value in the alphabet for URLs. -/
def base64UrlChar (n : ℕ) : Char :=
  "ABCDEFGHIJKLMNOPQRSTUVWXYZabcdefghijklmnopqrstuvwxyz0123456789-_".toList.getD n 'A'

/-- Standard base64 with padding. -/
def base64Encode (bs : Bytes) : String :=
  String.ofList ((sextets bs).map base64Char ++ List.replicate ((3 - bs.length % 3) % 3) '=')

/-- base64url without padding. -/
def base64UrlEncode (bs : Bytes) : String := String.ofList ((sextets bs).map base64UrlChar)

theorem sextets_lt (bs : Bytes) : ∀ n ∈ sextets bs, n < 64 := by
  fun_induction sextets bs with
  | case1 a b c bs ih =>
    have ha := a.toNat_lt
    have hb := b.toNat_lt
    have hc := c.toNat_lt
    simp only [List.forall_mem_cons]
    exact ⟨by omega, by omega, by omega, by omega, ih⟩
  | case2 a b =>
    have ha := a.toNat_lt
    have hb := b.toNat_lt
    simp only [List.forall_mem_cons]
    exact ⟨by omega, by omega, by omega, fun _ h => absurd h List.not_mem_nil⟩
  | case3 a =>
    have ha := a.toNat_lt
    simp only [List.forall_mem_cons]
    exact ⟨by omega, by omega, fun _ h => absurd h List.not_mem_nil⟩
  | case4 => exact fun _ h => absurd h List.not_mem_nil

/-- The six-bit values of a byte string determine it. -/
@[simp] theorem base64Bytes_sextets (bs : Bytes) : base64Bytes (sextets bs) = bs := by
  fun_induction sextets bs with
  | case1 a b c bs ih =>
    have ha := a.toNat_lt
    have hb := b.toNat_lt
    have hc := c.toNat_lt
    rw [base64Bytes, ih,
      show 4 * (a.toNat / 4) + (16 * (a.toNat % 4) + b.toNat / 16) / 16 = a.toNat by omega,
      show 16 * ((16 * (a.toNat % 4) + b.toNat / 16) % 16) +
        (4 * (b.toNat % 16) + c.toNat / 64) / 4 = b.toNat by omega,
      show 64 * ((4 * (b.toNat % 16) + c.toNat / 64) % 4) + c.toNat % 64 = c.toNat by omega,
      UInt8.ofNat_toNat, UInt8.ofNat_toNat, UInt8.ofNat_toNat]
  | case2 a b =>
    have ha := a.toNat_lt
    have hb := b.toNat_lt
    rw [base64Bytes,
      show 4 * (a.toNat / 4) + (16 * (a.toNat % 4) + b.toNat / 16) / 16 = a.toNat by omega,
      show 16 * ((16 * (a.toNat % 4) + b.toNat / 16) % 16) + 4 * (b.toNat % 16) / 4 =
        b.toNat by omega,
      UInt8.ofNat_toNat, UInt8.ofNat_toNat]
  | case3 a =>
    have ha := a.toNat_lt
    rw [base64Bytes, show 4 * (a.toNat / 4) + 16 * (a.toNat % 4) / 16 = a.toNat by omega,
      UInt8.ofNat_toNat]
  | case4 => rfl

theorem base64Value_base64Char {n : ℕ} (h : n < 64) :
    base64Char n ≠ '=' ∧ base64Value (base64Char n) = some n := by
  have : ∀ m : Fin 64, base64Char m ≠ '=' ∧ base64Value (base64Char m) = some m.val := by
    decide +kernel
  exact this ⟨n, h⟩

theorem base64Char_lt {n : ℕ} (h : n < 64) : (base64Char n).toNat < 0x100 := by
  have : ∀ m : Fin 64, (base64Char m).toNat < 0x100 := by decide +kernel
  exact this ⟨n, h⟩

theorem lowBytes_base64Encode (bs : Bytes) :
    lowBytes (base64Encode bs) = (sextets bs).map base64Char ++
      List.replicate ((3 - bs.length % 3) % 3) '=' := by
  rw [lowBytes_of_lt, base64Encode, String.toList_ofList]
  rw [base64Encode, String.toList_ofList, List.forall_mem_append, List.forall_mem_map]
  constructor
  · exact fun n hn => base64Char_lt (sextets_lt bs n hn)
  · intro c hc
    rw [List.eq_of_mem_replicate hc]
    decide

/-- Decoding undoes encoding. -/
@[simp] theorem base64Decode_base64Encode (bs : Bytes) : base64Decode (base64Encode bs) = bs := by
  have hpad : (List.replicate ((3 - bs.length % 3) % 3) '=').takeWhile (· ≠ '=') = [] := by
    cases (3 - bs.length % 3) % 3 <;> simp
  have htake : ((sextets bs).map base64Char ++
      List.replicate ((3 - bs.length % 3) % 3) '=').takeWhile (· ≠ '=') =
        (sextets bs).map base64Char := by
    rw [List.takeWhile_append_of_pos, hpad, List.append_nil]
    intro c hc
    obtain ⟨n, hn, rfl⟩ := List.mem_map.mp hc
    exact decide_eq_true (base64Value_base64Char (sextets_lt bs n hn)).1
  have hvalues : ((sextets bs).map base64Char).filterMap base64Value = sextets bs := by
    rw [List.filterMap_map]
    refine (List.filterMap_congr fun n hn => ?_).trans List.filterMap_some
    exact (base64Value_base64Char (sextets_lt bs n hn)).2
  rw [base64Decode, lowBytes_base64Encode, htake, hvalues, base64Bytes_sextets]

/-! ## From base64url to standard base64 -/

/-- A character of the alphabet for URLs in the standard alphabet. -/
def toStandardChar (c : Char) : Char := if c = '-' then '+' else if c = '_' then '/' else c

theorem toStandardChar_base64UrlChar {n : ℕ} (h : n < 64) :
    toStandardChar (base64UrlChar n) = base64Char n := by
  have : ∀ m : Fin 64, toStandardChar (base64UrlChar m) = base64Char m := by decide +kernel
  exact this ⟨n, h⟩

/-- How many characters the padding has. -/
theorem padding_sextets (bs : Bytes) :
    ['=', '='].drop (((sextets bs).length + 2) % 4) =
      List.replicate ((3 - bs.length % 3) % 3) '=' := by
  fun_induction sextets bs with
  | case1 a b c bs ih =>
    have hlength : (sextets bs).length + 1 + 1 + 1 + 1 + 2 = (sextets bs).length + 2 + 4 := by omega
    have hrest : (bs.length + 1 + 1 + 1) % 3 = bs.length % 3 := by omega
    simp only [List.length_cons, hlength, hrest, Nat.add_mod_right]
    exact ih
  | case2 | case3 | case4 => simp

theorem utf16Length_base64UrlEncode (bs : Bytes) :
    utf16Length (base64UrlEncode bs) = (sextets bs).length := by
  have hchar : ∀ m : Fin 64, (base64UrlChar m).toNat < 0x10000 := by decide +kernel
  have hone : ∀ n ∈ sextets bs, (if (base64UrlChar n).toNat < 0x10000 then 1 else 2) = 1 :=
    fun n hn => if_pos (hchar ⟨n, sextets_lt bs n hn⟩)
  rw [utf16Length, base64UrlEncode, String.toList_ofList, List.map_map]
  show ((sextets bs).map fun n => if (base64UrlChar n).toNat < 0x10000 then 1 else 2).sum = _
  rw [List.map_congr_left hone, List.map_const', List.sum_replicate_nat, Nat.mul_one]

/-- The other alphabet and the padding make base64url standard base64. -/
theorem base64Url_toStandard (bs : Bytes) :
    (base64UrlEncode bs).toList.map toStandardChar ++
      ['=', '='].drop ((utf16Length (base64UrlEncode bs) + 2) % 4) =
        (base64Encode bs).toList := by
  rw [utf16Length_base64UrlEncode, padding_sextets, base64UrlEncode, base64Encode,
    String.toList_ofList, String.toList_ofList, List.map_map]
  congr 1
  exact List.map_congr_left fun n hn => toStandardChar_base64UrlChar (sextets_lt bs n hn)

end Common
