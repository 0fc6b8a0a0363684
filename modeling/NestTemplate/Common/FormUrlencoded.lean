import NestTemplate.Common.Bytes

/-!
# `application/x-www-form-urlencoded`

The format of a form's body and of a URL's query: names and values in percent-
encoding, joined by `=` and `&`. The parser is total: a `%` without two digits
stands for itself, and a part without `=` is a name with an empty value.

* `cut`: a text at the first occurrence of a character.
* `percentEncode`: the characters outside a set as their UTF-8 bytes.
* `parse_serialize`: parsing undoes serializing, for every list of pairs.
-/

namespace Common

/-! ## Cutting a text -/

/-- What stands before the first `c`, and what follows it. -/
def cut (c : Char) : List Char → List Char × Option (List Char)
  | [] => ([], none)
  | a :: cs => if a = c then ([], some cs) else (a :: (cut c cs).1, (cut c cs).2)

theorem cut_of_notMem {c : Char} {cs : List Char} (h : c ∉ cs) : cut c cs = (cs, none) := by
  induction cs with
  | nil => rfl
  | cons a cs ih =>
    rw [List.mem_cons, not_or] at h
    rw [cut, if_neg (Ne.symm h.1), ih h.2]

theorem cut_eq_none {c : Char} {cs : List Char} (h : (cut c cs).2 = none) :
    c ∉ cs ∧ (cut c cs).1 = cs := by
  induction cs with
  | nil => exact ⟨List.not_mem_nil, rfl⟩
  | cons d ds ih =>
    unfold cut at h ⊢
    split at h
    · cases h
    · rename_i hne
      obtain ⟨hmem, heq⟩ := ih h
      rw [if_neg hne]
      refine ⟨fun hc => ?_, congrArg (d :: ·) heq⟩
      exact (List.mem_cons.mp hc).elim (fun hc => hne hc.symm) hmem

theorem cut_append {c : Char} {cs : List Char} (h : c ∉ cs) (rest : List Char) :
    cut c (cs ++ c :: rest) = (cs, some rest) := by
  induction cs with
  | nil => rw [List.nil_append, cut, if_pos rfl]
  | cons a cs ih =>
    rw [List.mem_cons, not_or] at h
    rw [List.cons_append, cut, if_neg (Ne.symm h.1), ih h.2]

/-- The rest of a text after its head, where `sep` starts the rest. -/
theorem cut_append_elim {c : Char} {cs : List Char} (h : c ∉ cs) (rest : Option (List Char)) :
    cut c (cs ++ rest.elim [] (c :: ·)) = (cs, rest) := by
  cases rest with
  | none => rw [Option.elim_none, List.append_nil, cut_of_notMem h]
  | some rest => exact cut_append h rest

/-! ## Percent-encoding -/

/-- A digit of a percent-encoded byte. -/
def upperHexDigit (n : ℕ) : Char := "0123456789ABCDEF".toList.getD n '0'

/-- A byte as `%XX`. -/
def percentByte (b : UInt8) : List Char :=
  ['%', upperHexDigit (b.toNat / 16), upperHexDigit (b.toNat % 16)]

/-- UTF-8 percent-encoding of the characters that `keep` does not keep. -/
def percentEncode (keep : Char → Bool) (cs : List Char) : List Char :=
  cs.flatMap fun c => if keep c then [c] else (String.utf8EncodeChar c).flatMap percentByte

theorem upperHexDigit_mem (n : ℕ) : upperHexDigit n ∈ "0123456789ABCDEF".toList := by
  by_cases h : n < 16
  · have : ∀ m : Fin 16, upperHexDigit m ∈ "0123456789ABCDEF".toList := by decide
    exact this ⟨n, h⟩
  · rw [upperHexDigit, List.getD_eq_getElem?_getD, List.getElem?_eq_none (by simpa using h)]
    decide

theorem hexValue_upperHexDigit {n : ℕ} (h : n < 16) : hexValue (upperHexDigit n) = some n := by
  have : ∀ m : Fin 16, hexValue (upperHexDigit m) = some m.val := by decide
  exact this ⟨n, h⟩

/-- The characters a percent-encoded byte is made of. -/
theorem mem_percentByte {b : UInt8} {c : Char} (h : c ∈ percentByte b) :
    c ∈ "%0123456789ABCDEF".toList := by
  rw [show "%0123456789ABCDEF".toList = '%' :: "0123456789ABCDEF".toList from rfl]
  simp only [percentByte, List.mem_cons, List.not_mem_nil, or_false] at h
  rcases h with rfl | rfl | rfl
  · exact List.mem_cons_self ..
  · exact List.mem_cons_of_mem _ (upperHexDigit_mem _)
  · exact List.mem_cons_of_mem _ (upperHexDigit_mem _)

/-- Encoding leaves nothing of what it does not keep. -/
theorem notMem_percentEncode {keep : Char → Bool} {c : Char} (hk : keep c = false)
    (hc : c ∉ "%0123456789ABCDEF".toList) (cs : List Char) : c ∉ percentEncode keep cs := by
  intro h
  obtain ⟨a, -, ha⟩ := List.mem_flatMap.mp h
  split at ha
  · rename_i hkeep
    obtain rfl := List.mem_singleton.mp ha
    rw [hk] at hkeep
    cases hkeep
  · obtain ⟨b, -, hb⟩ := List.mem_flatMap.mp ha
    exact hc (mem_percentByte hb)

namespace FormUrlencoded

/-! ## Names and values -/

/-- The characters that stand for themselves. -/
def unreserved (c : Char) : Bool := c.isAlphanum || c ∈ ['*', '-', '.', '_']

/-- A name or a value. A space becomes `+`. -/
def encode (s : String) : List Char :=
  s.toList.flatMap fun c => if c = ' ' then ['+'] else percentEncode unreserved [c]

/-- The bytes of an encoded name or value. -/
def decodeBytes : List Char → Bytes
  | '%' :: a :: b :: cs =>
    match hexValue a, hexValue b with
    | some x, some y => UInt8.ofNat (16 * x + y) :: decodeBytes cs
    | _, _ => String.utf8EncodeChar '%' ++ decodeBytes (a :: b :: cs)
  | '+' :: cs => String.utf8EncodeChar ' ' ++ decodeBytes cs
  | c :: cs => String.utf8EncodeChar c ++ decodeBytes cs
  | [] => []

def decode (cs : List Char) : String := utf8Decode (decodeBytes cs)

theorem decodeBytes_cons {c : Char} (h₁ : c ≠ '%') (h₂ : c ≠ '+') (cs : List Char) :
    decodeBytes (c :: cs) = String.utf8EncodeChar c ++ decodeBytes cs := by
  rw [decodeBytes]
  · rintro a b ds rfl
    exact absurd rfl h₁
  · exact h₂

theorem decodeBytes_percentByte (b : UInt8) (cs : List Char) :
    decodeBytes (percentByte b ++ cs) = b :: decodeBytes cs := by
  have hb := b.toNat_lt
  simp only [percentByte, List.cons_append, List.nil_append, decodeBytes,
    hexValue_upperHexDigit (show b.toNat / 16 < 16 by omega),
    hexValue_upperHexDigit (show b.toNat % 16 < 16 by omega)]
  rw [show 16 * (b.toNat / 16) + b.toNat % 16 = b.toNat by omega, UInt8.ofNat_toNat]

theorem decodeBytes_flatMap_percentByte (bs : Bytes) (cs : List Char) :
    decodeBytes (bs.flatMap percentByte ++ cs) = bs ++ decodeBytes cs := by
  induction bs with
  | nil => rfl
  | cons b bs ih =>
    rw [List.flatMap_cons, List.append_assoc, decodeBytes_percentByte, ih, List.cons_append]

theorem ne_of_unreserved {c d : Char} (h : unreserved c = true) (hd : unreserved d = false) :
    c ≠ d := by
  rintro rfl
  rw [h] at hd
  cases hd

/-- One encoded character decodes to its bytes. -/
theorem decodeBytes_encodeChar (c : Char) (cs : List Char) :
    decodeBytes ((if c = ' ' then ['+'] else percentEncode unreserved [c]) ++ cs) =
      String.utf8EncodeChar c ++ decodeBytes cs := by
  split
  · rename_i h
    rw [h, List.singleton_append, decodeBytes]
  · rw [percentEncode, List.flatMap_singleton]
    split
    · rename_i h
      rw [List.singleton_append, decodeBytes_cons (ne_of_unreserved h (by decide))
        (ne_of_unreserved h (by decide))]
    · exact decodeBytes_flatMap_percentByte _ cs

/-- Decoding undoes encoding. -/
@[simp] theorem decode_encode (s : String) : decode (encode s) = s := by
  have hbytes : decodeBytes (encode s) = utf8 s := by
    unfold encode utf8
    induction s.toList with
    | nil => rfl
    | cons c cs ih => rw [List.flatMap_cons, decodeBytes_encodeChar, ih, List.flatMap_cons]
  rw [decode, hbytes, utf8Decode_utf8]

/-- No separator is left in an encoded text. -/
theorem notMem_encode {c : Char} (hu : unreserved c = false)
    (hc : c ∉ "+%0123456789ABCDEF".toList) (s : String) : c ∉ encode s := by
  rw [show "+%0123456789ABCDEF".toList = '+' :: "%0123456789ABCDEF".toList from rfl,
    List.mem_cons, not_or] at hc
  intro h
  obtain ⟨a, -, ha⟩ := List.mem_flatMap.mp h
  split at ha
  · exact hc.1 (List.mem_singleton.mp ha)
  · exact notMem_percentEncode hu hc.2 _ ha

/-! ## Lists of pairs -/

/-- One pair. -/
def serializePair (p : String × String) : List Char := encode p.1 ++ '=' :: encode p.2

/-- `searchParams.toString()`, and the body a form sends. -/
def serialize (l : List (String × String)) : List Char := ['&'].intercalate (l.map serializePair)

def parsePair (cs : List Char) : String × String :=
  (decode (cut '=' cs).1, decode ((cut '=' cs).2.getD []))

/-- The pairs of a serialized list. Empty parts count for nothing. -/
def parse (cs : List Char) : List (String × String) :=
  ((cs.splitOn '&').filter (· ≠ [])).map parsePair

@[simp] theorem parsePair_serializePair (p : String × String) : parsePair (serializePair p) = p := by
  have heq : '=' ∉ encode p.1 := notMem_encode (by decide) (by decide) _
  rw [parsePair, serializePair, cut_append heq, Option.getD_some, decode_encode, decode_encode]

theorem serializePair_ne_nil (p : String × String) : serializePair p ≠ [] := by
  simp [serializePair]

theorem notMem_serializePair {c : Char} (hu : unreserved c = false)
    (hc : c ∉ "=+%0123456789ABCDEF".toList) (p : String × String) : c ∉ serializePair p := by
  rw [show "=+%0123456789ABCDEF".toList = '=' :: "+%0123456789ABCDEF".toList from rfl,
    List.mem_cons, not_or] at hc
  rw [serializePair, List.mem_append, List.mem_cons]
  rintro (h | h | h)
  · exact notMem_encode hu hc.2 _ h
  · exact hc.1 h
  · exact notMem_encode hu hc.2 _ h

theorem notMem_serialize {c : Char} (hu : unreserved c = false)
    (hc : c ∉ "&=+%0123456789ABCDEF".toList) (l : List (String × String)) : c ∉ serialize l := by
  rw [show "&=+%0123456789ABCDEF".toList = '&' :: "=+%0123456789ABCDEF".toList from rfl,
    List.mem_cons, not_or] at hc
  unfold serialize
  induction l with
  | nil => exact List.not_mem_nil
  | cons p l ih =>
    have hp := notMem_serializePair hu hc.2 p
    cases l with
    | nil => simpa using hp
    | cons q l =>
      rw [List.map_cons, List.map_cons, List.intercalate_cons_cons] at *
      simp only [List.mem_append, List.mem_singleton, not_or]
      exact ⟨⟨hp, hc.1⟩, ih⟩

/-- **Main theorem**: parsing undoes serializing. -/
@[simp] theorem parse_serialize (l : List (String × String)) : parse (serialize l) = l := by
  cases l with
  | nil => rfl
  | cons p l =>
    have hsplit : (serialize (p :: l)).splitOn '&' = (p :: l).map serializePair := by
      refine List.splitOn_intercalate '&' ?_ (by simp)
      intro cs hcs
      obtain ⟨q, -, rfl⟩ := List.mem_map.mp hcs
      exact notMem_serializePair (by decide) (by decide) q
    have hfilter : ((p :: l).map serializePair).filter (· ≠ []) = (p :: l).map serializePair := by
      refine List.filter_eq_self.mpr ?_
      intro cs hcs
      obtain ⟨q, -, rfl⟩ := List.mem_map.mp hcs
      simpa using serializePair_ne_nil q
    rw [parse, hsplit, hfilter, List.map_map]
    exact (List.map_congr_left fun q _ => parsePair_serializePair q).trans (List.map_id _)

end FormUrlencoded

end Common
