import NestTemplate.Common.NumberText

/-!
# JSON values, `JSON.stringify` and `JSON.parse`

* A number is a double: `JSON.parse` rounds a literal, and `JSON.stringify`
  writes the number, or `null` where it is not finite.
* An object keeps its members in source order, and a repeated member counts
  with its last occurrence (`get?`), as in `JSON.parse`.
* `parse` reads a `\u` escape pair of surrogates as one character. A lone
  surrogate, which is no Unicode scalar value, becomes U+FFFD, as it does when
  the text is next encoded as UTF-8.

Main results: `parse_stringify_eq_carried`, what a value comes back as from its
text, and `carried_eq_self_iff`, which values come back as they were.
-/

namespace Common

inductive Json where
  | null
  | bool (b : Bool)
  | num (x : JsDouble.Double)
  | str (s : String)
  | arr (elements : List Json)
  | obj (members : List (String × Json))

namespace Json

/-- The member `name`; of repeated members the last. -/
def lookup (name : String) : List (String × Json) → Option Json
  | [] => none
  | (k, v) :: ms => (lookup name ms).or (if k = name then some v else none)

/-- `value[name]` on an object; other values have no own members. -/
def get? (j : Json) (name : String) : Option Json :=
  match j with
  | .obj ms => lookup name ms
  | _ => none

/-- `typeof value === 'string'`. -/
def str? : Json → Option String
  | .str s => some s
  | _ => none

/-- Whether a value counts as true in a condition; `none` is `undefined`. -/
def truthy : Option Json → Bool
  | none | some .null => false
  | some (.bool b) => b
  | some (.num x) => x.val.truthy
  | some (.str s) => s ≠ ""
  | some (.arr _) | some (.obj _) => true

/-- The members with `name` set to `v`. -/
def setMember (name : String) (v : Json) (ms : List (String × Json)) : List (String × Json) :=
  ms.filter (·.1 ≠ name) ++ [(name, v)]

theorem lookup_append (name : String) (ms ns : List (String × Json)) :
    lookup name (ms ++ ns) = (lookup name ns).or (lookup name ms) := by
  induction ms with
  | nil => simp [lookup]
  | cons m ms ih => rw [List.cons_append, lookup, ih, Option.or_assoc, lookup]

/-- Setting a member leaves the others alone. -/
theorem lookup_setMember_of_ne {name other : String} (h : other ≠ name) (v : Json)
    (ms : List (String × Json)) : lookup other (setMember name v ms) = lookup other ms := by
  have hnew : lookup other [(name, v)] = none := by simp [lookup, h.symm]
  unfold setMember
  rw [lookup_append, hnew, Option.none_or]
  induction ms with
  | nil => rfl
  | cons m ms ih =>
    by_cases hm : m.1 = name
    · rw [List.filter_cons_of_neg (by simpa using hm), ih, lookup, if_neg (hm ▸ h.symm),
        Option.or_none]
    · rw [List.filter_cons_of_pos (by simpa using hm), lookup, ih, lookup]

/-! ## `JSON.stringify` -/

/-- One character of a quoted string. -/
def escape (c : Char) : List Char :=
  if c = '"' then ['\\', '"']
  else if c = '\\' then ['\\', '\\']
  else if c = '\x08' then ['\\', 'b']
  else if c = '\x0c' then ['\\', 'f']
  else if c = '\n' then ['\\', 'n']
  else if c = '\r' then ['\\', 'r']
  else if c = '\t' then ['\\', 't']
  else if c.toNat < 0x20 then
    ['\\', 'u', '0', '0', hexDigit (c.toNat / 16), hexDigit (c.toNat % 16)]
  else [c]

/-- A quoted string without its opening quote. -/
def quoted (cs : List Char) : List Char := cs.flatMap escape ++ ['"']

/-- The text of a number. -/
def printNumber (x : JsDouble) : List Char :=
  match x with
  | .nan | .infinity _ => "null".toList
  | .negZero | .finite _ => x.toText.toList

mutual

/-- The text of a value. -/
def print : Json → List Char
  | .null => "null".toList
  | .bool true => "true".toList
  | .bool false => "false".toList
  | .num x => printNumber x.val
  | .str s => '"' :: quoted s.toList
  | .arr [] => ['[', ']']
  | .arr (x :: xs) => '[' :: (print x ++ printElements xs)
  | .obj [] => ['{', '}']
  | .obj ((k, v) :: ms) => '{' :: '"' :: (quoted k.toList ++ ':' :: (print v ++ printMembers ms))

/-- The elements after the first, and the bracket. -/
def printElements : List Json → List Char
  | [] => [']']
  | x :: xs => ',' :: (print x ++ printElements xs)

/-- The members after the first, and the brace. -/
def printMembers : List (String × Json) → List Char
  | [] => ['}']
  | (k, v) :: ms => ',' :: '"' :: (quoted k.toList ++ ':' :: (print v ++ printMembers ms))

end

/-- `JSON.stringify(value)`. -/
def stringify (j : Json) : String := String.ofList (print j)

/-! ## `JSON.parse` -/

def isWhitespace (c : Char) : Bool := c = ' ' ∨ c = '\t' ∨ c = '\n' ∨ c = '\r'

def skipWhitespace (cs : List Char) : List Char := cs.dropWhile isWhitespace

/-- One unit of a quoted string: a character, or the code unit of a `\u` escape. -/
inductive Piece where
  | char (c : Char)
  | unit (n : ℕ)

/-- The character an escape letter stands for. -/
def unescape (c : Char) : Option Char :=
  if c = '"' ∨ c = '\\' ∨ c = '/' then some c
  else if c = 'b' then some '\x08'
  else if c = 'f' then some '\x0c'
  else if c = 'n' then some '\n'
  else if c = 'r' then some '\r'
  else if c = 't' then some '\t'
  else none

/-- The code unit of four hexadecimal digits. -/
def codeUnit (a b c d : Char) : Option ℕ := do
  let a ← hexValue a
  let b ← hexValue b
  let c ← hexValue c
  let d ← hexValue d
  return 4096 * a + 256 * b + 16 * c + d

/-- A quoted string after its opening quote, and what follows the closing one. -/
def stringPieces : List Char → Option (List Piece × List Char)
  | [] => none
  | c :: cs =>
    if c = '"' then some ([], cs)
    else if c = '\\' then
      match cs with
      | 'u' :: h₁ :: h₂ :: h₃ :: h₄ :: cs => do
        let n ← codeUnit h₁ h₂ h₃ h₄
        let (ps, rest) ← stringPieces cs
        return (.unit n :: ps, rest)
      | e :: cs => do
        let e ← unescape e
        let (ps, rest) ← stringPieces cs
        return (.char e :: ps, rest)
      | [] => none
    else if c.toNat < 0x20 then none
    else do
      let (ps, rest) ← stringPieces cs
      return (.char c :: ps, rest)

/-- The character of a code unit on its own. -/
def unitChar (n : ℕ) : Char := if n.isValidChar then Char.ofNat n else '\uFFFD'

/-- The characters of a quoted string: a high surrogate followed by a low one is one character. -/
def joinPieces : List Piece → List Char
  | [] => []
  | .char c :: ps => c :: joinPieces ps
  | .unit h :: .unit l :: ps =>
    if 0xD800 ≤ h ∧ h ≤ 0xDBFF ∧ 0xDC00 ≤ l ∧ l ≤ 0xDFFF then
      Char.ofNat (0x10000 + 0x400 * (h - 0xD800) + (l - 0xDC00)) :: joinPieces ps
    else unitChar h :: joinPieces (.unit l :: ps)
  | .unit h :: ps => unitChar h :: joinPieces ps

/-- A quoted string after its opening quote. -/
def parseString (cs : List Char) : Option (String × List Char) :=
  (stringPieces cs).map fun (ps, rest) => (String.ofList (joinPieces ps), rest)

/-- At least one digit. -/
def parseDigits (cs : List Char) : Option (List Char × List Char) :=
  match cs.span Char.isDigit with
  | ([], _) => none
  | (ds, rest) => some (ds, rest)

/-- The literal of a number. -/
def parseNumber (cs : List Char) : Option (String × List Char) := do
  let (sign, cs) := match cs with
    | '-' :: cs => (['-'], cs)
    | cs => ([], cs)
  let (int, cs) ← match cs with
    | '0' :: cs => some (['0'], cs)
    | cs => parseDigits cs
  let (frac, cs) ← match cs with
    | '.' :: cs => (parseDigits cs).map fun (ds, cs) => ('.' :: ds, cs)
    | cs => some ([], cs)
  let (exp, cs) ← match cs with
    | e :: cs' =>
      if e = 'e' ∨ e = 'E' then
        match cs' with
        | s :: cs'' =>
          if s = '+' ∨ s = '-' then (parseDigits cs'').map fun (ds, cs) => (e :: s :: ds, cs)
          else (parseDigits cs').map fun (ds, cs) => (e :: ds, cs)
        | [] => none
      else some ([], cs)
    | [] => some ([], cs)
  return (String.ofList (sign ++ int ++ frac ++ exp), cs)

mutual

/-- A value and what follows it. -/
def parseValue : ℕ → List Char → Option (Json × List Char)
  | 0, _ => none
  | fuel + 1, cs =>
    match skipWhitespace cs with
    | 'n' :: 'u' :: 'l' :: 'l' :: cs => some (.null, cs)
    | 't' :: 'r' :: 'u' :: 'e' :: cs => some (.bool true, cs)
    | 'f' :: 'a' :: 'l' :: 's' :: 'e' :: cs => some (.bool false, cs)
    | '"' :: cs => (parseString cs).map fun (s, cs) => (.str s, cs)
    | '[' :: cs =>
      match skipWhitespace cs with
      | ']' :: cs => some (.arr [], cs)
      | cs => (parseElements fuel cs).map fun (xs, cs) => (.arr xs, cs)
    | '{' :: cs =>
      match skipWhitespace cs with
      | '}' :: cs => some (.obj [], cs)
      | cs => (parseMembers fuel cs).map fun (ms, cs) => (.obj ms, cs)
    | cs => (parseNumber cs).map fun (n, cs) => (.num (JsDouble.Double.ofText n), cs)

/-- The elements of an array up to its bracket. -/
def parseElements : ℕ → List Char → Option (List Json × List Char)
  | 0, _ => none
  | fuel + 1, cs => do
    let (x, cs) ← parseValue fuel cs
    match skipWhitespace cs with
    | ']' :: cs => return ([x], cs)
    | ',' :: cs =>
      let (xs, cs) ← parseElements fuel cs
      return (x :: xs, cs)
    | _ => none

/-- The members of an object up to its brace. -/
def parseMembers : ℕ → List Char → Option (List (String × Json) × List Char)
  | 0, _ => none
  | fuel + 1, cs =>
    match skipWhitespace cs with
    | '"' :: cs => do
      let (k, cs) ← parseString cs
      match skipWhitespace cs with
      | ':' :: cs =>
        let (v, cs) ← parseValue fuel cs
        match skipWhitespace cs with
        | '}' :: cs => return ([(k, v)], cs)
        | ',' :: cs =>
          let (ms, cs) ← parseMembers fuel cs
          return ((k, v) :: ms, cs)
        | _ => none
      | _ => none
    | _ => none

end

/-- `JSON.parse(text)`, `none` where it throws a `SyntaxError`. -/
def parse (s : String) : Option Json :=
  match parseValue (s.toList.length + 1) s.toList with
  | some (j, cs) => if skipWhitespace cs = [] then some j else none
  | none => none

/-! ## Reading a number in front of other text -/

/-- No character that would go on with a number. -/
def endsNumber (rest : List Char) : Prop := ∀ c ∈ rest.head?, c.isDigit = false ∧ c ∉ ['.', 'e', 'E']

def parseSign : List Char → List Char × List Char
  | '-' :: cs => (['-'], cs)
  | cs => ([], cs)

def parseInt : List Char → Option (List Char × List Char)
  | '0' :: cs => some (['0'], cs)
  | cs => parseDigits cs

def parseFrac : List Char → Option (List Char × List Char)
  | '.' :: cs => (parseDigits cs).map fun (ds, cs) => ('.' :: ds, cs)
  | cs => some ([], cs)

def parseExp : List Char → Option (List Char × List Char)
  | e :: cs' =>
    if e = 'e' ∨ e = 'E' then
      match cs' with
      | s :: cs'' =>
        if s = '+' ∨ s = '-' then (parseDigits cs'').map fun (ds, cs) => (e :: s :: ds, cs)
        else (parseDigits cs').map fun (ds, cs) => (e :: ds, cs)
      | [] => none
    else some ([], e :: cs')
  | [] => some ([], [])

theorem parseInt_bind {α : Type} (cs : List Char) (k : List Char × List Char → Option α) :
    (match cs with
      | '0' :: cs => some (['0'], cs) >>= k
      | cs => parseDigits cs >>= k) = (parseInt cs).bind k := by
  unfold parseInt
  split <;> rfl

theorem parseFrac_bind {α : Type} (cs : List Char) (k : List Char × List Char → Option α) :
    (match cs with
      | '.' :: cs => ((parseDigits cs).map fun (ds, cs) => ('.' :: ds, cs)) >>= k
      | cs => some ([], cs) >>= k) = (parseFrac cs).bind k := by
  unfold parseFrac
  split <;> rfl

theorem parseExp_bind {α : Type} (cs : List Char) (k : List Char × List Char → Option α) :
    (match cs with
      | e :: cs' =>
        if e = 'e' ∨ e = 'E' then
          match cs' with
          | s :: cs'' =>
            if s = '+' ∨ s = '-' then
              ((parseDigits cs'').map fun (ds, cs) => (e :: s :: ds, cs)) >>= k
            else ((parseDigits cs').map fun (ds, cs) => (e :: ds, cs)) >>= k
          | [] => none >>= k
        else some ([], cs) >>= k
      | [] => some ([], cs) >>= k) = (parseExp cs).bind k := by
  unfold parseExp
  split
  · rename_i e cs'
    by_cases he : e = 'e' ∨ e = 'E'
    · rw [if_pos he, if_pos he]
      split <;> [skip; rfl]
      rename_i s cs''
      by_cases hs : s = '+' ∨ s = '-' <;> simp only [hs, if_true, if_false] <;> rfl
    · rw [if_neg he, if_neg he]
      rfl
  · rfl

/-- A number is a sign, an integer part, a fraction and an exponent, read one after the other. -/
theorem parseNumber_eq (cs : List Char) : parseNumber cs =
    (parseInt (parseSign cs).2).bind fun i => (parseFrac i.2).bind fun f => (parseExp f.2).bind fun e =>
      some (String.ofList ((parseSign cs).1 ++ i.1 ++ f.1 ++ e.1), e.2) := by
  unfold parseNumber
  split
  rename_i sign cs' hsign
  rw [show parseSign cs = (sign, cs') from hsign]
  refine (parseInt_bind cs' _).trans (congrArg _ (funext fun i => ?_))
  refine (parseFrac_bind i.2 _).trans (congrArg _ (funext fun f => ?_))
  exact parseExp_bind f.2 _

theorem span_append_of_head {p : Char → Bool} {cs rest : List Char} (hr : ∀ c ∈ rest.head?, p c = false) :
    (cs ++ rest).span p = ((cs.span p).1, (cs.span p).2 ++ rest) := by
  simp only [List.span_eq_takeWhile_dropWhile]
  induction cs with
  | nil =>
    cases rest with
    | nil => rfl
    | cons c rest => simp [hr c rfl]
  | cons c cs ih =>
    rw [Prod.mk.injEq] at ih
    by_cases hc : p c = true <;> simp [hc, ih.1, ih.2]

theorem parseDigits_append {cs ds cs' rest : List Char} (hr : endsNumber rest)
    (h : parseDigits cs = some (ds, cs')) : parseDigits (cs ++ rest) = some (ds, cs' ++ rest) := by
  unfold parseDigits at h ⊢
  rw [span_append_of_head fun c hc => (hr c hc).1]
  rcases hs : cs.span Char.isDigit with ⟨_ | ⟨d, ds'⟩, r⟩ <;> rw [hs] at h <;> cases h
  rfl

theorem parseInt_append {cs int cs' rest : List Char} (hr : endsNumber rest)
    (h : parseInt cs = some (int, cs')) : parseInt (cs ++ rest) = some (int, cs' ++ rest) := by
  cases cs with
  | nil => cases h
  | cons c cs =>
    rw [List.cons_append]
    by_cases hc : c = '0'
    · subst hc
      cases h
      rfl
    · rw [parseInt.eq_2 _ (by simp [hc])] at h ⊢
      exact parseDigits_append hr h

theorem parseFrac_append {cs frac cs' rest : List Char} (hr : endsNumber rest)
    (h : parseFrac cs = some (frac, cs')) : parseFrac (cs ++ rest) = some (frac, cs' ++ rest) := by
  cases cs with
  | nil =>
    cases h
    refine parseFrac.eq_2 _ fun ds hds => ?_
    have := (hr '.' (by simpa using congrArg List.head? hds)).2
    exact this (by decide)
  | cons c cs =>
    rw [List.cons_append]
    by_cases hc : c = '.'
    · subst hc
      rw [parseFrac, Option.map_eq_some_iff] at h
      obtain ⟨⟨ds, r⟩, hd, hds⟩ := h
      cases hds
      rw [parseFrac, parseDigits_append hr hd]
      rfl
    · rw [parseFrac.eq_2 _ (by simp [hc])] at h ⊢
      cases h
      rfl

theorem parseExp_append {cs exp cs' rest : List Char} (hr : endsNumber rest)
    (h : parseExp cs = some (exp, cs')) : parseExp (cs ++ rest) = some (exp, cs' ++ rest) := by
  match cs with
  | [] =>
    cases h
    cases rest with
    | nil => rfl
    | cons c rest =>
      have hc := (hr c rfl).2
      have : ¬ (c = 'e' ∨ c = 'E') := by
        rintro (rfl | rfl) <;> exact hc (by decide)
      rw [List.nil_append, parseExp.eq_def]
      exact if_neg this
  | e :: cs =>
    rw [parseExp.eq_def] at h
    rw [List.cons_append, parseExp.eq_def]
    dsimp only at h ⊢
    by_cases he : e = 'e' ∨ e = 'E'
    · rw [if_pos he] at h ⊢
      match cs with
      | [] => cases h
      | s :: cs =>
        dsimp only [List.cons_append] at h ⊢
        by_cases hs : s = '+' ∨ s = '-'
        · rw [if_pos hs, Option.map_eq_some_iff] at h
          obtain ⟨⟨ds, r⟩, hd, hds⟩ := h
          cases hds
          rw [if_pos hs, parseDigits_append hr hd]
          rfl
        · rw [if_neg hs, Option.map_eq_some_iff] at h
          obtain ⟨⟨ds, r⟩, hd, hds⟩ := h
          cases hds
          rw [if_neg hs, ← List.cons_append, parseDigits_append hr hd]
          rfl
    · rw [if_neg he] at h ⊢
      cases h
      rfl

theorem parseSign_append {cs : List Char} (rest : List Char) (h : cs ≠ []) :
    parseSign (cs ++ rest) = ((parseSign cs).1, (parseSign cs).2 ++ rest) := by
  cases cs with
  | nil => exact absurd rfl h
  | cons c cs =>
    by_cases hc : c = '-'
    · subst hc
      rfl
    · simp [parseSign.eq_2 _ (show ∀ cs', c :: cs = '-' :: cs' → False by simp [hc]),
        parseSign.eq_2 _ (show ∀ cs', c :: (cs ++ rest) = '-' :: cs' → False by simp [hc])]

/-- A number is read the same when something follows that does not go on with it. -/
theorem parseNumber_append {cs cs' rest : List Char} {l : String} (hr : endsNumber rest)
    (h : parseNumber cs = some (l, cs')) : parseNumber (cs ++ rest) = some (l, cs' ++ rest) := by
  have hne : cs ≠ [] := by
    rintro rfl
    cases h
  rw [parseNumber_eq, Option.bind_eq_some_iff] at h
  obtain ⟨int, hint, h⟩ := h
  rw [Option.bind_eq_some_iff] at h
  obtain ⟨frac, hfrac, h⟩ := h
  rw [Option.bind_eq_some_iff] at h
  obtain ⟨exp, hexp, h⟩ := h
  cases h
  rw [parseNumber_eq, parseSign_append rest hne]
  dsimp only
  rw [parseInt_append hr hint, Option.bind_some, parseFrac_append hr hfrac, Option.bind_some,
    parseExp_append hr hexp, Option.bind_some]

/-- A number starts with a minus sign or a digit. -/
theorem parseNumber_head {cs cs' : List Char} {l : String} (h : parseNumber cs = some (l, cs')) :
    ∃ c ds, cs = c :: ds ∧ (c = '-' ∨ c.isDigit = true) := by
  cases cs with
  | nil => cases h
  | cons c ds =>
    refine ⟨c, ds, rfl, or_iff_not_imp_left.2 fun hc => ?_⟩
    rw [parseNumber_eq, parseSign.eq_2 _ (by simp [hc])] at h
    by_contra hd
    have : parseInt (c :: ds) = none := by
      rw [parseInt.eq_2 _ (by rintro cs ⟨rfl, rfl⟩; exact hd (by decide)), parseDigits,
        List.span_eq_takeWhile_dropWhile]
      simp [hd]
    rw [this] at h
    cases h

/-- The text of one number, and nothing else. -/
def isNumber (literal : String) : Bool := parseNumber literal.toList = some (literal, [])

/-! ## Printed numbers -/

section Numeral

open JsDouble JsDouble.Numeral

theorem parseDigits_of_digits {ds rest : List Char} (hds : Digits.AreDigits ds) (hne : ds ≠ [])
    (hrest : EndsDigits rest) : parseDigits (ds ++ rest) = some (ds, rest) := by
  obtain ⟨htake, hdrop⟩ := takeWhile_digits hds hrest
  unfold parseDigits
  rw [List.span_eq_takeWhile_dropWhile, htake, hdrop]
  cases ds with
  | nil => exact absurd rfl hne
  | cons d ds => rfl

variable {d : Numeral} (hd : d.Valid)

include hd

theorem parseInt_whole {rest : List Char} (hrest : EndsDigits rest) :
    parseInt (d.whole ++ rest) = some (d.whole, rest) := by
  obtain ⟨c, cs, hwhole⟩ := List.exists_cons_of_ne_nil hd.whole_ne_nil
  by_cases hc : c = '0'
  · have hzero : d.whole = ['0'] := hd.leading (by rw [hwhole, hc]; rfl)
    rw [hzero]
    rfl
  · have hnumber := parseDigits_of_digits hd.whole hd.whole_ne_nil hrest
    rw [hwhole, List.cons_append] at hnumber ⊢
    rw [parseInt.eq_2 _ (by simp [hc])]
    exact hnumber

theorem parseFrac_tail : parseFrac (fractionChars d.fraction ++ exponentChars d.exponent) =
    some (fractionChars d.fraction, exponentChars d.exponent) := by
  unfold fractionChars
  split
  · cases d.exponent with
    | none => rfl
    | some e => rfl
  · rename_i hne
    rw [List.cons_append, parseFrac,
      parseDigits_of_digits hd.fraction hne (endsDigits_exponentChars d.exponent)]
    rfl

omit hd in
theorem parseExp_exponentChars (e : Option ℤ) :
    parseExp (exponentChars e) = some (exponentChars e, []) := by
  cases e with
  | none => rfl
  | some e =>
    have hend : EndsDigits [] := by simp [EndsDigits]
    have hdigits := parseDigits_of_digits (Digits.areDigits_toDigits e.natAbs)
      Nat.toDigits_ne_nil hend
    rw [List.append_nil] at hdigits
    have hsign : (if 0 ≤ e then '+' else '-') = '+' ∨ (if 0 ≤ e then '+' else '-') = '-' := by
      split
      · exact .inl rfl
      · exact .inr rfl
    unfold exponentChars parseExp
    dsimp only
    rw [if_pos (.inl rfl), if_pos hsign, hdigits]
    rfl

/-- A numeral is a number in JSON. -/
theorem isNumber_chars (negative : Bool) :
    isNumber (String.ofList (signed negative d.chars)) = true := by
  obtain ⟨c, cs, hchars, hc⟩ := exists_head hd
  have hsign : parseSign (signed negative d.chars) = (if negative then ['-'] else [], d.chars) := by
    cases negative with
    | true => rfl
    | false =>
      show parseSign d.chars = ([], d.chars)
      rw [hchars, parseSign.eq_2 _ (by rintro cs' ⟨rfl, -⟩; exact absurd hc (by decide))]
  have hrest : EndsDigits (fractionChars d.fraction ++ exponentChars d.exponent) :=
    endsDigits_tail d.fraction d.exponent
  refine decide_eq_true ?_
  rw [String.toList_ofList, parseNumber_eq, hsign]
  dsimp only
  rw [chars, parseInt_whole hd hrest, Option.bind_some,
    parseFrac_tail hd, Option.bind_some, parseExp_exponentChars, Option.bind_some]
  cases negative <;> simp [signed]

end Numeral

/-- What is printed for a double that is finite is a number. -/
theorem isNumber_finiteChars {q : ℚ} (hq : (JsDouble.finite q).IsDouble) :
    isNumber (String.ofList (JsDouble.finiteChars q)) = true := by
  unfold JsDouble.finiteChars
  split
  · rfl
  · rename_i hne
    exact isNumber_chars (JsDouble.valid_finite hq hne) _

/-! ## The round trip -/

mutual

/-- No number occurs in the value. -/
def noNumber : Json → Bool
  | .num _ => false
  | .arr xs => noNumberElements xs
  | .obj ms => noNumberMembers ms
  | _ => true

def noNumberElements : List Json → Bool
  | [] => true
  | x :: xs => noNumber x && noNumberElements xs

def noNumberMembers : List (String × Json) → Bool
  | [] => true
  | (_, v) :: ms => noNumber v && noNumberMembers ms


/-- Every number of the value is finite, and none is -0. -/
def survives : Json → Bool
  | .num ⟨.finite _, _⟩ => true
  | .num _ => false
  | .arr xs => survivesElements xs
  | .obj ms => survivesMembers ms
  | _ => true

def survivesElements : List Json → Bool
  | [] => true
  | x :: xs => survives x && survivesElements xs

def survivesMembers : List (String × Json) → Bool
  | [] => true
  | (_, v) :: ms => survives v && survivesMembers ms

end

/-- What a number comes back as. -/
def carriedNumber : JsDouble.Double → Json
  | ⟨.nan, _⟩ | ⟨.infinity _, _⟩ => .null
  | ⟨.negZero, _⟩ => .num ⟨.finite 0, JsDouble.isDouble_zero⟩
  | ⟨.finite q, h⟩ => .num ⟨.finite q, h⟩

mutual

/-- The value that comes back from its text: a number that is not finite as `null`, -0 as 0. -/
def carried : Json → Json
  | .null => .null
  | .bool b => .bool b
  | .num x => carriedNumber x
  | .str s => .str s
  | .arr xs => .arr (carriedElements xs)
  | .obj ms => .obj (carriedMembers ms)

def carriedElements : List Json → List Json
  | [] => []
  | x :: xs => carried x :: carriedElements xs

def carriedMembers : List (String × Json) → List (String × Json)
  | [] => []
  | (k, v) :: ms => (k, carried v) :: carriedMembers ms

end

/-- How a printed character is read back. -/
def piece (c : Char) : Piece :=
  if c.toNat < 0x20 ∧ c ∉ ['\x08', '\x0c', '\n', '\r', '\t'] then .unit c.toNat else .char c

theorem codeUnit_escape {c : Char} (h : c.toNat < 0x20) :
    codeUnit '0' '0' (hexDigit (c.toNat / 16)) (hexDigit (c.toNat % 16)) = some c.toNat := by
  simp only [codeUnit, hexValue_hexDigit (show c.toNat / 16 < 16 by omega),
    hexValue_hexDigit (show c.toNat % 16 < 16 by omega)]
  rw [show hexValue '0' = some 0 from rfl]
  simp
  omega

theorem stringPieces_escape (c : Char) (cs : List Char) :
    stringPieces (escape c ++ cs) =
      (stringPieces cs).map fun (ps, rest) => (piece c :: ps, rest) := by
  by_cases hs : c ∈ ['"', '\\', '\x08', '\x0c', '\n', '\r', '\t']
  · simp only [List.mem_cons, List.not_mem_nil, or_false] at hs
    rcases hs with rfl | rfl | rfl | rfl | rfl | rfl | rfl <;>
      (rw [stringPieces.eq_def]; cases h : stringPieces cs <;> simp [escape, unescape, h, piece])
  · simp only [List.mem_cons, List.not_mem_nil, or_false, not_or] at hs
    obtain ⟨h₁, h₂, h₃, h₄, h₅, h₆, h₇⟩ := hs
    by_cases hc : c.toNat < 0x20
    · have he : escape c = ['\\', 'u', '0', '0', hexDigit (c.toNat / 16), hexDigit (c.toNat % 16)] := by
        simp [escape, h₁, h₂, h₃, h₄, h₅, h₆, h₇, hc]
      have hp : piece c = .unit c.toNat := by simp [piece, hc, h₃, h₄, h₅, h₆, h₇]
      rw [he, hp, stringPieces.eq_def]
      simp [codeUnit_escape hc]
      cases stringPieces cs <;> rfl
    · have he : escape c = [c] := by simp [escape, h₁, h₂, h₃, h₄, h₅, h₆, h₇, hc]
      have hp : piece c = .char c := by simp [piece, hc]
      rw [he, hp, stringPieces.eq_def]
      simp [h₁, h₂, hc]
      cases stringPieces cs <;> rfl

theorem stringPieces_quoted (cs rest : List Char) :
    stringPieces (quoted cs ++ rest) = some (cs.map piece, rest) := by
  induction cs with
  | nil => rw [stringPieces.eq_def]; rfl
  | cons c cs ih =>
    have hq : quoted (c :: cs) ++ rest = escape c ++ (quoted cs ++ rest) := by simp [quoted]
    rw [hq, stringPieces_escape, ih]
    rfl

theorem piece_cases (c : Char) :
    piece c = .char c ∨ (piece c = .unit c.toNat ∧ c.toNat < 0x20) := by
  unfold piece
  split
  · rename_i h; exact .inr ⟨rfl, h.1⟩
  · exact .inl rfl

theorem joinPieces_map_piece (cs : List Char) : joinPieces (cs.map piece) = cs := by
  induction cs with
  | nil => rfl
  | cons c cs ih =>
    rw [List.map_cons]
    rcases piece_cases c with hp | ⟨hp, hc⟩ <;> rw [hp]
    · rw [joinPieces, ih]
    · have hchar : unitChar c.toNat = c := by
        have hv : c.toNat.isValidChar := c.valid
        rw [unitChar, if_pos hv, Char.ofNat_toNat]
      -- a control character is no surrogate, so it does not join with what follows
      cases cs with
      | nil => simp [joinPieces, hchar]
      | cons d ds =>
        rw [List.map_cons] at ih ⊢
        rcases piece_cases d with hd | ⟨hd, -⟩ <;> rw [hd] at ih ⊢
        · rw [joinPieces, hchar, ih]
          simp
        · rw [joinPieces, if_neg (by omega), hchar, ih]

theorem parseString_quoted (s : String) (rest : List Char) :
    parseString (quoted s.toList ++ rest) = some (s, rest) := by
  simp only [parseString, stringPieces_quoted, Option.map_some, joinPieces_map_piece,
    String.ofList_toList]

theorem skipWhitespace_cons {c : Char} (h : isWhitespace c = false) (cs : List Char) :
    skipWhitespace (c :: cs) = c :: cs := by
  simp [skipWhitespace, h]

theorem isWhitespace_numberHead {c : Char} (hc : c = '-' ∨ c.isDigit = true) :
    isWhitespace c = false := by
  rw [isWhitespace, decide_eq_false_iff_not]
  rintro (rfl | rfl | rfl | rfl) <;> revert hc <;> decide

/-- The text of a number is `null`, or it is read as a number. -/
theorem printNumber_cases (x : JsDouble.Double) :
    printNumber x.val = "null".toList ∧ carriedNumber x = .null ∨
      ∃ l : String, isNumber l = true ∧ printNumber x.val = l.toList ∧
        carriedNumber x = .num (JsDouble.Double.ofText l) := by
  match x with
  | ⟨.nan, _⟩ | ⟨.infinity _, _⟩ => exact .inl ⟨rfl, rfl⟩
  | ⟨.negZero, h⟩ =>
    exact .inr ⟨"0", rfl, rfl, congrArg Json.num (Subtype.ext (JsDouble.number_toText h).symm)⟩
  | ⟨.finite q, h⟩ =>
    exact .inr ⟨_, isNumber_finiteChars h, rfl,
      congrArg Json.num (Subtype.ext (JsDouble.number_toText h).symm)⟩

/-- The printed value starts with none of these characters. -/
theorem print_ne_nil (j : Json) :
    ∃ c cs, print j = c :: cs ∧ isWhitespace c = false ∧ c ≠ ']' ∧ c ≠ '}' := by
  cases j with
  | null => exact ⟨'n', _, rfl, by decide⟩
  | bool b => cases b <;> exact ⟨_, _, rfl, by decide⟩
  | num x =>
    rcases printNumber_cases x with ⟨hnull, -⟩ | ⟨l, hl, hprint, -⟩
    · exact ⟨'n', _, hnull, by decide⟩
    · obtain ⟨c, ds, hchars, hc⟩ := parseNumber_head (of_decide_eq_true hl)
      exact ⟨c, ds, hprint.trans hchars, isWhitespace_numberHead hc,
        by rintro rfl; revert hc; decide, by rintro rfl; revert hc; decide⟩
  | str s => exact ⟨'"', _, rfl, by decide⟩
  | arr xs => cases xs <;> exact ⟨'[', _, rfl, by decide⟩
  | obj ms => cases ms <;> exact ⟨'{', _, rfl, by decide⟩

theorem length_printElements (xs : List Json) : 0 < (printElements xs).length := by
  cases xs <;> simp [printElements]

theorem length_printMembers (ms : List (String × Json)) : 0 < (printMembers ms).length := by
  cases ms <;> simp [printMembers]

theorem endsNumber_printElements (xs : List Json) (rest : List Char) :
    endsNumber (printElements xs ++ rest) := by
  cases xs <;> simp [printElements, endsNumber]

theorem endsNumber_printMembers (ms : List (String × Json)) (rest : List Char) :
    endsNumber (printMembers ms ++ rest) := by
  cases ms <;> simp [printMembers, endsNumber]

/-- No value but a number starts as a number does. -/
theorem parseValue_number {l : String} {rest : List Char} (hl : isNumber l = true)
    (hr : endsNumber rest) (fuel : ℕ) :
    parseValue (fuel + 1) (l.toList ++ rest) = some (.num (JsDouble.Double.ofText l), rest) := by
  have hparse : parseNumber l.toList = some (l, []) := of_decide_eq_true hl
  have happend := parseNumber_append hr hparse
  obtain ⟨c, ds, hcs, hc⟩ := parseNumber_head hparse
  rw [hcs, List.cons_append] at happend ⊢
  rw [parseValue, skipWhitespace_cons (isWhitespace_numberHead hc)]
  have hne : ∀ {d : Char} {ds' : List Char}, c :: (ds ++ rest) = d :: ds' →
      ¬ (d = '-' ∨ d.isDigit = true) → False := by
    intro d ds' heq hd
    exact hd ((List.cons.inj heq).1 ▸ hc)
  split
  case h_7 => rw [happend]; rfl
  all_goals
    rename_i heq
    exact (hne heq (by decide)).elim

mutual

/-- A printed value is read back, with what follows it, when there is fuel for its length. -/
theorem parseValue_print (j : Json) :
    ∀ fuel rest, endsNumber rest → (print j).length < fuel →
      parseValue fuel (print j ++ rest) = some (carried j, rest)
  | 0, _, _, h => absurd h (Nat.not_lt_zero _)
  | fuel + 1, rest, hr, h => by
    match j with
    | .null => rfl
    | .bool true => rfl
    | .bool false => rfl
    | .num x =>
      show parseValue (fuel + 1) (printNumber x.val ++ rest) = some (carriedNumber x, rest)
      rcases printNumber_cases x with ⟨hnull, hcarried⟩ | ⟨l, hl, hprint, hcarried⟩
      · rw [hnull, hcarried]
        rfl
      · rw [hprint, hcarried]
        exact parseValue_number hl hr fuel
    | .str s =>
      rw [print, List.cons_append, parseValue, skipWhitespace_cons (by decide)]
      simp [parseString_quoted, carried]
    | .arr [] => rfl
    | .arr (x :: xs) =>
      rw [print, List.length_cons] at h
      obtain ⟨c, cs, hp, hw, hb, -⟩ := print_ne_nil x
      have ih := parseElements_print x xs fuel rest (by omega)
      rw [hp] at ih
      rw [print, hp, List.cons_append, parseValue, skipWhitespace_cons (by decide)]
      simp only [List.cons_append, List.append_assoc, skipWhitespace_cons hw] at ih ⊢
      simp [hb, ih, carried]
    | .obj [] => rfl
    | .obj ((k, v) :: ms) =>
      rw [print, List.length_cons] at h
      have ih := parseMembers_print k v ms fuel rest (by omega)
      rw [print, List.cons_append, parseValue, skipWhitespace_cons (by decide)]
      simp only [List.cons_append, List.append_assoc] at ih ⊢
      rw [skipWhitespace_cons (by decide)]
      simp [ih, carried]
termination_by fuel => fuel

theorem parseElements_print (x : Json) (xs : List Json) :
    ∀ fuel rest, (print x ++ printElements xs).length < fuel →
      parseElements fuel (print x ++ printElements xs ++ rest) =
        some (carriedElements (x :: xs), rest)
  | 0, _, h => absurd h (Nat.not_lt_zero _)
  | fuel + 1, rest, h => by
    rw [List.length_append] at h
    have hlen := length_printElements xs
    have hvalue := parseValue_print x fuel (printElements xs ++ rest)
      (endsNumber_printElements xs rest) (by omega)
    rw [List.append_assoc, parseElements, hvalue]
    match xs with
    | [] =>
      simp [printElements, skipWhitespace_cons (show isWhitespace ']' = false by decide),
        carriedElements]
    | y :: ys =>
      rw [printElements, List.length_cons] at h
      have ih := parseElements_print y ys fuel rest (by omega)
      simp [printElements, skipWhitespace_cons (show isWhitespace ',' = false by decide)] at ih ⊢
      rw [ih]
      rfl
termination_by fuel => fuel

theorem parseMembers_print (k : String) (v : Json) (ms : List (String × Json)) :
    ∀ fuel rest, ('"' :: (quoted k.toList ++ ':' :: (print v ++ printMembers ms))).length < fuel →
      parseMembers fuel
        ('"' :: (quoted k.toList ++ ':' :: (print v ++ printMembers ms)) ++ rest) =
          some (carriedMembers ((k, v) :: ms), rest)
  | 0, _, h => absurd h (Nat.not_lt_zero _)
  | fuel + 1, rest, h => by
    simp only [List.length_cons, List.length_append] at h
    have hlen := length_printMembers ms
    have hvalue := parseValue_print v fuel (printMembers ms ++ rest)
      (endsNumber_printMembers ms rest) (by omega)
    rw [List.cons_append, parseMembers, skipWhitespace_cons (by decide), List.append_assoc]
    simp only [parseString_quoted, List.cons_append, Option.bind_eq_bind, Option.bind_some,
      skipWhitespace_cons (show isWhitespace ':' = false by decide), List.append_assoc, hvalue]
    match ms with
    | [] =>
      simp [printMembers, skipWhitespace_cons (show isWhitespace '}' = false by decide),
        carriedMembers]
    | (k', v') :: ms' =>
      have ih := parseMembers_print k' v' ms' fuel rest
        (by rw [printMembers] at h; simp only [List.length_cons, List.length_append] at h ⊢; omega)
      simp [printMembers, skipWhitespace_cons (show isWhitespace ',' = false by decide)] at ih ⊢
      rw [ih]
      rfl
termination_by fuel => fuel

end

/-- What a value comes back as from its text. -/
theorem parse_stringify_eq_carried (j : Json) : parse (stringify j) = some (carried j) := by
  have h := parseValue_print j ((print j).length + 1) [] (by simp [endsNumber]) (by omega)
  rw [List.append_nil] at h
  simp only [parse, stringify, String.toList_ofList, h]
  rfl

theorem carriedNumber_eq_self_iff (x : JsDouble.Double) :
    carriedNumber x = .num x ↔ survives (.num x) = true := by
  match x with
  | ⟨.nan, _⟩ | ⟨.infinity _, _⟩ => simp [carriedNumber, survives]
  | ⟨.negZero, _⟩ => simp [carriedNumber, survives]
  | ⟨.finite q, _⟩ => simp [carriedNumber, survives]

mutual

/-- A value comes back as it was if its numbers are finite, and none is -0. -/
theorem carried_eq_self_iff (j : Json) : carried j = j ↔ survives j = true := by
  match j with
  | .null | .bool _ | .str _ => simp [carried, survives]
  | .num x => exact carriedNumber_eq_self_iff x
  | .arr xs => rw [carried, survives, Json.arr.injEq, carriedElements_eq_self_iff]
  | .obj ms => rw [carried, survives, Json.obj.injEq, carriedMembers_eq_self_iff]

theorem carriedElements_eq_self_iff (xs : List Json) :
    carriedElements xs = xs ↔ survivesElements xs = true := by
  match xs with
  | [] => simp [carriedElements, survivesElements]
  | x :: xs =>
    rw [carriedElements, survivesElements, List.cons.injEq, carried_eq_self_iff,
      carriedElements_eq_self_iff, Bool.and_eq_true]

theorem carriedMembers_eq_self_iff (ms : List (String × Json)) :
    carriedMembers ms = ms ↔ survivesMembers ms = true := by
  match ms with
  | [] => simp [carriedMembers, survivesMembers]
  | (k, v) :: ms =>
    rw [carriedMembers, survivesMembers, List.cons.injEq, Prod.mk.injEq, carried_eq_self_iff,
      carriedMembers_eq_self_iff, Bool.and_eq_true]
    simp

end

mutual

theorem survives_of_noNumber {j : Json} (hj : noNumber j = true) : survives j = true := by
  match j with
  | .null | .bool _ | .str _ => rfl
  | .num _ => cases hj
  | .arr xs => exact survivesElements_of_noNumber hj
  | .obj ms => exact survivesMembers_of_noNumber hj

theorem survivesElements_of_noNumber {xs : List Json} (hxs : noNumberElements xs = true) :
    survivesElements xs = true := by
  match xs with
  | [] => rfl
  | x :: xs =>
    rw [noNumberElements, Bool.and_eq_true] at hxs
    rw [survivesElements, survives_of_noNumber hxs.1, survivesElements_of_noNumber hxs.2]
    rfl

theorem survivesMembers_of_noNumber {ms : List (String × Json)}
    (hms : noNumberMembers ms = true) : survivesMembers ms = true := by
  match ms with
  | [] => rfl
  | (k, v) :: ms =>
    rw [noNumberMembers, Bool.and_eq_true] at hms
    rw [survivesMembers, survives_of_noNumber hms.1, survivesMembers_of_noNumber hms.2]
    rfl

end

/-- **Main theorem**: parsing undoes printing. -/
theorem parse_stringify_of_survives {j : Json} (hj : survives j = true) :
    parse (stringify j) = some j := by
  rw [parse_stringify_eq_carried, (carried_eq_self_iff j).mpr hj]

theorem parse_stringify {j : Json} (hj : noNumber j = true) : parse (stringify j) = some j :=
  parse_stringify_of_survives (survives_of_noNumber hj)

end Json

end Common
