import Mathlib.Data.List.TakeWhile
import NestTemplate.Common.JsObject
import NestTemplate.Common.Json

/-!
# Queries, headers and the browser's forms

What lies between two requests of one browser: the query it sends, the headers
of the page it gets, and the values it reads in the page's form and sends back.

* `Query.get?_object`: what `request.query` has under a name.
* `replacement_isHeaderText`: when a text put into a header can be sent.
* `Browser.attributeValue_of_safe`, `Browser.attributeValue_hex`: what a form
  carries unchanged.
-/

namespace NestTemplate

open Common

/-! ## Queries and form bodies -/

/-- The names and values of a query, in order. -/
abbrev Query := List (String × String)

/-- All values under a name. -/
def Query.values (query : Query) (name : String) : List String :=
  (query.filter (·.1 = name)).map (·.2)

/-- `request.query[name]`: a repeated name has the array of its values. -/
def Query.value (query : Query) (name : String) : Option Json :=
  match query.values name with
  | [] => none
  | [v] => some (.str v)
  | vs => some (.arr (vs.map .str))

/-- The body of a form whose fields have different names. -/
def formBody (fields : List (String × String)) : Json :=
  .obj (fields.map fun field => (field.1, .str field.2))

theorem noNumberElements_map_str (vs : List String) :
    Json.noNumberElements (vs.map .str) = true := by
  induction vs with
  | nil => rfl
  | cons v vs ih => rw [List.map_cons, Json.noNumberElements, ih]; rfl

/-- A query holds texts only. -/
theorem Query.value_noNumber {query : Query} {name : String} {v : Json}
    (h : v ∈ query.value name) : v.noNumber = true := by
  unfold Query.value at h
  split at h
  · cases h
  · cases h; rfl
  · cases h
    rw [Json.noNumber, noNumberElements_map_str]

/-! ## Plain objects -/

/-- The code units of a text; half of a surrogate pair becomes U+FFFD in a URL. -/
def codeUnits (s : String) : List Json :=
  s.toList.flatMap fun c =>
    if c.toNat < 0x10000 then [.str (String.singleton c)] else [.str "\uFFFD", .str "\uFFFD"]

/-- The properties of an array or a text. -/
def indexed (values : List Json) : List (String × Json) :=
  values.zipIdx.map fun (v, i) => (toString i, v)

/-- The own properties that a spread copies. -/
def ownProperties : Json → JsObject Json
  | .obj ms => .ofList ms
  | .arr vs => .ofList (indexed vs)
  | .str s => .ofList (indexed (codeUnits s))
  | _ => ∅

/-- `request.query`. -/
def Query.object (query : Query) : JsObject Json :=
  .ofList ((query.map Prod.fst).filterMap fun name => (query.value name).map (name, ·))

/-- Of repeated members the last counts. -/
theorem get?_ofList_eq_lookup (ms : List (String × Json)) (name : String) :
    (JsObject.ofList ms).get? name = Json.lookup name ms := by
  unfold JsObject.ofList
  induction ms using List.reverseRecOn with
  | nil => rfl
  | append_singleton ms m ih =>
    rw [List.foldl_append, Json.lookup_append, ← ih, List.foldl_cons, List.foldl_nil]
    by_cases hname : m.1 = name
    · subst hname
      rw [JsObject.get?_set_self]
      simp [Json.lookup]
    · rw [JsObject.get?_set_of_ne (Ne.symm hname)]
      simp [Json.lookup, hname]

theorem lookup_properties (o : JsObject Json) (name : String) :
    Json.lookup name o.properties = o.get? name := by
  rw [← get?_ofList_eq_lookup]
  refine Option.ext fun v => ?_
  rw [JsObject.get?_eq_some, JsObject.get?_eq_some, JsObject.mem_def,
    JsObject.ofList_properties o.nodup, JsObject.mem_def]

theorem lookup_filterMap (names : List String) (value : String → Option Json) (name : String) :
    Json.lookup name (names.filterMap fun k => (value k).map (k, ·)) =
      if name ∈ names then value name else none := by
  induction names with
  | nil => rfl
  | cons k names ih =>
    have hcons : Json.lookup name ((k :: names).filterMap fun k => (value k).map (k, ·)) =
        (Json.lookup name (names.filterMap fun k => (value k).map (k, ·))).or
          (if k = name then value k else none) := by
      rw [List.filterMap_cons]
      cases value k with
      | none => simp
      | some v => rfl
    rw [hcons, ih]
    by_cases hk : k = name
    · subst hk
      by_cases hmem : k ∈ names <;> simp [hmem]
    · simp [hk, Ne.symm hk]

theorem Query.value_eq_none {query : Query} {name : String} (h : name ∉ query.map Prod.fst) :
    query.value name = none := by
  have hvalues : query.values name = [] := by
    refine List.map_eq_nil_iff.mpr (List.filter_eq_nil_iff.mpr fun e he => ?_)
    rw [decide_eq_true_eq]
    rintro rfl
    exact h (List.mem_map_of_mem he)
  rw [Query.value, hvalues]

theorem Query.get?_object (query : Query) (name : String) :
    query.object.get? name = query.value name := by
  rw [Query.object, get?_ofList_eq_lookup, lookup_filterMap]
  split
  · rfl
  · rename_i h
    exact (value_eq_none h).symm

/-! ## Headers -/

/-- The characters Node sends in a header. -/
def isHeaderChar (c : Char) : Bool :=
  c = '\t' ∨ (0x20 ≤ c.toNat ∧ c.toNat ≤ 0xff ∧ c.toNat ≠ 0x7f)

/-- Whether Node sends a header with this text. -/
def isHeaderText (cs : List Char) : Bool := cs.all isHeaderChar

/-- What the replacement of `text.replace(pattern, replacement)` stands for, where `before` and
    `after` are the parts of the text around the match. -/
def replacement (before pattern after : List Char) : List Char → List Char
  | '$' :: '$' :: cs => '$' :: replacement before pattern after cs
  | '$' :: '&' :: cs => pattern ++ replacement before pattern after cs
  | '$' :: '\x60' :: cs => before ++ replacement before pattern after cs
  | '$' :: '\x27' :: cs => after ++ replacement before pattern after cs
  | c :: cs => c :: replacement before pattern after cs
  | [] => []

@[simp] theorem isHeaderText_append (cs ds : List Char) :
    isHeaderText (cs ++ ds) = (isHeaderText cs && isHeaderText ds) := List.all_append

@[simp] theorem isHeaderText_cons (c : Char) (cs : List Char) :
    isHeaderText (c :: cs) = (isHeaderChar c && isHeaderText cs) := List.all_cons

/-- The patterns of a replacement can always be sent, so only its own characters count. -/
theorem replacement_isHeaderText {before pattern after : List Char}
    (hbefore : isHeaderText before = true) (hpattern : isHeaderText pattern = true)
    (hafter : isHeaderText after = true) (cs : List Char) :
    isHeaderText (replacement before pattern after cs) = isHeaderText cs := by
  have hdollar : isHeaderChar '$' = true := by decide
  fun_induction replacement before pattern after cs with
  | case1 cs ih => simp only [isHeaderText_cons, ih, hdollar, Bool.true_and]
  | case2 cs ih =>
    have hchar : isHeaderChar '&' = true := by decide
    simp only [isHeaderText_append, isHeaderText_cons, ih, hpattern, hdollar, hchar, Bool.true_and]
  | case3 cs ih =>
    have hchar : isHeaderChar '\x60' = true := by decide
    simp only [isHeaderText_append, isHeaderText_cons, ih, hbefore, hdollar, hchar, Bool.true_and]
  | case4 cs ih =>
    have hchar : isHeaderChar '\x27' = true := by decide
    simp only [isHeaderText_append, isHeaderText_cons, ih, hafter, hdollar, hchar, Bool.true_and]
  | case5 c cs _ _ _ _ ih => simp only [isHeaderText_cons, ih]
  | case6 => rfl

/-! ## Template literals -/

mutual

/-- `String(value)` for a value of JSON; `none` where it throws, since a member `toString` hides the
    method. -/
def templateText : Json → Option String
  | .null => some "null"
  | .bool b => some (if b then "true" else "false")
  | .num x => some x.val.toText
  | .str s => some s
  | .arr vs => (elementTexts vs).map ",".intercalate
  | .obj ms => if ms.any (·.1 = "toString") then none else some "[object Object]"

/-- The elements of an array; `null` prints as nothing. -/
def elementTexts : List Json → Option (List String)
  | [] => some []
  | .null :: vs => (elementTexts vs).map ("" :: ·)
  | v :: vs => (templateText v).bind fun s => (elementTexts vs).map (s :: ·)

end

mutual

/-- Whether `String(value)` is a text: no object on the way through arrays has a `toString`. -/
def hasText : Json → Bool
  | .arr vs => haveTexts vs
  | .obj ms => ms.all (·.1 ≠ "toString")
  | _ => true

def haveTexts : List Json → Bool
  | [] => true
  | v :: vs => hasText v && haveTexts vs

end

mutual

theorem isSome_templateText (v : Json) : (templateText v).isSome = hasText v := by
  match v with
  | .null | .bool _ | .num _ | .str _ => rfl
  | .arr vs => rw [templateText, Option.isSome_map, isSome_elementTexts vs, hasText]
  | .obj ms =>
    rw [templateText, hasText]
    split
    · rename_i h
      obtain ⟨m, hm, hname⟩ := List.any_eq_true.mp h
      exact (List.all_eq_false.mpr ⟨m, hm, by simpa using hname⟩).symm
    · rename_i h
      simp only [List.any_eq_true, not_exists, not_and, decide_eq_true_eq] at h
      exact (List.all_eq_true.mpr fun m hm => by simpa using h m hm).symm

theorem isSome_elementTexts (vs : List Json) : (elementTexts vs).isSome = haveTexts vs := by
  match vs with
  | [] => rfl
  | v :: vs =>
    have hv := isSome_templateText v
    have hvs := isSome_elementTexts vs
    rw [haveTexts, ← hvs, ← hv]
    cases v with
    | null => rw [elementTexts, Option.isSome_map]; rfl
    | _ =>
      rw [elementTexts]
      · cases templateText _ <;> simp
      · rintro ⟨⟩

end

theorem haveTexts_iff {vs : List Json} : haveTexts vs = true ↔ ∀ v ∈ vs, hasText v = true := by
  induction vs with
  | nil => simp [haveTexts]
  | cons v vs ih => simp [haveTexts, ih]

/-! ## The browser -/

/-- How a browser reads character references and line ends in an attribute and sends the value
    back. -/
structure Browser where
  characterReferences : String → String
  plain : ∀ s : String, (∀ c ∈ s.toList, c ∉ ['&', '\x00', '\n', '\r']) →
    characterReferences s = s

namespace Browser

/-- The value a form sends back for `value="s"`, where the template prints `s` as it is. -/
def attributeValue (browser : Browser) (s : String) : String :=
  browser.characterReferences (String.ofList (s.toList.takeWhile (· ≠ '"')))

/-- A text without the characters that mean something in an attribute is sent back as it is. -/
theorem attributeValue_of_safe (browser : Browser) {s : String}
    (h : ∀ c ∈ s.toList, c ∉ ['"', '&', '\x00', '\n', '\r']) : browser.attributeValue s = s := by
  have htake : s.toList.takeWhile (· ≠ '"') = s.toList := by
    refine List.takeWhile_eq_self_iff.mpr ?_
    intro c hc
    exact decide_eq_true fun he => h c hc (he ▸ List.mem_cons_self ..)
  rw [attributeValue, htake, String.ofList_toList]
  exact browser.plain s fun c hc hm => h c hc (List.mem_cons_of_mem _ hm)

theorem hexDigit_safe {n : ℕ} (h : n < 16) : hexDigit n ∉ ['"', '&', '\x00', '\n', '\r'] := by
  have : ∀ m : Fin 16, hexDigit m ∉ ['"', '&', '\x00', '\n', '\r'] := by decide
  exact this ⟨n, h⟩

/-- So is a text of hexadecimal digits. -/
@[simp] theorem attributeValue_hex (browser : Browser) (bs : Bytes) :
    browser.attributeValue (hex bs) = hex bs := by
  refine browser.attributeValue_of_safe ?_
  intro c hc
  rw [hex, String.toList_ofList, hexChars, List.mem_flatMap] at hc
  obtain ⟨b, -, hb⟩ := hc
  have hlt := b.toNat_lt
  simp only [List.mem_cons, List.not_mem_nil, or_false] at hb
  rcases hb with rfl | rfl
  · exact hexDigit_safe (by omega)
  · exact hexDigit_safe (by omega)

end Browser

end NestTemplate
