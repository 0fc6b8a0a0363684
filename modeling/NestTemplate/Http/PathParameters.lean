import NestTemplate.Http.UrlBuilder

/-!
# Path parameters

`getReplacedPathParameters` replaces the parameters one after the other, each
at the first `:key` it finds, with `String.prototype.replace`. What it should
do is replace all placeholders at once.

* `substitute`: that, for any notion of identifier.
* `foldl_replaceFirst`: parameters that are replaced in turn are replaced at once.
* `getReplacedPathParameters_eq_substitute`: so the order of such parameters
  does not matter.
-/

namespace NestTemplate

open Common Common.Template

/-! ## Values that are inserted as they are -/

/-- No `$` of the value starts a replacement pattern. -/
def isVerbatim : List Char → Bool
  | '$' :: c :: cs => c ∉ ['$', '&', '\x60', '\x27'] && isVerbatim (c :: cs)
  | _ :: cs => isVerbatim cs
  | [] => true

theorem replacement_of_isVerbatim {before pattern after value : List Char}
    (h : isVerbatim value = true) : replacement before pattern after value = value := by
  fun_induction replacement before pattern after value with
  | case1 cs | case2 cs | case3 cs | case4 cs => simp [isVerbatim] at h
  | case5 c cs h₁ h₂ h₃ h₄ ih =>
    rw [ih]
    unfold isVerbatim at h
    split at h
    · simp_all
    · simp_all
    · simp_all
  | case6 => rfl

namespace UrlBuilderService

/-- The template with all its placeholders replaced at once. -/
def substitute (ids : Identifiers) (pathParams : JsObject String) (baseUrl : String) : String :=
  String.ofList (fill pathParams.get? (pieces ids baseUrl.toList))

/-- The value of a name in a list of entries. -/
def valueIn (es : List (String × String)) (name : String) : Option String :=
  (es.find? (·.1 = name)).map Prod.snd

/-- With the earlier parameters filled in, the template has the parameter's only placeholder as the
    first occurrence of `:key`, and the value is inserted as it is; or it has neither. -/
def ReplacedRightly (ps : List Piece) (earlier : List (String × String)) (e : String × String) :
    Prop :=
  (.placeholder e.1 ∉ ps ∧ ¬ (':' :: e.1.toList) <:+: fill (valueIn earlier) ps) ∨
    ∃ before after, ps = before ++ .placeholder e.1 :: after ∧
      (.placeholder e.1 ∉ before ∧ .placeholder e.1 ∉ after) ∧
      splitFirst (':' :: e.1.toList) (fill (valueIn earlier) ps) =
        some (fill (valueIn earlier) before, fill (valueIn earlier) after) ∧
      isVerbatim e.2.toList = true

/-- Every parameter is replaced rightly, in the order of the entries. -/
def ReplacedInTurn (ids : Identifiers) (pathParams : JsObject String) (baseUrl : String) : Prop :=
  ∀ earlier e later, pathParams.entries = earlier ++ e :: later →
    ReplacedRightly (pieces ids baseUrl.toList) earlier e

/-! ## One parameter after the other -/

theorem valueIn_eq_none {es : List (String × String)} {name : String}
    (h : name ∉ es.map Prod.fst) : valueIn es name = none := by
  rw [valueIn, Option.map_eq_none_iff, List.find?_eq_none]
  intro e he hname
  exact h (List.mem_map.mpr ⟨e, he, of_decide_eq_true hname⟩)

theorem valueIn_append_of_ne (earlier : List (String × String)) {key value name : String}
    (h : name ≠ key) : valueIn (earlier ++ [(key, value)]) name = valueIn earlier name := by
  have hnone : [(key, value)].find? (·.1 = name) = none := by simp [Ne.symm h]
  rw [valueIn, List.find?_append, hnone, Option.or_none, valueIn]

theorem valueIn_append_self {earlier : List (String × String)} {key : String} (value : String)
    (h : key ∉ earlier.map Prod.fst) : valueIn (earlier ++ [(key, value)]) key = some value := by
  have hnone : earlier.find? (·.1 = key) = none := Option.map_eq_none_iff.mp (valueIn_eq_none h)
  rw [valueIn, List.find?_append, hnone, Option.none_or]
  simp

/-- A parameter without a placeholder changes nothing. -/
theorem fill_valueIn_append {ps : List Piece} {key : String} (h : .placeholder key ∉ ps)
    (earlier : List (String × String)) (value : String) :
    fill (valueIn (earlier ++ [(key, value)])) ps = fill (valueIn earlier) ps := by
  refine fill_congr fun name hname => valueIn_append_of_ne earlier ?_
  rintro rfl
  exact h hname

/-- A parameter that is replaced rightly is filled in. -/
theorem ReplacedRightly.replaceFirst {ps : List Piece} {earlier : List (String × String)}
    {key value : String} (h : ReplacedRightly ps earlier (key, value))
    (hnew : key ∉ earlier.map Prod.fst) :
    replaceFirst (':' :: key.toList) value.toList (fill (valueIn earlier) ps) =
      fill (valueIn (earlier ++ [(key, value)])) ps := by
  unfold NestTemplate.replaceFirst
  rcases h with ⟨hnone, hfree⟩ | ⟨before, after, rfl, ⟨hbefore, hafter⟩, hfirst, hverbatim⟩
  · rw [splitFirst_eq_none.mpr hfree, fill_valueIn_append hnone]
  · rw [hfirst]
    dsimp only
    rw [replacement_of_isVerbatim hverbatim, fill_append, fill_cons, fill_valueIn_append hbefore,
      fill_valueIn_append hafter, Piece.fill, valueIn_append_self value hnew, Option.elim_some,
      List.append_assoc]

/-- The parameters that are left are filled in one after the other. -/
theorem foldl_replaceFirst {ps : List Piece} {es : List (String × String)}
    (hnodup : (es.map Prod.fst).Nodup)
    (h : ∀ earlier e later, es = earlier ++ e :: later → ReplacedRightly ps earlier e) :
    ∀ earlier later, es = earlier ++ later →
      later.foldl (fun text e => replaceFirst (':' :: e.1.toList) e.2.toList text)
        (fill (valueIn earlier) ps) = fill (valueIn es) ps := by
  intro earlier later
  induction later generalizing earlier with
  | nil =>
    rintro rfl
    rw [List.append_nil]
    rfl
  | cons e later ih =>
    rintro rfl
    have hnew := (notMem_map_of_nodup hnodup).1
    rw [List.foldl_cons, (h earlier e later rfl).replaceFirst hnew]
    exact ih (earlier ++ [e]) (by simp)

theorem valueIn_entries (pathParams : JsObject String) :
    valueIn pathParams.entries = pathParams.get? := by
  funext name
  have hfind : (pathParams.entries.find? (·.1 = name)) =
      (pathParams.entries.filter (·.1 = name)).head? := (List.head?_filter ..).symm
  rw [valueIn, hfind, JsObject.filter_entries]
  cases pathParams.get? name <;> rfl

theorem getReplaced_of_replacedInTurn {ids : Identifiers} {pathParams : JsObject String}
    {baseUrl : String} (h : ReplacedInTurn ids pathParams baseUrl) :
    getReplacedPathParameters pathParams baseUrl = substitute ids pathParams baseUrl := by
  have hfold := foldl_replaceFirst pathParams.entries_nodup h [] pathParams.entries rfl
  rw [show valueIn [] = fun _ => none from rfl, fill_pieces_none, valueIn_entries] at hfold
  rw [getReplacedPathParameters, substitute, ← hfold]

/-- Only the values count, not their order. -/
theorem substitute_congr (ids : Identifiers) {pathParams map : JsObject String} (baseUrl : String)
    (hmap : ∀ e, e ∈ pathParams ↔ e ∈ map) :
    substitute ids pathParams baseUrl = substitute ids map baseUrl := by
  have hget : pathParams.get? = map.get? := by
    funext name
    refine Option.ext fun v => ?_
    rw [JsObject.get?_eq_some, JsObject.get?_eq_some]
    exact hmap (name, v)
  rw [substitute, substitute, hget]

/-! ## Values that are fresh characters -/

/-- Every value is one character, not in the template and not in another value. -/
structure FreshValues (es : List (String × String)) (template : List Char) : Prop where
  char : ∀ e ∈ es, ∃ c, e.2.toList = [c] ∧ c ≠ '$' ∧ c ∉ template
  nodup : (es.map Prod.snd).Nodup

/-- The character of a value is in no other value. -/
theorem FreshValues.notMem_of_ne {es : List (String × String)} {template : List Char}
    (h : FreshValues es template) {e e' : String × String} (he' : e' ∈ es) {c : Char}
    (hvalue : e.2.toList = [c]) (hne : e'.2 ≠ e.2) : c ∉ e'.2.toList := by
  intro hmem
  obtain ⟨c', hvalue', -⟩ := h.char e' he'
  rw [hvalue', List.mem_singleton] at hmem
  exact hne (String.toList_injective (by rw [hvalue, hvalue', hmem]))

/-- The character `c` turned back into the placeholder it replaced. -/
def restore (key : String) (c : Char) (text : List Char) : List Char :=
  text.flatMap fun a => if a = c then ':' :: key.toList else [a]

theorem restore_of_notMem (key : String) {c : Char} {text : List Char} (h : c ∉ text) :
    restore key c text = text := by
  unfold restore
  induction text with
  | nil => rfl
  | cons a text ih =>
    rw [List.mem_cons, not_or] at h
    rw [List.flatMap_cons, if_neg (Ne.symm h.1), ih h.2]
    rfl

/-- A replacement by a fresh character can be undone. -/
theorem restore_replaceFirst {key : String} {c : Char} {text : List Char} (hc : c ≠ '$')
    (h : c ∉ text) : restore key c (replaceFirst (':' :: key.toList) [c] text) = text := by
  unfold replaceFirst
  cases hsplit : splitFirst (':' :: key.toList) text with
  | none => exact restore_of_notMem key h
  | some parts =>
    obtain ⟨before, after⟩ := parts
    obtain rfl := eq_append_of_splitFirst hsplit
    simp only [List.mem_append, not_or] at h
    dsimp only
    rw [replacement_of_isVerbatim (by simp [isVerbatim])]
    have hbefore := restore_of_notMem key h.1.1
    have hafter := restore_of_notMem key h.2
    unfold restore at hbefore hafter ⊢
    rw [List.flatMap_append, List.flatMap_append, hbefore, hafter, List.flatMap_singleton,
      if_pos rfl]

/-- Nothing is inserted but the value. -/
theorem mem_replaceFirst {pattern text : List Char} {a c : Char} (hc : c ≠ '$')
    (h : a ∈ replaceFirst pattern [c] text) : a = c ∨ a ∈ text := by
  unfold replaceFirst at h
  cases hsplit : splitFirst pattern text with
  | none =>
    rw [hsplit] at h
    exact .inr h
  | some parts =>
    obtain ⟨before, after⟩ := parts
    rw [hsplit] at h
    dsimp only at h
    rw [replacement_of_isVerbatim (by simp [isVerbatim])] at h
    rw [eq_append_of_splitFirst hsplit]
    simp only [List.mem_append, List.mem_singleton] at h ⊢
    tauto

/-- A character of a filled template is the template's or a value's. -/
theorem mem_fill_valueIn {ps : List Piece} {es : List (String × String)} {c : Char}
    (h : c ∈ fill (valueIn es) ps) :
    c ∈ fill (fun _ => none) ps ∨ ∃ e ∈ es, c ∈ e.2.toList := by
  obtain ⟨p, hp, hc⟩ := List.mem_flatMap.mp h
  cases p with
  | text a => exact .inl (List.mem_flatMap.mpr ⟨_, hp, hc⟩)
  | placeholder name =>
    rw [Piece.fill] at hc
    cases hv : valueIn es name with
    | none =>
      rw [hv] at hc
      exact .inl (List.mem_flatMap.mpr ⟨_, hp, hc⟩)
    | some value =>
      rw [hv] at hc
      obtain ⟨e, he, rfl⟩ := Option.map_eq_some_iff.mp hv
      exact .inr ⟨e, List.mem_of_find?_eq_some he, hc⟩

/-- The last value that was filled in can be taken out again. -/
theorem restore_fill {ps : List Piece} {earlier : List (String × String)} {key value : String}
    {c : Char} (hvalue : value.toList = [c]) (hnew : key ∉ earlier.map Prod.fst)
    (h : c ∉ fill (valueIn earlier) ps) :
    restore key c (fill (valueIn (earlier ++ [(key, value)])) ps) = fill (valueIn earlier) ps := by
  induction ps with
  | nil => rfl
  | cons p ps ih =>
    rw [fill_cons, List.mem_append, not_or] at h
    have hpiece : restore key c (p.fill (valueIn (earlier ++ [(key, value)]))) =
        p.fill (valueIn earlier) := by
      cases p with
      | text a => exact restore_of_notMem key h.1
      | placeholder name =>
        by_cases hname : name = key
        · subst hname
          rw [Piece.fill, valueIn_append_self value hnew, Option.elim_some, hvalue, Piece.fill,
            valueIn_eq_none hnew]
          simp [restore]
        · rw [Piece.fill, valueIn_append_of_ne earlier hname]
          exact restore_of_notMem key h.1
    rw [fill_cons, fill_cons, ← hpiece, ← ih h.2]
    exact List.flatMap_append

/-- With fresh values, a fold that ends in the filled template has been right all the way. -/
theorem eq_fill_of_foldl_eq {ps : List Piece} {es : List (String × String)}
    (hnodup : (es.map Prod.fst).Nodup) (hfresh : FreshValues es (fill (fun _ => none) ps)) :
    ∀ earlier later text, es = earlier ++ later →
      (∀ e ∈ later, ∀ c ∈ e.2.toList, c ∉ text) →
      later.foldl (fun text e => replaceFirst (':' :: e.1.toList) e.2.toList text) text =
        fill (valueIn es) ps →
      text = fill (valueIn earlier) ps := by
  intro earlier later
  induction later generalizing earlier with
  | nil =>
    rintro text rfl - hfold
    rw [List.append_nil] at hfold
    exact hfold
  | cons e later ih =>
    rintro text rfl hnone hfold
    obtain ⟨c, hvalue, hc, htemplate⟩ := hfresh.char e (by simp)
    have hnew := (notMem_map_of_nodup hnodup).1
    have hother : ∀ e' ∈ earlier ++ later, c ∉ e'.2.toList := by
      intro e' he'
      rw [List.mem_append] at he'
      have hvalues := notMem_map_of_nodup hfresh.nodup
      refine hfresh.notMem_of_ne (by simpa using he'.imp_right .inr) hvalue fun heq => ?_
      exact he'.elim (fun he' => hvalues.1 (heq ▸ List.mem_map_of_mem he'))
        fun he' => hvalues.2 (heq ▸ List.mem_map_of_mem he')
    have hctext : c ∉ text := hnone e (by simp) c (by simp [hvalue])
    rw [List.foldl_cons, hvalue] at hfold
    have hstep := ih (earlier ++ [e]) _ (by simp) (fun e' he' c' hc' hmem => ?_) hfold
    · have hcfill : c ∉ fill (valueIn earlier) ps := fun hmem =>
        (mem_fill_valueIn hmem).elim htemplate fun ⟨e', he', hmem'⟩ =>
          hother e' (List.mem_append_left _ he') hmem'
      rw [← restore_fill hvalue hnew hcfill, ← hstep, restore_replaceFirst hc hctext]
    · rcases mem_replaceFirst hc hmem with rfl | hmem
      · exact hother e' (List.mem_append_right _ he') hc'
      · exact hnone e' (List.mem_cons_of_mem e he') c' hc' hmem

theorem mem_foldl_replaceFirst {es : List (String × String)} {text : List Char} {a : Char}
    (hchar : ∀ e ∈ es, ∃ c, e.2.toList = [c] ∧ c ≠ '$')
    (h : a ∈ es.foldl (fun text e => replaceFirst (':' :: e.1.toList) e.2.toList text) text) :
    a ∈ text ∨ ∃ e ∈ es, a ∈ e.2.toList := by
  induction es generalizing text with
  | nil => exact .inl h
  | cons e es ih =>
    rw [List.forall_mem_cons] at hchar
    obtain ⟨⟨c, hvalue, hc⟩, hchar⟩ := hchar
    rcases ih hchar h with hmem | ⟨e', he', hmem⟩
    · dsimp only at hmem
      rw [hvalue] at hmem
      rcases mem_replaceFirst hc hmem with rfl | hmem
      · exact .inr ⟨e, List.mem_cons_self, by simp [hvalue]⟩
      · exact .inl hmem
    · exact .inr ⟨e', List.mem_cons_of_mem e he', hmem⟩

theorem mem_fill_of_placeholder_mem {ps : List Piece} {earlier : List (String × String)}
    {key value : String} {c : Char} (hvalue : value.toList = [c])
    (hnew : key ∉ earlier.map Prod.fst) (h : .placeholder key ∈ ps) :
    c ∈ fill (valueIn (earlier ++ [(key, value)])) ps := by
  refine List.mem_flatMap.mpr ⟨_, h, ?_⟩
  rw [Piece.fill, valueIn_append_self value hnew, Option.elim_some, hvalue]
  exact List.mem_singleton_self c

/-- A fresh character is in the filled template iff its placeholder is. -/
theorem mem_fill_iff {ps : List Piece} {earlier : List (String × String)} {key value : String}
    {c : Char} (hvalue : value.toList = [c]) (hnew : key ∉ earlier.map Prod.fst)
    (h : c ∉ fill (valueIn earlier) ps) :
    c ∈ fill (valueIn (earlier ++ [(key, value)])) ps ↔ .placeholder key ∈ ps := by
  constructor
  · intro hmem
    by_contra hnone
    rw [fill_valueIn_append hnone] at hmem
    exact h hmem
  · exact mem_fill_of_placeholder_mem hvalue hnew

/-- A step that fills in a fresh character replaces rightly. -/
theorem replacedRightly_of_fill {ps : List Piece} {earlier : List (String × String)}
    {key value : String} {c : Char} (hvalue : value.toList = [c]) (hc : c ≠ '$')
    (hnew : key ∉ earlier.map Prod.fst) (hfree : c ∉ fill (valueIn earlier) ps)
    (h : NestTemplate.replaceFirst (':' :: key.toList) [c] (fill (valueIn earlier) ps) =
      fill (valueIn (earlier ++ [(key, value)])) ps) :
    ReplacedRightly ps earlier (key, value) := by
  have hmem := mem_fill_iff hvalue hnew hfree
  unfold NestTemplate.replaceFirst at h
  cases hsplit : splitFirst (':' :: key.toList) (fill (valueIn earlier) ps) with
  | none =>
    rw [hsplit] at h
    dsimp only at h
    refine .inl ⟨fun hplaceholder => hfree ?_, splitFirst_eq_none.mp hsplit⟩
    rw [h]
    exact hmem.mpr hplaceholder
  | some parts =>
    obtain ⟨before, after⟩ := parts
    rw [hsplit] at h
    dsimp only at h
    rw [replacement_of_isVerbatim (by simp [isVerbatim]), List.append_assoc,
      List.singleton_append] at h
    rw [eq_append_of_splitFirst hsplit] at hfree
    simp only [List.mem_append, not_or] at hfree
    obtain ⟨xs, ys, rfl, hxs⟩ := List.eq_append_cons_of_mem (hmem.mp (by rw [← h]; simp))
    rw [fill_append, fill_cons, Piece.fill, valueIn_append_self value hnew, Option.elim_some, hvalue,
      List.singleton_append, List.append_cons_inj_of_notMem hfree.1.1 hfree.2] at h
    obtain ⟨rfl, -, rfl⟩ := h
    have hys : Piece.placeholder key ∉ ys := fun hplaceholder =>
      hfree.2 (mem_fill_of_placeholder_mem hvalue hnew hplaceholder)
    refine .inr ⟨xs, ys, rfl, ⟨hxs, hys⟩, ?_, ?_⟩
    · rw [hsplit, fill_valueIn_append hxs, fill_valueIn_append hys]
    · dsimp only
      rw [hvalue]
      simp [isVerbatim]

/-- What is left to insert is not in the text yet. -/
theorem FreshValues.notMem_foldl {earlier later : List (String × String)} {template : List Char}
    (h : FreshValues (earlier ++ later) template) :
    ∀ e ∈ later, ∀ c ∈ e.2.toList, c ∉ earlier.foldl
      (fun text e => replaceFirst (':' :: e.1.toList) e.2.toList text) template := by
  intro e he a ha hmem
  obtain ⟨c, hvalue, -, htemplate⟩ := h.char e (List.mem_append_right _ he)
  rw [hvalue, List.mem_singleton] at ha
  subst ha
  have hchar : ∀ e ∈ earlier, ∃ c, e.2.toList = [c] ∧ c ≠ '$' := by
    intro e he
    obtain ⟨c, hvalue, hc, -⟩ := h.char e (List.mem_append_left _ he)
    exact ⟨c, hvalue, hc⟩
  have hvalues := h.nodup
  rw [List.map_append, List.nodup_append] at hvalues
  rcases mem_foldl_replaceFirst hchar hmem with hmem | ⟨e', he', hmem⟩
  · exact htemplate hmem
  · exact h.notMem_of_ne (List.mem_append_left _ he') hvalue
      (hvalues.2.2 _ (List.mem_map_of_mem he') _ (List.mem_map_of_mem he)) hmem

/-- For fresh values the condition is needed, too. -/
theorem replacedInTurn_of_fresh {ids : Identifiers} {pathParams : JsObject String}
    {baseUrl : String} (hfresh : FreshValues pathParams.entries baseUrl.toList)
    (h : getReplacedPathParameters pathParams baseUrl = substitute ids pathParams baseUrl) :
    ReplacedInTurn ids pathParams baseUrl := by
  have hfold := String.ofList_injective h
  have hnodup := pathParams.entries_nodup
  rw [← valueIn_entries] at hfold
  -- the text after any number of parameters
  have htext : ∀ earlier later, pathParams.entries = earlier ++ later →
      earlier.foldl (fun text e => replaceFirst (':' :: e.1.toList) e.2.toList text)
        baseUrl.toList = fill (valueIn earlier) (pieces ids baseUrl.toList) := by
    intro earlier later hes
    rw [hes] at hfold hfresh hnodup
    refine eq_fill_of_foldl_eq hnodup ?_ earlier later _ rfl hfresh.notMem_foldl ?_
    · rw [fill_pieces_none]
      exact hfresh
    · rw [← List.foldl_append]
      exact hfold
  intro earlier e later hes
  have hbefore := htext earlier (e :: later) hes
  have hafter := htext (earlier ++ [e]) later (by rw [hes, List.append_assoc]; rfl)
  rw [List.foldl_append, hbefore, List.foldl_cons, List.foldl_nil] at hafter
  rw [hes] at hfresh hnodup
  obtain ⟨c, hvalue, hc, -⟩ := hfresh.char e (by simp)
  rw [hvalue] at hafter
  refine replacedRightly_of_fill hvalue hc (notMem_map_of_nodup hnodup).1 ?_ hafter
  rw [← hbefore]
  exact hfresh.notMem_foldl e List.mem_cons_self c (by simp [hvalue])

/-- **Main theorem**: parameters that are replaced in turn are replaced at once, whatever the order
    they are given in. Where the values are fresh, no other parameters are. -/
theorem getReplacedPathParameters_eq_substitute (ids : Identifiers)
    {pathParams map : JsObject String} {baseUrl : String}
    (hmap : ∀ e, e ∈ pathParams ↔ e ∈ map) :
    (ReplacedInTurn ids pathParams baseUrl →
      getReplacedPathParameters pathParams baseUrl = substitute ids map baseUrl) ∧
    (FreshValues pathParams.entries baseUrl.toList →
      getReplacedPathParameters pathParams baseUrl = substitute ids map baseUrl →
        ReplacedInTurn ids pathParams baseUrl) := by
  rw [← substitute_congr ids baseUrl hmap]
  exact ⟨getReplaced_of_replacedInTurn, replacedInTurn_of_fresh⟩

namespace Sample

/-- Identifiers of letters, digits, `_` and `$`. -/
def identifiers : Identifiers where
  isStart c := c.isAlpha ∨ c ∈ ['_', '$']
  isPart c := c.isAlphanum ∨ c ∈ ['_', '$']

/-- The parameter of the service's own test. -/
def testParams : JsObject String := .ofList [("toReplace", "someValue")]

theorem replacedInTurn_testParams :
    ReplacedInTurn identifiers testParams "some/part/:toReplace/url" := by
  intro earlier e later hes
  have hentries : testParams.entries = [("toReplace", "someValue")] := by decide
  rw [hentries] at hes
  obtain rfl : earlier = [] := by
    cases earlier with
    | nil => rfl
    | cons e₁ earlier => cases earlier <;> cases hes
  cases hes
  exact .inr ⟨"some/part/".toList.map .text, "/url".toList.map .text, by decide,
    ⟨by decide, by decide⟩, by decide, by decide⟩

end Sample

theorem getReplacedPathParameters_eq_substitute_sample :
    getReplacedPathParameters Sample.testParams "some/part/:toReplace/url" =
      substitute Sample.identifiers Sample.testParams "some/part/:toReplace/url" :=
  (getReplacedPathParameters_eq_substitute Sample.identifiers fun _ => Iff.rfl).1
    Sample.replacedInTurn_testParams

/-- A placeholder that stands twice, a name that starts another one, a value with a pattern of
    `replace`, a value with a placeholder, and two orders of one map. -/
theorem not_simultaneous :
    (getReplacedPathParameters (.ofList [("id", "7")]) "users/:id/posts/:id" =
        "users/7/posts/:id" ∧
      substitute Sample.identifiers (.ofList [("id", "7")]) "users/:id/posts/:id" =
        "users/7/posts/7") ∧
    (getReplacedPathParameters (.ofList [("user", "7")]) "a/:userId" = "a/7Id" ∧
      substitute Sample.identifiers (.ofList [("user", "7")]) "a/:userId" = "a/:userId") ∧
    (getReplacedPathParameters (.ofList [("id", "$&")]) "a/:id" = "a/:id" ∧
      substitute Sample.identifiers (.ofList [("id", "$&")]) "a/:id" = "a/$&") ∧
    (getReplacedPathParameters (.ofList [("a", ":b"), ("b", "x")]) "/:a" = "/x" ∧
      substitute Sample.identifiers (.ofList [("a", ":b"), ("b", "x")]) "/:a" = "/:b") ∧
    getReplacedPathParameters (.ofList [("user", "7"), ("userId", "8")]) "a/:userId" ≠
      getReplacedPathParameters (.ofList [("userId", "8"), ("user", "7")]) "a/:userId" := by
  decide

end UrlBuilderService

end NestTemplate
