import NestTemplate.Common.UrlResolution
import NestTemplate.Http.PathParameters

/-!
# The URLs `UrlBuilderService` builds

The values of the path parameters are put into the text before `new URL` reads
it. The query parameters are not: `searchParams.append` encodes them.

* `fills_clean`: a template whose placeholders stand for texts without slashes,
  before and after `new URL` has cleaned the text.
* `forall₂_segments`: such a text has the segments of the template.
* `url_staysInPlace`: which values stay in the segments of their placeholders.
-/

namespace NestTemplate

open Common Common.Template Common.Url Parts

namespace UrlBuilderService

/-- The service over `new URL`. -/
def ofBase (readers : Readers) (base : Base) : UrlBuilderService where
  resolve input := (Url.resolve readers base input).map Resolved.toUrl

/-! ## Templates that are relative paths -/

/-- A character that does not end a segment, or the path. -/
def isPlain (c : Char) : Bool := !isSlash c && c ≠ '?' && c ≠ '#'

def isSlashPiece : Piece → Bool
  | .text c => isSlash c
  | .placeholder _ => false

def isPlaceholder : Piece → Bool
  | .text _ => false
  | .placeholder _ => true

/-- The template is a relative path, as URLs write it: it goes on where the base's path does. -/
structure IsRelativePath (ps : List Piece) : Prop where
  start : ∀ p ∈ ps.head?, isSlashPiece p = false
  char : ∀ c, .text c ∈ ps → isC0OrSpace c = false ∧ c ≠ '\\' ∧ c ≠ '?' ∧ c ≠ '#'
  /-- There is no scheme. -/
  colon : .text ':' ∉ firstPart isSlashPiece ps
  name : ∀ name, .placeholder name ∈ ps → ∀ c ∈ name.toList, isPlain c = true

/-- What a segment of the template has to become; `none` for one with a placeholder. -/
def pattern (segment : List Piece) : Option Segment :=
  if segment.any isPlaceholder then none else some (encodeSegment (fill (fun _ => none) segment))

/-- A segment with a placeholder is a name. -/
def patternKind (pattern : Option Segment) : SegmentKind := pattern.elim .name Segment.kind

def Matches (pattern : Option Segment) (segment : Segment) : Prop := ∀ s ∈ pattern, segment = s

/-- What the template does to a path. -/
def templateMove (ps : List Piece) : Move (Option Segment) :=
  Move.ofSegments patternKind (some .blank) ((ps.splitOnP isSlashPiece).map pattern)

/-- The path the template stands for. Without a text it is the base's. -/
def expectedPath (base : Base) (ps : List Piece) : List (Option Segment) :=
  if ps = [] then base.address.path.map some
  else walk patternKind (some .blank) (base.address.path.dropLast.map some)
    ((ps.splitOnP isSlashPiece).map pattern)

def expectedQuery (base : Base) (ps : List Piece) : Option (List Char) :=
  if ps = [] then base.query else none

/-! ## Values that stay in place -/

/-- The URL is on the site of the base and has the path of the template but for the segments with
    placeholders. Before the query parameters are appended it has no query, or the base's where the
    template is empty, and it has no fragment. -/
def InPlace (readers : Readers) (base : Base) (ids : Identifiers) (baseUrl : String)
    (pathParameters : JsObject String) : Prop :=
  ∃ (resolved : Resolved) (path : List Segment),
    Url.resolve readers base (getReplacedPathParameters pathParameters baseUrl) = some resolved ∧
      resolved.place = .special ⟨base.address.site, path⟩ ∧
      List.Forall₂ Matches (expectedPath base (pieces ids baseUrl.toList)) path ∧
      resolved.query = expectedQuery base (pieces ids baseUrl.toList) ∧ resolved.fragment = none ∧
      ∀ queryParameters : JsObject Json, (∀ e ∈ queryParameters, hasText e.2 = true) →
        ∃ (url : Url) (texts : Query), (ofBase readers base).url baseUrl pathParameters queryParameters =
            .ok url.toString ∧
          url.front = resolved.place.front ∧ url.fragment = none ∧
          List.Forall₂ IsText (queryParameters.entries.flatMap queryValues) texts ∧
          url.searchParams = resolved.toUrl.searchParams ++ texts

/-- That holds for every configured URL. -/
def StaysInPlace (readers : Readers) (ids : Identifiers) (baseUrl : String)
    (pathParameters : JsObject String) : Prop :=
  ∀ base, InPlace readers base ids baseUrl pathParameters

/-- The text that `new URL` reads: of every parameter the first `:key` is replaced, one parameter
    after the other. -/
def readText (pathParameters : JsObject String) (baseUrl : String) : List Char :=
  clean (pathParameters.entries.foldl
    (fun text (key, value) => replaceFirst (':' :: key.toList) value.toList text) baseUrl.toList)

/-- The same text where every placeholder is replaced by its value. -/
def builtText (values : String → Option String) (ps : List Piece) : List Char :=
  clean (fill values ps)

/-- The text is a path that goes on where the base's does. -/
structure ReadAsPath (ps : List Piece) (text : List Char) : Prop where
  noQuery : '?' ∉ text
  noFragment : '#' ∉ text
  scheme : scheme? text = none
  start : ∀ c ∈ text.head?, isSlash c = false
  ne_nil : ps ≠ [] → text ≠ []

/-- With the dot segments resolved, the text differs from the template in the segments with
    placeholders only. -/
def SameSegments (ps : List Piece) (text : List Char) : Prop :=
  (templateMove ps).Agrees Matches (textMove text)

/-- No value has a query or a fragment. -/
def PlainValues (values : String → Option String) (ps : List Piece) : Prop :=
  ∀ name value, .placeholder name ∈ ps → values name = some value →
    '?' ∉ value.toList ∧ '#' ∉ value.toList

/-- Every value keeps to its segment. -/
structure Contained (values : String → Option String) (ps : List Piece) : Prop where
  slash : ∀ name value, .placeholder name ∈ ps → values name = some value →
    ∀ c ∈ value.toList, isSlash c = false
  /-- No value makes a dot segment. -/
  dot : ∀ segment text, (segment, text) ∈ (ps.splitOnP isSlashPiece).zip
      ((builtText values ps).splitOnP isSlash) → pattern segment = none →
    (encodeSegment text).kind = .name

/-- Neither the template nor the text has a dot segment. -/
structure NoDots (values : String → Option String) (ps : List Piece) : Prop where
  template : ∀ segment ∈ ps.splitOnP isSlashPiece, patternKind (pattern segment) = .name
  text : ∀ text ∈ (builtText values ps).splitOnP isSlash, (encodeSegment text).kind = .name

/-! ## Texts a template can become -/

/-- The text has some text without a slash for each placeholder. -/
inductive Fills : List Piece → List Char → Prop
  | nil : Fills [] []
  | text {ps cs} (c : Char) : Fills ps cs → Fills (.text c :: ps) (c :: cs)
  | placeholder {ps cs} (name : String) {value : List Char} : (∀ c ∈ value, isSlash c = false) →
      Fills ps cs → Fills (.placeholder name :: ps) (value ++ cs)

theorem Fills.append {ps qs : List Piece} {cs ds : List Char} (h : Fills ps cs) (h' : Fills qs ds) :
    Fills (ps ++ qs) (cs ++ ds) := by
  induction h with
  | nil => exact h'
  | text c _ ih => exact .text c ih
  | placeholder name hvalue _ ih =>
    rw [List.append_assoc]
    exact .placeholder name hvalue ih

theorem Fills.reverse {ps : List Piece} {cs : List Char} (h : Fills ps cs) :
    Fills ps.reverse cs.reverse := by
  induction h with
  | nil => exact .nil
  | text c _ ih =>
    rw [List.reverse_cons, List.reverse_cons]
    exact ih.append (.text c .nil)
  | @placeholder ps cs name value hvalue _ ih =>
    rw [List.reverse_cons, List.reverse_append, ← List.append_nil value.reverse]
    exact ih.append (.placeholder name (by simpa using hvalue) .nil)

/-- Characters that the template's text has none of can be taken out anywhere. -/
theorem Fills.filter {ps : List Piece} {cs : List Char} (h : Fills ps cs) {keep : Char → Bool}
    (hkeep : ∀ c, .text c ∈ ps → keep c = true) : Fills ps (cs.filter keep) := by
  induction h with
  | nil => exact .nil
  | text c _ ih =>
    rw [List.filter_cons_of_pos (hkeep c (List.mem_cons_self ..))]
    exact .text c (ih fun d hd => hkeep d (List.mem_cons_of_mem _ hd))
  | placeholder name hvalue _ ih =>
    rw [List.filter_append]
    exact .placeholder name (fun c hc => hvalue c (List.mem_filter.mp hc).1)
      (ih fun d hd => hkeep d (List.mem_cons_of_mem _ hd))

/-- And at the start. -/
theorem Fills.dropWhile {ps : List Piece} {cs : List Char} (h : Fills ps cs) {drop : Char → Bool}
    (hdrop : ∀ c, .text c ∈ ps → drop c = false) : Fills ps (cs.dropWhile drop) := by
  induction h with
  | nil => exact .nil
  | @text ps cs c h _ =>
    rw [List.dropWhile_cons_of_neg (by rw [hdrop c (List.mem_cons_self ..)]; decide)]
    exact .text c h
  | @placeholder ps cs name value hvalue h ih =>
    have ih := ih fun d hd => hdrop d (List.mem_cons_of_mem _ hd)
    rw [List.dropWhile_append]
    split
    · exact .placeholder name (List.forall_mem_nil _) ih
    · exact .placeholder name (fun c hc => hvalue c ((List.dropWhile_sublist _).subset hc)) h

/-- What `new URL` takes out of the text, it takes out of values. -/
theorem fills_clean {ps : List Piece} {cs : List Char} (h : Fills ps cs)
    (hchar : ∀ c, .text c ∈ ps → isC0OrSpace c = false) : Fills ps (clean cs) := by
  have hends : Fills ps ((cs.dropWhile isC0OrSpace).reverse.dropWhile isC0OrSpace).reverse := by
    have hreverse := ((h.dropWhile hchar).reverse.dropWhile fun c hc =>
      hchar c (List.mem_reverse.mp hc)).reverse
    rwa [List.reverse_reverse] at hreverse
  refine hends.filter fun c hc => decide_eq_true fun hmem => ?_
  have htrue := isC0OrSpace_of_mem c hmem
  rw [hchar c hc] at htrue
  cases htrue

/-- A text without slashes in the places of the placeholders has the template's segments. -/
theorem forall₂_segments {ps : List Piece} {cs : List Char} (h : Fills ps cs) :
    List.Forall₂ Fills (ps.splitOnP isSlashPiece) (cs.splitOnP isSlash) := by
  induction h with
  | nil => exact .cons .nil .nil
  | @text ps cs c _ ih =>
    cases hc : isSlash c with
    | true =>
      rw [splitOnP_cons_of_pos (p := isSlashPiece) (c := .text c) hc, splitOnP_cons_of_pos hc]
      exact .cons .nil ih
    | false =>
      rw [splitOnP_cons_of_neg (p := isSlashPiece) (c := .text c) hc, splitOnP_cons_of_neg hc]
      rw [splitOnP_eq_cons, splitOnP_eq_cons cs, List.forall₂_cons] at ih
      exact .cons (.text c ih.1) ih.2
  | @placeholder ps cs name value hvalue _ ih =>
    rw [splitOnP_cons_of_neg (p := isSlashPiece) rfl, splitOnP_append_of_forall hvalue]
    rw [splitOnP_eq_cons, splitOnP_eq_cons cs, List.forall₂_cons] at ih
    exact .cons (.placeholder name hvalue ih.1) ih.2

/-- Without placeholders the text is the template. -/
theorem Fills.eq_fill {ps : List Piece} {cs : List Char} (h : Fills ps cs)
    (hnone : ps.any isPlaceholder = false) : cs = fill (fun _ => none) ps := by
  induction h with
  | nil => rfl
  | text c _ ih =>
    rw [List.any_cons, Bool.or_eq_false_iff] at hnone
    rw [fill_cons, ← ih hnone.2]
    rfl
  | placeholder name _ _ _ =>
    rw [List.any_cons, Bool.or_eq_false_iff] at hnone
    exact absurd hnone.1 (by simp [isPlaceholder])

theorem Fills.matches {segment : List Piece} {text : List Char} (h : Fills segment text) :
    Matches (pattern segment) (encodeSegment text) := by
  unfold Matches pattern
  split
  · exact fun _ hs => nomatch hs
  · rename_i hnone
    rintro s ⟨⟩
    rw [h.eq_fill (by simpa using hnone)]

/-! ## Values that keep to their segments -/

section Template

variable {values : String → Option String} {ps : List Piece} (hps : IsRelativePath ps)

include hps

/-- What stands for a placeholder has the characters of its value, or plain ones. -/
theorem forall_mem_placeholder {p : Char → Bool} (hplain : ∀ c, isPlain c = true → p c = true)
    {name : String} (hname : .placeholder name ∈ ps)
    (hvalue : ∀ value, values name = some value → ∀ c ∈ value.toList, p c = true) :
    ∀ c ∈ (Piece.placeholder name).fill values, p c = true := by
  intro c hc
  rw [Piece.fill] at hc
  cases h : values name with
  | none =>
    rw [h, Option.elim_none] at hc
    rcases List.mem_cons.mp hc with rfl | hc
    · exact hplain ':' (by decide)
    · exact hplain c (hps.name name hname c hc)
  | some value =>
    rw [h, Option.elim_some] at hc
    exact hvalue value h c hc

/-- The filled template has texts without slashes for its placeholders. -/
theorem fills_fill (h : ∀ name value, .placeholder name ∈ ps → values name = some value →
    ∀ c ∈ value.toList, isSlash c = false) : Fills ps (fill values ps) := by
  have hplaceholder : ∀ name, .placeholder name ∈ ps →
      ∀ c ∈ (Piece.placeholder name).fill values, isSlash c = false := by
    intro name hname c hc
    have hslash := forall_mem_placeholder (p := (!isSlash ·)) hps
      (fun d hd => (Bool.and_eq_true_iff.mp (Bool.and_eq_true_iff.mp hd).1).1) hname
      (fun value hvalue d hd => by rw [h name value hname hvalue d hd]; rfl) c hc
    exact Bool.not_eq_true' _ ▸ hslash
  clear hps h
  induction ps with
  | nil => exact .nil
  | cons p ps ih =>
    have ih := ih fun name hname => hplaceholder name (List.mem_cons_of_mem _ hname)
    rw [fill_cons]
    cases p with
    | text c => exact .text c ih
    | placeholder name => exact .placeholder name (hplaceholder name (List.mem_cons_self ..)) ih

theorem fills_builtText (h : Contained values ps) : Fills ps (builtText values ps) :=
  fills_clean (fills_fill hps h.slash) fun c hc => (hps.char c hc).1

/-- With dot segments or without, contained values leave the rest of the path as it is. -/
theorem sameSegments_of_contained (h : Contained values ps) :
    SameSegments ps (builtText values ps) := by
  have hsegments := forall₂_segments (fills_builtText hps h)
  refine agrees_ofSegments (fun _ hs => (Option.some.inj hs)) ?_
  rw [List.forall₂_map_left_iff, List.forall₂_map_right_iff, List.forall₂_iff_zip]
  refine ⟨hsegments.length_eq, fun {segment text} hmem => ?_⟩
  have hfills := (List.forall₂_iff_zip.mp hsegments).2 hmem
  refine ⟨hfills.matches, ?_⟩
  cases hpattern : pattern segment with
  | none => exact (h.dot segment text hmem hpattern).symm
  | some s => exact congrArg Segment.kind (hfills.matches s hpattern).symm

/-- Without query and fragment in a value there is none in the text. -/
theorem notMem_builtText (h : PlainValues values ps) :
    '?' ∉ builtText values ps ∧ '#' ∉ builtText values ps := by
  have hmem : ∀ c ∈ builtText values ps, (c ≠ '?' && c ≠ '#') = true := by
    intro c hc
    obtain ⟨p, hp, hc⟩ := List.mem_flatMap.mp (mem_of_mem_clean hc)
    cases p with
    | text d =>
      obtain rfl := List.mem_singleton.mp hc
      simpa using (hps.char c hp).2.2
    | placeholder name =>
      refine forall_mem_placeholder (p := fun c => c ≠ '?' && c ≠ '#') hps ?_ hp ?_ c hc
      · intro d hd
        simp only [isPlain, Bool.and_eq_true] at hd ⊢
        exact ⟨hd.1.2, hd.2⟩
      · intro value hvalue d hd
        obtain ⟨hquery, hfragment⟩ := h name value hp hvalue
        simp only [Bool.and_eq_true, decide_eq_true_eq]
        exact ⟨fun heq => hquery (heq ▸ hd), fun heq => hfragment (heq ▸ hd)⟩
  exact ⟨fun hc => absurd (hmem _ hc) (by decide), fun hc => absurd (hmem _ hc) (by decide)⟩

end Template

/-! ## Texts that are read as paths -/

section Text

variable {ps : List Piece} {text : List Char}

theorem ReadAsPath.parts_eq (h : ReadAsPath ps text) : parts text = (text, none, none) := by
  unfold parts
  rw [cut_of_notMem h.noFragment]
  dsimp only
  rw [cut_of_notMem h.noQuery]

/-- The text is read as a path behind the base's. -/
theorem ReadAsPath.locate_eq (h : ReadAsPath ps text) (hne : ps ≠ []) (readers : Readers)
    (base : Address) : locate readers base text =
      some (.special { base with path := readPath base.path.dropLast text }, false) := by
  obtain ⟨c, cs, hcons⟩ := List.exists_cons_of_ne_nil (h.ne_nil hne)
  have hstart := h.start c (by rw [hcons]; rfl)
  unfold locate
  rw [h.scheme, hcons]
  simp only [readRelative, hstart, Bool.false_eq_true, if_false, Option.map_some, reduceCtorEq,
    decide_false]

theorem forall₂_matches_some (path : List Segment) : List.Forall₂ Matches (path.map some) path := by
  rw [List.forall₂_map_left_iff]
  exact List.forall₂_same.mpr fun _ _ _ hs => Option.some.inj hs

theorem SameSegments.forall₂_readPath (h : SameSegments ps text) (hne : ps ≠ []) (base : Base) :
    List.Forall₂ Matches (expectedPath base ps) (readPath base.address.path.dropLast text) := by
  unfold expectedPath
  rw [if_neg hne, walk_eq_apply, readPath_eq_apply]
  exact h.apply (forall₂_matches_some _)

/-- Without a template the text is empty. -/
theorem readText_of_pieces_eq_nil {ids : Identifiers} {baseUrl : String}
    (h : pieces ids baseUrl.toList = []) (pathParameters : JsObject String) :
    readText pathParameters baseUrl = [] := by
  have hempty : baseUrl.toList = [] := by
    rw [← fill_pieces_none ids baseUrl.toList, h]
    rfl
  have hfold : ∀ es : List (String × String), es.foldl
      (fun text e => replaceFirst (':' :: e.1.toList) e.2.toList text) [] = [] := by
    intro es
    induction es with
    | nil => rfl
    | cons e es ih => exact ih
  unfold readText
  rw [hempty]
  exact congrArg clean (hfold _)

theorem readAsPath_nil : ReadAsPath [] [] where
  noQuery := List.not_mem_nil
  noFragment := List.not_mem_nil
  scheme := rfl
  start _ hc := nomatch hc
  ne_nil hne := absurd rfl hne

theorem sameSegments_nil : SameSegments [] [] :=
  ⟨rfl, .cons (fun _ hs => Option.some.inj hs) .nil⟩

end Text

theorem foldl_append_parts (texts : Query) (url : Url) :
    (texts.foldl (fun url p => url.append p.1 p.2) url).front = url.front ∧
      (texts.foldl (fun url p => url.append p.1 p.2) url).fragment = url.fragment := by
  induction texts generalizing url with
  | nil => exact ⟨rfl, rfl⟩
  | cons p texts ih => exact ih (url.append p.1 p.2)

/-- What `url` returns for a text that can be read. -/
theorem exists_url_of_resolve {readers : Readers} {base : Base} {baseUrl : String}
    {pathParameters : JsObject String} {resolved : Resolved}
    (h : Url.resolve readers base (getReplacedPathParameters pathParameters baseUrl) =
      some resolved) (queryParameters : JsObject Json)
    (htext : ∀ e ∈ queryParameters, hasText e.2 = true) :
    ∃ (url : Url) (texts : Query),
      (ofBase readers base).url baseUrl pathParameters queryParameters = .ok url.toString ∧
        url.front = resolved.place.front ∧ url.fragment = resolved.fragment ∧
        List.Forall₂ IsText (queryParameters.entries.flatMap queryValues) texts ∧
        url.searchParams = resolved.toUrl.searchParams ++ texts := by
  obtain ⟨url, hurl⟩ : ∃ url, appendQueryParams queryParameters resolved.toUrl = .ok url :=
    appendQueryParams_isOk.mpr htext
  obtain ⟨texts, htexts, rfl⟩ := foldlM_appendPair_eq_ok.mp hurl
  obtain ⟨hfront, hfragment⟩ := foldl_append_parts texts resolved.toUrl
  refine ⟨_, texts, ?_, hfront, hfragment, htexts, searchParams_foldl_append texts _⟩
  unfold UrlBuilderService.url ofBase
  simp only [h, Option.map_some, hurl]
  rfl

section Sufficient

variable {readers : Readers} {ids : Identifiers} {baseUrl : String}
  {pathParameters : JsObject String}

theorem clean_getReplaced (pathParameters : JsObject String) (baseUrl : String) :
    clean (getReplacedPathParameters pathParameters baseUrl).toList =
      readText pathParameters baseUrl := by
  rw [getReplacedPathParameters, String.toList_ofList]
  rfl

/-- Where the parameters are replaced rightly, the text is the filled template. -/
theorem readText_of_replacedInTurn (hturn : ReplacedInTurn ids pathParameters baseUrl) :
    readText pathParameters baseUrl =
      builtText pathParameters.get? (pieces ids baseUrl.toList) := by
  rw [← clean_getReplaced, getReplaced_of_replacedInTurn hturn, substitute, String.toList_ofList]
  rfl

/-- A text that is a path, with the segments of the template, stays in place. -/
theorem staysInPlace_of_sameSegments
    (hread : ReadAsPath (pieces ids baseUrl.toList) (readText pathParameters baseUrl))
    (hsame : SameSegments (pieces ids baseUrl.toList) (readText pathParameters baseUrl)) :
    StaysInPlace readers ids baseUrl pathParameters := by
  intro base
  have hparts := (congrArg parts (clean_getReplaced pathParameters baseUrl)).trans hread.parts_eq
  obtain ⟨path, keepsQuery, hlocate, hmatches, hquery⟩ : ∃ path keepsQuery,
      locate readers base.address (readText pathParameters baseUrl) =
          some (.special { base.address with path := path }, keepsQuery) ∧
        List.Forall₂ Matches (expectedPath base (pieces ids baseUrl.toList)) path ∧
        (if keepsQuery then base.query else none) =
          expectedQuery base (pieces ids baseUrl.toList) := by
    by_cases hne : pieces ids baseUrl.toList = []
    · rw [hne, readText_of_pieces_eq_nil hne]
      exact ⟨base.address.path, true, rfl, forall₂_matches_some _, rfl⟩
    · refine ⟨_, false, hread.locate_eq hne readers base.address,
        hsame.forall₂_readPath hne base, ?_⟩
      unfold expectedQuery
      rw [if_neg hne]
      rfl
  obtain ⟨resolved, hresolve, hplace, hresolvedQuery, hfragment⟩ := exists_resolve hparts hlocate
  refine ⟨resolved, path, hresolve, hplace, hmatches, hresolvedQuery.trans hquery, hfragment, ?_⟩
  intro queryParameters htext
  obtain ⟨url, texts, hurl, hfront, hurlFragment, htexts, hparams⟩ :=
    exists_url_of_resolve hresolve queryParameters htext
  exact ⟨url, texts, hurl, hfront, hurlFragment.trans hfragment, htexts, hparams⟩

end Sufficient

/-! ## What stays in place -/

theorem noFragment_none : ∀ q ∈ (none : Option (List Char)), '#' ∉ q := nofun

/-- A base with a path of some length. -/
def baseWith (scheme : SpecialScheme) (authority : Authority) (n : ℕ) : Base where
  address := ⟨⟨scheme, authority⟩, List.replicate (n + 1) .blank⟩
  query := none
  noFragment := noFragment_none

/-- An authority of these characters. -/
def hostAuthority (host : List Char) (h : '?' ∉ host ∧ '#' ∉ host) : Authority where
  text := host
  noQuery := h.1
  noFragment := h.2

/-- A scheme that is not the given one. -/
def otherScheme (scheme : SpecialScheme) : SpecialScheme :=
  if scheme = .http then .https else .http

theorem ne_otherScheme (scheme : SpecialScheme) : scheme ≠ otherScheme scheme := by
  cases scheme <;> decide

theorem expectedPath_baseWith {ps : List Piece} (hne : ps ≠ []) (scheme : SpecialScheme)
    (authority : Authority) (n : ℕ) : expectedPath (baseWith scheme authority n) ps =
      (templateMove ps).apply (List.replicate n (some .blank)) := by
  unfold expectedPath
  rw [if_neg hne, walk_eq_apply]
  simp [baseWith, templateMove, List.dropLast_replicate]

section Necessary

variable {readers : Readers} {ids : Identifiers} {baseUrl : String}
  {pathParameters : JsObject String} {text : List Char}
  (htext : clean (getReplacedPathParameters pathParameters baseUrl).toList = text)
  (hne : pieces ids baseUrl.toList ≠ [])

include htext hne

/-- Where a text that stays in place leads. -/
theorem exists_locate_of_inPlace {base : Base}
    (h : InPlace readers base ids baseUrl pathParameters) :
    parts text = (text, none, none) ∧ ∃ path keepsQuery,
      locate readers base.address text = some (.special ⟨base.address.site, path⟩, keepsQuery) ∧
        List.Forall₂ Matches (expectedPath base (pieces ids baseUrl.toList)) path := by
  obtain ⟨resolved, path, hresolve, hplace, hmatches, hresolved, hfragment, -⟩ := h
  unfold expectedQuery at hresolved
  rw [if_neg hne] at hresolved
  cases hparts : parts text with
  | mk head rest =>
    obtain ⟨query, fragment⟩ := rest
    obtain ⟨keepsQuery, hlocate, hquery', hfragment'⟩ :=
      exists_locate (htext ▸ hparts) hresolve
    rw [hfragment] at hfragment'
    rw [hresolved] at hquery'
    obtain rfl : fragment = none := Option.map_eq_none_iff.mp hfragment'.symm
    obtain rfl : query = none := by
      cases query with
      | none => rfl
      | some q => cases hquery'
    unfold parts at hparts
    simp only [Prod.mk.injEq] at hparts
    obtain ⟨hhead, hquestion, hhash⟩ := hparts
    have htext' := (cut_eq_none hhash).2
    rw [htext'] at hhead hquestion
    rw [(cut_eq_none hquestion).2] at hhead
    subst hhead
    rw [hplace] at hlocate
    exact ⟨rfl, path, keepsQuery, hlocate, hmatches⟩

/-- It has no query and no fragment. -/
theorem notMem_of_staysInPlace (h : StaysInPlace readers ids baseUrl pathParameters) :
    '?' ∉ text ∧ '#' ∉ text := by
  obtain ⟨hparts, -⟩ := exists_locate_of_inPlace htext hne
    (h (baseWith .http (hostAuthority [] (by decide)) 0))
  unfold parts at hparts
  simp only [Prod.mk.injEq] at hparts
  obtain ⟨-, hquestion, hhash⟩ := hparts
  rw [(cut_eq_none hhash).2] at hquestion
  exact ⟨(cut_eq_none hquestion).1, (cut_eq_none hhash).1⟩

/-- A text that stays in place is not empty: the empty text keeps the query of the base. -/
theorem ne_nil_of_staysInPlace (h : StaysInPlace readers ids baseUrl pathParameters) :
    text ≠ [] := by
  rintro rfl
  let base : Base := { baseWith .http (hostAuthority [] (by decide)) 0 with
    query := some [], noFragment := by rintro q ⟨⟩; exact List.not_mem_nil }
  obtain ⟨resolved, path, hresolve, -, -, hquery, -⟩ := h base
  have hparts : parts (clean (getReplacedPathParameters pathParameters baseUrl).toList) =
      ([], none, none) := by
    rw [htext]
    rfl
  obtain ⟨keepsQuery, hlocate, hquery', -⟩ := exists_locate hparts hresolve
  obtain ⟨-, rfl⟩ := Prod.mk.inj (Option.some.inj hlocate)
  unfold expectedQuery at hquery
  rw [if_neg hne, hquery'] at hquery
  cases hquery

/-- It has no scheme: it would not lead to a base with another one. -/
theorem scheme?_of_staysInPlace (h : StaysInPlace readers ids baseUrl pathParameters) :
    scheme? text = none := by
  have hlocate := fun scheme => (exists_locate_of_inPlace htext hne
    (h (baseWith scheme (hostAuthority [] (by decide)) 0))).2
  unfold locate at hlocate
  cases hscheme : scheme? text with
  | none => rfl
  | some parsed =>
    obtain ⟨scheme, rest⟩ := parsed
    rw [hscheme] at hlocate
    dsimp only at hlocate
    cases hspecial : SpecialScheme.ofText? scheme with
    | none =>
      obtain ⟨path, keepsQuery, hlocate, -⟩ := hlocate .http
      rw [hspecial] at hlocate
      obtain ⟨front, -, hplace⟩ := Option.map_eq_some_iff.mp hlocate
      cases hplace
    | some special =>
      obtain ⟨path, keepsQuery, hlocate, -⟩ := hlocate (otherScheme special)
      rw [hspecial] at hlocate
      dsimp only at hlocate
      rw [if_neg fun hsame => ne_otherScheme special hsame.1] at hlocate
      obtain ⟨address, haddress, hplace⟩ := Option.map_eq_some_iff.mp hlocate
      obtain rfl := Place.special.inj (Prod.mk.inj hplace).1
      exact absurd (readAuthority_eq_some haddress).symm (ne_otherScheme special)

/-- So it is read in the context of every base. -/
theorem exists_readRelative_of_staysInPlace
    (h : StaysInPlace readers ids baseUrl pathParameters) (base : Base) :
    ∃ path, readRelative readers base.address text = some ⟨base.address.site, path⟩ ∧
      List.Forall₂ Matches (expectedPath base (pieces ids baseUrl.toList)) path := by
  obtain ⟨-, path, keepsQuery, hlocate, hmatches⟩ := exists_locate_of_inPlace htext hne (h base)
  unfold locate at hlocate
  rw [scheme?_of_staysInPlace htext hne h] at hlocate
  obtain ⟨address, haddress, hplace⟩ := Option.map_eq_some_iff.mp hlocate
  obtain rfl := Place.special.inj (Prod.mk.inj hplace).1
  exact ⟨path, haddress, hmatches⟩

/-- It starts with no slash: its authority, or its path, would not depend on the base. -/
theorem isSlash_of_staysInPlace (h : StaysInPlace readers ids baseUrl pathParameters) :
    ∀ c ∈ text.head?, isSlash c = false := by
  have hrelative := fun authority n =>
    exists_readRelative_of_staysInPlace htext hne h (baseWith .http authority n)
  simp only [expectedPath_baseWith hne] at hrelative
  cases text with
  | nil => exact fun c hc => nomatch hc
  | cons c cs =>
    rintro d ⟨⟩
    cases hslash : isSlash c with
    | false => rfl
    | true =>
      simp only [readRelative, hslash, if_true] at hrelative
      cases hsecond : cs.head?.any isSlash with
      | true =>
        simp only [hsecond, if_true] at hrelative
        obtain ⟨path, heq, -⟩ := hrelative (hostAuthority [] (by decide)) 0
        obtain ⟨path', heq', -⟩ := hrelative (hostAuthority ['x'] (by decide)) 0
        cases heq.symm.trans heq'
      | false =>
        -- a base that is one segment longer has a path that is
        let up := (templateMove (pieces ids baseUrl.toList)).up
        simp only [hsecond, Bool.false_eq_true, if_false, Option.some.injEq] at hrelative
        obtain ⟨path, heq, hmatches⟩ := hrelative (hostAuthority [] (by decide)) up
        obtain ⟨path', heq', hmatches'⟩ := hrelative (hostAuthority [] (by decide)) (up + 1)
        obtain rfl : path = path' := (Address.mk.inj heq).2.symm.trans (Address.mk.inj heq').2
        have hshort := hmatches.length_eq
        have hlong := hmatches'.length_eq
        rw [Move.length_apply, List.length_replicate] at hshort hlong
        omega

/-- So the template and the text do the same to every path. -/
theorem agrees_of_staysInPlace (h : StaysInPlace readers ids baseUrl pathParameters) :
    (templateMove (pieces ids baseUrl.toList)).Agrees Matches (textMove text) := by
  refine Move.Agrees.of_apply (some .blank) .blank fun n => ?_
  obtain ⟨path, hrelative, hmatches⟩ := exists_readRelative_of_staysInPlace htext hne h
    (baseWith .http (hostAuthority [] (by decide)) n)
  rw [expectedPath_baseWith hne] at hmatches
  have hstart := isSlash_of_staysInPlace htext hne h
  cases text with
  | nil => exact absurd rfl (ne_nil_of_staysInPlace htext hne h)
  | cons c cs =>
    simp only [readRelative, hstart c rfl, Bool.false_eq_true, if_false, Option.some.injEq,
      Address.mk.injEq, true_and] at hrelative
    rw [← hrelative, readPath_eq_apply] at hmatches
    simpa [baseWith, List.dropLast_replicate] using hmatches

end Necessary

/-- A character of a value is in the text that `new URL` reads. -/
theorem mem_builtText {values : String → Option String} {ps : List Piece} {name value : String}
    (hmem : .placeholder name ∈ ps) (hvalue : values name = some value) {c : Char}
    (hc : c ∈ value.toList) (hkept : isC0OrSpace c = false) : c ∈ builtText values ps := by
  have hfill : c ∈ fill values ps := by
    unfold fill
    refine List.mem_flatMap.mpr ⟨_, hmem, ?_⟩
    rw [Piece.fill, hvalue]
    exact hc
  have hfilter : c ∈ (builtText values ps).filter fun d => decide (d = c) := by
    unfold builtText
    rw [filter_clean fun d hd => by rwa [of_decide_eq_true hd]]
    exact List.mem_filter.mpr ⟨hfill, decide_eq_true rfl⟩
  exact (List.mem_filter.mp hfilter).1

theorem notMem_builtText_iff {values : String → Option String} {ps : List Piece}
    (hps : IsRelativePath ps) :
    ('?' ∉ builtText values ps ∧ '#' ∉ builtText values ps) ↔ PlainValues values ps := by
  refine ⟨fun h name value hmem hvalue => ⟨fun hc => ?_, fun hc => ?_⟩, notMem_builtText hps⟩
  · exact h.1 (mem_builtText hmem hvalue hc (by decide))
  · exact h.2 (mem_builtText hmem hvalue hc (by decide))

/-- A text that stays in place is a path with the segments of the template. -/
theorem sameSegments_of_staysInPlace {readers : Readers} {ids : Identifiers} {baseUrl : String}
    {pathParameters : JsObject String} (h : StaysInPlace readers ids baseUrl pathParameters) :
    ReadAsPath (pieces ids baseUrl.toList) (readText pathParameters baseUrl) ∧
      SameSegments (pieces ids baseUrl.toList) (readText pathParameters baseUrl) := by
  by_cases hne : pieces ids baseUrl.toList = []
  · rw [readText_of_pieces_eq_nil hne, hne]
    exact ⟨readAsPath_nil, sameSegments_nil⟩
  have htext := clean_getReplaced pathParameters baseUrl
  obtain ⟨hquery, hfragment⟩ := notMem_of_staysInPlace htext hne h
  exact ⟨⟨hquery, hfragment, scheme?_of_staysInPlace htext hne h,
    isSlash_of_staysInPlace htext hne h, fun _ => ne_nil_of_staysInPlace htext hne h⟩,
    agrees_of_staysInPlace htext hne h⟩

/-! ## Without dot segments -/

/-- Every slash of the template is in the filled template. With no other one there, there is none
    in a value. -/
theorem countP_fill (values : String → Option String) (ps : List Piece) :
    ps.countP isSlashPiece ≤ (fill values ps).countP isSlash ∧
      (ps.countP isSlashPiece = (fill values ps).countP isSlash →
        ∀ name, .placeholder name ∈ ps → ∀ c ∈ (Piece.placeholder name).fill values,
          isSlash c = false) := by
  induction ps with
  | nil => exact ⟨le_rfl, fun _ _ h => nomatch h⟩
  | cons p ps ih =>
    rw [fill_cons, List.countP_append]
    cases p with
    | text d =>
      have hcount : (Piece.text d :: ps).countP isSlashPiece =
          ps.countP isSlashPiece + [d].countP isSlash := by
        rw [List.countP_cons, List.countP_singleton]
        rfl
      have hfill : (Piece.text d).fill values = [d] := rfl
      rw [hcount, hfill]
      refine ⟨by omega, fun heq name hmem => ih.2 (by omega) name ?_⟩
      exact (List.mem_cons.mp hmem).resolve_left (by simp)
    | placeholder other =>
      have hcount : (Piece.placeholder other :: ps).countP isSlashPiece =
          ps.countP isSlashPiece := List.countP_cons_of_neg (by simp [isSlashPiece])
      rw [hcount]
      refine ⟨by omega, fun heq name hmem c hc => ?_⟩
      rcases List.mem_cons.mp hmem with hname | hmem
      · rw [Piece.placeholder.inj hname] at hc
        have hzero : ((Piece.placeholder other).fill values).countP isSlash = 0 := by omega
        simpa using List.countP_eq_zero.mp hzero c hc
      · exact ih.2 (by omega) name hmem c hc

/-- Without dot segments, values that leave the segments of the template keep to their own. -/
theorem contained_of_sameSegments {values : String → Option String} {ps : List Piece}
    (hdots : NoDots values ps) (h : SameSegments ps (builtText values ps)) :
    Contained values ps := by
  have htemplate : templateMove ps = ⟨0, (ps.splitOnP isSlashPiece).map pattern⟩ :=
    ofSegments_of_name (List.forall_mem_map.mpr hdots.template)
  have htext : textMove (builtText values ps) =
      ⟨0, ((builtText values ps).splitOnP isSlash).map encodeSegment⟩ :=
    ofSegments_of_name (List.forall_mem_map.mpr hdots.text)
  have hlength := h.added.length_eq
  rw [htemplate, htext, List.length_map, List.length_map, length_splitOnP, length_splitOnP,
    Nat.add_right_cancel_iff] at hlength
  have hcount : ps.countP isSlashPiece = (fill values ps).countP isSlash := by
    rw [hlength, List.countP_eq_length_filter, List.countP_eq_length_filter, builtText,
      filter_clean fun c => isC0OrSpace_of_isSlash]
  refine ⟨fun name value hmem hvalue c hc => ?_, fun segment text hmem _ => ?_⟩
  · exact (countP_fill values ps).2 hcount name hmem c (by rwa [Piece.fill, hvalue])
  · exact hdots.text text (List.of_mem_zip hmem).2

namespace Sample

/-- Hosts of small letters and dots. -/
def readers : Readers where
  authority _ host :=
    if h : host ≠ [] ∧ host.all (fun c => c.isLower || c = '.') = true then
      some (hostAuthority host ⟨fun hc => absurd (List.all_eq_true.mp h.2 _ hc) (by decide),
        fun hc => absurd (List.all_eq_true.mp h.2 _ hc) (by decide)⟩)
    else none
  other _ _ := none

/-- `http://localhost/`. -/
def base : Base := baseWith .http (hostAuthority "localhost".toList (by decide)) 0

theorem isRelativePath_testUrl :
    IsRelativePath (pieces identifiers "some/part/:toReplace/url".toList) := by
  have hall : ((pieces identifiers "some/part/:toReplace/url".toList).all fun p => match p with
    | .text c => !isC0OrSpace c && c ∉ ['\\', '?', '#']
    | .placeholder name => name.toList.all isPlain) = true := by decide
  rw [List.all_eq_true] at hall
  refine ⟨by decide, fun c hc => ?_, by decide, fun name hname => List.all_eq_true.mp (hall _ hname)⟩
  simpa using hall _ hc

theorem readAsPath_testParams :
    ReadAsPath (pieces identifiers "some/part/:toReplace/url".toList)
      (readText testParams "some/part/:toReplace/url") := by
  have hhead : (readText testParams "some/part/:toReplace/url").head? = some 's' := by decide
  refine ⟨by decide, by decide, by decide, ?_, by decide⟩
  rw [hhead]
  rintro c ⟨⟩
  rfl

theorem contained_testParams :
    Contained testParams.get? (pieces identifiers "some/part/:toReplace/url".toList) := by
  have hvalues : (testParams.entries.all fun e => e.2.toList.all (!isSlash ·)) = true := by decide
  have hdot : ∀ text ∈ (builtText testParams.get?
      (pieces identifiers "some/part/:toReplace/url".toList)).splitOnP isSlash,
    (encodeSegment text).kind = .name := by decide
  refine ⟨fun name value _ hvalue c hc => ?_,
    fun segment text hmem _ => hdot text (List.of_mem_zip hmem).2⟩
  simpa using List.all_eq_true.mp
    (List.all_eq_true.mp hvalues _ (JsObject.get?_eq_some.mp hvalue)) c hc

end Sample

end UrlBuilderService

end NestTemplate
