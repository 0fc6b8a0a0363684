import NestTemplate.Common.Parts

/-!
# Content security policies

How a browser reads the header: policies between commas, directives between
semicolons, the name of a directive and its sources between white space. A
directive that is no ASCII text is skipped, and so is one whose name the policy
has already.

* `policies_around`: what a piece of a directive can change.
* `AddsSource.isSource`: what can be a source.
* `addsSource_around_iff`: when another value of one directive is one more
  source of the policies.
-/

namespace Common

namespace ContentSecurityPolicy

open Parts

/-! ## Reading the header -/

/-- ASCII white space. -/
def isWhitespace (c : Char) : Bool := c ∈ ['\t', '\n', '\x0c', '\r', ' ']

def isComma (c : Char) : Bool := c = ','

def isSemicolon (c : Char) : Bool := c = ';'

/-- The words of a text. -/
def words (cs : List Char) : List (List Char) := (cs.splitOnP isWhitespace).filter (· ≠ [])

/-- A directive: its name in lower case, and its sources. -/
structure Directive where
  name : List Char
  value : List (List Char)
  deriving DecidableEq

abbrev Policy := List Directive

def isAscii (cs : List Char) : Bool := cs.all (·.toNat < 0x80)

theorem isAscii_iff {cs : List Char} : isAscii cs = true ↔ ∀ c ∈ cs, c.toNat < 0x80 := by
  simp [isAscii]

/-- The directive of a token; `none` where it is skipped. -/
def directive? (token : List Char) : Option Directive :=
  if isAscii token then
    match words token with
    | [] => none
    | name :: value => some ⟨name.map Char.toLower, value⟩
  else none

/-- The policy has a directive of that name. -/
def Policy.has (policy : Policy) (name : List Char) : Bool := policy.any (·.name = name)

theorem Policy.has_iff {policy : Policy} {name : List Char} :
    policy.has name = true ↔ name ∈ policy.map Directive.name := by
  simp [has]

/-- The policy with the directive of a token, unless it has one of that name. -/
def addToken (policy : Policy) (token : List Char) : Policy :=
  match directive? token with
  | none => policy
  | some directive =>
    if policy.has directive.name then policy else policy ++ [directive]

section AddToken

variable {policy : Policy} {token : List Char} {directive : Directive}

theorem addToken_of_none (policy : Policy) (h : directive? token = none) :
    addToken policy token = policy := by
  unfold addToken
  rw [h]

theorem addToken_of_mem (h : directive? token = some directive)
    (hmem : directive.name ∈ policy.map Directive.name) : addToken policy token = policy := by
  unfold addToken
  rw [h]
  exact if_pos (Policy.has_iff.mpr hmem)

theorem addToken_of_notMem (h : directive? token = some directive)
    (hmem : directive.name ∉ policy.map Directive.name) :
    addToken policy token = policy ++ [directive] := by
  unfold addToken
  rw [h]
  exact if_neg fun hhas => hmem (Policy.has_iff.mp hhas)

end AddToken

def parsePolicy (cs : List Char) : Policy := (cs.splitOnP isSemicolon).foldl addToken []

/-- The policies of a header: those that have a directive. -/
def policies (cs : List Char) : List Policy :=
  ((cs.splitOnP isComma).map parsePolicy).filter (· ≠ [])

/-- The new policies are the old ones, but for one more source in one directive of that name. -/
def AddsSource (name source : List Char) (old new : List Policy) : Prop :=
  ∃ pre post dpre dpost before after,
    old = pre ++ (dpre ++ ⟨name, before ++ after⟩ :: dpost) :: post ∧
      new = pre ++ (dpre ++ ⟨name, before ++ source :: after⟩ :: dpost) :: post

/-! ## Words and sources -/

theorem words_append_cons (cs ds : List Char) {c : Char} (hc : isWhitespace c = true) :
    words (cs ++ c :: ds) = words cs ++ words ds := by
  unfold words
  rw [List.splitOnP_append_cons cs ds hc, List.filter_append]

/-- A text without white space makes the first word longer. -/
theorem words_append {cs : List Char} (h : ∀ c ∈ cs, isWhitespace c = false) (hne : cs ≠ [])
    (ds : List Char) : words (cs ++ ds) =
      (cs ++ firstPart isWhitespace ds) :: (laterParts isWhitespace ds).filter (· ≠ []) := by
  unfold words
  rw [splitOnP_append_of_forall h, List.filter_cons_of_pos]
  simp [hne]

theorem words_of_forall {cs : List Char} (h : ∀ c ∈ cs, isWhitespace c = false) (hne : cs ≠ []) :
    words cs = [cs] := by
  unfold words
  rw [List.splitOnP_eq_singleton h]
  simp [hne]

theorem directive?_of_words {token name : List Char} {value : List (List Char)}
    (hascii : ∀ c ∈ token, c.toNat < 0x80) (h : words token = name :: value) :
    directive? token = some ⟨name.map Char.toLower, value⟩ := by
  unfold directive?
  rw [if_pos (isAscii_iff.mpr hascii), h]

theorem directive?_of_not_ascii {token : List Char} (h : ¬ ∀ c ∈ token, c.toNat < 0x80) :
    directive? token = none := by
  unfold directive?
  rw [if_neg fun hascii => h (isAscii_iff.mp hascii)]

/-- What a source of a header consists of. -/
structure IsSource (source : List Char) : Prop where
  ne_nil : source ≠ []
  char : ∀ c ∈ source, c.toNat < 0x80 ∧ isWhitespace c = false ∧ isComma c = false ∧
    isSemicolon c = false

theorem isSource_of_mem_words {cs word : List Char} (hascii : ∀ c ∈ cs, c.toNat < 0x80)
    (hcomma : ∀ c ∈ cs, isComma c = false) (hsemicolon : ∀ c ∈ cs, isSemicolon c = false)
    (h : word ∈ words cs) : IsSource word := by
  obtain ⟨hword, hne⟩ := List.mem_filter.mp h
  refine ⟨of_decide_eq_true hne, fun c hc => ?_⟩
  obtain ⟨hspace, hmem⟩ := forall_of_mem_splitOnP hword c hc
  exact ⟨hascii c hmem, hspace, hcomma c hmem, hsemicolon c hmem⟩

theorem directive?_eq_some {token : List Char} {directive : Directive}
    (h : directive? token = some directive) : (∀ c ∈ token, c.toNat < 0x80) ∧
      ∃ name, words token = name :: directive.value ∧ directive.name = name.map Char.toLower := by
  unfold directive? at h
  split at h
  · rename_i hascii
    split at h
    · cases h
    · rename_i name value hwords
      cases h
      exact ⟨isAscii_iff.mp hascii, name, hwords, rfl⟩
  · cases h

/-- The sources of a policy come from its tokens. -/
theorem exists_token_of_mem_foldl {tokens : List (List Char)} {policy : Policy}
    {directive : Directive} (h : directive ∈ tokens.foldl addToken policy) :
    directive ∈ policy ∨ ∃ token ∈ tokens, directive? token = some directive := by
  induction tokens generalizing policy with
  | nil => exact .inl h
  | cons token tokens ih =>
    rcases ih h with h | ⟨token', hmem, h⟩
    · cases hdirective : directive? token with
      | none =>
        rw [addToken_of_none policy hdirective] at h
        exact .inl h
      | some d =>
        by_cases hmem : d.name ∈ policy.map Directive.name
        · rw [addToken_of_mem hdirective hmem] at h
          exact .inl h
        · rw [addToken_of_notMem hdirective hmem] at h
          rcases List.mem_append.mp h with h | h
          · exact .inl h
          · obtain rfl := List.mem_singleton.mp h
            exact .inr ⟨token, List.mem_cons_self .., hdirective⟩
    · exact .inr ⟨token', List.mem_cons_of_mem _ hmem, h⟩

theorem isSource_of_mem_policies {cs : List Char} {policy : Policy} (hpolicy : policy ∈ policies cs)
    {directive : Directive} (hdirective : directive ∈ policy) {source : List Char}
    (h : source ∈ directive.value) : IsSource source := by
  obtain ⟨text, htext, rfl⟩ := List.mem_map.mp (List.mem_filter.mp hpolicy).1
  rcases exists_token_of_mem_foldl hdirective with h' | ⟨token, htoken, h'⟩
  · cases h'
  · obtain ⟨hascii, name, hwords, -⟩ := directive?_eq_some h'
    refine isSource_of_mem_words hascii (fun c hc => ?_) (fun c hc => ?_)
      (hwords ▸ List.mem_cons_of_mem _ h)
    · exact (forall_of_mem_splitOnP htext c (forall_of_mem_splitOnP htoken c hc).2).1
    · exact (forall_of_mem_splitOnP htoken c hc).1

/-- What is added to the policies of a header is a source. -/
theorem AddsSource.isSource {name source cs : List Char} {old : List Policy}
    (h : AddsSource name source old (policies cs)) : IsSource source := by
  obtain ⟨pre, post, dpre, dpost, before, after, -, hnew⟩ := h
  have hpolicy : dpre ++ ⟨name, before ++ source :: after⟩ :: dpost ∈ policies cs := by
    rw [hnew]
    simp
  exact isSource_of_mem_policies hpolicy (List.mem_append_right _ (List.mem_cons_self ..))
    (List.mem_append_right _ (List.mem_cons_self ..))

/-! ## The directives around a token -/

/-- The names of a policy decide which later directives it takes. -/
theorem foldl_addToken_congr {policy policy' : Policy}
    (h : policy.map Directive.name = policy'.map Directive.name) (tokens : List (List Char)) :
    ∃ rest, tokens.foldl addToken policy = policy ++ rest ∧
      tokens.foldl addToken policy' = policy' ++ rest := by
  induction tokens generalizing policy policy' with
  | nil => exact ⟨[], (List.append_nil _).symm, (List.append_nil _).symm⟩
  | cons token tokens ih =>
    rw [List.foldl_cons, List.foldl_cons]
    cases hdirective : directive? token with
    | none =>
      rw [addToken_of_none policy hdirective, addToken_of_none policy' hdirective]
      exact ih h
    | some directive =>
      by_cases hmem : directive.name ∈ policy.map Directive.name
      · rw [addToken_of_mem hdirective hmem, addToken_of_mem hdirective (h ▸ hmem)]
        exact ih h
      · rw [addToken_of_notMem hdirective hmem, addToken_of_notMem hdirective (h ▸ hmem)]
        have hnames : (policy ++ [directive]).map Directive.name =
            (policy' ++ [directive]).map Directive.name := by
          rw [List.map_append, List.map_append, h]
        obtain ⟨rest, hrest, hrest'⟩ := ih hnames
        refine ⟨directive :: rest, ?_, ?_⟩
        · exact hrest.trans (List.append_assoc ..)
        · exact hrest'.trans (List.append_assoc ..)

/-- The token that a piece of a header stands in. -/
def tokenAround (before piece after : List Char) : List Char :=
  openPart isSemicolon (openPart isComma before) ++
    (piece ++ firstPart isSemicolon (firstPart isComma after))

/-- The directives of the same policy before that token. -/
def directivesBefore (before : List Char) : Policy :=
  (closedParts isSemicolon (openPart isComma before)).foldl addToken []

/-- A piece without separators changes its token only. -/
theorem policies_around (before after : List Char) : ∃ (pre post : List Policy)
    (later : List (List Char)), ∀ piece : List Char,
    (∀ c ∈ piece, isComma c = false ∧ isSemicolon c = false) →
      policies (before ++ piece ++ after) = (pre ++ later.foldl addToken
        (addToken (directivesBefore before) (tokenAround before piece after)) :: post).filter
          (· ≠ []) := by
  refine ⟨(closedParts isComma before).map parsePolicy, (laterParts isComma after).map parsePolicy,
    laterParts isSemicolon (firstPart isComma after), fun piece hpiece => ?_⟩
  have hrest : firstPart isComma (piece ++ after) = piece ++ firstPart isComma after ∧
      laterParts isComma (piece ++ after) = laterParts isComma after := by
    have h := splitOnP_append_of_forall (fun c hc => (hpiece c hc).1) after
    rw [splitOnP_eq_cons] at h
    exact List.cons.inj h
  have hpolicy : parsePolicy (openPart isComma before ++ (piece ++ firstPart isComma after)) =
      (laterParts isSemicolon (firstPart isComma after)).foldl addToken
        (addToken (directivesBefore before) (tokenAround before piece after)) := by
    have h := splitOnP_append_of_forall (fun c hc => (hpiece c hc).2) (firstPart isComma after)
    rw [splitOnP_eq_cons] at h
    obtain ⟨hfirst, hlater⟩ := List.cons.inj h
    unfold parsePolicy directivesBefore tokenAround
    rw [splitOnP_append, hfirst, hlater, List.foldl_append, List.foldl_cons]
  unfold policies
  rw [List.append_assoc, splitOnP_append, hrest.1, hrest.2, List.map_append, List.map_cons,
    hpolicy]

/-- Where the directive of the token is the first of its name, its value stands in the policies. -/
theorem policies_around_directive {before : List Char} (after : List Char) {name : List Char}
    (hname : name ∉ (directivesBefore before).map Directive.name) :
    ∃ (pre post : List Policy) (rest : Policy), ∀ (piece : List Char) (value : List (List Char)),
      (∀ c ∈ piece, isComma c = false ∧ isSemicolon c = false) →
        directive? (tokenAround before piece after) = some ⟨name, value⟩ →
          policies (before ++ piece ++ after) =
            pre ++ (directivesBefore before ++ ⟨name, value⟩ :: rest) :: post := by
  obtain ⟨pre, post, later, hpolicies⟩ := policies_around before after
  let policy (value : List (List Char)) : Policy := directivesBefore before ++ [⟨name, value⟩]
  obtain ⟨rest, hrest, -⟩ := foldl_addToken_congr (rfl : (policy []).map _ = _) later
  refine ⟨pre.filter (· ≠ []), post.filter (· ≠ []), rest, fun piece value hpiece htoken => ?_⟩
  have hadd : addToken (directivesBefore before) (tokenAround before piece after) =
      policy value := addToken_of_notMem htoken hname
  have hfold : later.foldl addToken (policy value) =
      directivesBefore before ++ ⟨name, value⟩ :: rest := by
    have hnames : (policy []).map Directive.name = (policy value).map Directive.name := by
      simp [policy]
    obtain ⟨rest', hrest', hvalue⟩ := foldl_addToken_congr hnames later
    obtain rfl : rest = rest' := List.append_cancel_left (hrest.symm.trans hrest')
    exact hvalue.trans (List.append_assoc ..)
  rw [hpolicies piece hpiece, hadd, hfold, List.filter_append, List.filter_cons_of_pos (by simp)]

/-! ## One more source -/

/-- The number of sources. -/
def sourceCount (policies : List Policy) : ℕ :=
  (policies.flatten.flatMap Directive.value).length

theorem AddsSource.sourceCount {name source : List Char} {old new : List Policy}
    (h : AddsSource name source old new) : sourceCount new = sourceCount old + 1 := by
  obtain ⟨pre, post, dpre, dpost, before, after, rfl, rfl⟩ := h
  unfold ContentSecurityPolicy.sourceCount
  simp only [List.flatten_append, List.flatten_cons, List.flatMap_append, List.flatMap_cons,
    List.length_append, List.length_cons]
  omega

theorem not_addsSource_self (name source : List Char) (old : List Policy) :
    ¬ AddsSource name source old old := by
  intro h
  have hcount := h.sourceCount
  omega

/-- Two lists that differ in one place differ there. -/
theorem append_cons_inj_of_ne {α : Type*} {pre post pre' post' : List α} {x y x' y' : α}
    (hxy : x ≠ y) (h : pre ++ x :: post = pre' ++ x' :: post')
    (h' : pre ++ y :: post = pre' ++ y' :: post') :
    pre = pre' ∧ x = x' ∧ y = y' ∧ post = post' := by
  induction pre generalizing pre' with
  | nil =>
    cases pre' with
    | nil =>
      obtain ⟨hx, hpost⟩ := List.cons.inj h
      exact ⟨rfl, hx, (List.cons.inj h').1, hpost⟩
    | cons z pre' => exact absurd ((List.cons.inj h).1.trans (List.cons.inj h').1.symm) hxy
  | cons z pre ih =>
    cases pre' with
    | nil =>
      obtain ⟨-, hpost⟩ := List.cons.inj h
      obtain ⟨-, hpost'⟩ := List.cons.inj h'
      rw [← hpost'] at hpost
      exact absurd (List.cons.inj (List.append_cancel_left hpost)).1 hxy
    | cons w pre' =>
      obtain ⟨hhead, htail⟩ := List.cons.inj h
      obtain ⟨hpre, rest⟩ := ih htail (List.cons.inj h').2
      exact ⟨by rw [hhead, hpre], rest⟩

section Around

variable {before after piece piece' : List Char}
  (hpiece : ∀ c ∈ piece, isComma c = false ∧ isSemicolon c = false)
  (hpiece' : ∀ c ∈ piece', isComma c = false ∧ isSemicolon c = false)

include hpiece hpiece'

/-- Tokens that are skipped, or whose name the policy has already, change nothing. -/
theorem policies_eq_of_addToken_eq
    (h : addToken (directivesBefore before) (tokenAround before piece after) =
      addToken (directivesBefore before) (tokenAround before piece' after)) :
    policies (before ++ piece ++ after) = policies (before ++ piece' ++ after) := by
  obtain ⟨pre, post, later, hpolicies⟩ := policies_around before after
  rw [hpolicies piece hpiece, hpolicies piece' hpiece', h]

/-- Another value of a directive is one more source of the policies if and only if the directive
    is the first of that name in its policy, and the value has one more source. -/
theorem addsSource_around_iff {name source dname : List Char} {value value' : List (List Char)}
    (h : directive? (tokenAround before piece after) = some ⟨dname, value⟩)
    (h' : directive? (tokenAround before piece' after) = some ⟨dname, value'⟩)
    (hne : value ≠ value') :
    AddsSource name source (policies (before ++ piece ++ after))
        (policies (before ++ piece' ++ after)) ↔
      name ∉ (directivesBefore before).map Directive.name ∧ dname = name ∧
        ∃ sources sources', value = sources ++ sources' ∧ value' = sources ++ source :: sources' := by
  by_cases hmem : dname ∈ (directivesBefore before).map Directive.name
  · have hsame : addToken (directivesBefore before) (tokenAround before piece after) =
        addToken (directivesBefore before) (tokenAround before piece' after) := by
      rw [addToken_of_mem h hmem, addToken_of_mem h' hmem]
    rw [policies_eq_of_addToken_eq hpiece hpiece' hsame]
    refine iff_of_false (not_addsSource_self _ _ _) ?_
    rintro ⟨hfirst, rfl, -⟩
    exact hfirst hmem
  · obtain ⟨pre, post, rest, hpolicies⟩ := policies_around_directive after hmem
    have hold := hpolicies piece value hpiece h
    have hnew := hpolicies piece' value' hpiece' h'
    rw [hold, hnew]
    constructor
    · rintro ⟨pre', post', dpre, dpost, sources, sources', hold', hnew'⟩
      obtain ⟨-, hpolicy, hpolicy', -⟩ := append_cons_inj_of_ne
        (fun heq => hne (Directive.mk.inj (List.cons.inj (List.append_cancel_left heq)).1).2)
        hold' hnew'
      obtain ⟨-, hdirective, hdirective', -⟩ := append_cons_inj_of_ne
        (fun heq => hne (Directive.mk.inj heq).2) hpolicy hpolicy'
      obtain ⟨rfl, hvalue⟩ := Directive.mk.inj hdirective
      exact ⟨hmem, rfl, sources, sources', hvalue, (Directive.mk.inj hdirective').2⟩
    · rintro ⟨-, rfl, sources, sources', rfl, rfl⟩
      exact ⟨pre, post, directivesBefore before, rest, sources, sources', rfl, rfl⟩

end Around

end ContentSecurityPolicy

end Common
