import NestTemplate.Auth.BrowserFlow
import NestTemplate.Common.ContentSecurityPolicy
import NestTemplate.Http.PathParameters

/-!
# The content security policy of the password page

`AppendFormActionHeaderInterceptor` on a header of any text: it puts the
redirect URL behind the first `form-action 'self'` with
`String.prototype.replace`, and what it sends is read by a browser.

* `policy_eq`: helmet's header is one of those.
* `isVerbatim_of_replacement_eq_self`: a URL that is inserted as it is has no
  replacement pattern.
* `words_around`, `words_around_append`: the words of the directive, before and
  after.
* `addsOneSource_iff`: which URLs become one more source of the directive.
-/

namespace NestTemplate

open Common Parts ContentSecurityPolicy

namespace AppendFormActionHeaderInterceptor

def formAction : List Char := "form-action 'self'".toList

/-- The last step of `intercept` for a header of any text. -/
def appendFormAction (contentSecurityHeader redirect_url : List Char) :
    Except Failure (List Char) :=
  let value := replaceFirst formAction (formAction ++ ' ' :: redirect_url) contentSecurityHeader
  if isHeaderText value then .ok value
  else .error (.error "Invalid character in header content [\"content-security-policy\"]")

set_option maxRecDepth 2000 in
/-- What `intercept` sets for helmet's header. -/
theorem policy_eq (redirect_url : String) : policy redirect_url =
    replaceFirst formAction (formAction ++ ' ' :: redirect_url.toList)
      (policyBefore.toList ++ formAction ++ policyAfter.toList) := by
  have hfirst : ¬ formAction <:+: policyBefore.toList ++ formAction.dropLast := by decide
  unfold replaceFirst
  rw [splitFirst_append hfirst, List.append_assoc]
  rfl

/-! ## What the header is for -/

/-- The header has the URL behind the text, and the policies have it as one more source of
    `form-action`. -/
structure AddsOneSource (header before after redirect_url : List Char) : Prop where
  text : appendFormAction header redirect_url =
    .ok (before ++ formAction ++ ' ' :: redirect_url ++ after)
  parsed : AddsSource "form-action".toList redirect_url (policies header)
    (policies (before ++ formAction ++ ' ' :: redirect_url ++ after))

/-- The directive that the text stands in, in front of the text and behind it. -/
def directiveBefore (before : List Char) : List Char :=
  openPart isSemicolon (openPart isComma before)

def directiveAfter (after : List Char) : List Char :=
  firstPart isSemicolon (firstPart isComma after)

/-- White space or a separator. -/
def endsSource (c : Char) : Bool := isWhitespace c || isComma c || isSemicolon c

/-- The URLs that become one more source. -/
structure TakesSource (before after redirect_url : List Char) : Prop where
  verbatim : isVerbatim redirect_url = true
  source : IsSource redirect_url
  sent : isHeaderText redirect_url = true
  ascii : ∀ c ∈ directiveBefore before ++ directiveAfter after, c.toNat < 0x80
  name : (words (directiveBefore before ++ "form-action".toList)).head?.map
    (List.map Char.toLower) = some "form-action".toList
  /-- Later directives of the name are ignored. -/
  first : "form-action".toList ∉ (directivesBefore before).map Directive.name
  /-- `'self'` ends where the text does. -/
  apart : (∀ c ∈ after.head?, endsSource c = true) ∨ redirect_url = "'self'".toList

/-! ## The text -/

theorem replacement_append (before pattern after : List Char) {cs : List Char} (h : '$' ∉ cs)
    (value : List Char) : replacement before pattern after (cs ++ value) =
      cs ++ replacement before pattern after value := by
  induction cs with
  | nil => rfl
  | cons c cs ih =>
    have hc : c ≠ '$' := fun hc => h (hc ▸ List.mem_cons_self ..)
    rw [List.cons_append, List.cons_append, ← ih fun hcs => h (List.mem_cons_of_mem _ hcs)]
    exact replacement.eq_5 before pattern after c (cs ++ value) (fun _ hc' => absurd hc' hc)
      (fun _ hc' => absurd hc' hc) (fun _ hc' => absurd hc' hc) fun _ hc' => absurd hc' hc

section Replacement

variable {before pattern after : List Char} {p : Char → Bool}
  (hbefore : before = [] ∨ ∃ c ∈ before, p c = true) (hpattern : ∃ c ∈ pattern, p c = true)
  (hafter : after = [] ∨ ∃ c ∈ after, p c = true)

include hbefore hpattern hafter

/-- A replacement pattern makes the value shorter, or puts a character in that it did not have. -/
theorem length_replacement_le (value : List Char) :
    (∃ c ∈ replacement before pattern after value, p c = true) ∨
      (replacement before pattern after value).length ≤ value.length ∧
        ((replacement before pattern after value).length = value.length →
          isVerbatim value = true) := by
  -- what a pattern of two characters stands for either has such a character or is empty
  have hexpand : ∀ {text rest value : List Char}, text = [] ∨ (∃ c ∈ text, p c = true) →
      (∃ c ∈ rest, p c = true) ∨ rest.length ≤ value.length ∧
        (rest.length = value.length → isVerbatim value = true) → ∀ c d,
      (∃ c ∈ text ++ rest, p c = true) ∨ (text ++ rest).length ≤ (c :: d :: value).length ∧
        ((text ++ rest).length = (c :: d :: value).length → isVerbatim (c :: d :: value) = true) := by
    rintro text rest value (rfl | ⟨c, hc, hp⟩) ih - -
    · refine ih.imp_right fun ih => ?_
      rw [List.nil_append, List.length_cons, List.length_cons]
      exact ⟨by omega, by omega⟩
    · exact .inl ⟨c, List.mem_append_left _ hc, hp⟩
  fun_induction replacement before pattern after value with
  | case1 cs ih =>
    rcases ih with ⟨c, hc, hp⟩ | ih
    · exact .inl ⟨c, List.mem_cons_of_mem _ hc, hp⟩
    · rw [List.length_cons, List.length_cons, List.length_cons]
      exact .inr ⟨by omega, by omega⟩
  | case2 cs ih => exact hexpand (.inr hpattern) ih _ _
  | case3 cs ih => exact hexpand hbefore ih _ _
  | case4 cs ih => exact hexpand hafter ih _ _
  | case5 c cs h₁ h₂ h₃ h₄ ih =>
    rcases ih with ⟨d, hd, hp⟩ | ⟨hle, hverbatim⟩
    · exact .inl ⟨d, List.mem_cons_of_mem _ hd, hp⟩
    · rw [List.length_cons, List.length_cons]
      refine .inr ⟨by omega, fun hlength => ?_⟩
      have hcs := hverbatim (by omega)
      unfold isVerbatim
      split
      · rename_i d ds heq
        obtain ⟨rfl, rfl⟩ := List.cons.inj heq
        have hd : d ∉ ['$', '&', '\x60', '\x27'] := by
          intro hd
          simp only [List.mem_cons, List.not_mem_nil, or_false] at hd
          rcases hd with rfl | rfl | rfl | rfl
          · exact h₁ _ rfl rfl
          · exact h₂ _ rfl rfl
          · exact h₃ _ rfl rfl
          · exact h₄ _ rfl rfl
        rw [hcs, Bool.and_true]
        exact decide_eq_true hd
      · rename_i heq
        rwa [← (List.cons.inj heq).2]
      · rfl
  | case6 => exact .inr ⟨le_rfl, fun _ => rfl⟩

/-- So a value without such characters is inserted as it is only if it has no pattern. -/
theorem isVerbatim_of_replacement_eq_self {value : List Char} (hvalue : ∀ c ∈ value, p c = false)
    (h : replacement before pattern after value = value) : isVerbatim value = true := by
  rcases length_replacement_le hbefore hpattern hafter value with ⟨c, hc, hp⟩ | ⟨-, hverbatim⟩
  · rw [h] at hc
    exact absurd hp (by rw [hvalue c hc]; decide)
  · exact hverbatim (by rw [h])

end Replacement

/-! ## The words of the directive -/

theorem formAction_char :
    ∀ c ∈ formAction, c.toNat < 0x80 ∧ isComma c = false ∧ isSemicolon c = false := by
  have h : (formAction.all fun c => c.toNat < 0x80 && !isComma c && !isSemicolon c) = true := by
    decide
  intro c hc
  simpa [and_assoc] using List.all_eq_true.mp h c hc

theorem name_char : ∀ c ∈ "form-action".toList, isWhitespace c = false := by
  have h : ("form-action".toList.all fun c => !isWhitespace c) = true := by decide
  intro c hc
  simpa using List.all_eq_true.mp h c hc

theorem self_char : ∀ c ∈ "'self'".toList, isWhitespace c = false := by
  have h : ("'self'".toList.all fun c => !isWhitespace c) = true := by decide
  intro c hc
  simpa using List.all_eq_true.mp h c hc

section Words

variable (before after : List Char)

/-- The words in front of `'self'`. -/
def wordsBefore : List (List Char) :=
  (closedParts isWhitespace (directiveBefore before)).filter (· ≠ []) ++
    [openPart isWhitespace (directiveBefore before) ++ "form-action".toList]

/-- What follows the source that the text, or the URL, ends. -/
def wordEnd : List Char := firstPart isWhitespace (directiveAfter after)

def wordsAfter : List (List Char) :=
  (laterParts isWhitespace (directiveAfter after)).filter (· ≠ [])

theorem words_directiveBefore :
    words (directiveBefore before ++ "form-action".toList) = wordsBefore before := by
  have hname := List.splitOnP_eq_singleton name_char
  rw [splitOnP_eq_cons] at hname
  obtain ⟨hfirst, hlater⟩ := List.cons.inj hname
  unfold words wordsBefore
  rw [splitOnP_append, hfirst, hlater, List.filter_append, List.filter_cons_of_pos (by simp)]
  rfl

theorem words_around : words (tokenAround before formAction after) =
    wordsBefore before ++ ("'self'".toList ++ wordEnd after) :: wordsAfter after := by
  have htoken : tokenAround before formAction after =
      directiveBefore before ++ "form-action".toList ++
        ' ' :: ("'self'".toList ++ directiveAfter after) := by
    unfold tokenAround directiveBefore directiveAfter formAction
    simp
  rw [htoken, words_append_cons _ _ (by decide), words_directiveBefore,
    words_append self_char (by decide)]
  rfl

theorem words_around_append {redirect_url : List Char} (hsource : IsSource redirect_url) :
    words (tokenAround before (formAction ++ ' ' :: redirect_url) after) =
      wordsBefore before ++
        "'self'".toList :: (redirect_url ++ wordEnd after) :: wordsAfter after := by
  have htoken : tokenAround before (formAction ++ ' ' :: redirect_url) after =
      directiveBefore before ++ "form-action".toList ++
        ' ' :: ("'self'".toList ++ ' ' :: (redirect_url ++ directiveAfter after)) := by
    unfold tokenAround directiveBefore directiveAfter formAction
    simp
  have hself := words_of_forall self_char (by decide)
  rw [htoken, words_append_cons _ _ (by decide), words_directiveBefore,
    words_append_cons _ _ (by decide), hself,
    words_append (fun c hc => (hsource.char c hc).2.1) hsource.ne_nil]
  rfl

/-- Nothing follows `'self'` in its word if the text is followed by the end of a source. -/
theorem wordEnd_eq_nil_iff :
    wordEnd after = [] ↔ ∀ c ∈ after.head?, endsSource c = true := by
  unfold wordEnd directiveAfter endsSource
  cases after with
  | nil => exact iff_of_true rfl fun _ h => nomatch h
  | cons c cs =>
    have hhead : (∀ d ∈ (c :: cs).head?, (isWhitespace d || isComma d || isSemicolon d) = true) ↔
        (isWhitespace c || isComma c || isSemicolon c) = true := by simp
    rw [hhead]
    cases hcomma : isComma c with
    | true =>
      rw [firstPart_cons_of_pos hcomma]
      simp [firstPart]
    | false =>
      rw [firstPart_cons_of_neg hcomma]
      cases hsemicolon : isSemicolon c with
      | true =>
        rw [firstPart_cons_of_pos hsemicolon]
        simp [firstPart]
      | false =>
        rw [firstPart_cons_of_neg hsemicolon]
        cases hspace : isWhitespace c with
        | true => simp [firstPart_cons_of_pos hspace]
        | false => simp [firstPart_cons_of_neg hspace]

/-- If the directive's first word is `form-action`, something separates the text from what is
    before it. -/
theorem endsSource_of_name
    (h : (wordsBefore before).head?.map (List.map Char.toLower) = some "form-action".toList) :
    before = [] ∨ ∃ c ∈ before, endsSource c = true := by
  by_cases hends : ∃ c ∈ before, endsSource c = true
  · exact .inr hends
  · simp only [not_exists, not_and, Bool.not_eq_true] at hends
    have hpart : ∀ p : Char → Bool, (∀ c ∈ before, p c = false) →
        openPart p before = before ∧ closedParts p before = [] := by
      intro p hp
      unfold openPart closedParts
      rw [List.splitOnP_eq_singleton hp]
      exact ⟨rfl, rfl⟩
    have hchar : ∀ c ∈ before, isWhitespace c = false ∧ isComma c = false ∧
        isSemicolon c = false := by
      intro c hc
      have := hends c hc
      simp only [endsSource, Bool.or_eq_false_iff] at this
      exact ⟨this.1.1, this.1.2, this.2⟩
    have hdirective : directiveBefore before = before := by
      unfold directiveBefore
      rw [(hpart _ fun c hc => (hchar c hc).2.1).1, (hpart _ fun c hc => (hchar c hc).2.2).1]
    have hspace := hpart _ fun c hc => (hchar c hc).1
    unfold wordsBefore at h
    rw [hdirective, hspace.1, hspace.2] at h
    have hlength := congrArg (Option.map List.length) h
    simp at hlength
    exact .inl hlength

end Words

/-! ## The header -/

section Header

variable {header before after redirect_url : List Char}
  (hsplit : splitFirst formAction header = some (before, after))

include hsplit

/-- What the interceptor sets, or fails to set. -/
theorem appendFormAction_eq : appendFormAction header redirect_url =
    let value := before ++ (formAction ++ ' ' :: replacement before formAction after redirect_url) ++
      after
    if isHeaderText value then .ok value
    else .error (.error "Invalid character in header content [\"content-security-policy\"]") := by
  have hreplace : replacement before formAction after (formAction ++ ' ' :: redirect_url) =
      formAction ++ ' ' :: replacement before formAction after redirect_url := by
    have hplain : '$' ∉ formAction ++ [' '] := by decide
    have h := replacement_append before formAction after hplain redirect_url
    simpa using h
  unfold appendFormAction replaceFirst
  rw [hsplit]
  simp only [hreplace]

/-- The URL is behind the text iff it is inserted as it is and can be sent. -/
theorem text_iff (hheader : isHeaderText header = true) :
    appendFormAction header redirect_url =
        .ok (before ++ formAction ++ ' ' :: redirect_url ++ after) ↔
      replacement before formAction after redirect_url = redirect_url ∧
        isHeaderText redirect_url = true := by
  have hsent : ∀ value, isHeaderText (before ++ (formAction ++ ' ' :: value) ++ after) =
      isHeaderText value := by
    intro value
    rw [eq_append_of_splitFirst hsplit] at hheader
    simp only [isHeaderText_append, Bool.and_eq_true] at hheader
    have hspace : isHeaderChar ' ' = true := by decide
    simp only [isHeaderText_append, isHeaderText_cons, hheader.1.1, hheader.1.2, hheader.2, hspace,
      Bool.true_and, Bool.and_true]
  rw [appendFormAction_eq hsplit]
  simp only [hsent]
  constructor
  · intro h
    split at h
    · rename_i hvalue
      have htext := Except.ok.inj h
      simp only [List.append_assoc, List.cons_append] at htext
      have hself : replacement before formAction after redirect_url = redirect_url :=
        List.append_cancel_right (List.cons.inj
          (List.append_cancel_left (List.append_cancel_left htext))).2
      exact ⟨hself, hself ▸ hvalue⟩
    · cases h
  · rintro ⟨hself, hvalue⟩
    rw [hself, if_pos hvalue, ← List.append_assoc before]

section Parsed

omit hsplit

variable (hsource : IsSource redirect_url)

include hsource

theorem separates_formAction : ∀ c ∈ formAction ++ ' ' :: redirect_url,
    isComma c = false ∧ isSemicolon c = false := by
  intro c hc
  rcases List.mem_append.mp hc with hc | hc
  · exact (formAction_char c hc).2
  · rcases List.mem_cons.mp hc with rfl | hc
    · decide
    · exact (hsource.char c hc).2.2

/-- The directive as it is read, before and after. -/
theorem directive?_around
    (hascii : ∀ c ∈ directiveBefore before ++ directiveAfter after, c.toNat < 0x80) :
    ∃ name rest, wordsBefore before = name :: rest ∧
      directive? (tokenAround before formAction after) = some ⟨name.map Char.toLower,
        rest ++ ("'self'".toList ++ wordEnd after) :: wordsAfter after⟩ ∧
      directive? (tokenAround before (formAction ++ ' ' :: redirect_url) after) =
        some ⟨name.map Char.toLower,
          rest ++ "'self'".toList :: (redirect_url ++ wordEnd after) :: wordsAfter after⟩ := by
  obtain ⟨name, rest, hwords⟩ : ∃ name rest, wordsBefore before = name :: rest :=
    List.exists_cons_of_ne_nil (by unfold wordsBefore; simp)
  have htext : ∀ c ∈ formAction, c.toNat < 0x80 := fun c hc => (formAction_char c hc).1
  have hsides : ∀ piece : List Char, (∀ c ∈ piece, c.toNat < 0x80) →
      ∀ c ∈ tokenAround before piece after, c.toNat < 0x80 := by
    intro piece hpiece c hc
    rcases List.mem_append.mp hc with hc | hc
    · exact hascii c (List.mem_append_left _ hc)
    · rcases List.mem_append.mp hc with hc | hc
      · exact hpiece c hc
      · exact hascii c (List.mem_append_right _ hc)
  refine ⟨name, rest, hwords, directive?_of_words (hsides _ htext) ?_,
    directive?_of_words (hsides _ fun c hc => ?_) ?_⟩
  · rw [words_around, hwords]
    rfl
  · rcases List.mem_append.mp hc with hc | hc
    · exact htext c hc
    · rcases List.mem_cons.mp hc with rfl | hc
      · decide
      · exact (hsource.char c hc).1
  · rw [words_around_append _ _ hsource, hwords]
    rfl

/-- In a directive that is no ASCII text nothing is added. -/
theorem ascii_of_addsSource (h : AddsSource "form-action".toList redirect_url
      (policies (before ++ formAction ++ after))
      (policies (before ++ (formAction ++ ' ' :: redirect_url) ++ after))) :
    ∀ c ∈ directiveBefore before ++ directiveAfter after, c.toNat < 0x80 := by
  by_contra hascii
  have hskip : ∀ piece, directive? (tokenAround before piece after) = none := by
    intro piece
    refine directive?_of_not_ascii fun hall => hascii fun c hc => hall c ?_
    unfold tokenAround
    rcases List.mem_append.mp hc with hc | hc
    · exact List.mem_append_left _ hc
    · exact List.mem_append_right _ (List.mem_append_right _ hc)
  have htoken : ∀ piece piece', addToken (directivesBefore before) (tokenAround before piece after) =
      addToken (directivesBefore before) (tokenAround before piece' after) := by
    intro piece piece'
    rw [addToken_of_none _ (hskip piece), addToken_of_none _ (hskip piece')]
  have hsame := policies_eq_of_addToken_eq (fun c hc => (formAction_char c hc).2)
    (separates_formAction hsource) (htoken _ _)
  rw [hsame] at h
  exact not_addsSource_self _ _ _ h

/-- The values of the directive differ in the URL iff `'self'` ends where the text does. -/
theorem exists_sources_iff (rest : List (List Char)) :
    (∃ sources sources',
      rest ++ ("'self'".toList ++ wordEnd after) :: wordsAfter after = sources ++ sources' ∧
        rest ++ "'self'".toList :: (redirect_url ++ wordEnd after) :: wordsAfter after =
          sources ++ redirect_url :: sources') ↔
      wordEnd after = [] ∨ redirect_url = "'self'".toList := by
  constructor
  · rintro ⟨sources, sources', hold, hnew⟩
    have hperm : (rest ++ "'self'".toList :: (redirect_url ++ wordEnd after) ::
        wordsAfter after).Perm (rest ++ redirect_url ::
          ("'self'".toList ++ wordEnd after) :: wordsAfter after) := by
      rw [hnew]
      refine List.perm_middle.trans ?_
      rw [← hold]
      exact List.perm_middle.symm
    -- without the common words, two are left on each side
    have hpair : (["'self'".toList, redirect_url ++ wordEnd after] ++ wordsAfter after).Perm
        ([redirect_url, "'self'".toList ++ wordEnd after] ++ wordsAfter after) :=
      (List.perm_append_left_iff rest).mp hperm
    have hmem := ((List.perm_append_right_iff _).mp hpair).subset (List.mem_cons_self ..)
    rcases List.mem_cons.mp hmem with h | h
    · exact .inr h.symm
    · rw [List.mem_singleton, List.self_eq_append_right] at h
      exact .inl h
  · rintro (h | rfl)
    · rw [h, List.append_nil, List.append_nil]
      exact ⟨rest ++ ["'self'".toList], wordsAfter after, by simp, by simp⟩
    · exact ⟨rest, _, rfl, rfl⟩

end Parsed

/-- The header becomes the old one with the URL as one more source of `form-action` if and only if
    the URL is inserted as it is and is a source, and the text is in effect and ends where `'self'`
    does. -/
theorem addsOneSource_iff (hheader : isHeaderText header = true) :
    AddsOneSource header before after redirect_url ↔ TakesSource before after redirect_url := by
  have hname : (words (directiveBefore before ++ "form-action".toList)).head? =
      (wordsBefore before).head? := by rw [words_directiveBefore]
  have hassoc : before ++ formAction ++ ' ' :: redirect_url ++ after =
      before ++ (formAction ++ ' ' :: redirect_url) ++ after := by simp
  have hold : header = before ++ formAction ++ after := eq_append_of_splitFirst hsplit
  constructor
  · rintro ⟨htext, hparsed⟩
    have hsource := hparsed.isSource
    rw [hassoc, hold] at hparsed
    have hascii := ascii_of_addsSource hsource hparsed
    obtain ⟨name, rest, hwords, hdirective, hdirective'⟩ := directive?_around hsource hascii
    rw [addsSource_around_iff (fun c hc => (formAction_char c hc).2) (separates_formAction hsource)
      hdirective hdirective' (fun h => by simpa using congrArg List.length h),
      exists_sources_iff hsource, wordEnd_eq_nil_iff] at hparsed
    obtain ⟨hfirst, hformAction, hapart⟩ := hparsed
    have hhead : (wordsBefore before).head?.map (List.map Char.toLower) =
        some "form-action".toList := by
      rw [hwords, ← hformAction]
      rfl
    obtain ⟨hself, hsent⟩ := (text_iff hsplit hheader).mp htext
    refine ⟨?_, hsource, hsent, hascii, hname ▸ hhead, hfirst, hapart⟩
    rcases hapart with hapart | rfl
    · refine isVerbatim_of_replacement_eq_self (p := endsSource) (endsSource_of_name before hhead)
        ⟨' ', by decide, by decide⟩ ?_ (fun c hc => ?_) hself
      · cases after with
        | nil => exact .inl rfl
        | cons c cs => exact .inr ⟨c, List.mem_cons_self .., hapart c rfl⟩
      · obtain ⟨-, hspace, hcomma, hsemicolon⟩ := hsource.char c hc
        unfold endsSource
        rw [hspace, hcomma, hsemicolon]
        rfl
    · decide
  · rintro ⟨hverbatim, hsource, hsent, hascii, hhead, hfirst, hapart⟩
    obtain ⟨name, rest, hwords, hdirective, hdirective'⟩ := directive?_around hsource hascii
    refine ⟨?_, ?_⟩
    · rw [text_iff hsplit hheader]
      exact ⟨replacement_of_isVerbatim hverbatim, hsent⟩
    · rw [hassoc, hold, addsSource_around_iff (fun c hc => (formAction_char c hc).2)
        (separates_formAction hsource) hdirective hdirective'
        (fun h => by simpa using congrArg List.length h), exists_sources_iff hsource,
        wordEnd_eq_nil_iff]
      refine ⟨hfirst, ?_, hapart⟩
      rw [hname, hwords] at hhead
      exact Option.some.inj hhead

end Header

/-- A header that consists of the text. -/
theorem addsOneSource_iff_sample :
    AddsOneSource formAction [] [] "https://app.example/cb".toList ↔
      TakesSource [] [] "https://app.example/cb".toList :=
  addsOneSource_iff rfl (by decide)

/-- `$&` in the query of the URL stands for the text itself. -/
theorem not_addsOneSource_pattern :
    ¬ AddsOneSource formAction [] [] "https://app.example/?a=$&b".toList := by
  intro h
  have hself := ((text_iff rfl (by decide)).mp h.text).1
  exact absurd (congrArg List.length hself) (by decide)

set_option maxRecDepth 10000 in
/-- In helmet's header the text is in effect, so that only the URL counts. -/
theorem takesSource_helmet_iff (redirect_url : List Char) :
    TakesSource policyBefore.toList policyAfter.toList redirect_url ↔
      isVerbatim redirect_url = true ∧ IsSource redirect_url ∧ isHeaderText redirect_url = true := by
  constructor
  · exact fun h => ⟨h.verbatim, h.source, h.sent⟩
  · rintro ⟨hverbatim, hsource, hsent⟩
    have hbefore : directiveBefore policyBefore.toList = [] := by decide
    have hafter : directiveAfter policyAfter.toList = [] := by decide
    have hhead : policyAfter.toList.head? = some ';' := by decide
    refine ⟨hverbatim, hsource, hsent, ?_, ?_, ?_, .inl ?_⟩
    · rw [hbefore, hafter]
      exact fun _ h => nomatch h
    · rw [hbefore, List.nil_append, words_of_forall name_char (by decide)]
      decide
    · decide
    · rw [hhead]
      rintro c ⟨⟩
      rfl

end AppendFormActionHeaderInterceptor

end NestTemplate
