import Mathlib.Data.List.Induction
import Mathlib.Data.List.Infix
import NestTemplate.Common.Action
import NestTemplate.Common.Json

/-!
# The intended URL

`IntendManagerService` keeps the URL a user wanted to see before the login in
the session's flash messages. Reading them empties them, so every call puts
something back: `setUrl` the old content and the new one, the others one entry.

* `setupIntend_texts`, `getIntend_texts`, `setUrl_texts`, `getUrl_texts`: the calls, on flash
  messages that the service has left.
* `intended_url_iff`: the sequences of calls that keep the law of the intended URL.
* `intended_url_after_setup`: what a set-up right after every `setUrl` makes of it.
-/

namespace NestTemplate

open Common

/-- The flash messages under the service's key. -/
abbrev Flash := List String

/-- What a call may throw. -/
inductive IntendError where
  | SyntaxError
  | TypeError
  deriving DecidableEq

namespace IntendManagerService

/-- `request.flash(key)`: the list is returned, and emptied. -/
def flash : Action IntendError Flash (List String) := fun messages => (.ok messages, [])

/-- `getDefaultValue()`. -/
def defaultIntend : Json := .obj [("url", .null)]

/-- `JSON.parse(text)`, where `none` stands for `undefined`. -/
def parseIntend (text : Option String) : Except IntendError Json :=
  match text.bind Json.parse with
  | some content => .ok content
  | none => .error .SyntaxError

/-- `updateContent`: `request.flash(key, message)` appends the message. -/
def updateContent (content : Json) : Action IntendError Flash Unit :=
  Action.write fun messages => .ok (messages ++ [content.stringify])

/-- `setupIntend`. -/
def setupIntend : Action IntendError Flash Unit := do
  let intendFlashContent ← flash
  match intendFlashContent.getLast? with
  | none => updateContent defaultIntend
  | some text =>
    let content ← Action.lift (parseIntend (some text))
    updateContent content

/-- `JSON.parse(request.flash(key)[0])`. -/
def readFirst : Action IntendError Flash Json := do
  let messages ← flash
  Action.lift (parseIntend messages.head?)

/-- `getIntend`. -/
def getIntend : Action IntendError Flash Json := do
  let intendContent ← Action.orElse readFirst (do setupIntend; readFirst)
  updateContent intendContent
  return intendContent

/-- `content.url = url`. An array's extra property is not printed, and a primitive value has none:
    the assignment throws. -/
def assignUrl (url : Option String) : Json → Except IntendError Json
  | .obj ms => .ok (.obj (Json.setMember "url" (url.elim .null .str) ms))
  | .arr xs => .ok (.arr xs)
  | _ => .error .TypeError

/-- `setUrl`. -/
def setUrl (url : Option String) : Action IntendError Flash Unit := do
  let intendContent ← getIntend
  let content ← Action.lift (assignUrl url intendContent)
  updateContent content

/-- `intend?.url || null`. -/
def urlOf (intend : Json) : Json :=
  match intend.get? "url" with
  | some url => if Json.truthy (some url) then url else .null
  | none => .null

/-- `getUrl`. -/
def getUrl : Action IntendError Flash Json := do
  let intend ← getIntend
  return urlOf intend

/-! ## The flash messages that the service leaves -/

/-- The content with a URL. -/
def intend (url : Option String) : Json := .obj [("url", url.elim .null .str)]

/-- The messages with the URLs `urls`. -/
def texts (urls : List (Option String)) : Flash := urls.map fun url => (intend url).stringify

/-- The URL as `getUrl` returns it. -/
def urlValue (url : Option String) : Json := (url.filter (· ≠ "")).elim .null .str

theorem parseIntend_text (url : Option String) :
    parseIntend (some (intend url).stringify) = .ok (intend url) := by
  have hparse : Json.parse (intend url).stringify = some (intend url) := by
    apply Json.parse_stringify
    cases url <;> rfl
  rw [parseIntend, Option.bind_some, hparse]

theorem assignUrl_intend (old url : Option String) : assignUrl url (intend old) = .ok (intend url) :=
  rfl

theorem urlOf_intend (url : Option String) : urlOf (intend url) = urlValue url := by
  cases url with
  | none => rfl
  | some s =>
    by_cases hs : s = ""
    · subst hs
      rfl
    · have hkept : urlValue (some s) = .str s := by
        rw [urlValue, Option.filter_some, if_pos (decide_eq_true hs)]
        rfl
      simp [urlOf, intend, hkept, Json.get?, Json.lookup, Json.truthy, hs]

theorem updateContent_texts (urls : List (Option String)) (url : Option String) :
    updateContent (intend url) (texts urls) = (.ok (), texts (urls ++ [url])) := by
  simp [updateContent, Action.write, texts]

/-- What was read is appended to the list that reading has emptied. -/
theorem updateContent_nil (url : Option String) :
    updateContent (intend url) [] = (.ok (), texts [url]) := updateContent_texts [] url

/-- The last entry stays. -/
theorem setupIntend_texts (urls : List (Option String)) :
    setupIntend (texts urls) = (.ok (), texts [urls.getLast?.join]) := by
  have hlast : (texts urls).getLast? = urls.getLast?.map fun url => (intend url).stringify :=
    List.getLast?_map
  have hflash : setupIntend (texts urls) =
      (match (texts urls).getLast? with
        | none => updateContent defaultIntend
        | some text => Action.lift (parseIntend (some text)) >>= updateContent) [] := rfl
  rw [hflash, hlast]
  cases urls.getLast? with
  | none => exact updateContent_nil none
  | some url =>
    have hparse : Action.lift (parseIntend (some (intend url).stringify)) ([] : Flash) =
        (.ok (intend url), []) := by rw [Action.lift_run, parseIntend_text]
    exact (Action.bind_of_ok hparse _).trans (updateContent_nil url)

theorem readFirst_cons (url : Option String) (urls : List (Option String)) :
    readFirst (texts (url :: urls)) = (.ok (intend url), []) := by
  show (parseIntend (some (intend url).stringify), ([] : Flash)) = _
  rw [parseIntend_text]

/-- The first entry is returned, and it alone stays; without one the content is the default. -/
theorem getIntend_texts (urls : List (Option String)) :
    getIntend (texts urls) = (.ok (intend urls.head?.join), texts [urls.head?.join]) := by
  have hread : Action.orElse readFirst (do setupIntend; readFirst) (texts urls) =
      (.ok (intend urls.head?.join), []) := by
    cases urls with
    | nil =>
      have hfail : readFirst (texts []) = (.error .SyntaxError, []) := rfl
      have hsetup : setupIntend ([] : Flash) = (.ok (), texts [none]) := setupIntend_texts []
      rw [Action.orElse_of_error hfail]
      exact (Action.bind_of_ok hsetup _).trans (readFirst_cons none [])
    | cons url urls => exact Action.orElse_of_ok (readFirst_cons url urls) _
  have hupdate : (updateContent (intend urls.head?.join) >>= fun _ =>
      (pure (intend urls.head?.join) : Action IntendError Flash Json)) [] =
        (.ok (intend urls.head?.join), texts [urls.head?.join]) :=
    Action.bind_of_ok (updateContent_nil _) _
  exact (Action.bind_of_ok hread _).trans hupdate

/-- The entry that was the first stays the first, and the new one follows it. -/
theorem setUrl_texts (url : Option String) (urls : List (Option String)) :
    setUrl url (texts urls) = (.ok (), texts [urls.head?.join, url]) :=
  (Action.bind_of_ok (getIntend_texts urls) _).trans (updateContent_texts [urls.head?.join] url)

/-- The URL of the first entry is returned, and this entry alone stays. -/
theorem getUrl_texts (urls : List (Option String)) :
    getUrl (texts urls) = (.ok (urlValue urls.head?.join), texts [urls.head?.join]) := by
  have hget : getUrl (texts urls) = (.ok (urlOf (intend urls.head?.join)), texts [urls.head?.join]) :=
    Action.bind_of_ok (getIntend_texts urls) _
  rw [hget, urlOf_intend]

end IntendManagerService

/-! ## Sequences of calls -/

namespace IntendManager

open IntendManagerService

/-- A call of the service, from any request of the session. -/
inductive Op where
  | setupIntend
  | getIntend
  | setUrl (url : Option String)
  | getUrl
  deriving DecidableEq

/-- What a call returns, and what it leaves; a call that returns nothing is taken to return
    `null`. -/
def perform : Op → Action IntendError Flash Json
  | .setupIntend => do IntendManagerService.setupIntend; return .null
  | .getIntend => IntendManagerService.getIntend
  | .setUrl url => do IntendManagerService.setUrl url; return .null
  | .getUrl => IntendManagerService.getUrl

/-- The flash messages of a new session after the calls `ops`. -/
def after (ops : List Op) : Flash := ops.foldl (fun messages op => (perform op messages).2) []

/-- The URL of the last `setUrl`. -/
def lastUrl (ops : List Op) : Option String :=
  ops.foldl (fun url op => match op with
    | .setUrl url' => url'
    | _ => url) none

/-- The law of the intended URL: every `getUrl` returns the URL of the last `setUrl`, and after
    every call there is one entry. -/
def Law (ops : List Op) : Prop :=
  ∀ pre op post, ops = pre ++ op :: post →
    (after (pre ++ [op])).length = 1 ∧
      (op = .getUrl → (perform op (after pre)).1 = .ok (urlValue (lastUrl pre)))

/-- What the flash messages are after a call. -/
def next (urls : List (Option String)) : Op → List (Option String)
  | .setupIntend => [urls.getLast?.join]
  | .getIntend | .getUrl => [urls.head?.join]
  | .setUrl url => [urls.head?.join, url]

theorem perform_texts (op : Op) (urls : List (Option String)) :
    (perform op (texts urls)).2 = texts (next urls op) := by
  cases op with
  | setupIntend =>
    have hrun : perform .setupIntend (texts urls) = (.ok .null, texts [urls.getLast?.join]) :=
      Action.bind_of_ok (setupIntend_texts urls) _
    rw [hrun]
    rfl
  | getIntend =>
    rw [perform, getIntend_texts]
    rfl
  | setUrl url =>
    have hrun : perform (.setUrl url) (texts urls) = (.ok .null, texts [urls.head?.join, url]) :=
      Action.bind_of_ok (setUrl_texts url urls) _
    rw [hrun]
    rfl
  | getUrl =>
    rw [perform, getUrl_texts]
    rfl

/-- The URLs of the entries after the calls `ops`. -/
def urlsAfter (ops : List Op) : List (Option String) := ops.foldl next []

/-- The service works on the list of URLs. -/
theorem after_eq (ops : List Op) : after ops = texts (urlsAfter ops) := by
  induction ops using List.reverseRecOn with
  | nil => rfl
  | append_singleton ops op ih =>
    rw [after, urlsAfter, List.foldl_append, List.foldl_append]
    show (perform op (after ops)).2 = texts (next (urlsAfter ops) op)
    rw [ih, perform_texts]

theorem urlsAfter_concat (ops : List Op) (op : Op) :
    urlsAfter (ops ++ [op]) = next (urlsAfter ops) op := by
  rw [urlsAfter, List.foldl_append]
  rfl

theorem lastUrl_concat (ops : List Op) (op : Op) : lastUrl (ops ++ [op]) =
    match op with
    | .setUrl url => url
    | _ => lastUrl ops := by
  rw [lastUrl, List.foldl_append]
  cases op <;> rfl

theorem length_after_concat (ops : List Op) (op : Op) :
    (after (ops ++ [op])).length = (next (urlsAfter ops) op).length := by
  rw [after_eq, urlsAfter_concat, texts, List.length_map]

theorem getUrl_after (ops : List Op) :
    (perform .getUrl (after ops)).1 = .ok (urlValue (urlsAfter ops).head?.join) := by
  rw [after_eq, perform, getUrl_texts]

/-- Without a `setUrl` there is at most the default entry. -/
theorem urlsAfter_of_no_setUrl {ops : List Op} (h : ∀ url, Op.setUrl url ∉ ops) :
    (urlsAfter ops = [] ∨ urlsAfter ops = [none]) ∧ lastUrl ops = none := by
  induction ops using List.reverseRecOn with
  | nil => exact ⟨.inl rfl, rfl⟩
  | append_singleton ops op ih =>
    obtain ⟨hurls, hlast⟩ := ih fun url hmem => h url (List.mem_append_left _ hmem)
    rw [urlsAfter_concat, lastUrl_concat]
    cases op with
    | setUrl url => exact absurd (List.mem_append_right ops (List.mem_singleton_self _)) (h url)
    | setupIntend | getIntend | getUrl =>
      refine ⟨.inr ?_, hlast⟩
      rcases hurls with hurls | hurls <;> rw [hurls] <;> rfl

/-- **Main theorem**: the calls keep the law of the intended URL if and only if none of them sets
    a URL. -/
theorem intended_url_iff (ops : List Op) : Law ops ↔ ∀ url, Op.setUrl url ∉ ops := by
  constructor
  · intro hlaw url hmem
    obtain ⟨pre, post, hops⟩ := List.append_of_mem hmem
    have hlength := (hlaw pre _ post hops).1
    rw [length_after_concat] at hlength
    exact absurd hlength (by decide : (2 : ℕ) ≠ 1)
  · rintro hnone pre op post rfl
    have hpre : ∀ url, Op.setUrl url ∉ pre := fun url hmem => hnone url (List.mem_append_left _ hmem)
    obtain ⟨hurls, hlast⟩ := urlsAfter_of_no_setUrl hpre
    constructor
    · rw [length_after_concat]
      cases op with
      | setUrl url => exact absurd (List.mem_append_right pre List.mem_cons_self) (hnone url)
      | setupIntend | getIntend | getUrl => rfl
    · rintro rfl
      rw [getUrl_after, hlast]
      rcases hurls with hurls | hurls <;> rw [hurls] <;> rfl

/-- The URL that was just set is not returned, and it is lost. -/
theorem set_url_not_returned : ¬ Law [.setUrl (some "/account"), .getUrl] := by
  intro hlaw
  have hresult := (hlaw [.setUrl (some "/account")] .getUrl [] rfl).2 rfl
  rw [getUrl_after] at hresult
  cases hresult

/-! ## Set-ups between the calls -/

/-- Every `setUrl` that is not the last call is followed by a `setupIntend`. -/
def SetUpAfter (ops : List Op) : Prop :=
  ∀ pre url op post, ops = pre ++ .setUrl url :: op :: post → op = .setupIntend

theorem SetUpAfter.of_append {ops ops' : List Op} (h : SetUpAfter (ops ++ ops')) : SetUpAfter ops :=
  fun pre url op post hops => h pre url op (post ++ ops') (by rw [hops]; simp)

/-- The last entry holds the last URL; right after a `setUrl` the first one does not. -/
theorem SetUpAfter.urlsAfter {ops : List Op} (h : SetUpAfter ops) :
    (urlsAfter ops).getLast?.join = lastUrl ops ∧
      ((∃ pre url, ops = pre ++ [.setUrl url]) ∨ (urlsAfter ops).head?.join = lastUrl ops) := by
  induction ops using List.reverseRecOn with
  | nil => exact ⟨rfl, .inr rfl⟩
  | append_singleton ops op ih =>
    obtain ⟨hlast, hfirst⟩ := ih h.of_append
    have hread : op ≠ .setupIntend → (IntendManager.urlsAfter ops).head?.join = lastUrl ops := by
      intro hop
      rcases hfirst with ⟨pre, url, rfl⟩ | hfirst
      · exact absurd (h pre url op [] (by simp)) hop
      · exact hfirst
    rw [urlsAfter_concat, lastUrl_concat]
    cases op with
    | setupIntend => exact ⟨hlast, .inr hlast⟩
    | setUrl url => exact ⟨rfl, .inl ⟨ops, url, rfl⟩⟩
    | getIntend | getUrl =>
      have hkept := hread nofun
      exact ⟨hkept, .inr hkept⟩

/-- Where a set-up follows every `setUrl`, every `getUrl` returns the last URL. -/
theorem intended_url_after_setup {ops pre post : List Op} (h : SetUpAfter ops)
    (hops : ops = pre ++ .getUrl :: post) :
    (perform .getUrl (after pre)).1 = .ok (urlValue (lastUrl pre)) := by
  subst hops
  obtain ⟨-, ⟨pre', url, rfl⟩ | hfirst⟩ := h.of_append.urlsAfter
  · have hsetup := h pre' url .getUrl post (by simp)
    cases hsetup
  · rw [getUrl_after, hfirst]

end IntendManager

/-! ## The filter and the interceptor -/

/-- `RedirectFromLoginFilter.catch`, less its response; `json` says that the request accepts no
    other of the three types. -/
def RedirectFromLoginFilter.setIntend (xhr json : Bool) (method url : String) :
    Action IntendError Flash Unit :=
  if xhr ∨ json then pure ()
  else IntendManagerService.setUrl (if method.toUpper = "GET" then some url else none)

/-- `SetupIntendInterceptor.intercept`. -/
def SetupIntendInterceptor.intercept (url : String) : Action IntendError Flash Unit :=
  if "api/v".toList <:+: url.toList ∨ "oauth/login".toList <:+: url.toList ∨
      "oauth/refresh".toList <:+: url.toList then pure ()
  else IntendManagerService.setupIntend

open IntendManagerService in
/-- A page that was refused for want of a login is the intended URL of the next page. -/
theorem redirected_url_is_intended (urls : List (Option String)) {method url page : String}
    (hmethod : method.toUpper = "GET")
    (hpage : ¬ ("api/v".toList <:+: page.toList ∨ "oauth/login".toList <:+: page.toList ∨
      "oauth/refresh".toList <:+: page.toList)) :
    ((RedirectFromLoginFilter.setIntend false false method url >>= fun _ =>
      SetupIntendInterceptor.intercept page >>= fun _ => getUrl) (texts urls)).1 =
        .ok (urlValue (some url)) := by
  have hset : RedirectFromLoginFilter.setIntend false false method url (texts urls) =
      (.ok (), texts [urls.head?.join, some url]) := by
    rw [RedirectFromLoginFilter.setIntend, if_neg (by simp), if_pos hmethod]
    exact setUrl_texts (some url) urls
  have hsetup : SetupIntendInterceptor.intercept page (texts [urls.head?.join, some url]) =
      (.ok (), texts [some url]) := by
    rw [SetupIntendInterceptor.intercept, if_neg hpage]
    exact setupIntend_texts [urls.head?.join, some url]
  rw [Action.bind_of_ok hset, Action.bind_of_ok hsetup, getUrl_texts]
  rfl

end NestTemplate
