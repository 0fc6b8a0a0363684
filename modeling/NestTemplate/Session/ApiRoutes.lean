import NestTemplate.Common.Url
import NestTemplate.Session.IntendManager
import NestTemplate.Session.PageSession

/-!
# Which requests are API calls

Three interceptors look for substrings of the whole URL, each for its own:
`KillForApiInterceptor` destroys the session of an API call, the other two leave
it alone.

* `killed_iff`, `previous_iff`, `intend_iff`: what each of them takes for an API call.
* `classifiedConsistently_iff`: the URLs on which they agree with the routes.
* `login_page_killed`: a page that is none of the API.
-/

namespace NestTemplate

open Common

namespace ApiRoutes

/-- The path is under the versioned prefix, or one of the two token routes. -/
def IsApi (url : String) : Prop :=
  "/api/v".toList <+: (cut '?' url.toList).1 ∨ (cut '?' url.toList).1 = "/oauth/token".toList ∨
    (cut '?' url.toList).1 = "/oauth/refresh".toList

instance (url : String) : Decidable (IsApi url) := inferInstanceAs (Decidable (_ ∨ _ ∨ _))

/-- The three interceptors treat the request as the routes say. -/
structure ClassifiedConsistently (url : String) : Prop where
  /-- The session of an API call is destroyed, every other is as the handler left it. -/
  killed : ∀ (next : PageAction Unit) session,
    (KillForApiInterceptor.intercept url next session).2 = if IsApi url then none else (next session).2
  /-- For the API calls alone the previous URL stays, whatever else the request is. -/
  previous : (∀ request : PageRequest, request.url = url → ∀ session,
    (SessionMapPreviousUrlInterceptor.intercept request (some session)).2 = some session) ↔ IsApi url
  /-- For the API calls alone the intended URL stays. -/
  intend : (∀ messages, (SetupIntendInterceptor.intercept url messages).2 = messages) ↔ IsApi url

/-! ## What each interceptor looks for -/

variable {url : String}

theorem killed_iff : (∀ (next : PageAction Unit) session,
    (KillForApiInterceptor.intercept url next session).2 =
      if IsApi url then none else (next session).2) ↔
        (KillForApiInterceptor.Kills url ↔ IsApi url) := by
  simp only [KillForApiInterceptor.intercept_session]
  constructor
  · intro h
    -- a handler that leaves the session shows which branch is taken
    have hpure := h (pure ()) (some {})
    by_cases hkills : KillForApiInterceptor.Kills url <;> by_cases hapi : IsApi url <;>
      simp [hkills, hapi] at hpure ⊢
  · intro h next session
    by_cases hapi : IsApi url
    · rw [if_pos hapi, if_pos (h.2 hapi)]
    · rw [if_neg hapi, if_neg fun hkills => hapi (h.1 hkills)]

/-- The URLs whose session `SessionMapPreviousUrlInterceptor` leaves. -/
theorem previous_iff : (∀ request : PageRequest, request.url = url → ∀ session,
    (SessionMapPreviousUrlInterceptor.intercept request (some session)).2 = some session) ↔
      includes url "api/v1" ∨ includes url "oauth/token" ∨ includes url "oauth/refresh" := by
  constructor
  · intro h
    by_contra hmarkers
    have hnew := h ⟨"POST", url, false, false, none, none⟩ rfl {}
    rw [SessionMapPreviousUrlInterceptor.intercept_of_not_includes hmarkers] at hnew
    cases congrArg (Option.map PageSession.previous) hnew
  · rintro hmarkers request rfl session
    rw [SessionMapPreviousUrlInterceptor.intercept_of_includes hmarkers]

/-- The URLs whose session `SetupIntendInterceptor` leaves. -/
theorem intend_iff : (∀ messages, (SetupIntendInterceptor.intercept url messages).2 = messages) ↔
    includes url "api/v" ∨ includes url "oauth/login" ∨ includes url "oauth/refresh" := by
  constructor
  · intro h
    by_contra hmarkers
    have hsetup : SetupIntendInterceptor.intercept url = IntendManagerService.setupIntend :=
      if_neg hmarkers
    have hnew := h (IntendManagerService.texts [])
    rw [hsetup, IntendManagerService.setupIntend_texts] at hnew
    cases hnew
  · intro hmarkers messages
    have hleave : SetupIntendInterceptor.intercept url = pure () := if_pos hmarkers
    rw [hleave]
    rfl

/-! ## Where they agree -/

theorem path_isPrefix (cs : List Char) : (cut '?' cs).1 <+: cs := by
  induction cs with
  | nil => exact List.nil_prefix
  | cons c cs ih =>
    rw [cut]
    split
    · exact List.nil_prefix
    · exact List.cons_prefix_cons.2 ⟨rfl, ih⟩

/-- A text in the path is in the URL. -/
theorem includes_of_path {marker : String} (h : marker.toList <:+: (cut '?' url.toList).1) :
    includes url marker := h.trans (path_isPrefix _).isInfix

theorem includes_of_includes {marker marker' : String} (h : includes url marker)
    (hmarker : marker'.toList <:+: marker.toList) : includes url marker' := hmarker.trans h

/-- **Main theorem**: the interceptors agree with the routes on a URL iff it is an API call with a
    marker of each of them, or has no marker at all. -/
theorem classifiedConsistently_iff (url : String) : ClassifiedConsistently url ↔
    ("/api/v".toList <+: (cut '?' url.toList).1 ∧
      (includes url "api/v1" ∨ includes url "oauth/token" ∨ includes url "oauth/refresh")) ∨
    (cut '?' url.toList).1 = "/oauth/refresh".toList ∨
    ((cut '?' url.toList).1 = "/oauth/token".toList ∧
      (includes url "api/v" ∨ includes url "oauth/login" ∨ includes url "oauth/refresh")) ∨
    ¬ (includes url "api" ∨ includes url "oauth/token" ∨ includes url "oauth/refresh" ∨
      includes url "oauth/login") := by
  have hiff : ClassifiedConsistently url ↔ (KillForApiInterceptor.Kills url ↔ IsApi url) ∧
      ((includes url "api/v1" ∨ includes url "oauth/token" ∨ includes url "oauth/refresh") ↔
        IsApi url) ∧
      ((includes url "api/v" ∨ includes url "oauth/login" ∨ includes url "oauth/refresh") ↔
        IsApi url) := by
    rw [← killed_iff, ← previous_iff, ← intend_iff]
    exact ⟨fun h => ⟨h.killed, h.previous, h.intend⟩, fun h => ⟨h.1, h.2.1, h.2.2⟩⟩
  rw [hiff, KillForApiInterceptor.Kills]
  have hversion : "/api/v".toList <+: (cut '?' url.toList).1 → includes url "api/v" := fun h =>
    includes_of_path ((show "api/v".toList <:+: "/api/v".toList by decide).trans h.isInfix)
  have htoken : (cut '?' url.toList).1 = "/oauth/token".toList → includes url "oauth/token" :=
    fun h => includes_of_path (h ▸ by decide)
  have hrefresh : (cut '?' url.toList).1 = "/oauth/refresh".toList → includes url "oauth/refresh" :=
    fun h => includes_of_path (h ▸ by decide)
  have hapi : includes url "api/v" → includes url "api" := fun h =>
    includes_of_includes h (by decide)
  have hapi₁ : includes url "api/v1" → includes url "api" := fun h =>
    includes_of_includes h (by decide)
  unfold IsApi
  grind

/-- The login page of a client whose redirect URL has `api` in its host loses its session. -/
theorem login_page_killed : ¬ ClassifiedConsistently
    "/oauth/authorization?client_id=1&redirect_url=https://api.example.com/callback" := by
  intro h
  have hsession := h.killed (pure ()) (some {})
  rw [KillForApiInterceptor.intercept_session, if_pos (by decide +kernel),
    if_neg (by decide +kernel)] at hsession
  cases hsession

end ApiRoutes

end NestTemplate
