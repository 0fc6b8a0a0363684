import NestTemplate.Auth.BearerAuthentication

/-!
# `AccessTokenGuard`

`getBearerToken` recognises the header by a search for `bearer ` and takes the
token from the eighth character on. The two agree iff the text that is found
is at the start.

* `getBearerToken_eq_ok`: which token the code returns.
* `isBearer_iff`: what the grammar of the header allows.
* `parsesByGrammar_iff`: for which headers they are the same.
-/

namespace NestTemplate

open Common

/-- What the guard reads of `request.headers`. Header values are Latin-1: a character is a code
    unit, and none outside ASCII has a lower case in the texts that are searched for. -/
structure IncomingHttpHeaders where
  accept : Option String
  authorization : Option String

/-- What the guard may change: `request.user`. `lookups` are the bearers that `findUserByToken` was
    called with. -/
structure GuardedRequest where
  user : Option UserModel
  lookups : List String

/-- The grammar of the header: the scheme `Bearer`, one space and the token. -/
def IsBearer (authorization token : String) : Prop :=
  ∃ scheme : List Char, scheme.map Char.toLower = "bearer".toList ∧
    authorization.toList = scheme ++ ' ' :: token.toList

namespace IncomingHttpHeaders

/-- `headers.accept?.toLowerCase().includes('application/json')`. -/
def acceptsJson (headers : IncomingHttpHeaders) : Bool :=
  (Request.mk headers.accept none).acceptsJson

/-- The token the headers carry by their grammar. -/
def Carries (headers : IncomingHttpHeaders) (token : String) : Prop :=
  headers.acceptsJson = true ∧ ∃ a, headers.authorization = some a ∧ IsBearer a token

end IncomingHttpHeaders

namespace AccessTokenGuard

/-- `authorization.toLowerCase()`. -/
def toLowerCase (authorization : String) : List Char := authorization.toList.map Char.toLower

/-- `getBearerToken`. -/
def getBearerToken (headers : IncomingHttpHeaders) : Except Failure String :=
  if headers.acceptsJson = false then .error (.notFound none)
  else
    match headers.authorization with
    | none => .error .unauthorized
    | some authorization =>
      if "bearer ".toList <:+: toLowerCase authorization then
        .ok (String.ofList (authorization.toList.drop 7))
      else .error .unauthorized

/-- The `map` and `catchError` of `canActivate`, around `findUserByToken`. -/
def translate : Except Failure (Option UserModel) → Except Failure UserModel
  | .ok (some user) => .ok user
  | .ok none => .error .unauthorized
  | .error .jsonWebToken => .error .unauthorized
  | .error e => .error e

/-- `canActivate`. What `getBearerToken` throws is thrown before the look-up. -/
def canActivate (app : App) (now : ℕ) (st : Store) (headers : IncomingHttpHeaders) :
    Action Failure GuardedRequest Bool := fun request =>
  match getBearerToken headers with
  | .error e => (.error e, request)
  | .ok token =>
    let request := { request with lookups := request.lookups ++ [token] }
    match translate (AuthService.findUserByToken app now token st) with
    | .ok user => (.ok true, { request with user := some user })
    | .error e => (.error e, request)

/-- What the guard does is what the grammar of the header says. -/
structure ParsesByGrammar (app : App) (now : ℕ) (st : Store) (headers : IncomingHttpHeaders) :
    Prop where
  token : ∀ t, getBearerToken headers = .ok t ↔ headers.Carries t
  notFound : headers.acceptsJson = false → getBearerToken headers = .error (.notFound none)
  unauthorized : headers.acceptsJson = true → (∀ t, ¬ headers.Carries t) →
    getBearerToken headers = .error .unauthorized
  /-- A header of another scheme is refused without a look-up. -/
  no_lookup : (∀ t, ¬ headers.Carries t) → ∀ request,
    (canActivate app now st headers request).2 = request

end AccessTokenGuard

/-! ## The grammar as a prefix -/

/-- Only a letter has another lower case. -/
theorem eq_of_toLower_eq {c d : Char} (h : c.toLower = d) (hd : d.isAlpha = false) : c = d := by
  have hc : c.isAlpha = false := by rw [← Char.isAlpha_toLower_eq_isAlpha, h, hd]
  have hupper : ¬ c.isUpper = true := by
    intro hu
    rw [Char.isAlpha, hu] at hc
    cases hc
  rw [← h, Char.toLower_eq_of_not_isUpper hupper]

/-- The header carries a token iff it starts with the scheme and the space, and the token is what
    follows. -/
theorem isBearer_iff {authorization token : String} :
    IsBearer authorization token ↔
      "bearer ".toList <+: AccessTokenGuard.toLowerCase authorization ∧
        token = String.ofList (authorization.toList.drop 7) := by
  have hscheme : "bearer ".toList = "bearer".toList ++ [' '] := by decide
  have hlength : "bearer".toList.length = 6 := by decide
  unfold IsBearer AccessTokenGuard.toLowerCase
  rw [hscheme]
  constructor
  · rintro ⟨scheme, hlower, hauth⟩
    have hsix : scheme.length = 6 := by rw [← hlength, ← hlower, List.length_map]
    refine ⟨⟨token.toList.map Char.toLower, ?_⟩, ?_⟩
    · rw [hauth, ← hlower]
      simp
    · rw [hauth, show 7 = scheme.length + 1 by omega, ← List.drop_drop, List.drop_left]
      simp
  · rintro ⟨⟨rest, hrest⟩, rfl⟩
    obtain ⟨front, tail, hauth, hfront, -⟩ := List.map_eq_append_iff.mp hrest.symm
    obtain ⟨scheme, space, rfl, hlower, hspace⟩ := List.map_eq_append_iff.mp hfront
    obtain ⟨c, rfl, hc⟩ : ∃ c, space = [c] ∧ c.toLower = ' ' := by
      simpa [List.map_eq_singleton_iff] using hspace
    obtain rfl : c = ' ' := eq_of_toLower_eq hc (by decide)
    have hsix : scheme.length = 6 := by rw [← hlength, ← hlower, List.length_map]
    refine ⟨scheme, hlower, ?_⟩
    rw [hauth, String.toList_ofList, show 7 = (scheme ++ [' ']).length by simp [hsix],
      List.drop_left, List.append_assoc]
    rfl

namespace AccessTokenGuard

variable {headers : IncomingHttpHeaders} {app : App} {now : ℕ} {st : Store}

/-! ## What `getBearerToken` returns -/

theorem getBearerToken_of_found {a : String} (hjson : headers.acceptsJson = true)
    (ha : headers.authorization = some a) (hfound : "bearer ".toList <:+: toLowerCase a) :
    getBearerToken headers = .ok (String.ofList (a.toList.drop 7)) := by
  unfold getBearerToken
  rw [hjson, ha]
  exact if_pos hfound

/-- It throws `NotFoundException` for the `Accept` header. -/
theorem getBearerToken_of_not_acceptsJson (hjson : headers.acceptsJson = false) :
    getBearerToken headers = .error (.notFound none) := if_pos hjson

/-- It throws `UnauthorizedException` where `bearer ` is not found. -/
theorem getBearerToken_of_not_found (hjson : headers.acceptsJson = true)
    (hfound : ∀ a, headers.authorization = some a → ¬ "bearer ".toList <:+: toLowerCase a) :
    getBearerToken headers = .error .unauthorized := by
  unfold getBearerToken
  rw [hjson]
  cases ha : headers.authorization with
  | none => rfl
  | some a => exact if_neg (hfound a ha)

theorem getBearerToken_eq_ok {t : String} :
    getBearerToken headers = .ok t ↔ headers.acceptsJson = true ∧
      ∃ a, headers.authorization = some a ∧ "bearer ".toList <:+: toLowerCase a ∧
        t = String.ofList (a.toList.drop 7) := by
  constructor
  · intro h
    cases hjson : headers.acceptsJson with
    | false =>
      rw [getBearerToken_of_not_acceptsJson hjson] at h
      cases h
    | true =>
      by_cases hfound : ∃ a, headers.authorization = some a ∧ "bearer ".toList <:+: toLowerCase a
      · obtain ⟨a, ha, hfound⟩ := hfound
        rw [getBearerToken_of_found hjson ha hfound] at h
        exact ⟨rfl, a, ha, hfound, (Except.ok.inj h).symm⟩
      · rw [getBearerToken_of_not_found hjson fun a ha h => hfound ⟨a, ha, h⟩] at h
        cases h
  · rintro ⟨hjson, a, ha, hfound, rfl⟩
    exact getBearerToken_of_found hjson ha hfound

/-- Where no token is read, nothing is looked up; where one is, that one is. -/
theorem canActivate_lookups (request : GuardedRequest) :
    (canActivate app now st headers request).2.lookups =
      request.lookups ++ (getBearerToken headers).toOption.toList := by
  unfold canActivate
  cases getBearerToken headers with
  | error e => exact (List.append_nil _).symm
  | ok token =>
    simp only [Except.toOption, Option.toList_some]
    cases translate (AuthService.findUserByToken app now token st) <;> rfl

/-! ## Where the two agree -/

/-- What the code reads is what the grammar says iff `bearer ` is only found at the start. -/
theorem getBearerToken_iff_carries :
    (∀ t, getBearerToken headers = .ok t ↔ headers.Carries t) ↔
      headers.acceptsJson = false ∨ ∀ a, headers.authorization = some a →
        "bearer ".toList <:+: toLowerCase a → "bearer ".toList <+: toLowerCase a := by
  constructor
  · intro h
    cases hjson : headers.acceptsJson with
    | false => exact .inl rfl
    | true =>
      refine .inr fun a ha hfound => ?_
      obtain ⟨-, a', ha', hbearer⟩ := (h _).mp (getBearerToken_eq_ok.mpr ⟨hjson, a, ha, hfound, rfl⟩)
      obtain rfl : a = a' := Option.some.inj (ha.symm.trans ha')
      exact (isBearer_iff.mp hbearer).1
  · intro h t
    rw [getBearerToken_eq_ok]
    unfold IncomingHttpHeaders.Carries
    constructor
    · rintro ⟨hjson, a, ha, hfound, ht⟩
      rcases h with h | h
      · rw [h] at hjson
        cases hjson
      · exact ⟨hjson, a, ha, isBearer_iff.mpr ⟨h a ha hfound, ht⟩⟩
    · rintro ⟨hjson, a, ha, hbearer⟩
      obtain ⟨hpre, ht⟩ := isBearer_iff.mp hbearer
      exact ⟨hjson, a, ha, hpre.isInfix, ht⟩

/-- The guard follows the grammar of the header iff the answer is not to be JSON, or the header
    does not contain `bearer ` or starts with it, in any letter case. -/
theorem parsesByGrammar_iff (app : App) (now : ℕ) (st : Store) (headers : IncomingHttpHeaders) :
    ParsesByGrammar app now st headers ↔
      headers.acceptsJson = false ∨ ∀ a, headers.authorization = some a →
        "bearer ".toList <:+: toLowerCase a → "bearer ".toList <+: toLowerCase a := by
  rw [← getBearerToken_iff_carries]
  constructor
  · exact fun h => h.token
  · intro h
    have hnotFound (hjson : headers.acceptsJson = true) (hnone : ∀ t, ¬ headers.Carries t) :
        getBearerToken headers = .error .unauthorized :=
      getBearerToken_of_not_found hjson fun a ha hfound =>
        hnone _ ((h _).mp (getBearerToken_of_found hjson ha hfound))
    refine ⟨h, getBearerToken_of_not_acceptsJson, hnotFound, ?_⟩
    intro hnone request
    unfold canActivate
    cases hjson : headers.acceptsJson with
    | false => rw [getBearerToken_of_not_acceptsJson hjson]
    | true => rw [hnotFound hjson hnone]

/-- A header of the scheme `Digest`. -/
def digestHeaders : IncomingHttpHeaders where
  accept := some "application/json"
  authorization := some "Digest bearer x"

/-- It is taken for a bearer, and its first seven characters are cut off. -/
theorem not_parsesByGrammar_digest : ¬ ParsesByGrammar Sample.app 0 .empty digestHeaders := by
  intro h
  have hread : getBearerToken digestHeaders = .ok (String.ofList ("Digest bearer x".toList.drop 7)) :=
    getBearerToken_of_found (by decide) rfl ⟨"digest ".toList, "x".toList, by decide⟩
  obtain ⟨-, a, ha, hbearer⟩ := (h.token _).mp hread
  cases ha
  exact absurd (isBearer_iff.mp hbearer).1 (by decide)

end AccessTokenGuard

end NestTemplate
