import NestTemplate.Auth.Session

/-!
# Requests behind `WebGuard`

What `canActivate` does with a session, which may be missing, and with a look-up
that may fail by itself. Sessions live on from one request to the next, while
users come and go.

* `canActivate_of_notAuthenticated`, `canActivate_of_failure`, `canActivate_of_user`,
  `canActivate_of_no_user`: one lemma for each way the guard ends.
* `guardSpec`: which way it takes, and what it leaves.
* `notAuthenticated_performAll`: a session that does not authenticate stays so.
* `guardedRuns`: the result about runs, with `RedirectIfAuthenticatedInterceptor`.
-/

namespace NestTemplate

open Common

/-- The session authenticates the user `id`. Ids start at 1, so an id 0 counts as unset. -/
def WebRequest.Authenticates (request : WebRequest) (id : ℕ) : Prop :=
  ∃ session, request.session = some session ∧
    session.auth = some { isAuth := true, userId := some id } ∧ id ≠ 0

/-- There is no session, no `session.auth`, `isAuth` is false or `userId` is unset. -/
def WebRequest.NotAuthenticated (request : WebRequest) : Prop :=
  ∀ session, request.session = some session → ∀ auth, session.auth = some auth →
    auth.isAuth = false ∨ auth.userId = none ∨ auth.userId = some 0

/-! ## The interceptor -/

/-- A request, the redirects of its response and the requests that the handler was run on. -/
structure WebExchange where
  request : WebRequest
  redirects : List String
  handled : List WebRequest

namespace RedirectIfAuthenticatedInterceptor

def defaultRedirectUrl : String := "/dashboard"

/-- `next.handle()`. -/
def handle (next : Action Failure WebExchange Unit) : Action Failure WebExchange Unit :=
  fun exchange => next { exchange with handled := exchange.handled ++ [exchange.request] }

/-- `intercept`. Behind a redirect nothing is emitted. -/
def intercept (st : Store) (failure : Option LookUpError) (next : Action Failure WebExchange Unit) :
    Action Failure WebExchange Unit := fun exchange =>
  match WebGuard.canActivate st failure exchange.request with
  | (.ok true, request) =>
    (.ok (), { exchange with
      request := request, redirects := exchange.redirects ++ [defaultRedirectUrl] })
  | (.ok false, request) | (.error .unauthorized, request) =>
    handle next { exchange with request := request }
  | (.error e, request) => (.error e, { exchange with request := request })

end RedirectIfAuthenticatedInterceptor

/-! ## One call -/

namespace WebGuard

variable {st : Store} {failure : Option LookUpError} {request : WebRequest}

theorem not_notAuthenticated {id : ℕ} (h : request.Authenticates id) : ¬ request.NotAuthenticated := by
  obtain ⟨session, hsession, hauth, hid⟩ := h
  intro hnot
  rcases hnot session hsession _ hauth with h | h | h
  · cases h
  · cases h
  · exact hid (Option.some.inj h)

/-- A session authenticates a user or it does not. -/
theorem exists_authenticates (h : ¬ request.NotAuthenticated) : ∃ id, request.Authenticates id := by
  unfold WebRequest.NotAuthenticated at h
  push Not at h
  obtain ⟨session, hsession, ⟨isAuth, userId⟩, hauth, hisAuth, hnone, hzero⟩ := h
  cases userId with
  | none => exact absurd rfl hnone
  | some id =>
    cases isAuth with
    | false => exact absurd rfl hisAuth
    | true => exact ⟨id, session, hsession, hauth, fun h => hzero (congrArg some h)⟩

/-- Where the session does not authenticate, the guard throws, and sets the `auth` that is missing. -/
theorem canActivate_of_notAuthenticated (h : request.NotAuthenticated) :
    canActivate st failure request = (.error .unauthorized, { request with
      session := request.session.map fun session => { session with
        auth := some (session.auth.getD { isAuth := false, userId := none }) } }) := by
  obtain ⟨_ | ⟨_ | ⟨isAuth, userId⟩, passwordContent⟩, user⟩ := request
  · rfl
  · rfl
  · have hcheck : checkAuth { isAuth := isAuth, userId := userId } = false := by
      rcases h _ rfl _ rfl with h | h | h
      · rw [checkAuth, h, Bool.false_and]
      · rw [checkAuth, h]
        exact Bool.and_false _
      · rw [checkAuth, h]
        exact Bool.and_false _
    unfold canActivate
    rw [Action.bind_run]
    simp only [Option.getD_some, getUserFromSession, hcheck]
    rfl

section Authenticated

variable {id : ℕ} (h : request.Authenticates id)

include h

/-- Where the session authenticates, the guard goes by what the look-up gives. -/
theorem canActivate_of_authenticates (st : Store) (failure : Option LookUpError) :
    ∃ session, request.session = some session ∧ canActivate st failure request =
      match getUser st failure (some id) session with
      | (.ok (some user), session) => (.ok true, { session := some session, user := some user })
      | (.ok none, session) => (.ok false, { request with session := some session })
      | (.error e, session) => (.error e, { request with session := some session }) := by
  obtain ⟨session, hsession, hauth, hid⟩ := h
  refine ⟨session, hsession, ?_⟩
  have hget := getUserFromSession_eq_ok.mpr ⟨id, hid, hauth, rfl, rfl⟩
  unfold canActivate
  rw [hsession, Option.getD_some, Action.bind_of_ok hget]
  rcases getUser st failure (some id) session with ⟨e | _ | user, session'⟩ <;> rfl

theorem filter_eq_some : (some id).filter (· ≠ 0) = some id := by
  obtain ⟨-, -, -, hid⟩ := h
  simp [hid]

/-- An error of the look-up is rethrown. -/
theorem canActivate_of_failure (e : LookUpError) :
    canActivate st (some e) request = (.error e.failure, request) := by
  obtain ⟨session, hsession, heq⟩ := canActivate_of_authenticates h st (some e)
  have hpipe : notFoundPipe (.error e.failure : Except Failure UserModel) = .error e.failure := by
    unfold notFoundPipe
    split
    · rename_i heq
      exact absurd (Except.error.inj heq) e.not_emptyResult
    · rfl
  have huser : getUser st (some e) (some id) session = (.error e.failure, session) := by
    unfold getUser
    rw [filter_eq_some h]
    simp only [getLoggedInUser, hpipe]
    split
    · rename_i heq
      cases heq
    · rename_i message heq
      exact absurd (Except.error.inj heq) (e.not_notFound message)
    · rename_i heq
      rw [Except.error.inj heq]
  rw [heq, huser]
  show (_, { request with session := some session }) = _
  rw [← hsession]

/-- The user that the session names is let in. -/
theorem canActivate_of_user {user : UserModel} (huser : user ∈ st.users) (hid : user.id = id) :
    canActivate st none request = (.ok true, { request with user := some user }) := by
  obtain ⟨session, hsession, heq⟩ := canActivate_of_authenticates h st none
  have hfound : AuthService.getLoggedInUser id st = .ok user := by
    unfold AuthService.getLoggedInUser UserRepository.findOrFail
    rw [Table.find?_eq_some.mpr ⟨huser, hid⟩]
  have hget : getUser st none (some id) session = (.ok (some user), session) := by
    unfold getUser
    rw [filter_eq_some h]
    simp only [getLoggedInUser, hfound, notFoundPipe]
  rw [heq, hget, hsession]

/-- Where there is no such user, the session is reset. -/
theorem canActivate_of_no_user (huser : ∀ user ∈ st.users, user.id ≠ id) :
    canActivate st none request =
      (.ok false, { request with session := request.session.map resetSession }) := by
  obtain ⟨session, hsession, heq⟩ := canActivate_of_authenticates h st none
  have hfound : AuthService.getLoggedInUser id st = .error .emptyResult := by
    unfold AuthService.getLoggedInUser UserRepository.findOrFail
    rw [Table.find?_eq_none.mpr huser]
  have hget : getUser st none (some id) session = (.ok none, resetSession session) := by
    unfold getUser
    rw [filter_eq_some h]
    simp only [getLoggedInUser, hfound, notFoundPipe]
  rw [heq, hget, hsession]
  rfl

end Authenticated

/-! ## What the guard is for -/

/-- Which way the guard ends, and what it leaves. -/
structure GuardSpec (st : Store) (failure : Option LookUpError) (request : WebRequest)
    (result : Except Failure Bool) (left : WebRequest) : Prop where
  unauthorized : result = .error .unauthorized ↔ request.NotAuthenticated
  admitted : result = .ok true ↔
    failure = none ∧ ∃ user ∈ st.users, request.Authenticates user.id
  admitted_left : result = .ok true → ∃ user ∈ st.users, request.Authenticates user.id ∧
    left = { request with user := some user }
  refused : result = .ok false ↔
    failure = none ∧ ∃ id, request.Authenticates id ∧ ∀ user ∈ st.users, user.id ≠ id
  refused_left : result = .ok false → left = { request with
    session := request.session.map fun session =>
      { session with auth := some { isAuth := false, userId := none } } }
  /-- Any other error is one of the look-up. -/
  rethrown : ∀ e, result = .error e → e ≠ .unauthorized →
    (∃ id, request.Authenticates id) ∧ (∃ l, failure = some l ∧ l.failure = e) ∧ left = request
  failed : ∀ l id, failure = some l → request.Authenticates id → result = .error l.failure

/-- A session authenticates one user. -/
theorem authenticates_unique {id id' : ℕ} (h : request.Authenticates id)
    (h' : request.Authenticates id') : id = id' := by
  obtain ⟨session, hsession, hauth, -⟩ := h
  obtain ⟨session', hsession', hauth', -⟩ := h'
  obtain rfl := Option.some.inj (hsession.symm.trans hsession')
  have := hauth.symm.trans hauth'
  simpa using this

theorem guardSpec (st : Store) (failure : Option LookUpError) (request : WebRequest) :
    GuardSpec st failure request (canActivate st failure request).1
      (canActivate st failure request).2 := by
  by_cases hnot : request.NotAuthenticated
  · have hno : ∀ id, ¬ request.Authenticates id := fun id h => not_notAuthenticated h hnot
    rw [canActivate_of_notAuthenticated hnot]
    exact {
      unauthorized := iff_of_true rfl hnot
      admitted := iff_of_false nofun fun ⟨_, user, _, h⟩ => hno user.id h
      admitted_left := nofun
      refused := iff_of_false nofun fun ⟨_, id, h, _⟩ => hno id h
      refused_left := nofun
      rethrown := fun e he hne => absurd (Except.error.inj he).symm hne
      failed := fun _ id _ h => absurd h (hno id) }
  · obtain ⟨id, hid⟩ := exists_authenticates hnot
    cases failure with
    | some l =>
      rw [canActivate_of_failure hid]
      exact {
        unauthorized := iff_of_false (fun h => l.not_unauthorized (Except.error.inj h)) hnot
        admitted := iff_of_false nofun nofun
        admitted_left := nofun
        refused := iff_of_false nofun nofun
        refused_left := nofun
        rethrown := fun e he _ => ⟨⟨id, hid⟩, ⟨l, rfl, Except.error.inj he⟩, rfl⟩
        failed := fun _ _ hl _ => by rw [Option.some.inj hl] }
    | none =>
      by_cases huser : ∃ user ∈ st.users, user.id = id
      · obtain ⟨user, hmem, rfl⟩ := huser
        rw [canActivate_of_user hid hmem rfl]
        exact {
          unauthorized := iff_of_false nofun hnot
          admitted := iff_of_true rfl ⟨rfl, user, hmem, hid⟩
          admitted_left := fun _ => ⟨user, hmem, hid, rfl⟩
          refused := iff_of_false nofun fun ⟨_, id, h, hno⟩ =>
            hno user hmem (authenticates_unique hid h)
          refused_left := nofun
          rethrown := nofun
          failed := nofun }
      · push Not at huser
        rw [canActivate_of_no_user hid huser]
        exact {
          unauthorized := iff_of_false nofun hnot
          admitted := iff_of_false nofun fun ⟨_, user, hmem, h⟩ =>
            huser user hmem (authenticates_unique h hid)
          admitted_left := nofun
          refused := iff_of_true rfl ⟨rfl, id, hid, huser⟩
          refused_left := fun _ => rfl
          rethrown := nofun
          failed := nofun }

end WebGuard

/-! ## Runs -/

/-- A session, between requests, and the database. -/
structure WebState where
  session : Option SessionContent
  st : Store

/-- What happens to them: a guarded request, a database operation such as the deletion of a user,
    and the end of a request that sets `auth`. -/
inductive WebEvent where
  | guarded (failure : Option LookUpError) (user : Option UserModel)
  | op (op : Op)
  | setAuth (auth : SessionAuth)

namespace WebState

open WebGuard

/-- What the guard does in a request with this session. -/
def guard (s : WebState) (failure : Option LookUpError) (user : Option UserModel) :
    Except Failure Bool × WebRequest :=
  canActivate s.st failure ⟨s.session, user⟩

def perform (app : App) (s : WebState) : WebEvent → WebState
  | .guarded failure user => { s with session := (s.guard failure user).2.session }
  | .op op => { s with st := op.perform app s.st }
  | .setAuth auth => { s with session := some { s.session.getD {} with auth := some auth } }

def performAll (app : App) (s : WebState) (es : List WebEvent) : WebState := es.foldl (perform app) s

/-- A request with this session is not authenticated. -/
def NotAuthenticated (s : WebState) : Prop := WebRequest.NotAuthenticated ⟨s.session, none⟩

variable {s : WebState} {failure : Option LookUpError} {user : Option UserModel}

theorem guard_of_notAuthenticated (h : s.NotAuthenticated) : s.guard failure user =
    (.error .unauthorized, { session := s.session.map fun session => { session with
      auth := some (session.auth.getD { isAuth := false, userId := none }) }, user := user }) :=
  WebGuard.canActivate_of_notAuthenticated h

/-- A session without authentication stays so in a guarded request. -/
theorem notAuthenticated_guarded (h : s.NotAuthenticated) :
    WebRequest.NotAuthenticated ⟨(s.guard failure user).2.session, none⟩ := by
  rw [guard_of_notAuthenticated h]
  intro session hsession auth hauth
  obtain ⟨before, hbefore, rfl⟩ := Option.map_eq_some_iff.mp hsession
  cases hget : before.auth with
  | none =>
    rw [hget] at hauth
    exact .inl (by rw [← Option.some.inj hauth]; rfl)
  | some a =>
    rw [hget] at hauth
    obtain rfl : a = auth := Option.some.inj hauth
    exact h before hbefore a hget

/-- So does one whose user was not found. -/
theorem notAuthenticated_refused (h : (s.guard failure user).1 = .ok false) :
    WebRequest.NotAuthenticated ⟨(s.guard failure user).2.session, none⟩ := by
  have hleft : (s.guard failure user).2.session = s.session.map fun session =>
      { session with auth := some { isAuth := false, userId := none } } :=
    congrArg WebRequest.session ((guardSpec s.st failure ⟨s.session, user⟩).refused_left h)
  rw [hleft]
  intro session hsession auth hauth
  obtain ⟨before, -, rfl⟩ := Option.map_eq_some_iff.mp hsession
  exact .inl (by rw [← Option.some.inj hauth])

/-- One event does not authenticate a session, unless it sets `auth`. -/
theorem notAuthenticated_perform {app : App} {e : WebEvent} (h : s.NotAuthenticated)
    (he : ∀ auth, e ≠ .setAuth auth) : (s.perform app e).NotAuthenticated := by
  cases e with
  | guarded failure user => exact notAuthenticated_guarded h
  | op op => exact h
  | setAuth auth => exact absurd rfl (he auth)

/-- Nor does a run. -/
theorem notAuthenticated_performAll {app : App} {es : List WebEvent} (h : s.NotAuthenticated)
    (hes : ∀ e ∈ es, ∀ auth, e ≠ .setAuth auth) : (s.performAll app es).NotAuthenticated := by
  induction es generalizing s with
  | nil => exact h
  | cons e es ih =>
    exact ih (notAuthenticated_perform h (hes e (List.mem_cons_self ..)))
      fun e' he' => hes e' (List.mem_cons_of_mem _ he')

end WebState

/-- What the interceptor does, by the way the guard ends. -/
structure RedirectSpec (st : Store) (failure : Option LookUpError) (exchange : WebExchange)
    (result : Except Failure Bool) (left : WebRequest) : Prop where
  handler : result = .ok false ∨ result = .error .unauthorized → ∀ next,
    RedirectIfAuthenticatedInterceptor.intercept st failure next exchange =
      next { exchange with request := left, handled := exchange.handled ++ [left] }
  redirect : result = .ok true → ∀ next,
    RedirectIfAuthenticatedInterceptor.intercept st failure next exchange =
      (.ok (), { exchange with request := left, redirects := exchange.redirects ++ ["/dashboard"] })
  rethrown : ∀ e, result = .error e → e ≠ .unauthorized → ∀ next,
    RedirectIfAuthenticatedInterceptor.intercept st failure next exchange =
      (.error e, { exchange with request := left })
  /-- The handler is run in no other case. -/
  handler_iff : (RedirectIfAuthenticatedInterceptor.intercept st failure (pure ()) exchange).2.handled ≠
      exchange.handled ↔ result = .ok false ∨ result = .error .unauthorized
  redirect_iff : (RedirectIfAuthenticatedInterceptor.intercept st failure (pure ())
      exchange).2.redirects ≠ exchange.redirects ↔ result = .ok true

namespace RedirectIfAuthenticatedInterceptor

variable {st : Store} {failure : Option LookUpError} {exchange : WebExchange} {left : WebRequest}

theorem intercept_of_handled {result : Except Failure Bool} (next : Action Failure WebExchange Unit)
    (h : WebGuard.canActivate st failure exchange.request = (result, left))
    (hresult : result = .ok false ∨ result = .error .unauthorized) :
    intercept st failure next exchange =
      next { exchange with request := left, handled := exchange.handled ++ [left] } := by
  unfold intercept
  rcases hresult with rfl | rfl
  · rw [h]
    rfl
  · rw [h]
    rfl

theorem intercept_of_true (next : Action Failure WebExchange Unit)
    (h : WebGuard.canActivate st failure exchange.request = (.ok true, left)) :
    intercept st failure next exchange =
      (.ok (), { exchange with
        request := left, redirects := exchange.redirects ++ [defaultRedirectUrl] }) := by
  unfold intercept
  rw [h]

theorem intercept_of_error {e : Failure} (next : Action Failure WebExchange Unit)
    (h : WebGuard.canActivate st failure exchange.request = (.error e, left))
    (he : e ≠ .unauthorized) :
    intercept st failure next exchange = (.error e, { exchange with request := left }) := by
  unfold intercept
  rw [h]
  cases e with
  | unauthorized => exact absurd rfl he
  | notFound _ | forbidden | unprocessable _ | unprocessableCause _ | emptyResult | database
  | jsonWebToken | syntaxError | error _ => rfl

/-- The handler is run where the guard says no, a redirect made where it says yes. -/
theorem redirectSpec (st : Store) (failure : Option LookUpError) (exchange : WebExchange) :
    RedirectSpec st failure exchange (WebGuard.canActivate st failure exchange.request).1
      (WebGuard.canActivate st failure exchange.request).2 := by
  rcases h : WebGuard.canActivate st failure exchange.request with ⟨result, left⟩
  have hno (hresult : result = .ok false ∨ result = .error .unauthorized)
      (next : Action Failure WebExchange Unit) := intercept_of_handled next h hresult
  have hyes (hresult : result = .ok true) (next : Action Failure WebExchange Unit) :=
    intercept_of_true next (hresult ▸ h)
  have herror (e : Failure) (hresult : result = .error e) (he : e ≠ .unauthorized)
      (next : Action Failure WebExchange Unit) := intercept_of_error next (hresult ▸ h) he
  have happend {α : Type} (l : List α) (a : α) : l ++ [a] ≠ l := by simp
  refine ⟨hno, hyes, herror, ?_, ?_⟩
  · by_cases hresult : result = .ok false ∨ result = .error .unauthorized
    · rw [hno hresult]
      exact iff_of_true (happend _ _) hresult
    · refine iff_of_false (not_not_intro ?_) hresult
      match result with
      | .ok true => rw [hyes rfl]
      | .ok false => exact absurd (.inl rfl) hresult
      | .error e => rw [herror e rfl fun he => hresult (.inr (by rw [he]))]
  · by_cases hresult : result = .ok true
    · rw [hyes hresult]
      exact iff_of_true (happend _ _) hresult
    · refine iff_of_false (not_not_intro ?_) hresult
      match result with
      | .ok true => exact absurd rfl hresult
      | .ok false => rw [hno (.inl rfl)]; rfl
      | .error e =>
        by_cases he : e = .unauthorized
        · rw [hno (.inr (by rw [he]))]
          rfl
        · rw [herror e rfl he]

end RedirectIfAuthenticatedInterceptor

/-! ## The whole -/

/-- What holds after any events `pre`, from any state. -/
structure GuardedRuns (app : App) (s : WebState) : Prop where
  guards : ∀ pre failure user, WebGuard.GuardSpec (s.performAll app pre).st failure
    ⟨(s.performAll app pre).session, user⟩ ((s.performAll app pre).guard failure user).1
    ((s.performAll app pre).guard failure user).2
  /-- After a refusal every later call throws, until `auth` is set. -/
  refused : ∀ pre failure user mid failure' user', (∀ e ∈ mid, ∀ auth, e ≠ .setAuth auth) →
    ((s.performAll app pre).guard failure user).1 = .ok false →
      ((s.performAll app (pre ++ .guarded failure user :: mid)).guard failure' user').1 =
        .error .unauthorized
  redirects : ∀ pre failure exchange, exchange.request.session = (s.performAll app pre).session →
    RedirectSpec (s.performAll app pre).st failure exchange
      ((s.performAll app pre).guard failure exchange.request.user).1
      ((s.performAll app pre).guard failure exchange.request.user).2

/-- The guard and the interceptor do what they are for in every run. -/
theorem guardedRuns (app : App) (s : WebState) : GuardedRuns app s where
  guards pre failure user := WebGuard.guardSpec _ failure _
  refused pre failure user mid failure' user' hmid hrefused := by
    have hsplit : s.performAll app (pre ++ .guarded failure user :: mid) =
        ((s.performAll app pre).perform app (.guarded failure user)).performAll app mid :=
      List.foldl_append
    have hafter : ((s.performAll app pre).perform app (.guarded failure user)).NotAuthenticated :=
      WebState.notAuthenticated_refused hrefused
    rw [hsplit, WebState.guard_of_notAuthenticated (WebState.notAuthenticated_performAll hafter hmid)]
  redirects pre failure exchange hsession := by
    have hrequest : exchange.request = ⟨(s.performAll app pre).session, exchange.request.user⟩ := by
      rw [← hsession]
    have hspec := RedirectIfAuthenticatedInterceptor.redirectSpec (s.performAll app pre).st failure
      exchange
    unfold WebState.guard
    rwa [← hrequest]

end NestTemplate
