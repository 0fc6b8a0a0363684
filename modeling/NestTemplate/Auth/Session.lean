import NestTemplate.Auth.Runs
import NestTemplate.Common.Heap

/-!
# The browser's session and `WebGuard`

express-session keeps two things: a store of contents by session id, and for
each request a session object, `request.session`, which carries its own id.
`mapSessionWithUser` marks the object it is given, lets `regenerate` put
another object in its place, and saves the first one.

* `WebGuard.admits_iff`: which content admits a request, and as whom.
* `mapSessionWithUser_eq_ok`: what is left in the store and in `request.session`.
* `session_not_established`: the session handed to the browser is never the
  user's.
* `old_session_admits`: the session from before the login is.
-/

namespace NestTemplate

open Common

/-- `session.auth`. -/
structure SessionAuth where
  isAuth : Bool
  userId : Option ℕ
  deriving DecidableEq

/-- `session.passwordContent`. -/
structure PasswordContent where
  token : String
  email : String
  passwordId : Uuid
  deriving DecidableEq

/-- The members of a session that the authentication code reads. -/
structure SessionContent where
  auth : Option SessionAuth := none
  passwordContent : Option PasswordContent := none
  deriving DecidableEq

/-! ## `WebGuard` -/

/-- `notFoundPipe`. -/
def notFoundPipe {α : Type} : Except Failure α → Except Failure α
  | .error .emptyResult => .error (.notFound (some "Record not found"))
  | x => x

/-- The parts of a request that the guard uses. -/
structure WebRequest where
  session : Option SessionContent
  user : Option UserModel

/-- An error of the look-up other than that there is no such record; the database knows none of
    the framework's exceptions. -/
structure LookUpError where
  failure : Failure
  not_emptyResult : failure ≠ .emptyResult
  not_notFound : ∀ message, failure ≠ .notFound message
  not_unauthorized : failure ≠ .unauthorized

namespace WebGuard

/-- `checkAuth`. -/
def checkAuth (auth : SessionAuth) : Bool := auth.isAuth && auth.userId.any (· ≠ 0)

/-- `getUserFromSession`. -/
def getUserFromSession : Action Failure SessionContent (Option ℕ) := fun session =>
  let auth := session.auth.getD { isAuth := false, userId := none }
  (if checkAuth auth then .ok auth.userId else .error .unauthorized,
    { session with auth := some auth })

/-- `resetSession`. -/
def resetSession (session : SessionContent) : SessionContent :=
  { session with auth := some { isAuth := false, userId := none } }

/-- `authService.getLoggedInUser`, where the look-up may fail. -/
def getLoggedInUser (st : Store) (failure : Option LookUpError) (userId : ℕ) :
    Except Failure UserModel :=
  match failure with
  | some e => .error e.failure
  | none => AuthService.getLoggedInUser userId st

/-- `getUser`; `none` stands for `false`. -/
def getUser (st : Store) (failure : Option LookUpError) (userId : Option ℕ) :
    Action Failure SessionContent (Option UserModel) := fun session =>
  let found := match userId.filter (· ≠ 0) with
    | some userId => getLoggedInUser st failure userId
    | none => .error (.notFound (some "Record not found"))
  match notFoundPipe found with
  | .ok user => (.ok (some user), session)
  | .error (.notFound _) => (.ok none, resetSession session)
  | .error e => (.error e, session)

/-- `canActivate`. A request without a session gets an object in its place that is thrown away. -/
def canActivate (st : Store) (failure : Option LookUpError) : Action Failure WebRequest Bool :=
  fun request =>
    let (result, session) :=
      (getUserFromSession >>= getUser st failure) (request.session.getD {})
    let request := { request with session := request.session.map fun _ => session }
    match result with
    | .ok (some user) => (.ok true, { request with user := some user })
    | .ok none => (.ok false, request)
    | .error e => (.error e, request)

/-- With a working database a request whose session has this content is admitted as `user`. -/
def Admits (st : Store) (session : SessionContent) (user : UserModel) : Prop :=
  ∃ left, canActivate st none { session := some session, user := none } = (.ok true, left) ∧
    left.user = some user

theorem getUserFromSession_eq_ok {session session' : SessionContent} {userId : Option ℕ} :
    getUserFromSession session = (.ok userId, session') ↔
      ∃ n, n ≠ 0 ∧ session.auth = some { isAuth := true, userId := some n } ∧
        userId = some n ∧ session' = session := by
  obtain ⟨_ | ⟨isAuth, id⟩, passwordContent⟩ := session
  · simp [getUserFromSession, checkAuth]
  · cases isAuth <;> rcases id with _ | _ | n <;>
      simp [getUserFromSession, checkAuth, eq_comm]

theorem getUser_eq_some {st : Store} {n : ℕ} (hn : n ≠ 0) {session : SessionContent}
    {user : UserModel} :
    (getUser st none (some n) session).1 = .ok (some user) ↔ user ∈ st.users ∧ user.id = n := by
  have hfound : (some n).filter (· ≠ 0) = some n := by simp [hn]
  unfold getUser getLoggedInUser AuthService.getLoggedInUser UserRepository.findOrFail
  rw [hfound, ← Table.find?_eq_some]
  cases h : st.users.find? n <;> simp [h, notFoundPipe]

/-- A request is admitted as the user that `getUser` finds. -/
theorem admits_iff_getUser {st : Store} {session : SessionContent} {user : UserModel} :
    Admits st session user ↔
      ((getUserFromSession >>= getUser st none) session).1 = .ok (some user) := by
  unfold Admits canActivate
  dsimp only [Option.getD_some]
  rcases (getUserFromSession >>= getUser st none) session with ⟨e | _ | found, session'⟩ <;> simp

/-- The guard lets in exactly the users of the table whose id the session holds. -/
theorem admits_iff {st : Store} {session : SessionContent} {user : UserModel} :
    Admits st session user ↔
      session.auth = some { isAuth := true, userId := some user.id } ∧ user.id ≠ 0 ∧
        user ∈ st.users := by
  rw [admits_iff_getUser, Action.bind_run]
  constructor
  · intro h
    rcases hs : getUserFromSession session with ⟨e | userId, session'⟩ <;> rw [hs] at h
    · cases h
    · obtain ⟨n, hn, hauth, rfl, rfl⟩ := getUserFromSession_eq_ok.mp hs
      obtain ⟨hu, rfl⟩ := (getUser_eq_some hn).mp h
      exact ⟨hauth, hn, hu⟩
  · rintro ⟨hauth, hn, hu⟩
    rw [getUserFromSession_eq_ok.mpr ⟨_, hn, hauth, rfl, rfl⟩]
    exact (getUser_eq_some hn).mpr ⟨hu, rfl⟩

/-- A fresh session admits nobody. -/
theorem not_admits_empty (st : Store) (user : UserModel) : ¬ Admits st {} user :=
  fun h => nomatch (admits_iff.mp h).1

end WebGuard

/-! ## express-session -/

/-- A session object. -/
structure Session where
  id : String
  content : SessionContent

/-- What a request sees of express-session. -/
structure Sessions where
  store : String → Option SessionContent
  objects : Heap Session
  /-- `request.session`. -/
  session : Heap.Ref
  live : (objects.get? session).isSome = true

/-- What the session store does in one request, and the id of a generated session. -/
structure SessionEnv where
  sid : String
  destroyError : Option String
  saveError : Option String

namespace Sessions

/-- The object behind `request.session`. -/
def current (w : Sessions) : Session := (w.objects.get? w.session).get w.live

theorem get?_session (w : Sessions) : w.objects.get? w.session = some w.current :=
  (Option.some_get w.live).symm

/-- An assignment to members of the object `session`. -/
def assign (w : Sessions) (session : Heap.Ref) (f : SessionContent → SessionContent) : Sessions where
  store := w.store
  objects := w.objects.modify session fun s => { s with content := f s.content }
  session := w.session
  live := by
    by_cases h : session = w.session
    · subst h
      rw [Heap.get?_modify_self, Option.isSome_map, w.live]
    · rw [Heap.get?_modify_ne _ h, w.live]

/-- `store.generate`: a new object with a new id and no content. -/
def generate (w : Sessions) (sid : String) : Sessions where
  store := w.store
  objects := w.objects.alloc { id := sid, content := {} }
  session := w.objects.next
  live := by rw [Heap.get?_alloc_next]; rfl

/-- `store.destroy` and `store.set`. -/
def put (w : Sessions) (id : String) (content : Option SessionContent) : Sessions :=
  { w with store := Function.update w.store id content }

/-- `session.regenerate`. -/
def regenerate (env : SessionEnv) : Action String Sessions Unit := fun w =>
  match env.destroyError with
  | some e => (.error e, w.generate env.sid)
  | none => (.ok (), (w.put w.current.id none).generate env.sid)

/-- `session.save` of the object `session`. -/
def save (env : SessionEnv) (session : Heap.Ref) : Action String Sessions Unit := fun w =>
  match env.saveError, w.objects.get? session with
  | some e, _ => (.error e, w)
  | none, some s => (.ok (), w.put s.id (some s.content))
  | none, none => (.ok (), w)

/-- The content a request with the cookie of `id` starts with. -/
def incoming (w : Sessions) (id : String) : SessionContent := (w.store id).getD {}

theorem current_eq {w : Sessions} {s : Session} (h : w.objects.get? w.session = some s) :
    w.current = s :=
  Option.some.inj (w.get?_session.symm.trans h)

@[simp] theorem current_generate (w : Sessions) (sid : String) :
    (w.generate sid).current = { id := sid, content := {} } :=
  current_eq (Heap.get?_alloc_next ..)

@[simp] theorem current_put (w : Sessions) (id : String) (content : Option SessionContent) :
    (w.put id content).current = w.current := rfl

@[simp] theorem current_assign (w : Sessions) (f : SessionContent → SessionContent) :
    (w.assign w.session f).current = { w.current with content := f w.current.content } :=
  current_eq (by unfold assign; rw [Heap.get?_modify_self, get?_session]; rfl)

end Sessions

/-! ## The login -/

/-- The assignment `session.auth = { isAuth: true, userId: user.id }`. -/
def SessionContent.loggedIn (session : SessionContent) (user : UserModel) : SessionContent :=
  { session with auth := some { isAuth := true, userId := some user.id } }

/-- `mapSessionWithUser`. -/
def AuthService.mapSessionWithUser (env : SessionEnv) (session : Heap.Ref) (user : UserModel) :
    Action String Sessions Bool := do
  Action.write fun w => .ok (w.assign session (·.loggedIn user))
  Sessions.regenerate env
  -- the object the method was called with, not the one `regenerate` put in its place
  Sessions.save env session
  return true

/-- `intercept`, on the challenge that the handler returned. -/
def MapUserToSessionInterceptor.intercept (env : SessionEnv) (st : Store)
    (result : AuthorizationChallengeModel) : Action String Sessions AuthorizationChallengeModel := do
  let session ← Action.read Sessions.session
  match st.users.find? result.user_id with
  | some user =>
    let _ ← AuthService.mapSessionWithUser env session user
    return result
  | none => Action.fail "Cannot read properties of null (reading 'id')"

/-- The sessions after a login of `user`: the marked content under the old id, and a new object in
    `request.session`. -/
def Sessions.afterLogin (w : Sessions) (sid : String) (user : UserModel) : Sessions :=
  (((w.assign w.session (·.loggedIn user)).put w.current.id none).generate sid).put
    w.current.id (some (w.current.content.loggedIn user))

/-- The old object is still there after `regenerate`. -/
theorem Sessions.get?_regenerated (w : Sessions) (sid : String) (user : UserModel) :
    (((w.assign w.session (·.loggedIn user)).put w.current.id none).generate sid).objects.get?
      w.session = some { w.current with content := w.current.content.loggedIn user } := by
  refine Heap.get?_alloc ?_ _
  rw [← current_assign w (·.loggedIn user)]
  exact get?_session (w.assign w.session (·.loggedIn user))

/-- A login resolves iff the session store works. -/
theorem AuthService.mapSessionWithUser_eq_ok {env : SessionEnv} {user : UserModel}
    {w w' : Sessions} {b : Bool} :
    mapSessionWithUser env w.session user w = (.ok b, w') ↔
      (env.destroyError = none ∧ env.saveError = none) ∧ b = true ∧
        w' = w.afterLogin env.sid user := by
  have hold := w.get?_regenerated env.sid user
  unfold mapSessionWithUser
  rw [Action.bind_of_ok (show Action.write (fun v => .ok (v.assign w.session (·.loggedIn user))) w =
    (.ok (), w.assign w.session (·.loggedIn user)) from rfl)]
  cases hd : env.destroyError with
  | some e => simp [Action.bind_run, Sessions.regenerate, hd]
  | none =>
    have hregenerate : Sessions.regenerate env (w.assign w.session (·.loggedIn user)) =
        (.ok (), ((w.assign w.session (·.loggedIn user)).put w.current.id none).generate env.sid) := by
      simp [Sessions.regenerate, hd]
    rw [Action.bind_of_ok hregenerate]
    cases hs : env.saveError with
    | some e => simp [Action.bind_run, Sessions.save, hs]
    | none => simp [Action.bind_run, Sessions.save, hs, hold, Sessions.afterLogin, eq_comm]

@[simp] theorem Sessions.current_afterLogin (w : Sessions) (sid : String) (user : UserModel) :
    (w.afterLogin sid user).current = { id := sid, content := {} } := by
  simp [afterLogin]

theorem Sessions.store_afterLogin (w : Sessions) (sid : String) (user : UserModel) :
    (w.afterLogin sid user).store =
      Function.update w.store w.current.id (some (w.current.content.loggedIn user)) := by
  show Function.update (Function.update w.store _ _) _ _ = _
  rw [Function.update_idem]

/-! ## Which session is the user's -/

/-- The login of `user` established the new session and killed the one under `id`. -/
structure SessionEstablished (st : Store) (w : Sessions) (id : String) (user : UserModel) :
    Prop where
  handed : w.current.content.auth = some { isAuth := true, userId := some user.id }
  killed : ∀ content ∈ w.store id, ∀ other, ¬ WebGuard.Admits st content other

/-- **Main theorem**: no login that resolves establishes its session. What the browser is handed
    is an empty one. -/
theorem session_not_established {st : Store} {env : SessionEnv} {user : UserModel}
    {w w' : Sessions} {b : Bool}
    (h : AuthService.mapSessionWithUser env w.session user w = (.ok b, w')) :
    ¬ SessionEstablished st w' w.current.id user := by
  obtain ⟨-, -, rfl⟩ := AuthService.mapSessionWithUser_eq_ok.mp h
  intro hest
  have hempty := hest.handed
  rw [Sessions.current_afterLogin] at hempty
  cases hempty

/-- Whom the guard lets in after a login: the user under the id from before, nobody under the new
    one. -/
theorem old_session_admits {st : Store} {env : SessionEnv} {user : UserModel} {w w' : Sessions}
    {b : Bool} (h : AuthService.mapSessionWithUser env w.session user w = (.ok b, w'))
    (hu : user ∈ st.users) (hid : user.id ≠ 0) (hsid : env.sid ≠ w.current.id)
    (hnew : w.store env.sid = none) :
    WebGuard.Admits st (w'.incoming w.current.id) user ∧
      ∀ other, ¬ WebGuard.Admits st (w'.incoming w'.current.id) other := by
  obtain ⟨-, -, rfl⟩ := AuthService.mapSessionWithUser_eq_ok.mp h
  unfold Sessions.incoming
  rw [Sessions.store_afterLogin, Sessions.current_afterLogin, Function.update_self,
    Function.update_of_ne hsid, hnew]
  exact ⟨WebGuard.admits_iff.mpr ⟨rfl, hid, hu⟩, WebGuard.not_admits_empty st⟩

/-- The interceptor logs in the user a code was created for. -/
theorem intercept_of_login {app : App} {env : Env} {body : Option Json} {st st' : Store}
    {row result : AuthorizationChallengeModel} {user : UserModel} {authorization : Json}
    (hlogin : postLogin app env body st = (.ok (row, user, authorization), st'))
    {senv : SessionEnv} {w w' : Sessions} :
    MapUserToSessionInterceptor.intercept senv st' row w = (.ok result, w') ↔
      result = row ∧ AuthService.mapSessionWithUser senv w.session user w = (.ok true, w') := by
  obtain ⟨⟨token, payload, hgranted⟩, ⟨g, hm⟩, -, hinsert⟩ := postLogin_eq_ok.mp hlogin
  obtain ⟨-, husers, -⟩ := Store.insertChallenge_eq_ok hinsert
  have hu : user ∈ st'.users := husers ▸ AuthService.mem_of_validateForPassword hgranted.credentials
  unfold MapUserToSessionInterceptor.intercept
  rw [Action.read_bind_eq_ok, hm.user_id, Table.find?_key hu]
  simp only [Action.bind_eq_ok, Action.pure_run, Prod.mk.injEq, Except.ok.injEq]
  constructor
  · rintro ⟨b, m, hmap, rfl, rfl⟩
    obtain ⟨-, rfl, -⟩ := AuthService.mapSessionWithUser_eq_ok.mp hmap
    exact ⟨rfl, hmap⟩
  · rintro ⟨rfl, hmap⟩
    exact ⟨true, w', hmap, rfl, rfl⟩

namespace Sample

/-- The browser's first request: the session `before`, which the store holds without a user. -/
def sessions : Sessions where
  store := Function.update (fun _ => none) "before" (some {})
  objects := ⟨[{ id := "before", content := {} }]⟩
  session := 0
  live := rfl

def sessionEnv : SessionEnv where
  sid := "after"
  destroyError := none
  saveError := none

theorem mapSessionWithUser_sessions :
    AuthService.mapSessionWithUser sessionEnv sessions.session user sessions =
      (.ok true, sessions.afterLogin "after" user) :=
  AuthService.mapSessionWithUser_eq_ok.mpr ⟨⟨rfl, rfl⟩, rfl, rfl⟩

end Sample

theorem session_not_established_sample :
    ¬ SessionEstablished (Sample.clientStore .PKCE) (Sample.sessions.afterLogin "after" Sample.user)
      "before" Sample.user :=
  session_not_established Sample.mapSessionWithUser_sessions

/-- After the login the browser holds an empty session, and the one it came with is the user's. -/
theorem login_authenticates_old_session :
    ∃ w', AuthService.mapSessionWithUser Sample.sessionEnv Sample.sessions.session Sample.user
        Sample.sessions = (.ok true, w') ∧
      (w'.current.id = "after" ∧ w'.current.content.auth = none) ∧
      (∃ content ∈ w'.store "before",
        WebGuard.Admits (Sample.clientStore .PKCE) content Sample.user) ∧
      ¬ SessionEstablished (Sample.clientStore .PKCE) w' "before" Sample.user := by
  have hadmits : WebGuard.Admits (Sample.clientStore .PKCE)
      (SessionContent.loggedIn {} Sample.user) Sample.user :=
    WebGuard.admits_iff.mpr ⟨rfl, by decide, by decide⟩
  refine ⟨_, Sample.mapSessionWithUser_sessions, by rw [Sessions.current_afterLogin]; exact ⟨rfl, rfl⟩,
    ⟨_, rfl, hadmits⟩, fun hest => ?_⟩
  exact hest.killed _ rfl _ hadmits

end NestTemplate
