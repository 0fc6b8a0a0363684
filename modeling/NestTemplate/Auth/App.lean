import NestTemplate.Auth.Store
import NestTemplate.Common.Action
import NestTemplate.Common.Url

/-!
# What the application is built on

`App` holds the third-party functions the authentication code calls and the
values it reads from its configuration; they do not change while the
application runs. `Env` is what one request gets from outside: the clock, the
random source, and which of its statements fail. `Db` is a request's
computation over the tables.

* `decrypt_encrypt`: `HashEncryptService` reads back what it wrote.
-/

namespace NestTemplate

open Common

/-- Third-party functions and configuration. -/
structure App where
  /-- validator.js's `isEmail`. -/
  isEmail : String → Bool
  /-- validator.js's `isUUID` for any version. -/
  isUUID : String → Bool
  /-- validator.js's `isUUID` for version 4. -/
  isUUID4 : String → Bool
  /-- validator.js's `isURL` with `require_tld: false`. -/
  isURL : String → Bool
  /-- `crypto.createHash(algorithm)` with `update` and `digest`; `none` for an unknown algorithm. -/
  createHash : String → Option (Bytes → Bytes)
  /-- bcrypt's `compare`. -/
  compare : String → String → Bool
  /-- `jwtService.signAsync` on the bytes of a token's id. -/
  signAsync : String → String
  /-- `jwtService.verifyAsync`; `none` where it rejects. -/
  verifyAsync : String → Option String
  /-- The key stream of aes-256-ctr under the configured key and counter block. -/
  keystream : ℕ → UInt8
  /-- The scheme, the authority and the path that `new URL` reads; `none` where it throws. -/
  urlFront : List Char → Option Url.Front
  /-- `urlBuilder.url('oauth/authorization/password')`. -/
  passwordPage : Url.Front
  /-- `JwtConfig`, in milliseconds. -/
  expirationTimeAccessToken : Option ℕ
  expirationTimeRefreshToken : Option ℕ

/-- The steps of a request that may fail on their own. -/
inductive Effect where
  | insertChallenge
  | destroyChallenge
  | insertAccessToken
  | insertRefreshToken
  | destroyAccessToken
  | signAccessToken
  | signRefreshToken
  deriving DecidableEq

/-- What a request gets from outside. -/
structure Env where
  now : ℕ
  uuid : Uuid
  /-- `generateRandomByte(40)` for an access token, a refresh token and a client's secret. -/
  accessTokenBytes : Vector UInt8 40
  refreshTokenBytes : Vector UInt8 40
  secretBytes : Vector UInt8 40
  fails : Effect → Bool

namespace Env

/-- The access token made in this request. -/
def accessToken (env : Env) (client_id : Uuid) (user_id expires_at : Option ℕ) :
    AccessTokenModel :=
  { id := hex env.accessTokenBytes.toList, client_id, user_id, expires_at }

/-- The refresh token made in this request. -/
def refreshToken (env : Env) (access_token_id : String) (expires_at : Option ℕ) :
    RefreshTokenModel :=
  { id := hex env.refreshTokenBytes.toList, access_token_id, expires_at }

/-- No step that makes a pair of tokens fails. -/
structure Works (env : Env) : Prop where
  insertAccessToken : env.fails .insertAccessToken = false
  insertRefreshToken : env.fails .insertRefreshToken = false
  signAccessToken : env.fails .signAccessToken = false
  signRefreshToken : env.fails .signRefreshToken = false

/-- No token of the store has an id this request generates. -/
structure Fresh (env : Env) (st : Store) : Prop where
  accessToken : ∀ a ∈ st.accessTokens, a.id ≠ hex env.accessTokenBytes.toList
  refreshToken : ∀ r ∈ st.refreshTokens, r.id ≠ hex env.refreshTokenBytes.toList

/-- The new pair goes in iff its ids are new, for a client and a user that are there. -/
theorem insertTokens_isOk {env : Env} {st : Store} {client_id : Uuid} {user_id e₁ e₂ : Option ℕ}
    (hc : ∃ c ∈ st.clients, c.id = client_id) (hu : ∀ i ∈ user_id, ∃ u ∈ st.users, u.id = i) :
    (∃ st', st.insertTokens (env.accessToken client_id user_id e₁)
      (env.refreshToken (env.accessToken client_id user_id e₁).id e₂) = .ok st') ↔ env.Fresh st := by
  rw [Store.insertTokens_isOk rfl]
  exact ⟨fun ⟨⟨ha, _⟩, hr⟩ => ⟨ha, hr⟩, fun h => ⟨⟨h.accessToken, hc, hu⟩, h.refreshToken⟩⟩

end Env

/-- A request's computation over the tables. -/
abbrev Db := Action Failure Store

namespace Db

/-- A look-up. -/
def query {α : Type} (f : Store → Except Failure α) : Db α := fun st => (f st, st)

@[simp] theorem query_run {α : Type} (f : Store → Except Failure α) (st : Store) :
    query f st = (f st, st) := rfl

theorem query_bind_eq_ok {α β : Type} {g : Store → Except Failure α} {f : α → Db β}
    {st st' : Store} {b : β} :
    (query g >>= f) st = (.ok b, st') ↔ ∃ a, g st = .ok a ∧ f a st = (.ok b, st') := by
  rw [Action.bind_run, query_run]
  cases g st <;> simp

/-- A statement that writes. -/
def statement (env : Env) (e : Effect) (f : Store → Except Failure Store) : Db Unit :=
  Action.write fun st => if env.fails e then .error .database else f st

theorem statement_eq_ok {env : Env} {e : Effect} {f : Store → Except Failure Store}
    {st st' : Store} {u : Unit} :
    statement env e f st = (.ok u, st') ↔ env.fails e = false ∧ f st = .ok st' := by
  unfold statement
  rw [Action.write_eq_ok]
  cases env.fails e <;> simp

/-- `jwtService.signAsync` on a token's id. -/
def sign (app : App) (env : Env) (e : Effect) (id : String) : Db String :=
  if env.fails e then Action.fail (.error "secretOrPrivateKey must have a value")
  else pure (app.signAsync id)

theorem sign_eq_ok {app : App} {env : Env} {e : Effect} {id s : String} {st st' : Store} :
    sign app env e id st = (.ok s, st') ↔
      env.fails e = false ∧ s = app.signAsync id ∧ st' = st := by
  unfold sign
  cases env.fails e <;> simp [eq_comm]

end Db

/-! ## `HashEncryptService` -/

namespace App

/-- `encrypt`. -/
def encrypt (app : App) (token : String) : String := hex (xorBytes app.keystream (utf8 token))

/-- `decrypt`. Node refuses a hexadecimal text of odd length and ignores what follows the first
    pair that is not two digits. -/
def decrypt (app : App) (token : String) : Except Failure String :=
  if utf16Length token % 2 = 1 then
    .error (.error ("The argument 'encoding' is invalid for data of length " ++
      toString (utf16Length token) ++ ". Received 'hex'"))
  else .ok (utf8Decode (xorBytes app.keystream (hexDecode token)))

/-- Decryption undoes encryption, for every key stream. -/
@[simp] theorem decrypt_encrypt (app : App) (token : String) :
    app.decrypt (app.encrypt token) = .ok token := by
  unfold decrypt encrypt
  rw [utf16Length_hex, if_neg (by omega), hexDecode_hex, xorBytes_xorBytes, utf8Decode_utf8]

end App

end NestTemplate
