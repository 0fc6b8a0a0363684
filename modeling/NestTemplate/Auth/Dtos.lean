import NestTemplate.Auth.App

/-!
# The request bodies of `auth/dtos`

Every DTO is the list of its decorated properties, in the order of the class;
the constraints of a property stand in registration order, so the decorator
nearest to the property comes first. `ClientIdExistsValidator` is the one
constraint that asks the database.

* `AccessTokenDto.code_verifier`: the verifier of a validated PKCE payload is a
  string.
-/

namespace NestTemplate

open Common

/-- `payload.name as string`. -/
def text (payload : Json) (name : String) : String := ((payload.get? name).bind Json.str?).getD ""

/-- Whether a property passes `p` as a string. -/
def textIs (p : String → Bool) (payload : Json) (name : String) : Bool :=
  Constraint.onString p (payload.get? name)

theorem textIs_iff {p : String → Bool} {payload : Json} {name : String} :
    textIs p payload name = true ↔ ∃ s, payload.get? name = some (.str s) ∧ p s = true := by
  unfold textIs Constraint.onString
  split <;> simp_all

theorem text_of_get? {payload : Json} {name s : String} (h : payload.get? name = some (.str s)) :
    text payload name = s := by
  simp [text, h, Json.str?]

/-! ## `ClientIdExistsValidator` -/

namespace ClientRepoService

/-- `find`: `findByPk` on a `uuid` column fails on a text that is no UUID. -/
def find (id : String) (st : Store) : Except Failure (Option ClientModel) :=
  match Uuid.ofText? id with
  | some id => .ok (st.clients.find? id)
  | none => .error .database

end ClientRepoService

/-- `validate(value, { object })`. `findByPk` fails on a value other than a text. -/
def ClientIdExistsValidator.validate (st : Store) (object : Json) (value : Option Json) :
    Except Failure Bool :=
  if !Json.truthy value then .ok true
  else if !Json.truthy (object.get? "grant_type") then .ok true
  else
    match value with
    | some (.str id) => (ClientRepoService.find id st).map fun result =>
      match result with
      | some client => !client.is_revoked && textIs (· = client.grant_type.text) object "grant_type"
      | none => false
    | _ => .error .database

/-- `@ClientIdExists()`. -/
def Constraint.clientIdExists (st : Store) : Constraint :=
  ⟨"ClientIdExists", fun _ => "The client id is not valid", ClientIdExistsValidator.validate st⟩

/-! ## The DTOs -/

/-- `obj.grant_type === grantType` for one of `grantTypes`. -/
def hasGrantType (grantTypes : List GrantTypes) (o : Json) : Bool :=
  textIs (· ∈ grantTypes.map GrantTypes.text) o "grant_type"

/-- `AccessTokenDto`. -/
def AccessTokenDto.properties (app : App) : List Property := [
  { name := "email"
    condition := hasGrantType [.ImplicitPassword]
    constraints := [.isEmail app.isEmail, .isNotEmpty] },
  { name := "password"
    condition := hasGrantType [.ImplicitPassword]
    constraints := [.isString, .isNotEmpty] },
  { name := "client_id"
    condition := hasGrantType [.ImplicitPassword, .AuthorizationCode]
    constraints := [.isUuid app.isUUID4, .isString, .isNotEmpty] },
  { name := "client_secret"
    condition := hasGrantType [.ImplicitPassword, .AuthorizationCode]
    constraints := [.isString, .isNotEmpty] },
  { name := "grant_type"
    constraints := [.isEnum (GrantTypes.all.map GrantTypes.text), .isNotEmpty] },
  { name := "code_verifier"
    condition := hasGrantType [.PKCE]
    constraints := [.isString, .isNotEmpty] },
  { name := "code"
    condition := hasGrantType [.PKCE, .AuthorizationCode]
    constraints := [.isUuid app.isUUID4, .isNotEmpty] }]

/-- `RefreshTokenDto`. -/
def RefreshTokenDto.properties (app : App) : List Property := [
  { name := "refresh_token", constraints := [.isString, .isNotEmpty] },
  { name := "client_id", constraints := [.isUuid app.isUUID, .isNotEmpty] },
  { name := "client_secret", constraints := [.isString, .isNotEmpty] }]

/-- `AuthorizationDto`. `state` is only `@Allow`ed. -/
def AuthorizationDto.properties (app : App) (st : Store) : List Property := [
  { name := "grant_type"
    constraints := [.isNotIn [GrantTypes.ImplicitPassword.text],
      .isEnum (GrantTypes.all.map GrantTypes.text), .isNotEmpty] },
  { name := "client_id"
    constraints := [.clientIdExists st, .isUuid app.isUUID, .isNotEmpty] },
  { name := "code_challenge"
    condition := hasGrantType [.PKCE]
    constraints := [.isString, .isNotEmpty] },
  { name := "algorithm"
    condition := hasGrantType [.PKCE]
    constraints := [.isIn ["sha512", "sha256"], .isString, .isNotEmpty] },
  { name := "redirect_url"
    constraints := [.isUrl app.isURL, .isNotEmpty] }]

/-- `LoginDto`. -/
def LoginDto.properties (app : App) (st : Store) : List Property := [
  { name := "token"
    constraints := [.isNotEmpty]
    nested := fun v => v.elim (.ok ([], []))
      (nestedErrors "token" (AuthorizationDto.properties app st)) },
  { name := "email", constraints := [.isEmail app.isEmail, .isNotEmpty] },
  { name := "password", constraints := [.isString, .isNotEmpty] }]

/-- `PasswordDto`. -/
def PasswordDto.properties (app : App) : List Property := [
  { name := "token", constraints := [.isString, .isNotEmpty] },
  { name := "email", constraints := [.isEmail app.isEmail, .isNotEmpty] }]

theorem hasGrantType_iff {gs : List GrantTypes} {o : Json} :
    hasGrantType gs o = true ↔ ∃ g ∈ gs, o.get? "grant_type" = some (.str g.text) := by
  unfold hasGrantType
  rw [textIs_iff]
  constructor
  · rintro ⟨s, hs, hm⟩
    obtain ⟨g, hg, rfl⟩ := List.mem_map.mp (of_decide_eq_true hm)
    exact ⟨g, hg, hs⟩
  · rintro ⟨g, hg, hs⟩
    exact ⟨g.text, hs, decide_eq_true (List.mem_map_of_mem hg)⟩

/-- The grant type of a validated token request is a string. -/
theorem AccessTokenDto.grant_type {app : App} {body : Option Json} {o : Json}
    (h : validate (AccessTokenDto.properties app) body = .ok o) :
    o.get? "grant_type" = some (.str (text o "grant_type")) := by
  obtain ⟨-, -, hprops⟩ := validate_eq_ok.mp h
  obtain ⟨henum, -⟩ := hprops
    { name := "grant_type"
      constraints := [.isEnum (GrantTypes.all.map GrantTypes.text), .isNotEmpty] }
    (by simp [properties]) rfl
  obtain ⟨s, hs, -⟩ := Constraint.isEnum_check.mp (henum _ (List.mem_cons_self ..))
  rw [hs, text_of_get? hs]

/-- The verifier of a validated PKCE request is a string. -/
theorem AccessTokenDto.code_verifier {app : App} {body : Option Json} {o : Json}
    (h : validate (AccessTokenDto.properties app) body = .ok o)
    (hg : text o "grant_type" = GrantTypes.PKCE.text) :
    o.get? "code_verifier" = some (.str (text o "code_verifier")) := by
  have hcond : hasGrantType [.PKCE] o = true :=
    hasGrantType_iff.mpr ⟨.PKCE, List.mem_singleton.mpr rfl, hg ▸ AccessTokenDto.grant_type h⟩
  obtain ⟨-, -, hprops⟩ := validate_eq_ok.mp h
  obtain ⟨hstring, -⟩ := hprops
    { name := "code_verifier"
      condition := hasGrantType [.PKCE]
      constraints := [.isString, .isNotEmpty] } (by simp [properties]) hcond
  obtain ⟨s, hs⟩ := Constraint.isString_check.mp (hstring _ (List.mem_cons_self ..))
  rw [hs, text_of_get? hs]

end NestTemplate
