import NestTemplate.Common.Json

/-!
# Failures of a request and DTO validation

`Failure` lists the errors the modelled code throws, with their texts.
`Constraint`, `Property` and `validate` are class-validator's decorators and
its `validateOrReject`: a DTO is a list of properties, each with the
constraints its decorators register, in registration order (the decorator
nearest to the property first). A constraint may look something up and fail
itself; that failure ends the validation.

* `validate_eq_ok`: validation passes iff every constraint of every property
  whose condition holds passes.
-/

namespace NestTemplate

open Common

/-- class-validator's `ValidationError`, without the target and the value. -/
structure ValidationError where
  property : String
  constraints : List (String × String)
  children : List ValidationError

/-- What the modelled code throws. -/
inductive Failure where
  /-- `new NotFoundException(message)`. -/
  | notFound (message : Option String)
  /-- `new UnauthorizedException()`. -/
  | unauthorized
  /-- What a guard that returns `false` ends in. -/
  | forbidden
  /-- `new UnprocessableEntityException(errors)`. -/
  | unprocessable (errors : List ValidationError)
  /-- `new UnprocessableEntityException(err)` around another error. -/
  | unprocessableCause (cause : Failure)
  /-- Sequelize's `EmptyResultError`. -/
  | emptyResult
  /-- Any other error of the database. -/
  | database
  /-- jsonwebtoken's `JsonWebTokenError`. -/
  | jsonWebToken
  /-- The `SyntaxError` of `JSON.parse`. -/
  | syntaxError
  /-- An `Error` or `TypeError` with its message. -/
  | error (message : String)

/-! ## class-validator -/

/-- One decorator of a property. -/
structure Constraint where
  name : String
  /-- The message for the property's name. -/
  message : String → String
  /-- The check, of the object and the property's value. -/
  check : Json → Option Json → Except Failure Bool

/-- What `@ValidateNested` adds to a property's error: constraints and children. -/
abbrev Nested := List (String × String) × List ValidationError

/-- A decorated property of a DTO. -/
structure Property where
  name : String
  /-- `@ValidateIf`. -/
  condition : Json → Bool := fun _ => true
  constraints : List Constraint
  /-- `@ValidateNested`, of the property's value. -/
  nested : Option Json → Except Failure Nested := fun _ => .ok ([], [])

namespace Constraint

/-- A constraint on the value alone. -/
def ofValue (name text : String) (p : Option Json → Bool) : Constraint :=
  ⟨name, fun property => property ++ text, fun _ v => .ok (p v)⟩

/-- Whether a value is a string that satisfies `p`. -/
def onString (p : String → Bool) (v : Option Json) : Bool :=
  match v with
  | some (.str s) => p s
  | _ => false

/-- `@IsNotEmpty()`. -/
def isNotEmpty : Constraint := ofValue "isNotEmpty" " should not be empty" fun v =>
  match v with
  | none | some .null => false
  | some (.str s) => s ≠ ""
  | some _ => true

/-- `@IsString()`. -/
def isString : Constraint := ofValue "isString" " must be a string" (onString fun _ => true)

/-- `@IsEmail()`; `p` is validator.js's `isEmail`. -/
def isEmail (p : String → Bool) : Constraint := ofValue "isEmail" " must be an email" (onString p)

/-- `@IsUUID()`; `p` is validator.js's `isUUID` for the version asked for. -/
def isUuid (p : String → Bool) : Constraint := ofValue "isUuid" " must be a UUID" (onString p)

/-- `@IsUrl()`; `p` is validator.js's `isURL` with the options given. -/
def isUrl (p : String → Bool) : Constraint :=
  ofValue "isUrl" " must be a URL address" (onString p)

/-- `@IsEnum(entity)` for the string values of an enumeration. -/
def isEnum (values : List String) : Constraint :=
  ofValue "isEnum" (" must be one of the following values: " ++ ", ".intercalate values)
    (onString (· ∈ values))

/-- `@IsIn(values)`. -/
def isIn (values : List String) : Constraint :=
  ofValue "isIn" (" must be one of the following values: " ++ ", ".intercalate values)
    (onString (· ∈ values))

/-- `@IsNotIn(values)`. -/
def isNotIn (values : List String) : Constraint :=
  ofValue "isNotIn" (" should not be one of the following values: " ++ ", ".intercalate values)
    fun v => !onString (· ∈ values) v

@[simp] theorem ofValue_check {name text : String} {p : Option Json → Bool} {o : Json}
    {v : Option Json} : (ofValue name text p).check o v = .ok true ↔ p v = true := by
  simp [ofValue]

theorem onString_iff {p : String → Bool} {v : Option Json} :
    onString p v = true ↔ ∃ s, v = some (.str s) ∧ p s = true := by
  unfold onString
  split <;> simp_all

/-- The string constraints pass on strings only. -/
theorem isString_check {o : Json} {v : Option Json} :
    isString.check o v = .ok true ↔ ∃ s, v = some (.str s) := by
  simp [isString, onString_iff]

theorem isEmail_check {p : String → Bool} {o : Json} {v : Option Json} :
    (isEmail p).check o v = .ok true ↔ ∃ s, v = some (.str s) ∧ p s = true := by
  simp [isEmail, onString_iff]

theorem isUuid_check {p : String → Bool} {o : Json} {v : Option Json} :
    (isUuid p).check o v = .ok true ↔ ∃ s, v = some (.str s) ∧ p s = true := by
  simp [isUuid, onString_iff]

theorem isUrl_check {p : String → Bool} {o : Json} {v : Option Json} :
    (isUrl p).check o v = .ok true ↔ ∃ s, v = some (.str s) ∧ p s = true := by
  simp [isUrl, onString_iff]

theorem isEnum_check {values : List String} {o : Json} {v : Option Json} :
    (isEnum values).check o v = .ok true ↔ ∃ s, v = some (.str s) ∧ s ∈ values := by
  simp [isEnum, onString_iff]

theorem isIn_check {values : List String} {o : Json} {v : Option Json} :
    (isIn values).check o v = .ok true ↔ ∃ s, v = some (.str s) ∧ s ∈ values := by
  simp [isIn, onString_iff]

theorem isNotIn_check {values : List String} {o : Json} {s : String} :
    (isNotIn values).check o (some (.str s)) = .ok true ↔ s ∉ values := by
  simp [isNotIn, onString]

theorem isNotEmpty_check {o : Json} {s : String} :
    isNotEmpty.check o (some (.str s)) = .ok true ↔ s ≠ "" := by
  simp [isNotEmpty]

end Constraint

/-- The constraints of `cs` that the value fails, as names and messages. -/
def violations (o : Json) (property : String) (v : Option Json) :
    List Constraint → Except Failure (List (String × String))
  | [] => .ok []
  | c :: cs =>
    match c.check o v, violations o property v cs with
    | .error e, _ => .error e
    | .ok _, .error e => .error e
    | .ok passed, .ok vs => .ok (if passed then vs else (c.name, c.message property) :: vs)

/-- The errors of one property. -/
def Property.errors (o : Json) (p : Property) : Except Failure (List ValidationError) :=
  if p.condition o then
    match violations o p.name (o.get? p.name) p.constraints, p.nested (o.get? p.name) with
    | .error e, _ => .error e
    | .ok _, .error e => .error e
    | .ok [], .ok ([], []) => .ok []
    | .ok vs, .ok (ws, children) => .ok [⟨p.name, vs ++ ws, children⟩]
  else .ok []

/-- The errors of all properties. -/
def propertyErrors (o : Json) : List Property → Except Failure (List ValidationError)
  | [] => .ok []
  | p :: ps =>
    match p.errors o, propertyErrors o ps with
    | .error e, _ => .error e
    | .ok _, .error e => .error e
    | .ok es, .ok fs => .ok (es ++ fs)

mutual

/-- `@ValidateNested() @Type(() => Dto)` on the property `name`, where `ps` are the properties of
    `Dto`. The elements of an array are validated one by one. -/
def nestedErrors (name : String) (ps : List Property) : Json → Except Failure Nested
  | .null => .ok ([], [])
  | .obj ms => (propertyErrors (.obj ms) ps).map fun es => ([], es)
  | .arr vs => (nestedElements name ps 0 vs).map fun es => ([], es)
  | _ => .ok ([("nestedValidation",
      "nested property " ++ name ++ " must be either object or array")], [])

/-- The errors of the elements from index `i` on. -/
def nestedElements (name : String) (ps : List Property) (i : ℕ) :
    List Json → Except Failure (List ValidationError)
  | [] => .ok []
  | v :: vs =>
    match nestedErrors name ps v, nestedElements name ps (i + 1) vs with
    | .error e, _ => .error e
    | .ok _, .error e => .error e
    | .ok ([], []), .ok fs => .ok fs
    | .ok (ws, children), .ok fs => .ok (⟨toString i, ws, children⟩ :: fs)

end

/-- The error for a value class-validator has no metadata for. -/
def unknownValue : ValidationError :=
  ⟨"", [("unknownValue", "an unknown value was passed to the validate function")], []⟩

/-- `validateOrReject(plainToInstance(dto, body))` under the `catch` of the strategies: only an
    object becomes an instance of the DTO. -/
def validate (ps : List Property) (body : Option Json) : Except Failure Json :=
  match body with
  | some (.obj ms) =>
    match propertyErrors (.obj ms) ps with
    | .ok [] => .ok (.obj ms)
    | .ok es => .error (.unprocessable es)
    | .error e => .error (.unprocessableCause e)
  | some _ => .error (.unprocessable [unknownValue])
  | none => .error (.unprocessableCause (.error "Cannot read properties of undefined"))

/-! ## When validation passes -/

theorem violations_eq_nil {o : Json} {property : String} {v : Option Json} {cs : List Constraint} :
    violations o property v cs = .ok [] ↔ ∀ c ∈ cs, c.check o v = .ok true := by
  induction cs with
  | nil => simp [violations]
  | cons c cs ih =>
    rw [List.forall_mem_cons, ← ih, violations]
    cases c.check o v with
    | error e => simp
    | ok passed => cases violations o property v cs <;> cases passed <;> simp

/-- The value meets all constraints of the property, where its condition holds. -/
def Property.Holds (o : Json) (p : Property) : Prop :=
  p.condition o = true →
    (∀ c ∈ p.constraints, c.check o (o.get? p.name) = .ok true) ∧
      p.nested (o.get? p.name) = .ok ([], [])

theorem Property.errors_eq_nil {o : Json} {p : Property} : p.errors o = .ok [] ↔ p.Holds o := by
  unfold Property.errors Property.Holds
  rw [← @violations_eq_nil o p.name]
  split
  · rename_i h
    simp only [h, true_implies]
    split <;> simp_all
  · rename_i h
    simp [h]

theorem propertyErrors_eq_nil {o : Json} {ps : List Property} :
    propertyErrors o ps = .ok [] ↔ ∀ p ∈ ps, p.errors o = .ok [] := by
  induction ps with
  | nil => simp [propertyErrors]
  | cons p ps ih =>
    rw [List.forall_mem_cons, ← ih, propertyErrors]
    cases p.errors o with
    | error e => simp
    | ok es => cases propertyErrors o ps <;> simp

theorem nestedErrors_obj {name : String} {ps : List Property} {ms : List (String × Json)} :
    nestedErrors name ps (.obj ms) = .ok ([], []) ↔ ∀ p ∈ ps, p.Holds (.obj ms) := by
  rw [← forall₂_congr fun p _ => @Property.errors_eq_nil (.obj ms) p, ← propertyErrors_eq_nil,
    nestedErrors]
  cases propertyErrors (.obj ms) ps <;> simp [Except.map]

/-- Validation passes iff the body is an object whose properties all meet their constraints. -/
theorem validate_eq_ok {ps : List Property} {body : Option Json} {o : Json} :
    validate ps body = .ok o ↔
      body = some o ∧ (∃ ms, o = .obj ms) ∧ ∀ p ∈ ps, p.Holds o := by
  have key : ∀ ms, propertyErrors (.obj ms) ps = .ok [] ↔ ∀ p ∈ ps, p.Holds (.obj ms) := by
    intro ms
    rw [propertyErrors_eq_nil]
    exact forall₂_congr fun p _ => Property.errors_eq_nil
  cases body with
  | none => simp [validate]
  | some j =>
    cases j with
    | obj ms =>
      constructor
      · intro h
        simp only [validate] at h
        split at h
        · rename_i hnil
          cases h
          exact ⟨rfl, ⟨ms, rfl⟩, (key ms).mp hnil⟩
        · cases h
        · cases h
      · rintro ⟨h, -, hps⟩
        cases h
        simp only [validate, (key ms).mpr hps]
    | _ => simp [validate]; rintro rfl; simp

/-- What passes validation is the body itself. -/
theorem validate_of_toOption {ps : List Property} {ms : List (String × Json)}
    (h : (validate ps (some (.obj ms))).toOption.isSome = true) :
    validate ps (some (.obj ms)) = .ok (.obj ms) := by
  cases hv : validate ps (some (.obj ms)) with
  | error e => rw [hv] at h; cases h
  | ok o =>
    obtain ⟨ho, -⟩ := validate_eq_ok.mp hv
    cases ho
    rfl

end NestTemplate
