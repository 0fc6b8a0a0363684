import Mathlib
import NestTemplate.Common.Bytes

/-!
# Column types and rows

The rows of `databases/models`. Times are milliseconds since the epoch. The
columns `created_at` and `updated_at` are left out: nothing reads them.

* `Uuid`: a `uuid` column, read back in one spelling (`Uuid.ofText?_toString`).
* `GrantTypes`: the enumeration and its texts.
-/

namespace NestTemplate

open Common

/-! ## Column types -/

/-- One character of a UUID in text form, at index `i`. -/
def isUuidChar (i : ℕ) (c : Char) : Bool :=
  if i = 8 ∨ i = 13 ∨ i = 18 ∨ i = 23 then c = '-' else (hexValue c).isSome

/-- 32 hexadecimal digits in the groups 8-4-4-4-12. -/
def isUuidText (cs : List Char) : Bool :=
  cs.length = 36 ∧ (cs.zipIdx.all fun (c, i) => isUuidChar i c)

/-- PostgreSQL's `uuid`. It reads digits of either case and prints lower case. -/
structure Uuid where
  text : List Char
  wellFormed : isUuidText text = true
  canonical : text.map Char.toLower = text
  deriving DecidableEq

/-- The text a `uuid` column is read back as. -/
def Uuid.toString (u : Uuid) : String := String.ofList u.text

theorem isUuidChar_toLower (i : ℕ) (c : Char) : isUuidChar i c.toLower = isUuidChar i c := by
  by_cases h : c.isUpper
  · have h₁ : 65 ≤ c.toNat ∧ c.toNat ≤ 90 := by
      simpa [Char.isUpper, UInt32.le_iff_toNat_le] using h
    have : ∀ n : Fin 26, isUuidChar i (Char.ofNat (65 + n)).toLower =
        isUuidChar i (Char.ofNat (65 + n)) := by
      unfold isUuidChar
      split <;> decide
    have hc := this ⟨c.toNat - 65, by omega⟩
    rwa [show 65 + (c.toNat - 65) = c.toNat by omega, Char.ofNat_toNat] at hc
  · rw [Char.toLower_eq_of_not_isUpper h]

theorem isUuidText_toLower (cs : List Char) : isUuidText (cs.map Char.toLower) = isUuidText cs := by
  unfold isUuidText
  rw [List.zipIdx_map, List.all_map, List.length_map]
  congr 2
  simp [Function.comp_def, isUuidChar_toLower]

/-- The `uuid` a text denotes; PostgreSQL fails on any other text. (It also reads a few spellings
    without hyphens or with braces, which `@IsUUID()` keeps away from it.) -/
def Uuid.ofText? (s : String) : Option Uuid :=
  if h : isUuidText s.toList = true then
    some ⟨s.toList.map Char.toLower, by rw [isUuidText_toLower]; exact h, by
      rw [List.map_map]
      exact List.map_congr_left fun c _ => c.toLower_toLower_eq_toLower⟩
  else none

theorem Uuid.toString_injective {u v : Uuid} (h : u.toString = v.toString) : u = v := by
  have : u.text = v.text := String.ofList_injective h
  cases u; cases v; cases this; rfl

/-- A `uuid` denotes itself. -/
@[simp] theorem Uuid.ofText?_toString (u : Uuid) : Uuid.ofText? u.toString = some u := by
  obtain ⟨cs, hw, hc⟩ := u
  simp only [Uuid.ofText?, Uuid.toString, String.toList_ofList, hw, dite_true, hc]

theorem Uuid.toString_ne_empty (u : Uuid) : u.toString ≠ "" := by
  intro h
  have hw := u.wellFormed
  rw [String.ofList_injective (h.trans (by rfl : "" = String.ofList []))] at hw
  cases hw

/-- `GrantTypes`. -/
inductive GrantTypes where
  | ImplicitPassword
  | PKCE
  | AuthorizationCode
  deriving DecidableEq

/-- The enumeration's string values. -/
def GrantTypes.text : GrantTypes → String
  | .ImplicitPassword => "password"
  | .PKCE => "pkce"
  | .AuthorizationCode => "authorization-code"

/-- All values, in source order. -/
def GrantTypes.all : List GrantTypes := [.ImplicitPassword, .PKCE, .AuthorizationCode]

/-- The value a text names. -/
def GrantTypes.ofText? (s : String) : Option GrantTypes := GrantTypes.all.find? (·.text = s)

theorem GrantTypes.text_injective {g h : GrantTypes} (e : g.text = h.text) : g = h := by
  cases g <;> cases h <;> first | rfl | (revert e; decide)

@[simp] theorem GrantTypes.ofText?_text (g : GrantTypes) : GrantTypes.ofText? g.text = some g := by
  cases g <;> decide

theorem GrantTypes.text_of_ofText? {s : String} {g : GrantTypes}
    (h : GrantTypes.ofText? s = some g) : s = g.text := by
  unfold GrantTypes.ofText? at h
  have hp := List.find?_some h
  exact (of_decide_eq_true hp).symm

theorem GrantTypes.text_ne_empty (g : GrantTypes) : g.text ≠ "" := by cases g <;> decide

/-! ## Rows -/

/-- `users`. -/
structure UserModel where
  id : ℕ
  email : String
  password : Option String
  deriving DecidableEq

/-- `oauth_clients`. -/
structure ClientModel where
  id : Uuid
  name : String
  secret : String
  is_revoked : Bool
  grant_type : GrantTypes
  deriving DecidableEq

/-- `oauth_authorization_challenges`. -/
structure AuthorizationChallengeModel where
  id : Uuid
  user_id : ℕ
  client_id : Uuid
  challenge : String
  algorithm : String
  deriving DecidableEq

/-- `oauth_access_tokens`. -/
structure AccessTokenModel where
  id : String
  client_id : Uuid
  user_id : Option ℕ
  expires_at : Option ℕ
  deriving DecidableEq

/-- `oauth_refresh_tokens`. -/
structure RefreshTokenModel where
  id : String
  access_token_id : String
  expires_at : Option ℕ
  deriving DecidableEq

end NestTemplate
