import NestTemplate.Auth.Runs
import NestTemplate.Common.Base64

/-!
# The comparison of a PKCE challenge

A client sends base64url without padding, of any length; the code makes
standard base64 of it before it decodes.

* `challengeBuf_base64UrlEncode`: the bytes behind a challenge.
* `compare_iff_hash`: the comparison decides the equation of the hashes.
* `verifyChallenge_base64Url`: what follows for a code.
-/

namespace NestTemplate

open Common

namespace AuthorizationChallengeRepoService

/-- The translation and the padding invert the encoding, for bytes of any number. -/
@[simp] theorem challengeBuf_base64UrlEncode (d : Bytes) :
    challengeBuf (base64UrlEncode d) = d := by
  have hchars : (fun c => if c = '-' then '+' else if c = '_' then '/' else c) = toStandardChar :=
    rfl
  unfold challengeBuf
  rw [hchars]
  dsimp only
  rw [base64Url_toStandard, String.ofList_toList, base64Decode_base64Encode]

theorem compareChallengeAndVerifier_base64Url {app : App} {algorithm : String}
    {hash : Bytes → Bytes} (h : app.createHash algorithm = some hash) (verifier : String)
    (d : Bytes) : compareChallengeAndVerifier app (base64UrlEncode d) verifier algorithm =
      .ok (d = hash (utf8 verifier)) := by
  unfold compareChallengeAndVerifier
  rw [h]
  simp only [challengeBuf_base64UrlEncode]

/-- **Main theorem**: a challenge matches exactly the verifiers with the hash it was made of, and
    so the honest client's. -/
theorem compare_iff_hash {app : App} {algorithm : String} {hash : Bytes → Bytes}
    (h : app.createHash algorithm = some hash) (verifier : String) (d : Bytes) :
    (compareChallengeAndVerifier app (base64UrlEncode d) verifier algorithm = .ok true ↔
        d = hash (utf8 verifier)) ∧
      compareChallengeAndVerifier app (base64UrlEncode (hash (utf8 verifier))) verifier
        algorithm = .ok true := by
  constructor
  · rw [compareChallengeAndVerifier_base64Url h, Except.ok.injEq, decide_eq_true_iff]
  · rw [compareChallengeAndVerifier_base64Url h, decide_eq_true rfl]

/-- The verifier of the challenge and its challenge, from the PKCE standard. -/
theorem compare_iff_hash_sample :
    compareChallengeAndVerifier Sample.app (base64UrlEncode [19, 211, 30, 150, 26, 26, 216, 236,
        47, 22, 177, 12, 76, 152, 46, 8, 118, 168, 120, 173, 109, 241, 68, 86, 110, 225, 137, 74,
        203, 112, 249, 195]) "dBjftJeZ4CVP-mB92K27uhbUJU1p1r_wW1gFWFOEjXk" "sha256" = .ok true :=
  (compare_iff_hash rfl _ _).1.mpr rfl

example : base64UrlEncode [19, 211, 30, 150, 26, 26, 216, 236, 47, 22, 177, 12, 76, 152, 46, 8,
    118, 168, 120, 173, 109, 241, 68, 86, 110, 225, 137, 74, 203, 112, 249, 195] =
      "E9Melhoa2OwvFrEMTJguCHaoeK1t8URWbuGJSstw-cM" := by decide

/-- A code with such a challenge is redeemed by the verifiers with its hash. -/
theorem verifyChallenge_base64Url {app : App} {env : Env} {code verifier : String}
    {st st' : Store} {record : ChallengeRecord} {hash : Bytes → Bytes} {d : Bytes}
    (h : app.createHash record.row.algorithm = some hash)
    (hd : record.row.challenge = base64UrlEncode d) :
    verifyChallenge app env code verifier st = (.ok (some record), st') ↔
      consumeCode env code st = (.ok record, st') ∧ d = hash (utf8 verifier) := by
  have hcompare : compareChallengeAndVerifier app record.row.challenge verifier
      record.row.algorithm = .ok (d = hash (utf8 verifier)) := by
    rw [hd, compareChallengeAndVerifier_base64Url h]
  rw [verifyChallenge_eq_ok, hcompare, Except.ok.injEq, decide_eq_true_iff]

end AuthorizationChallengeRepoService

end NestTemplate
