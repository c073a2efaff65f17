import AiManager.Lib.Hmac
import AiManager.Telemetry.Pipeline
import AiManager.Telemetry.Providers
import AiManager.Telemetry.Secrets

/-! # Signatures of webhooks

Some providers sign the body of a webhook, some send the secret along. What is accepted is exactly what somebody can
write who has the secret (`verifyWebhook_ok_iff`); slack also signs a time, and an old one is not accepted. -/

namespace AiManager.Telemetry

open Lib

/-! ## The checks -/

def hmacSha256Hex (key message : List UInt8) : String :=
  Sha256.hexBytes (Hmac.sha256 (key.map UInt8.toNat) (message.map UInt8.toNat))

/-- `s.as_bytes()` -/
def asBytes (s : String) : List UInt8 := Utf8.bytes s.toList

def signGithub (secret : String) (body : List UInt8) : String := "sha256=" ++ hmacSha256Hex (asBytes secret) body

def slackBase (timestamp : String) (body : List UInt8) : String := "v0:" ++ timestamp ++ ":" ++ Utf8.lossy body

def signSlack (secret timestamp : String) (body : List UInt8) : String :=
  "v0=" ++ hmacSha256Hex (asBytes secret) (asBytes (slackBase timestamp body))

def verifyGithubStyle (secret : String) (body : List UInt8) (signature : String) : Except String Unit :=
  let hexPart := ((Text.stripPrefix signature "sha256=").or (Text.stripPrefix signature "sha1=")).getD signature
  if Text.startsWith signature "sha1=" then .error "sha1 signatures are not accepted; use sha256"
  else if hmacSha256Hex (asBytes secret) body ≠ hexPart then .error "invalid HMAC signature"
  else .ok ()

def verifyGithub (secret : String) (body : List UInt8) : Option String → Except String Unit
  | none => .error "missing X-Hub-Signature-256"
  | some sig => verifyGithubStyle secret body sig

def verifySharedToken (secret : String) : Option String → Except String Unit
  | none => .error "missing shared secret header"
  | some provided => if secret ≠ provided then .error "invalid shared secret" else .ok ()

/-- An integer of 64 bits, as a release build computes it. -/
def wrapI64 (n : Int) : Int := Int.bmod n (2 ^ 64)

/-- More than five minutes lie between the two, in seconds. -/
def isStale (now : DateTime) (ts : Int) : Bool := 300 < wrapI64 |wrapI64 (now / DateTime.nanosPerSecond - ts)|

def verifySlack (secret : String) (body : List UInt8) (signature timestamp : Option String) (now : DateTime) :
    Except String Unit :=
  match signature with
  | none => .error "missing X-Slack-Signature"
  | some signature =>
    match timestamp with
    | none => .error "missing X-Slack-Request-Timestamp"
    | some timestamp =>
      -- a time that is not a number is not looked at
      if (parseI64 timestamp).any (isStale now) then .error "slack timestamp too old"
      else if signSlack secret timestamp body ≠ signature then .error "invalid slack signature"
      else .ok ()

def verifyWebhook (provider : SourceProvider) (secret : String) (body : List UInt8) (headers : IngestHeaders)
    (now : DateTime) : Except String Unit :=
  match provider with
  | .github => verifyGithub secret body headers.signature256
  | .gitlab => verifySharedToken secret headers.gitlabToken
  | .jira =>
    match headers.signature.or headers.signature256 with
    | some sig => verifyGithubStyle secret body sig
    | none => verifySharedToken secret headers.sharedSecret
  | .linear => verifySharedToken secret (headers.sharedSecret.or headers.linearSignature)
  | .slack => verifySlack secret body headers.slackSignature headers.slackTimestamp now
  | .teams | .zendesk => verifySharedToken secret headers.sharedSecret
  | .unspecified => .error "unspecified provider"

theorem parseI64_range {s : String} {n : Int} (h : parseI64 s = some n) : -2 ^ 63 ≤ n ∧ n < 2 ^ 63 := by
  have hrange := (Option.filter_eq_some_iff.mp h).2
  rw [Bool.and_eq_true, decide_eq_true_iff, decide_eq_true_iff] at hrange
  exact hrange

theorem wrapI64_eq {n : Int} (h : -2 ^ 63 ≤ n ∧ n < 2 ^ 63) : wrapI64 n = n :=
  Int.bmod_eq_of_le (by omega) (by omega)

theorem wrapI64_sub (n : Int) : wrapI64 (n - 2 ^ 64) = wrapI64 n := Int.sub_bmod_right n (2 ^ 64)

/-- The absolute value of a difference, as it wraps. -/
theorem wrapI64_abs_le_iff {d : Int} (hd : -2 ^ 63 < d ∧ d < 2 ^ 63 + 2 ^ 62) :
    wrapI64 |wrapI64 d| ≤ 300 ↔ |d| ≤ 300 ∨ d = 2 ^ 63 := by
  rcases lt_trichotomy d (2 ^ 63) with hlt | rfl | hgt
  · have hwrap : wrapI64 d = d := wrapI64_eq ⟨hd.1.le, hlt⟩
    have hpos : 0 ≤ |d| := abs_nonneg d
    have habs : wrapI64 |d| = |d| := wrapI64_eq ⟨by omega, abs_lt.mpr ⟨hd.1, hlt⟩⟩
    rw [hwrap, habs]
    exact (or_iff_left hlt.ne).symm
  · -- the smallest number has no absolute value
    decide
  · have hwrap : wrapI64 d = d - 2 ^ 64 := (wrapI64_sub d).symm.trans (wrapI64_eq ⟨by omega, by omega⟩)
    have hneg : |d - 2 ^ 64| = 2 ^ 64 - d := by rw [abs_of_neg (by omega), neg_sub]
    have hpos : |d| = d := abs_of_pos (by omega)
    rw [hwrap, hneg, wrapI64_eq ⟨by omega, by omega⟩, hpos]
    omega

/-- By a clock after the epoch a time is within five minutes that is not stale, or `2 ^ 63` seconds back. -/
theorem not_isStale_iff {now : DateTime} {ts : Int} (hnow : 0 ≤ now / DateTime.nanosPerSecond ∧
    now / DateTime.nanosPerSecond < 2 ^ 62) (hts : -2 ^ 63 ≤ ts ∧ ts < 2 ^ 63) :
    isStale now ts = false ↔
      |now / DateTime.nanosPerSecond - ts| ≤ 300 ∨ now / DateTime.nanosPerSecond - ts = 2 ^ 63 := by
  unfold isStale
  rw [decide_eq_false_iff_not, not_lt]
  obtain ⟨secs, hsecs⟩ : ∃ secs : Int, now / DateTime.nanosPerSecond = secs := ⟨_, rfl⟩
  rw [hsecs] at hnow ⊢
  have hlow : 0 ≤ secs := hnow.1
  have hhigh : secs < 2 ^ 62 := hnow.2
  exact wrapI64_abs_le_iff ⟨by omega, by omega⟩

/-! ## What is accepted -/

/-- The signature of a body, with the name of the hash in front or without. -/
def SignedBody (secret : String) (body : List UInt8) (signature : String) : Prop :=
  signature = signGithub secret body ∨ signature = hmacSha256Hex (asBytes secret) body

/-- What a request has that was made with the secret. -/
def Signed (provider : SourceProvider) (secret : String) (body : List UInt8) (headers : IngestHeaders) (now : DateTime) :
    Prop :=
  match provider with
  | .github => ∃ sig, headers.signature256 = some sig ∧ SignedBody secret body sig
  | .gitlab => headers.gitlabToken = some secret
  | .jira => (∃ sig, headers.signature.or headers.signature256 = some sig ∧ SignedBody secret body sig) ∨
      headers.signature.or headers.signature256 = none ∧ headers.sharedSecret = some secret
  | .linear => headers.sharedSecret.or headers.linearSignature = some secret
  | .slack => ∃ timestamp, headers.slackTimestamp = some timestamp ∧
      headers.slackSignature = some (signSlack secret timestamp body) ∧
        ∀ ts, parseI64 timestamp = some ts → isStale now ts = false
  | .teams | .zendesk => headers.sharedSecret = some secret
  | .unspecified => False

section Checks
variable {secret : String} {body : List UInt8} {now : DateTime}

/-- A keyed hash in hexadecimal does not begin like the name of a hash. -/
theorem not_startsWith_hmacSha256Hex {p : String} {c : Char} {cs : List Char} (hp : p.toList = c :: cs)
    (hc : c ∉ Sha256.hexDigits) (key message : List UInt8) : Text.startsWith (hmacSha256Hex key message) p = false := by
  rw [Bool.eq_false_iff, Ne, Text.startsWith, List.isPrefixOf_iff_prefix, hp]
  intro hbegins
  exact hc (Sha256.mem_hexBytes (hbegins.subset List.mem_cons_self))

theorem verifyGithubStyle_ok_iff {sig : String} :
    verifyGithubStyle secret body sig = .ok () ↔ SignedBody secret body sig := by
  unfold verifyGithubStyle SignedBody
  dsimp only
  constructor
  · intro h
    split_ifs at h with hsha1 hhex
    rw [not_not] at hhex
    cases hstrip : Text.stripPrefix sig "sha256=" with
    | some rest =>
      rw [hstrip, Option.some_or, Option.getD_some] at hhex
      rw [signGithub, hhex]
      exact .inl (TenantSecrets.eq_append_of_stripPrefix hstrip)
    | none =>
      have hnone : Text.stripPrefix sig "sha1=" = none := if_neg hsha1
      rw [hstrip, hnone, Option.none_or, Option.getD_none] at hhex
      exact .inr hhex.symm
  · rintro (rfl | rfl)
    · have hstrip : Text.stripPrefix (signGithub secret body) "sha256=" = some (hmacSha256Hex (asBytes secret) body) :=
        Text.stripPrefix_append _ _
      have hsha1 : ¬ Text.startsWith (signGithub secret body) "sha1=" = true := by
        rw [Text.startsWith, List.isPrefixOf_iff_prefix, signGithub, String.toList_append]
        intro hbegins
        have hthird := hbegins.getElem (i := 3) (by decide)
        exact absurd hthird (by simp)
      rw [hstrip, Option.some_or, Option.getD_some, if_neg hsha1, if_neg (not_not.mpr rfl)]
    · have h256 := not_startsWith_hmacSha256Hex (p := "sha256=") rfl (by decide) (asBytes secret) body
      have hsha1 := not_startsWith_hmacSha256Hex (p := "sha1=") rfl (by decide) (asBytes secret) body
      rw [Text.stripPrefix, Text.stripPrefix, h256, hsha1]
      simp

theorem verifySharedToken_ok_iff {provided : Option String} :
    verifySharedToken secret provided = .ok () ↔ provided = some secret := by
  cases provided with
  | none => simp [verifySharedToken]
  | some token => simp [verifySharedToken, eq_comm]

theorem verifySlack_ok_iff {signature timestamp : Option String} :
    verifySlack secret body signature timestamp now = .ok () ↔ ∃ t, timestamp = some t ∧
      signature = some (signSlack secret t body) ∧ ∀ ts, parseI64 t = some ts → isStale now ts = false := by
  unfold verifySlack
  cases signature with
  | none => simp
  | some sig =>
    cases timestamp with
    | none => simp
    | some t =>
      have hfresh : (parseI64 t).any (isStale now) = false ↔ ∀ ts, parseI64 t = some ts → isStale now ts = false := by
        cases parseI64 t <;> simp
      simp only [Option.some.injEq, exists_eq_left', ← hfresh]
      split_ifs with hstale hsig
      · simp [hstale]
      · simp [Ne.symm hsig]
      · rw [not_not] at hsig
        simp [hstale, hsig]

end Checks

/-- A webhook is accepted just if it was made with the secret. -/
theorem verifyWebhook_ok_iff {provider : SourceProvider} {secret : String} {body : List UInt8} {headers : IngestHeaders}
    {now : DateTime} :
    verifyWebhook provider secret body headers now = .ok () ↔ Signed provider secret body headers now := by
  cases provider with
  | github =>
    show verifyGithub secret body headers.signature256 = _ ↔ ∃ sig, _
    cases headers.signature256 with
    | none => simp [verifyGithub]
    | some sig => simp [verifyGithub, verifyGithubStyle_ok_iff]
  | jira =>
    unfold verifyWebhook Signed
    dsimp only
    cases headers.signature.or headers.signature256 with
    | none => simp [verifySharedToken_ok_iff]
    | some sig => simp [verifyGithubStyle_ok_iff]
  | slack => exact verifySlack_ok_iff
  | gitlab => exact verifySharedToken_ok_iff
  | linear => exact verifySharedToken_ok_iff
  | teams => exact verifySharedToken_ok_iff
  | zendesk => exact verifySharedToken_ok_iff
  | unspecified => simp [verifyWebhook, Signed]

/-- A slack request whose time is a number is accepted within five minutes of it, unless the difference overflows. -/
theorem Signed.recent {secret : String} {body : List UInt8} {headers : IngestHeaders} {now : DateTime}
    {timestamp : String} {ts : Int} (h : Signed .slack secret body headers now) (htimestamp : headers.slackTimestamp = some timestamp)
    (hparse : parseI64 timestamp = some ts)
    (hnow : 0 ≤ now / DateTime.nanosPerSecond ∧ now / DateTime.nanosPerSecond < 2 ^ 62) :
    |now / DateTime.nanosPerSecond - ts| ≤ 300 ∨ now / DateTime.nanosPerSecond - ts = 2 ^ 63 := by
  obtain ⟨t, ht, -, hfresh⟩ := h
  obtain rfl : t = timestamp := Option.some.inj (ht.symm.trans htimestamp)
  exact (not_isStale_iff hnow (parseI64_range hparse)).mp (hfresh ts hparse)

end AiManager.Telemetry
