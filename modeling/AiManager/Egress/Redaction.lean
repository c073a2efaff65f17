import AiManager.Lib.Percent
import AiManager.Lib.Replace
import AiManager.Egress.Transparency

/-! # Redaction of answers

The secrets are taken out of the text of an answer one after the other. As the replacement stands in brackets, none
comes back with the next. A body that is no text, and the headers, are passed on as they are. -/

namespace AiManager.Egress

open Lib

/-- The secret stands somewhere in the bytes. -/
def OccursIn (secret : String) (body : ByteArray) : Prop := secret.toUTF8.data.toList <:+: body.data.toList

/-- A secret that no replacement can contain. -/
structure Redactable (secret : String) : Prop where
  nonempty : secret ≠ ""
  opening : '[' ∉ secret.toList
  closing : ']' ∉ secret.toList
  word : ¬ secret.toList <:+: "REDACTED".toList

/-! ## Secret by secret -/

def redactStep (out s : String) : String :=
  if s = "" then out else if Text.contains out s then out.replace s "[REDACTED]" else out

theorem redactSecrets_cons (body s : String) (values : List String) :
    redactSecrets body (s :: values) = redactSecrets (redactStep body s) values := rfl

section Steps
variable {out s needle : String} {values : List String}

theorem redactStep_removes (h : Redactable s) (out : String) : ¬ s.toList <:+: (redactStep out s).toList := by
  unfold redactStep
  rw [if_neg h.nonempty]
  split
  · have hreplaced := Text.replaced_replace (s := out) "[REDACTED]" h.nonempty
    have hne : s.toList ≠ [] := fun hempty => h.nonempty (String.toList_eq_nil_iff.mp hempty)
    exact hreplaced.not_part hne h.opening h.closing h.word []
      fun a b hab hb => absurd (List.append_eq_nil_iff.mp hab.symm).2 hb
  · next habsent =>
    rw [← Text.isInfix_iff]
    exact habsent

/-- A secret that is gone does not come back with another one. -/
theorem redactStep_keeps (h : Redactable needle) (s : String) (habsent : ¬ needle.toList <:+: out.toList) :
    ¬ needle.toList <:+: (redactStep out s).toList := by
  unfold redactStep
  split
  · exact habsent
  · next hne =>
    split
    · have hreplaced := Text.replaced_replace (s := out) "[REDACTED]" hne
      exact fun hneedle => habsent (hreplaced.part_of_part h.opening h.closing h.word [] hneedle)
    · exact habsent

theorem redactSecrets_keeps (h : Redactable needle) (values : List String)
    (habsent : ¬ needle.toList <:+: out.toList) : ¬ needle.toList <:+: (redactSecrets out values).toList := by
  induction values generalizing out with
  | nil => exact habsent
  | cons s values ih => exact ih (redactStep_keeps h s habsent)

theorem redactSecrets_removes (h : ∀ s ∈ values, Redactable s) (body : String) :
    ∀ s ∈ values, ¬ s.toList <:+: (redactSecrets body values).toList := by
  induction values generalizing body with
  | nil => exact List.forall_mem_nil _
  | cons s values ih =>
    obtain ⟨hs, hvalues⟩ := List.forall_mem_cons.mp h
    rw [redactSecrets_cons]
    exact List.forall_mem_cons.mpr
      ⟨redactSecrets_keeps hs values (redactStep_removes hs body), ih hvalues (redactStep body s)⟩

end Steps

/-! ## The answer -/

theorem toUTF8_eq_bytes (s : String) : s.toUTF8.data.toList = Utf8.bytes s.toList := by
  rw [String.toUTF8, ← Utf8.toByteArray_bytes, List.toList_data_toByteArray]

theorem not_occursIn_of_not_infix {secret text : String} (h : ¬ secret.toList <:+: text.toList) :
    ¬ OccursIn secret text.toUTF8 := by
  unfold OccursIn
  rw [toUTF8_eq_bytes, toUTF8_eq_bytes]
  exact fun hbytes => h (Utf8.infix_of_bytes hbytes)

section Answer
variable {H : HttpTypes} (state : ProxyState) (resp : UpstreamResponse H)

/-- The client gets no secret in the body. -/
def HidesInBody : Prop :=
  ∀ status headers out, relay state (.ok resp) = .relayed status headers out →
    ∀ s ∈ state.secrets.values, ¬ OccursIn s out

/-- The client gets no secret in a header that can be read. -/
def HidesInHeaders : Prop :=
  ∀ status headers out, relay state (.ok resp) = .relayed status headers out →
    ∀ s ∈ state.secrets.values, ∀ name value text, (name, value) ∈ headers → H.toStr value = some text →
      Text.contains text s = false

variable {state resp} {body : ByteArray} {text : String}

theorem relayedBody_of_text (hredact : state.redactResponses = true) (h : String.fromUTF8? body = some text) :
    relayedBody state body = (redactSecrets text state.secrets.values).toUTF8 := by
  unfold relayedBody
  rw [if_pos hredact, h]

/-- What is no text is not searched. -/
theorem relayedBody_of_binary (h : String.fromUTF8? body = none) : relayedBody state body = body := by
  unfold relayedBody
  rw [h]
  exact ite_self body

/-- In whatever order the secrets of the store come, none is left in a text. -/
theorem hidesInBody (hredact : state.redactResponses = true) (hsecrets : ∀ s ∈ state.secrets.values, Redactable s)
    (hread : resp.body = .ok body) (htext : String.fromUTF8? body = some text) :
    HidesInBody state resp ∧ ∀ values : List String, values.Perm state.secrets.values →
      ∀ s ∈ state.secrets.values, ¬ OccursIn s (redactSecrets text values).toUTF8 := by
  have hclean : ∀ values : List String, values.Perm state.secrets.values →
      ∀ s ∈ state.secrets.values, ¬ OccursIn s (redactSecrets text values).toUTF8 := by
    intro values hperm s hs
    apply not_occursIn_of_not_infix
    exact redactSecrets_removes (fun s hs => hsecrets s (hperm.mem_iff.mp hs)) text s (hperm.mem_iff.mpr hs)
  refine ⟨?_, hclean⟩
  intro status headers out hrelay
  rw [relay_of_body hread] at hrelay
  cases hrelay
  rw [relayedBody_of_text hredact htext]
  exact hclean _ (List.Perm.refl _)

end Answer

/-! ### The credentials of the tool, echoed -/

theorem githubOnly_values (hosts : List String) : (githubOnly hosts).secrets.values = ["ghp_injected_secret"] := rfl

theorem injected_redactable (hosts : List String) : ∀ s ∈ (githubOnly hosts).secrets.values, Redactable s := by
  rw [githubOnly_values]
  intro s hs
  obtain rfl := List.mem_singleton.mp hs
  have hword : ¬ "ghp_injected_secret".toList <:+: "REDACTED".toList := by
    rw [← Text.isInfix_iff]
    decide
  exact ⟨by decide, by decide, by decide, hword⟩

/-- An answer that tells the client what it was sent. -/
def echo (headers : List (HeaderName × String)) (body : ByteArray) : UpstreamResponse textTypes where
  status := 200
  headers
  body := .ok body

theorem echo_hidesInBody : HidesInBody (githubOnly ["api.github.com"]) (echo [] "Bearer ghp_injected_secret".toUTF8) ∧
    ∀ values : List String, values.Perm (githubOnly ["api.github.com"]).secrets.values →
      ∀ s ∈ (githubOnly ["api.github.com"]).secrets.values,
        ¬ OccursIn s (redactSecrets "Bearer ghp_injected_secret" values).toUTF8 :=
  hidesInBody rfl (injected_redactable _) rfl (by decide +kernel)

theorem injected_mem (hosts : List String) : "ghp_injected_secret" ∈ (githubOnly hosts).secrets.values := by
  rw [githubOnly_values]
  exact List.mem_singleton_self _

theorem xEcho_lowercase : Text.toAsciiLowercase "x-echo" = "x-echo" := by decide

def xEcho : HeaderName := ⟨"x-echo", xEcho_lowercase⟩

/-- What comes back in the header passes as it is. -/
theorem relay_echo (state : ProxyState) (value : String) :
    relay state (.ok (echo [(xEcho, value)] .empty)) = .relayed 200 [(xEcho, value)] (relayedBody state .empty) := by
  have hrelayed : isRelayed xEcho.val = true := by decide
  have hheaders := rebuild_singleton (fun name : HeaderName => isRelayed name.val) xEcho hrelayed value
  rw [relay_of_body rfl]
  exact congrArg (fun headers => ProxyResponse.relayed 200 headers (relayedBody state .empty)) hheaders

/-- A header is passed on with the secret, and so is a body that is no text. -/
theorem echo_not_hidden : (¬ ∀ (H : HttpTypes) (state : ProxyState) (resp : UpstreamResponse H),
      state.redactResponses = true → (∀ s ∈ state.secrets.values, Redactable s) → HidesInHeaders state resp) ∧
    ¬ ∀ (H : HttpTypes) (state : ProxyState) (resp : UpstreamResponse H),
      state.redactResponses = true → (∀ s ∈ state.secrets.values, Redactable s) → HidesInBody state resp := by
  constructor
  · intro h
    have hhidden := h textTypes (githubOnly ["api.github.com"]) _ rfl (injected_redactable _) _ _ _
      (relay_echo _ "Bearer ghp_injected_secret") "ghp_injected_secret" (injected_mem _) _ _
      "Bearer ghp_injected_secret" (List.mem_singleton_self _) rfl
    exact absurd hhidden (by decide)
  · intro h
    have hhidden := h textTypes (githubOnly ["api.github.com"])
      (echo [] (128 :: "ghp_injected_secret".toUTF8.data.toList).toByteArray) rfl (injected_redactable _) _ _ _
      (relay_of_body rfl) "ghp_injected_secret" (injected_mem _)
    apply hhidden
    -- the first byte continues no character
    have hbinary := Utf8.text_of_continuation (b := 128) (by decide) "ghp_injected_secret".toUTF8.data.toList
    rw [relayedBody_of_binary hbinary, OccursIn, List.toList_data_toByteArray]
    exact (List.suffix_cons 128 _).isInfix

end AiManager.Egress
