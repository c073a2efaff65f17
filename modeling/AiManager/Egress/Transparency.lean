import AiManager.Lib.Multimap
import AiManager.Egress.Confinement

/-! # Header transparency

The headers that are not the proxy's own business are passed on in both directions. They are rebuilt with `insert`, so
of a header that is repeated, such as `cookie` or `set-cookie`, only the last value arrives. -/

namespace AiManager.Egress

open Lib

variable {H : HttpTypes} {parse : UrlParser} {state : ProxyState} {req : ProxyRequest H} {up : UpstreamRequest H}
  {resp : UpstreamResponse H}

/-- Headers of an answer that are passed on. -/
def isRelayed (name : String) : Bool := !(isHopByHop name || name = "transfer-encoding")

/-- The header in which the tool of the request has its credentials. -/
def injectedHeader (state : ProxyState) (req : ProxyRequest H) : Option HeaderName :=
  ((requestTool req.headers).bind state.registry.get).bind fun toolCfg => H.headerName toolCfg.header

/-- What may pass arrives with all its values in order, at the upstream and at the client. -/
structure Transparent (state : ProxyState) (req : ProxyRequest H) (up : UpstreamRequest H)
    (resp : UpstreamResponse H) : Prop where
  request : ∀ name : HeaderName, isForwarded name.val = true → injectedHeader state req ≠ some name →
    valuesOf name up.headers = valuesOf name req.headers
  response : ∀ status headers body, relay state (.ok resp) = .relayed status headers body →
    ∀ name : HeaderName, isRelayed name.val = true → valuesOf name headers = valuesOf name resp.headers

/-- Nothing that may pass is repeated. -/
structure Unrepeated (state : ProxyState) (req : ProxyRequest H) (resp : UpstreamResponse H) : Prop where
  request : ∀ name : HeaderName, isForwarded name.val = true → injectedHeader state req ≠ some name →
    (valuesOf name req.headers).length ≤ 1
  response : ∀ body, resp.body = .ok body → ∀ name : HeaderName, isRelayed name.val = true →
    (valuesOf name resp.headers).length ≤ 1

theorem forwardHeaders_eq (headers : List (HeaderName × H.HeaderValue)) :
    forwardHeaders headers = rebuild (fun name : HeaderName => isForwarded name.val) headers := rfl

def relayedStatus (status : ℕ) : ℕ := if 100 ≤ status ∧ status < 1000 then status else 502

/-- The body as the client gets it; only a text is searched for secrets. -/
def relayedBody (state : ProxyState) (body : ByteArray) : ByteArray :=
  if state.redactResponses then
    match String.fromUTF8? body with
    | some text => (redactSecrets text state.secrets.values).toUTF8
    | none => body
  else body

/-- An answer that can be read is passed on. -/
theorem relay_of_body {body : ByteArray} (h : resp.body = .ok body) : relay state (.ok resp) =
    .relayed (relayedStatus resp.status) (rebuild (fun name : HeaderName => isRelayed name.val) resp.headers).items
      (relayedBody state body) := by
  have hstep : (fun (acc : KMap HeaderName H.HeaderValue) (e : HeaderName × H.HeaderValue) =>
      if isHopByHop e.1.val || e.1.val = "transfer-encoding" then acc else acc.put e.1 e.2) =
      fun acc e => if isRelayed e.1.val then acc.put e.1 e.2 else acc := by
    funext acc e
    unfold isRelayed
    cases isHopByHop e.1.val || decide (e.1.val = "transfer-encoding") <;> rfl
  unfold relay rebuild
  dsimp only
  rw [h, hstep]
  rfl

theorem body_of_relayed {status : ℕ} {headers : List (HeaderName × H.HeaderValue)} {body : ByteArray}
    (h : relay state (.ok resp) = .relayed status headers body) : ∃ read, resp.body = .ok read := by
  cases hbody : resp.body with
  | ok read => exact ⟨read, rfl⟩
  | error e =>
    unfold relay at h
    dsimp only at h
    rw [hbody] at h
    cases h

theorem injectedHeader_of_passed {tool host secret : String} {toolCfg : ToolConfig} {target : Url} {body : ByteArray}
    {name : HeaderName} {value : H.HeaderValue}
    (h : Passed parse state req tool toolCfg target host secret body name value) :
    injectedHeader state req = some name := by
  unfold injectedHeader
  rw [h.tool_eq, Option.bind_some, h.registered, Option.bind_some, h.name_eq]

theorem transparent_iff (h : prepare parse state req = .ok up) (resp : UpstreamResponse H) :
    Transparent state req up resp ↔ Unrepeated state req resp := by
  obtain ⟨tool, toolCfg, target, host, secret, body, name, value, hpassed, -, rfl⟩ := passed_of_prepare h
  have hinjected := injectedHeader_of_passed hpassed
  have hrequest : ∀ n : HeaderName, isForwarded n.val = true → injectedHeader state req ≠ some n →
      (valuesOf n (upstreamOf req target body name value).headers = valuesOf n req.headers ↔
        (valuesOf n req.headers).length ≤ 1) := by
    intro n hforwarded hother
    -- the credentials go in under another name, so only the rebuilding can lose values of this one
    have hne : n ≠ name := fun heq => hother (by rw [hinjected, heq])
    unfold upstreamOf
    rw [valuesOf_put_ne _ _ hne, forwardHeaders_eq]
    exact valuesOf_rebuild_iff hforwarded
  constructor
  · intro htransparent
    refine ⟨fun n hforwarded hother => ?_, fun read hread n hrelayed => ?_⟩
    · exact (hrequest n hforwarded hother).mp (htransparent.request n hforwarded hother)
    · have hsame := htransparent.response _ _ _ (relay_of_body hread) n hrelayed
      exact (valuesOf_rebuild_iff (k := n) hrelayed).mp hsame
  · intro hunrepeated
    refine ⟨fun n hforwarded hother => ?_, fun status headers body hrelay n hrelayed => ?_⟩
    · exact (hrequest n hforwarded hother).mpr (hunrepeated.request n hforwarded hother)
    · obtain ⟨read, hread⟩ := body_of_relayed hrelay
      rw [relay_of_body hread] at hrelay
      cases hrelay
      exact (valuesOf_rebuild_iff (k := n) hrelayed).mpr (hunrepeated.response read hread n hrelayed)

/-! ### Two cookies -/

def userParser : UrlParser := locationParser "api.github.com" "/user" none

def userRequest : ProxyRequest textTypes := githubRequest ⟨"/https://api.github.com/user", none⟩

theorem authorization_lowercase : Text.toAsciiLowercase "authorization" = "authorization" := by decide

/-- The request for the user, as it is sent on. -/
def userUpstream : UpstreamRequest textTypes :=
  upstreamOf userRequest (webUrl "api.github.com" "/user" none "https") .empty
    ⟨"authorization", authorization_lowercase⟩ "Bearer ghp_injected_secret"

theorem userRequest_prepared : prepare userParser (githubOnly ["api.github.com"]) userRequest = .ok userUpstream := by
  have hpassed : Passed userParser (githubOnly ["api.github.com"]) userRequest "github_api"
      ⟨["api.github.com"], "GITHUB_TOKEN", "Authorization", "Bearer "⟩ (webUrl "api.github.com" "/user" none "https")
      "api.github.com" "ghp_injected_secret" .empty ⟨"authorization", by decide⟩ "Bearer ghp_injected_secret" :=
    ⟨by decide +kernel, by decide +kernel, rfl, by decide +kernel, by decide +kernel, rfl, by decide +kernel, rfl⟩
  have hallowed : (githubOnly ["api.github.com"]).registry.hostAllowed "github_api" "api.github.com" = true := by
    decide +kernel
  rw [hpassed.prepare_eq, if_pos hallowed]
  rfl

/-- An answer that sets two cookies. -/
def twoCookies : UpstreamResponse textTypes where
  status := 200
  headers := [(⟨"set-cookie", by decide⟩, "session=1"), (⟨"set-cookie", by decide⟩, "theme=dark")]
  body := .ok .empty

theorem userRequest_transparent_iff :
    Transparent (githubOnly ["api.github.com"]) userRequest userUpstream twoCookies ↔
      Unrepeated (githubOnly ["api.github.com"]) userRequest twoCookies :=
  transparent_iff userRequest_prepared twoCookies

/-- Only the second cookie arrives. -/
theorem not_transparent : ¬ ∀ (H : HttpTypes) (parse : UrlParser) (state : ProxyState) (req : ProxyRequest H)
    (up : UpstreamRequest H) (resp : UpstreamResponse H), prepare parse state req = .ok up →
    Transparent state req up resp := by
  intro h
  have htransparent := h textTypes userParser (githubOnly ["api.github.com"]) userRequest userUpstream twoCookies
    userRequest_prepared
  have hvalues := htransparent.response _ _ _ (relay_of_body rfl) ⟨"set-cookie", by decide⟩ (by decide)
  have hone : ["theme=dark"] = ["session=1", "theme=dark"] := hvalues
  exact absurd hone (by decide)

end AiManager.Egress
