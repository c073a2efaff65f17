import AiManager.Egress.Url
import AiManager.Telemetry.Model
import AiManager.Twins.Model

/-! # The egress client

Outbound requests go to the credential proxy, with the host and the path of the target in the path of the
request. The first and the third vertical have a client each, with errors of their own. -/

namespace AiManager.Egress

open Lib

structure EgressConfig where
  proxyUrl : Option String
  enforce : Bool

/-- The URL at the proxy for a target; the target itself if there is no proxy and none is required. -/
def rewriteUrl {ε : Type} (unset validation : String → ε) (parse : UrlParser) (config : EgressConfig)
    (target : String) : Except ε String :=
  match config.proxyUrl with
  | none =>
    if config.enforce then
      .error (unset "EGRESS_ENFORCE=true but EGRESS_PROXY_URL is unset (fail-closed)")
    else .ok target
  | some p =>
    let proxy := Text.trimEndMatches p "/"
    match parse target with
    | .error e => .error (validation ("invalid target URL: " ++ e))
    | .ok url =>
      match url.host with
      | none => .error (validation "target URL missing host")
      | some host => .ok (proxy ++ "/proxy/" ++ host ++ url.portText ++ url.path ++ url.queryText)

namespace V1

def rewriteUrl : UrlParser → EgressConfig → String → Except Telemetry.CoreError String :=
  Egress.rewriteUrl .internal .validation

end V1

namespace V3

def rewriteUrl : UrlParser → EgressConfig → String → Except Twins.TwinError String :=
  Egress.rewriteUrl .egress .validation

end V3

section Rewrite
variable {ε : Type} {unset validation : String → ε} {parse : UrlParser} {config : EgressConfig}
  {p target host : String} {u : Url}

/-- Behind the URL of the proxy stands the location of the target. -/
theorem rewriteUrl_eq (hp : config.proxyUrl = some p) (hu : parse target = .ok u) (hhost : u.host = some host) :
    rewriteUrl unset validation parse config target =
      .ok (Text.trimEndMatches p "/" ++ ("/proxy/" ++ u.location host)) := by
  unfold rewriteUrl Url.location
  rw [hp]
  dsimp only
  rw [hu]
  dsimp only
  rw [hhost]
  dsimp only
  simp only [String.append_assoc]

end Rewrite

end AiManager.Egress
