import AiManager.Egress.Registry
import AiManager.Egress.Target

/-! # The credential proxy

A request names its tool in a header and its target in its path. It is sent on only for a registered tool and a host
that is allowed for it, with the secret of the tool in the place of the client's credentials. -/

namespace AiManager.Egress

open Lib

/-- A name of a header is in lower case. -/
abbrev HeaderName : Type := { name : String // Text.toAsciiLowercase name = name }

/-- The types of the HTTP library: what a header value reads as, and what makes values, names and methods. -/
structure HttpTypes where
  HeaderValue : Type
  toStr : HeaderValue → Option String
  fromStr : String → Option HeaderValue
  headerName : String → Option HeaderName
  method : String → Option String

section Types
variable (H : HttpTypes)

/-- A request that arrives; reading the body can fail. -/
structure ProxyRequest where
  method : String
  uri : Uri
  headers : List (HeaderName × H.HeaderValue)
  body : Except String ByteArray

structure UpstreamRequest where
  method : String
  url : Url
  headers : List (HeaderName × H.HeaderValue)
  body : Option ByteArray

structure UpstreamResponse where
  status : ℕ
  headers : List (HeaderName × H.HeaderValue)
  body : Except String ByteArray

/-- An answer of the proxy itself, or one that it passes on. -/
inductive ProxyResponse where
  | own (status : ℕ) (msg : String)
  | relayed (status : ℕ) (headers : List (HeaderName × H.HeaderValue)) (body : ByteArray)

end Types

structure ProxyState where
  registry : ToolRegistry
  secrets : SecretsStore
  redactResponses : Bool

def toolHeader : String := "x-ai-manager-tool"

def isHopByHop (name : String) : Bool :=
  Text.toAsciiLowercase name ∈ ["connection", "keep-alive", "proxy-authenticate", "proxy-authorization", "te",
    "trailers", "transfer-encoding", "upgrade", "content-length"]

/-- Every secret that stands in the text is replaced. -/
def redactSecrets (body : String) (values : List String) : String :=
  values.foldl (fun out s => if s = "" then out else if Text.contains out s then out.replace s "[REDACTED]" else out) body

section Handler
variable {H : HttpTypes}

/-- The tool that the first such header names. -/
def requestTool (headers : List (HeaderName × H.HeaderValue)) : Option String :=
  (((headers.find? fun h => h.1.val = toolHeader).bind fun h => H.toStr h.2).map Text.trim).filter (· ≠ "")

def isForwarded (name : String) : Bool :=
  !(isHopByHop name || name = toolHeader || name = "authorization" || name = "host")

/-- The safe headers; of several values of a name the last. -/
def forwardHeaders (headers : List (HeaderName × H.HeaderValue)) : KMap HeaderName H.HeaderValue :=
  headers.foldl (fun forwarded h => if isForwarded h.1.val then forwarded.put h.1 h.2 else forwarded) ∅

/-- The request that is sent on, or the answer if none is. -/
def prepare (parse : UrlParser) (state : ProxyState) (req : ProxyRequest H) :
    Except (ProxyResponse H) (UpstreamRequest H) :=
  match requestTool req.headers with
  | none => .error (.own 400 "missing X-AI-Manager-Tool header")
  | some tool =>
    match resolveTargetUrl parse req.uri with
    | .error msg => .error (.own 400 msg)
    | .ok target =>
      match target.host with
      | none => .error (.own 400 "target URL missing host")
      | some host =>
        match state.registry.get tool with
        | none => .error (.own 403 "unknown tool")
        | some toolCfg =>
          if !state.registry.hostAllowed tool host then .error (.own 403 "host not allowlisted for tool")
          else
            match state.secrets.get toolCfg.secret with
            | none => .error (.own 503 "secret not available")
            | some secretValue =>
              match req.body with
              | .error e => .error (.own 400 ("failed to read body: " ++ e))
              | .ok body =>
                match H.headerName toolCfg.header, H.fromStr (toolCfg.valuePrefix ++ secretValue) with
                | some hn, some hv =>
                  .ok
                    { method := (H.method req.method).getD "GET"
                      url := target
                      headers := ((forwardHeaders req.headers).put hn hv).items
                      body := if body.isEmpty then none else some body }
                | _, _ => .error (.own 500 "invalid header config for tool")

/-- What the client gets of the answer. -/
def relay (state : ProxyState) : Except String (UpstreamResponse H) → ProxyResponse H
  | .error e => .own 502 ("upstream error: " ++ e)
  | .ok resp =>
    let status := if 100 ≤ resp.status ∧ resp.status < 1000 then resp.status else 502
    let headers := resp.headers.foldl
      (fun acc h => if isHopByHop h.1.val || h.1.val = "transfer-encoding" then acc else acc.put h.1 h.2) (∅ : KMap HeaderName H.HeaderValue)
    match resp.body with
    | .error e => .own 502 ("upstream body error: " ++ e)
    | .ok body =>
      let finalBody := if state.redactResponses then
          match String.fromUTF8? body with
          | some text => (redactSecrets text state.secrets.values).toUTF8
          | none => body
        else body
      .relayed status headers.items finalBody

/-- The answer, and the request that was sent on, if there was one. -/
def proxyHandler (parse : UrlParser) (send : UpstreamRequest H → Except String (UpstreamResponse H))
    (state : ProxyState) (req : ProxyRequest H) : ProxyResponse H × Option (UpstreamRequest H) :=
  match prepare parse state req with
  | .error resp => (resp, none)
  | .ok upstream => (relay state (send upstream), some upstream)

end Handler

end AiManager.Egress
