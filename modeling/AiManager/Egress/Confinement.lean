import Mathlib.Data.List.Induction
import AiManager.Egress.Proxy

/-! # Confinement of the credentials

What is sent on has the secret of the request's own tool in that tool's header, goes to a host that is allowed for it,
and carries none of the client's headers that hold credentials (a user name in the URL itself is left to the HTTP
client). The one exception are address literals with colons, of which the check of the host sees only what stands
before the first colon (`confined_iff`). -/

namespace AiManager.Egress

open Lib

variable {H : HttpTypes} {parse : UrlParser} {send : UpstreamRequest H → Except String (UpstreamResponse H)}
  {state : ProxyState} {req : ProxyRequest H} {up : UpstreamRequest H}

/-! ## What is sent on -/

/-- Everything that a request which is sent on has passed. -/
structure Passed (parse : UrlParser) (state : ProxyState) (req : ProxyRequest H) (tool : String) (toolCfg : ToolConfig)
    (target : Url) (host secret : String) (body : ByteArray) (name : HeaderName) (value : H.HeaderValue) : Prop where
  tool_eq : requestTool req.headers = some tool
  target_eq : resolveTargetUrl parse req.uri = .ok target
  host_eq : target.host = some host
  registered : state.registry.get tool = some toolCfg
  secret_eq : state.secrets.get toolCfg.secret = some secret
  body_eq : req.body = .ok body
  name_eq : H.headerName toolCfg.header = some name
  value_eq : H.fromStr (toolCfg.valuePrefix ++ secret) = some value

/-- The request that is made then. -/
def upstreamOf (req : ProxyRequest H) (target : Url) (body : ByteArray) (name : HeaderName) (value : H.HeaderValue) :
    UpstreamRequest H where
  method := (H.method req.method).getD "GET"
  url := target
  headers := ((forwardHeaders req.headers).put name value).items
  body := if body.isEmpty then none else some body

section Passed
variable {tool host secret : String} {toolCfg : ToolConfig} {target : Url} {body : ByteArray} {name : HeaderName}
  {value : H.HeaderValue}

theorem Passed.prepare_eq (h : Passed parse state req tool toolCfg target host secret body name value) :
    prepare parse state req = if state.registry.hostAllowed tool host
      then .ok (upstreamOf req target body name value) else .error (.own 403 "host not allowlisted for tool") := by
  unfold prepare
  rw [h.tool_eq]
  dsimp only
  rw [h.target_eq]
  dsimp only
  rw [h.host_eq]
  dsimp only
  rw [h.registered]
  dsimp only
  cases state.registry.hostAllowed tool host with
  | false => rfl
  | true =>
    rw [h.secret_eq]
    dsimp only
    rw [h.body_eq]
    dsimp only
    rw [h.name_eq, h.value_eq]
    rfl

/-- What is sent on has passed everything. -/
theorem passed_of_prepare (h : prepare parse state req = .ok up) :
    ∃ tool toolCfg target host secret body name value,
      Passed parse state req tool toolCfg target host secret body name value ∧
        state.registry.hostAllowed tool host = true ∧ up = upstreamOf req target body name value := by
  unfold prepare at h
  cases htool : requestTool req.headers with
  | none => simp [htool] at h
  | some tool =>
  rw [htool] at h
  dsimp only at h
  cases htarget : resolveTargetUrl parse req.uri with
  | error msg => simp [htarget] at h
  | ok target =>
  rw [htarget] at h
  dsimp only at h
  cases hhost : target.host with
  | none => simp [hhost] at h
  | some host =>
  rw [hhost] at h
  dsimp only at h
  cases hcfg : state.registry.get tool with
  | none => simp [hcfg] at h
  | some toolCfg =>
  rw [hcfg] at h
  dsimp only at h
  cases hallowed : state.registry.hostAllowed tool host with
  | false => simp [hallowed] at h
  | true =>
  rw [hallowed] at h
  cases hsecret : state.secrets.get toolCfg.secret with
  | none => simp [hsecret] at h
  | some secret =>
  rw [hsecret] at h
  dsimp only at h
  cases hbody : req.body with
  | error e => simp [hbody] at h
  | ok body =>
  rw [hbody] at h
  dsimp only at h
  cases hname : H.headerName toolCfg.header with
  | none => simp [hname] at h
  | some name =>
  cases hvalue : H.fromStr (toolCfg.valuePrefix ++ secret) with
  | none => simp [hname, hvalue] at h
  | some value =>
  rw [hname, hvalue] at h
  cases h
  exact ⟨tool, toolCfg, target, host, secret, body, name, value,
    ⟨htool, htarget, hhost, hcfg, hsecret, hbody, hname, hvalue⟩, hallowed, rfl⟩

end Passed

/-! ## Headers -/

/-- A header that is kept is one of the client's. -/
theorem get_forwardHeaders {headers : List (HeaderName × H.HeaderValue)} {n : HeaderName} {v : H.HeaderValue}
    (h : (forwardHeaders headers).get n = some v) : (n, v) ∈ headers ∧ isForwarded n.val = true := by
  unfold forwardHeaders at h
  induction headers using List.reverseRecOn with
  | nil => cases h
  | append_singleton headers x ih =>
    rw [List.foldl_append] at h
    dsimp only [List.foldl_cons, List.foldl_nil] at h
    split_ifs at h with hx
    · rw [KMap.get_put] at h
      split_ifs at h with hn
      · cases h
        subst hn
        exact ⟨List.mem_append_right _ List.mem_cons_self, hx⟩
      · exact ⟨List.mem_append_left _ (ih h).1, (ih h).2⟩
    · exact ⟨List.mem_append_left _ (ih h).1, (ih h).2⟩

/-- What the headers of a request that is sent on can be. -/
structure OwnCredentials (req : ProxyRequest H) (name : HeaderName) (value : H.HeaderValue)
    (headers : List (HeaderName × H.HeaderValue)) : Prop where
  injected : (name, value) ∈ headers
  rest : ∀ n v, (n, v) ∈ headers → (n, v) = (name, value) ∨ n ≠ name ∧ (n, v) ∈ req.headers ∧ isForwarded n.val = true

theorem ownCredentials (req : ProxyRequest H) (name : HeaderName) (value : H.HeaderValue) :
    OwnCredentials req name value ((forwardHeaders req.headers).put name value).items := by
  refine ⟨?_, fun n v hnv => ?_⟩
  · rw [KMap.mem_items, KMap.get_put, if_pos rfl]
  · rw [KMap.mem_items, KMap.get_put] at hnv
    split_ifs at hnv with hn
    · cases hnv
      exact .inl (by rw [hn])
    · exact .inr ⟨hn, get_forwardHeaders hnv⟩

/-! ## Confinement -/

/-- A request that is sent on belongs to a registered tool, goes to a host that is allowed for it, and has the tool's
own secret in the tool's header; its other headers are the client's, without those that hold credentials. -/
def Confined (parse : UrlParser) (send : UpstreamRequest H → Except String (UpstreamResponse H)) (state : ProxyState)
    (req : ProxyRequest H) : Prop :=
  ∀ up, (proxyHandler parse send state req).2 = some up →
    ∃ tool toolCfg host secret name value, requestTool req.headers = some tool ∧
      state.registry.get tool = some toolCfg ∧ up.url.host = some host ∧ host ∈ toolCfg.hosts ∧
      state.secrets.get toolCfg.secret = some secret ∧ H.headerName toolCfg.header = some name ∧
      H.fromStr (toolCfg.valuePrefix ++ secret) = some value ∧ OwnCredentials req name value up.headers

/-- Another proxy with the same entry for the tool of the request, and the same secret for that tool. -/
def SameForTool (state state' : ProxyState) (req : ProxyRequest H) : Prop :=
  ∀ tool, requestTool req.headers = some tool → state'.registry.get tool = state.registry.get tool ∧
    ∀ toolCfg, state.registry.get tool = some toolCfg →
      state'.secrets.get toolCfg.secret = state.secrets.get toolCfg.secret

/-- No other secret makes a difference to what is sent on. -/
def OwnSecretOnly (parse : UrlParser) (send : UpstreamRequest H → Except String (UpstreamResponse H)) (state : ProxyState)
    (req : ProxyRequest H) : Prop :=
  ∀ state', SameForTool state state' req →
    (proxyHandler parse send state' req).2 = (proxyHandler parse send state req).2

/-- Where the proxy answers with a denial or a bad request of its own, nothing is sent on. -/
def DeniedUnsent (parse : UrlParser) (send : UpstreamRequest H → Except String (UpstreamResponse H)) (state : ProxyState)
    (req : ProxyRequest H) : Prop :=
  ∀ status msg, (proxyHandler parse send state req).1 = .own status msg → status ∈ [400, 403, 503] →
    (proxyHandler parse send state req).2 = none

theorem proxyHandler_sent : (proxyHandler parse send state req).2 = some up ↔ prepare parse state req = .ok up := by
  unfold proxyHandler
  cases prepare parse state req with
  | error resp => simp
  | ok upstream => simp

theorem ownSecretOnly (parse : UrlParser) (send : UpstreamRequest H → Except String (UpstreamResponse H))
    (state : ProxyState) (req : ProxyRequest H) : OwnSecretOnly parse send state req := by
  intro state' hsame
  have hprepare : prepare parse state' req = prepare parse state req := by
    unfold prepare
    cases htool : requestTool req.headers with
    | none => rfl
    | some tool =>
      obtain ⟨hget, hsecret⟩ := hsame tool htool
      have hallowed : ∀ host, state'.registry.hostAllowed tool host = state.registry.hostAllowed tool host := by
        intro host
        unfold ToolRegistry.hostAllowed
        rw [hget]
      simp only [hget, hallowed]
      cases hcfg : state.registry.get tool with
      | none => rfl
      | some toolCfg => simp only [hsecret toolCfg hcfg]
  unfold proxyHandler
  rw [hprepare]
  cases prepare parse state req <;> rfl

theorem relay_own {answer : Except String (UpstreamResponse H)} {status : ℕ} {msg : String}
    (h : relay state answer = .own status msg) : status = 502 := by
  unfold relay at h
  cases answer with
  | error e =>
    cases h
    rfl
  | ok resp =>
    dsimp only at h
    cases hbody : resp.body with
    | error e =>
      rw [hbody] at h
      cases h
      rfl
    | ok body =>
      rw [hbody] at h
      cases h

theorem deniedUnsent (parse : UrlParser) (send : UpstreamRequest H → Except String (UpstreamResponse H))
    (state : ProxyState) (req : ProxyRequest H) : DeniedUnsent parse send state req := by
  intro status msg hown hstatus
  unfold proxyHandler at hown ⊢
  cases hprepare : prepare parse state req with
  | error resp => rfl
  | ok upstream =>
    rw [hprepare] at hown
    rw [relay_own hown] at hstatus
    exact absurd hstatus (by decide)

/-- The target is an address literal that is not on the tool's list, while what stands before its first colon is;
nothing else is in the way of the request. -/
def CutLiteral (parse : UrlParser) (state : ProxyState) (req : ProxyRequest H) : Prop :=
  ∃ tool toolCfg target host secret body name value,
    Passed parse state req tool toolCfg target host secret body name value ∧ ':' ∈ host.toList ∧
      host ∉ toolCfg.hosts ∧ ToolRegistry.hostOnly host ∈ toolCfg.hosts

/-- **Confinement** holds of every request but those to an address literal of which only the part before the first
colon is on the list. -/
theorem confined_iff (std : parse.Standard) (send : UpstreamRequest H → Except String (UpstreamResponse H))
    (state : ProxyState) (req : ProxyRequest H) :
    (Confined parse send state req ∧ OwnSecretOnly parse send state req ∧ DeniedUnsent parse send state req) ↔
      ¬ CutLiteral parse state req := by
  have hweb : ∀ {target host}, resolveTargetUrl parse req.uri = .ok target → target.host = some host → WebHost host := by
    intro target host htarget hhost
    exact resolveTargetUrl_webHost std htarget hhost
  constructor
  · rintro ⟨hconfined, -, -⟩ ⟨tool, toolCfg, target, host, secret, body, name, value, h, -, hoff, hcut⟩
    have hallowed : state.registry.hostAllowed tool host = true :=
      (ToolRegistry.hostAllowed_iff h.registered (hweb h.target_eq h.host_eq).lower).mpr hcut
    have hsent := h.prepare_eq
    rw [if_pos hallowed] at hsent
    obtain ⟨tool', toolCfg', host', -, -, -, htool', hcfg', hhost', hon, -⟩ :=
      hconfined _ (proxyHandler_sent.mpr hsent)
    rw [h.tool_eq] at htool'
    cases htool'
    rw [h.registered] at hcfg'
    cases hcfg'
    have hhost : host' = host := Option.some.inj (hhost'.symm.trans h.host_eq)
    rw [hhost] at hon
    exact hoff hon
  · intro hcut
    refine ⟨fun up hup => ?_, ownSecretOnly parse send state req, deniedUnsent parse send state req⟩
    obtain ⟨tool, toolCfg, target, host, secret, body, name, value, h, hallowed, rfl⟩ :=
      passed_of_prepare (proxyHandler_sent.mp hup)
    have hlisted : ToolRegistry.hostOnly host ∈ toolCfg.hosts :=
      (ToolRegistry.hostAllowed_iff h.registered (hweb h.target_eq h.host_eq).lower).mp hallowed
    have hon : host ∈ toolCfg.hosts := by
      by_contra hoff
      by_cases hcolon : ':' ∈ host.toList
      · exact hcut ⟨tool, toolCfg, target, host, secret, body, name, value, h, hcolon, hoff, hlisted⟩
      · rw [ToolRegistry.hostOnly_of_plain hcolon] at hlisted
        exact hoff hlisted
    exact ⟨tool, toolCfg, host, secret, name, value, h.tool_eq, h.registered, h.host_eq, hon, h.secret_eq, h.name_eq,
      h.value_eq, ownCredentials req name value⟩

/-! ### An address literal -/

/-- Header values that are texts of visible characters. -/
def textTypes : HttpTypes where
  HeaderValue := String
  toStr := some
  fromStr s := if s.toList.all fun c => 32 ≤ c.toNat && c.toNat < 127 then some s else none
  headerName s := some ⟨Text.toAsciiLowercase s, Text.toAsciiLowercase_toAsciiLowercase s⟩
  method := some

/-- One tool, with the hosts that are listed for it. -/
def githubOnly (hosts : List String) : ProxyState where
  registry := .new (KMap.put ∅ "github_api" ⟨hosts, "GITHUB_TOKEN", "Authorization", "Bearer "⟩)
  secrets := ⟨KMap.put ∅ "GITHUB_TOKEN" "ghp_injected_secret"⟩
  redactResponses := true

def githubRequest (uri : Uri) : ProxyRequest textTypes where
  method := "GET"
  uri
  headers := [(⟨toolHeader, by decide⟩, "github_api"), (⟨"authorization", by decide⟩, "Bearer client")]
  body := .ok .empty

/-- An upstream that cannot be reached. -/
def unreachable : UpstreamRequest textTypes → Except String (UpstreamResponse textTypes) := fun _ => .error "connect"

def loopbackParser : UrlParser := locationParser "[::1]" "/user" none

theorem loopbackParser_standard : loopbackParser.Standard := by
  have habsolute : "/user".toList.head? = some '/' := by decide
  have hpath : ∀ c ∈ "/user".toList, c ≠ '?' ∧ c ≠ '#' := List.forall_iff_forall_mem.mp (by decide)
  exact locationParser_standard
    ⟨rfl, ⟨by decide, List.forall_iff_forall_mem.mp (by decide), by decide⟩, habsolute, hpath, fun _ h => (by cases h), fun _ h => (by cases h)⟩

/-- With the literal itself on the list, the check fails. -/
theorem loopback_confined_iff :
    (Confined loopbackParser unreachable (githubOnly ["[::1]"]) (githubRequest ⟨"/https://[::1]/user", none⟩) ∧
      OwnSecretOnly loopbackParser unreachable (githubOnly ["[::1]"]) (githubRequest ⟨"/https://[::1]/user", none⟩) ∧
      DeniedUnsent loopbackParser unreachable (githubOnly ["[::1]"]) (githubRequest ⟨"/https://[::1]/user", none⟩)) ↔
    ¬ CutLiteral loopbackParser (githubOnly ["[::1]"]) (githubRequest ⟨"/https://[::1]/user", none⟩) :=
  confined_iff loopbackParser_standard unreachable (githubOnly ["[::1]"]) (githubRequest ⟨"/https://[::1]/user", none⟩)

/-- With a bracket on the list, the secret goes to any address literal that starts with a colon. -/
theorem loopback_not_confined : ¬ ∀ (H : HttpTypes) (parse : UrlParser)
    (send : UpstreamRequest H → Except String (UpstreamResponse H)) (state : ProxyState) (req : ProxyRequest H),
    parse.Standard → Confined parse send state req := by
  intro h
  have hconfined := h textTypes loopbackParser unreachable (githubOnly ["["])
    (githubRequest ⟨"/https://[::1]/user", none⟩) loopbackParser_standard
  have hpassed : Passed loopbackParser (githubOnly ["["])
      (githubRequest ⟨"/https://[::1]/user", none⟩) "github_api" ⟨["["], "GITHUB_TOKEN", "Authorization", "Bearer "⟩
      (webUrl "[::1]" "/user" none "https") "[::1]" "ghp_injected_secret" .empty ⟨"authorization", by decide⟩
      "Bearer ghp_injected_secret" :=
    ⟨by decide +kernel, by decide +kernel, rfl, by decide +kernel, by decide +kernel, rfl, by decide +kernel, rfl⟩
  have hallowed : (githubOnly ["["]).registry.hostAllowed "github_api" "[::1]" = true := by decide +kernel
  have hsent := hpassed.prepare_eq
  rw [if_pos hallowed] at hsent
  obtain ⟨tool, toolCfg, host, -, -, -, htool, hcfg, hhost, hon, -⟩ := hconfined _ (proxyHandler_sent.mpr hsent)
  rw [hpassed.tool_eq] at htool
  cases htool
  rw [hpassed.registered] at hcfg
  cases hcfg
  cases hhost
  exact absurd hon (by decide)

end AiManager.Egress
