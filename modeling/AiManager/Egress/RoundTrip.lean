import AiManager.Egress.Client
import AiManager.Egress.Target

/-! # From the client to the proxy

What the client writes into the path of the request, the proxy reads out of it again: host, port, path and query
survive, and the scheme is `https` afterwards, whatever it was (`proxied_location`). -/

namespace AiManager.Egress

open Lib

variable {parse : UrlParser}

/-- The parts of a URL that a request is made from. -/
structure SameTarget (u v : Url) : Prop where
  scheme_eq : v.scheme = u.scheme
  host_eq : v.host = u.host
  port_eq : v.port = u.port
  path_eq : v.path = u.path
  query_eq : v.query = u.query

theorem Url.Delimited.uri_eq {u : Url} {host : String} (h : u.Delimited host) :
    Uri.ofText ("/proxy/" ++ u.location host) = ⟨"/proxy/" ++ (host ++ u.portText ++ u.path), u.query⟩ := by
  have hstart : ∀ c ∈ "/proxy/".toList, c ≠ '?' ∧ c ≠ '#' := List.forall_iff_forall_mem.mp (by decide)
  have hplain : ∀ c ∈ ("/proxy/" ++ (host ++ u.portText ++ u.path)).toList, c ≠ '?' ∧ c ≠ '#' := by
    intro c hc
    rw [String.toList_append, List.mem_append] at hc
    rcases hc with hc | hc
    · exact hstart c hc
    · exact location_plain h c hc
  have hsplit := Uri.ofText_append (q := u.query) hplain h.query_plain
  rw [String.append_assoc] at hsplit
  exact hsplit

/-- What the proxy resolves a web address to that a client has rewritten. -/
theorem resolveTargetUrl_location (std : parse.Standard) {target host : String} {u : Url} (hu : parse target = .ok u)
    (hweb : IsWebScheme u.scheme) (h : u.Delimited host) :
    resolveTargetUrl parse (Uri.ofText ("/proxy/" ++ u.location host)) = .ok
      { scheme := "https", host := some host, port := u.port.filter fun p => defaultPort "https" ≠ some p
        path := u.path, query := u.query } := by
  have hagain := std.again hu hweb h.host_eq (.inr rfl : IsWebScheme "https")
  rw [show "https" ++ "://" = "https://" by decide] at hagain
  rw [h.uri_eq, resolveTargetUrl_proxy parse h, hagain]

theorem shownPort_eq (port : Option ℕ) :
    (port.filter fun p => defaultPort "https" ≠ some p) = if port = some 443 then none else port := by
  cases port with
  | none => rfl
  | some p =>
    by_cases hp : p = 443
    · subst hp
      rfl
    · have hshown : defaultPort "https" ≠ some p := fun h => hp (Option.some.inj h).symm
      simp [hp, hshown]

/-- Only the errors of the two clients differ. -/
theorem rewriteUrl_toOption {ε ε' : Type} (unset validation : String → ε) (unset' validation' : String → ε')
    (parse : UrlParser) (config : EgressConfig) (target : String) :
    (rewriteUrl unset validation parse config target).toOption =
      (rewriteUrl unset' validation' parse config target).toOption := by
  unfold rewriteUrl
  cases config.proxyUrl with
  | none => cases config.enforce <;> rfl
  | some p =>
    dsimp only
    cases parse target with
    | error e => rfl
    | ok u =>
      dsimp only
      cases u.host <;> rfl

/-- **Round trip.** Through the proxy of the client, a web address is resolved to the same host, path and query, with
the scheme `https`; the port is the same unless it is the default of `https`, so that an `https` address comes back
as it was. The two clients rewrite alike, with or without a proxy. -/
theorem proxied_location (std : parse.Standard) {config : EgressConfig} {p target : String} {u : Url}
    (hp : config.proxyUrl = some p) (hu : parse target = .ok u) (hweb : IsWebScheme u.scheme) :
    (∃ request v, V3.rewriteUrl parse config target = .ok (Text.trimEndMatches p "/" ++ request) ∧
      resolveTargetUrl parse (Uri.ofText request) = .ok v ∧ v.scheme = "https" ∧ v.host = u.host ∧
      v.path = u.path ∧ v.query = u.query ∧ v.port = (if u.port = some 443 then none else u.port) ∧
      (u.scheme = "https" → SameTarget u v)) ∧
    ∀ config target, (V3.rewriteUrl parse config target).toOption = (V1.rewriteUrl parse config target).toOption := by
  obtain ⟨host, h⟩ := std.delimited hu hweb
  refine ⟨⟨"/proxy/" ++ u.location host, _, rewriteUrl_eq hp hu h.host_eq, resolveTargetUrl_location std hu hweb h,
    rfl, h.host_eq.symm, rfl, rfl, shownPort_eq u.port,
    fun hscheme => ⟨hscheme.symm, h.host_eq.symm, ?_, rfl, rfl⟩⟩, fun _ _ => rewriteUrl_toOption _ _ _ _ _ _ _⟩
  show (u.port.filter fun p => defaultPort "https" ≠ some p) = u.port
  cases hport : u.port with
  | none => rfl
  | some p =>
    have hshown := h.port_shown p hport
    rw [hscheme] at hshown
    rw [Option.filter_some, if_pos (decide_eq_true hshown)]

/-! ### The search of the issues -/

def issues (scheme : String) : Url := webUrl "api.github.com" "/search/issues" (some "q=a") scheme

def issuesParser : UrlParser := locationParser "api.github.com" "/search/issues" (some "q=a")

theorem issuesParser_standard : issuesParser.Standard := by
  have habsolute : "/search/issues".toList.head? = some '/' := by decide
  have hpath : ∀ c ∈ "/search/issues".toList, c ≠ '?' ∧ c ≠ '#' := List.forall_iff_forall_mem.mp (by decide)
  have hquery : ∀ q, some "q=a" = some q → '#' ∉ q.toList := by
    rintro q ⟨⟩
    decide
  exact locationParser_standard
    ⟨rfl, ⟨by decide, List.forall_iff_forall_mem.mp (by decide), by decide⟩, habsolute, hpath, hquery, fun _ h => by cases h⟩

def viaProxy : EgressConfig := ⟨some "http://proxy:18090", false⟩

theorem issues_proxied :
    (∃ request v, V3.rewriteUrl issuesParser viaProxy "https://api.github.com/search/issues?q=a" =
        .ok (Text.trimEndMatches "http://proxy:18090" "/" ++ request) ∧
      resolveTargetUrl issuesParser (Uri.ofText request) = .ok v ∧ v.scheme = "https" ∧
      v.host = (issues "https").host ∧ v.path = (issues "https").path ∧ v.query = (issues "https").query ∧
      v.port = (if (issues "https").port = some 443 then none else (issues "https").port) ∧
      ((issues "https").scheme = "https" → SameTarget (issues "https") v)) ∧
    ∀ config target, (V3.rewriteUrl issuesParser config target).toOption =
      (V1.rewriteUrl issuesParser config target).toOption :=
  proxied_location issuesParser_standard rfl (by decide +kernel) (.inr rfl)

/-- The scheme `http` is not carried through the proxy. -/
theorem http_target_changed : ¬ ∀ (parse : UrlParser) (target : String) (config : EgressConfig) (p : String) (u : Url),
    parse.Standard → config.proxyUrl = some p → parse target = .ok u → IsWebScheme u.scheme →
    ∃ request v, V3.rewriteUrl parse config target = .ok (Text.trimEndMatches p "/" ++ request) ∧
      resolveTargetUrl parse (Uri.ofText request) = .ok v ∧ SameTarget u v := by
  intro h
  obtain ⟨request, v, hrewrite, hresolve, hsame⟩ := h issuesParser "http://api.github.com/search/issues?q=a" viaProxy
    "http://proxy:18090" (issues "http") issuesParser_standard rfl (by decide +kernel) (.inl rfl)
  have hissues : V3.rewriteUrl issuesParser viaProxy "http://api.github.com/search/issues?q=a" =
      .ok ("http://proxy:18090" ++ "/proxy/api.github.com/search/issues?q=a") := by decide +kernel
  have htrim : Text.trimEndMatches "http://proxy:18090" "/" = "http://proxy:18090" := by decide +kernel
  rw [hissues, htrim] at hrewrite
  have hrequest : "/proxy/api.github.com/search/issues?q=a" = request :=
    (String.append_right_inj _).mp (Except.ok.inj hrewrite)
  have hresolved : resolveTargetUrl issuesParser (Uri.ofText "/proxy/api.github.com/search/issues?q=a") =
      .ok (issues "https") := by decide +kernel
  rw [← hrequest, hresolved] at hresolve
  cases hresolve
  exact absurd hsame.scheme_eq (by decide)

end AiManager.Egress
