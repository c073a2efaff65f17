import AiManager.Egress.Url

/-! # The target of a proxied request

The proxy reads the target from the path of the request, in one of several forms. -/

namespace AiManager.Egress

open Lib

def fixCollapsedScheme (rest : String) : String :=
  match Text.stripPrefix rest "https:/" with
  | some after => if Text.startsWith after "/" then "https:/" ++ after else "https://" ++ after
  | none =>
    match Text.stripPrefix rest "http:/" with
    | some after => if Text.startsWith after "/" then "http:/" ++ after else "http://" ++ after
    | none => rest

/-- The text names its scheme. -/
def hasScheme (s : String) : Bool := Text.startsWith s "http://" || Text.startsWith s "https://"

/-- The target that the path names, without the query. -/
def candidate (rest : String) : Except String String :=
  match Text.stripPrefix rest "proxy/" with
  | some after => .ok (if hasScheme after then after else "https://" ++ after)
  | none =>
    if hasScheme rest then .ok rest
    else if Text.startsWith rest "http:/" || Text.startsWith rest "https:/" then .ok (fixCollapsedScheme rest)
    else .error "path must be /https://host/... or /proxy/host/..."

/-- The query of the request is kept. -/
def withQuery (candidate : String) : Option String → String
  | some q => if Text.contains candidate "?" then candidate else candidate ++ "?" ++ q
  | none => candidate

def resolveTargetUrl (parse : UrlParser) (uri : Uri) : Except String Url :=
  let rest := (Text.stripPrefix uri.path "/").getD uri.path
  if rest = "" ∨ rest = "healthz" then .error "missing target URL in path"
  else
    match candidate rest with
    | .error msg => .error msg
    | .ok candidate =>
      match parse (withQuery candidate uri.query) with
      | .error _ => .error "invalid target URL"
      | .ok url => .ok url

/-! ## The scheme -/

section Scheme
variable {parse : UrlParser} {uri : Uri} {url : Url} {s rest c : String}

theorem startsWith_append_right {p : String} (h : Text.startsWith s p = true) (t : String) :
    Text.startsWith (s ++ t) p = true := by
  unfold Text.startsWith at *
  rw [List.isPrefixOf_iff_prefix] at *
  rw [String.toList_append]
  exact h.trans (List.prefix_append _ _)

theorem hasScheme_iff : hasScheme s = true ↔ Text.startsWith s "http://" = true ∨ Text.startsWith s "https://" = true :=
  Bool.or_eq_true_iff

theorem hasScheme_append (h : hasScheme s = true) (t : String) : hasScheme (s ++ t) = true := by
  rw [hasScheme_iff] at *
  exact h.imp (startsWith_append_right · t) (startsWith_append_right · t)

theorem hasScheme_https (t : String) : hasScheme ("https://" ++ t) = true :=
  hasScheme_iff.mpr (.inr (Text.startsWith_append _ _))

theorem hasScheme_http (t : String) : hasScheme ("http://" ++ t) = true :=
  hasScheme_iff.mpr (.inl (Text.startsWith_append _ _))

/-- What is behind the prefix. -/
theorem eq_append_of_startsWith {p : String} (h : Text.startsWith s p = true) : ∃ t, s = p ++ t := by
  unfold Text.startsWith at h
  obtain ⟨t, ht⟩ := List.isPrefixOf_iff_prefix.mp h
  refine ⟨String.ofList t, String.toList_inj.mp ?_⟩
  rw [← ht, String.toList_append, String.toList_ofList]

theorem hasScheme_fixCollapsedScheme (h : Text.startsWith rest "http:/" = true ∨ Text.startsWith rest "https:/" = true) :
    hasScheme (fixCollapsedScheme rest) = true := by
  unfold fixCollapsedScheme
  split
  · next after hafter =>
    split_ifs with hslash
    · obtain ⟨t, rfl⟩ := eq_append_of_startsWith hslash
      rw [← String.append_assoc]
      exact hasScheme_https t
    · exact hasScheme_https after
  · next hnone =>
    split
    · next after hafter =>
      split_ifs with hslash
      · obtain ⟨t, rfl⟩ := eq_append_of_startsWith hslash
        rw [← String.append_assoc]
        exact hasScheme_http t
      · exact hasScheme_http after
    · next hnone' =>
      unfold Text.stripPrefix at hnone hnone'
      split_ifs at hnone with h₁
      split_ifs at hnone' with h₂
      exact absurd h (by simp [h₁, h₂])

theorem candidate_hasScheme (h : candidate rest = .ok c) : hasScheme c = true := by
  unfold candidate at h
  split at h
  · next after hafter =>
    cases h
    split_ifs with hscheme
    · exact hscheme
    · exact hasScheme_https after
  · split_ifs at h with hscheme hcollapsed
    · cases h
      exact hscheme
    · cases h
      exact hasScheme_fixCollapsedScheme (by simpa using hcollapsed)

theorem withQuery_hasScheme (h : hasScheme c = true) (q : Option String) : hasScheme (withQuery c q) = true := by
  unfold withQuery
  split
  · split_ifs with hmark
    · exact h
    · rw [String.append_assoc]
      exact hasScheme_append h _
  · exact h

/-- Whatever the form of the path, the target is parsed from a text with a scheme. -/
theorem resolveTargetUrl_parsed (h : resolveTargetUrl parse uri = .ok url) :
    ∃ s, parse s = .ok url ∧ hasScheme s = true := by
  unfold resolveTargetUrl at h
  dsimp only at h
  split_ifs at h with hempty
  cases hc : candidate ((Text.stripPrefix uri.path "/").getD uri.path) with
  | error msg => simp [hc] at h
  | ok c =>
    rw [hc] at h
    dsimp only at h
    cases hparse : parse (withQuery c uri.query) with
    | error e => simp [hparse] at h
    | ok u =>
      rw [hparse] at h
      cases h
      exact ⟨_, hparse, withQuery_hasScheme (candidate_hasScheme hc) _⟩

/-- So its host is one of a web address. -/
theorem resolveTargetUrl_webHost (std : parse.Standard) (h : resolveTargetUrl parse uri = .ok url) {host : String}
    (hhost : url.host = some host) : WebHost host := by
  obtain ⟨s, hs, hscheme⟩ := resolveTargetUrl_parsed h
  obtain ⟨host', hdelimited⟩ := std.delimited hs (std.scheme hs (hasScheme_iff.mp hscheme))
  rw [hdelimited.host_eq] at hhost
  cases hhost
  exact hdelimited.host_web

end Scheme

/-! ## A host and a path behind the prefix of the proxy -/

/-- The first colon of the text is not the one behind the name. -/
theorem not_prefix_append {name host r t : List Char} (hname : ∀ c ∈ name, c ≠ ':' ∧ c ≠ '/')
    (hcolon : ':' ∈ host → host.head? ≠ name.head?) (hne : name ≠ [])
    (hr : ∃ c r', r = c :: r' ∧ (c = ':' ∨ c = '/')) (hslash : ∀ r', r ≠ ':' :: '/' :: r') :
    host ++ r ≠ name ++ ':' :: '/' :: t := by
  intro h
  rcases List.append_eq_append_iff.mp h with ⟨rest, hrest, hr'⟩ | ⟨rest, hrest, hr'⟩
  · -- the name ends past the host
    cases rest with
    | nil => exact hslash _ hr'
    | cons c rest =>
      obtain ⟨d, r', rfl, hd⟩ := hr
      obtain ⟨rfl, -⟩ := List.cons.inj hr'
      obtain ⟨hcolon', hslash'⟩ := hname d (by rw [hrest]; simp)
      exact hd.elim hcolon' hslash'
  · cases rest with
    | nil => exact hslash _ hr'.symm
    | cons c rest =>
      -- the host has the colon
      obtain ⟨rfl, -⟩ := List.cons.inj hr'
      refine hcolon (by rw [hrest]; simp) ?_
      rw [hrest]
      cases name with
      | nil => exact absurd rfl hne
      | cons _ _ => rfl

/-- A location is not taken for a text with a scheme. -/
theorem hasScheme_location {u : Url} {host : String} (h : u.Delimited host) :
    hasScheme (host ++ u.portText ++ u.path) = false := by
  have hpath : ∃ r', u.path.toList = '/' :: r' := List.head?_eq_some_iff.mp h.path_absolute
  have hrest : ∃ c r', u.portText.toList ++ u.path.toList = c :: r' ∧ (c = ':' ∨ c = '/') := by
    obtain ⟨r', hr'⟩ := hpath
    rcases u.portText_cases with hnone | ⟨d, ds, htext, -⟩
    · exact ⟨'/', r', by simp [hnone, hr'], .inr rfl⟩
    · exact ⟨':', d :: ds ++ u.path.toList, by simp [htext], .inl rfl⟩
  have hslash : ∀ r', u.portText.toList ++ u.path.toList ≠ ':' :: '/' :: r' := by
    intro r' hr'
    rcases u.portText_cases with hnone | ⟨d, ds, htext, hdigits⟩
    · obtain ⟨p, hp⟩ := hpath
      rw [hnone, hp] at hr'
      cases hr'
    · rw [htext] at hr'
      obtain ⟨-, hd⟩ := List.cons.inj hr'
      obtain ⟨rfl, -⟩ := List.cons.inj hd
      exact absurd (hdigits '/' List.mem_cons_self) (by decide)
  have hno : ∀ name : String, (∀ c ∈ name.toList, c ≠ ':' ∧ c ≠ '/') → name.toList.head? = some 'h' →
      Text.startsWith (host ++ u.portText ++ u.path) (name ++ "://") = false := by
    intro name hname hhead
    rw [Bool.eq_false_iff]
    intro hstart
    obtain ⟨t, ht⟩ := eq_append_of_startsWith hstart
    have hlist : host.toList ++ (u.portText.toList ++ u.path.toList) = name.toList ++ ':' :: '/' :: ('/' :: t.toList) := by
      have := congrArg String.toList ht
      simpa using this
    refine not_prefix_append hname (fun hcolon => ?_) ?_ hrest hslash hlist
    · rw [h.host_web.colon hcolon, hhead]
      decide
    · intro hnil
      rw [hnil] at hhead
      cases hhead
  unfold hasScheme
  rw [Bool.or_eq_false_iff]
  exact ⟨hno "http" (List.forall_iff_forall_mem.mp (by decide)) rfl,
    hno "https" (List.forall_iff_forall_mem.mp (by decide)) rfl⟩

/-- No question mark stands before the query. -/
theorem location_plain {u : Url} {host : String} (h : u.Delimited host) :
    ∀ c ∈ (host ++ u.portText ++ u.path).toList, c ≠ '?' ∧ c ≠ '#' := by
  intro c hc
  rw [String.toList_append, String.toList_append, List.mem_append, List.mem_append] at hc
  rcases hc with (hc | hc) | hc
  · exact (h.host_web.plain c hc).2
  · rcases Url.portText_plain hc with rfl | hdigit
    · decide
    · refine ⟨?_, ?_⟩ <;>
      · rintro rfl
        exact absurd hdigit (by decide)
  · exact h.path_plain c hc

theorem withQuery_eq {c : String} (hc : '?' ∉ c.toList) (q : Option String) :
    withQuery c q = c ++ (q.map fun t => "?" ++ t).getD "" := by
  have hmark : Text.contains c "?" = false := by
    rw [Bool.eq_false_iff]
    intro hcontains
    have hsub : ['?'] <:+: c.toList := Text.isInfix_iff.mp hcontains
    exact hc (hsub.subset List.mem_cons_self)
  cases q with
  | none => exact String.append_empty.symm
  | some q =>
    unfold withQuery
    dsimp only
    rw [hmark, if_neg Bool.false_ne_true, String.append_assoc]
    rfl

/-- A location behind the prefix is a target of the scheme `https`. -/
theorem resolveTargetUrl_proxy (parse : UrlParser) {u : Url} {host : String} (h : u.Delimited host) :
    resolveTargetUrl parse ⟨"/proxy/" ++ (host ++ u.portText ++ u.path), u.query⟩ =
      match parse ("https://" ++ u.location host) with
      | .error _ => .error "invalid target URL"
      | .ok url => .ok url := by
  have hrest : Text.stripPrefix ("/proxy/" ++ (host ++ u.portText ++ u.path)) "/" =
      some ("proxy/" ++ (host ++ u.portText ++ u.path)) := by
    rw [show "/proxy/" = "/" ++ "proxy/" by decide, String.append_assoc]
    exact Text.stripPrefix_append _ _
  have hform : ¬ ("proxy/" ++ (host ++ u.portText ++ u.path) = "" ∨
      "proxy/" ++ (host ++ u.portText ++ u.path) = "healthz") := by
    rintro (hnone | hhealthz)
    · have := congrArg String.toList hnone
      simp at this
    · have := congrArg String.toList hhealthz
      simp at this
  have hcandidate : candidate ("proxy/" ++ (host ++ u.portText ++ u.path)) =
      .ok ("https://" ++ (host ++ u.portText ++ u.path)) := by
    unfold candidate
    rw [Text.stripPrefix_append]
    dsimp only
    rw [hasScheme_location h, if_neg Bool.false_ne_true]
  have hplain : '?' ∉ ("https://" ++ (host ++ u.portText ++ u.path)).toList := by
    rw [String.toList_append, List.mem_append]
    rintro (hscheme | hlocation)
    · exact absurd hscheme (by decide)
    · exact (location_plain h _ hlocation).1 rfl
  have hquery : withQuery ("https://" ++ (host ++ u.portText ++ u.path)) u.query = "https://" ++ u.location host := by
    rw [withQuery_eq hplain, String.append_assoc]
    rfl
  unfold resolveTargetUrl
  dsimp only
  rw [hrest, Option.getD_some, if_neg hform, hcandidate]
  dsimp only
  rw [hquery]

end AiManager.Egress
