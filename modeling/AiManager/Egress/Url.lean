import Mathlib.Data.List.TakeWhile
import AiManager.Lib.Text

/-! # Locations

URLs as their parser gives them, and the path and the query of a request. The parser is not part of the
repository; `Standard` says what is relied on. -/

namespace AiManager.Egress

open Lib

/-- What can be asked of a parsed URL. The port is absent if it is the default of the scheme. -/
structure Url where
  scheme : String
  username : String := ""
  password : Option String := none
  host : Option String
  port : Option ℕ
  path : String
  query : Option String
  fragment : Option String := none
  deriving DecidableEq

abbrev UrlParser : Type := String → Except String Url

namespace Url

def portText (u : Url) : String := (u.port.map fun p => ":" ++ toString p).getD ""

def queryText (u : Url) : String := (u.query.map fun q => "?" ++ q).getD ""

/-- Host, port, path and query, as they stand in a URL without user information and fragment. -/
def location (u : Url) (host : String) : String := host ++ u.portText ++ u.path ++ u.queryText

end Url

def IsWebScheme (scheme : String) : Prop := scheme = "http" ∨ scheme = "https"

instance (scheme : String) : Decidable (IsWebScheme scheme) := inferInstanceAs (Decidable (_ ∨ _))

def defaultPort (scheme : String) : Option ℕ :=
  if scheme = "http" then some 80 else if scheme = "https" then some 443 else none

/-- The address literals in brackets are the only hosts with a colon. -/
structure WebHost (host : String) : Prop where
  colon : ':' ∈ host.toList → host.toList.head? = some '['
  plain : ∀ c ∈ host.toList, c ≠ '/' ∧ c ≠ '?' ∧ c ≠ '#'
  lower : Text.toAsciiLowercase host = host

/-- Where the parts of a parsed URL end. -/
structure Url.Delimited (u : Url) (host : String) : Prop where
  host_eq : u.host = some host
  host_web : WebHost host
  path_absolute : u.path.toList.head? = some '/'
  path_plain : ∀ c ∈ u.path.toList, c ≠ '?' ∧ c ≠ '#'
  query_plain : ∀ q, u.query = some q → '#' ∉ q.toList
  port_shown : ∀ p, u.port = some p → defaultPort u.scheme ≠ some p

/-- What the parser documents for `http` and `https`: the parts are delimited, and written down again, with either
scheme, they are the same, but for the port that is the default of the scheme. -/
structure UrlParser.Standard (parse : UrlParser) : Prop where
  scheme : ∀ {s u}, parse s = .ok u → (Text.startsWith s "http://" ∨ Text.startsWith s "https://") → IsWebScheme u.scheme
  delimited : ∀ {s u}, parse s = .ok u → IsWebScheme u.scheme → ∃ host, u.Delimited host
  again : ∀ {s u host scheme}, parse s = .ok u → IsWebScheme u.scheme → u.host = some host → IsWebScheme scheme →
    parse (scheme ++ "://" ++ u.location host) = .ok
      { scheme, host := some host, port := u.port.filter fun p => defaultPort scheme ≠ some p
        path := u.path, query := u.query }

/-! ## The path and the query of a request -/

structure Uri where
  path : String
  query : Option String

/-- What follows the authority: the path up to the question mark, the query after it; no fragment is sent. -/
def Uri.ofText (s : String) : Uri :=
  let cs := s.toList.takeWhile (· ≠ '#')
  { path := String.ofList (cs.takeWhile (· ≠ '?'))
    query := match cs.dropWhile (· ≠ '?') with
      | [] => none
      | _ :: q => some (String.ofList q) }

theorem Uri.ofText_append {p : String} {q : Option String} (hp : ∀ c ∈ p.toList, c ≠ '?' ∧ c ≠ '#')
    (hq : ∀ t, q = some t → '#' ∉ t.toList) :
    Uri.ofText (p ++ (q.map fun t => "?" ++ t).getD "") = ⟨p, q⟩ := by
  have hpath : p.toList.takeWhile (· ≠ '?') = p.toList :=
    List.takeWhile_eq_self_iff.mpr fun c hc => decide_eq_true (hp c hc).1
  have hrest : p.toList.dropWhile (· ≠ '?') = [] :=
    List.dropWhile_eq_nil_iff.mpr fun c hc => decide_eq_true (hp c hc).1
  have hsent : ∀ cs : List Char, '#' ∉ cs → cs.takeWhile (· ≠ '#') = cs := by
    intro cs hcs
    refine List.takeWhile_eq_self_iff.mpr fun c hc => decide_eq_true ?_
    rintro rfl
    exact hcs hc
  have hfree : '#' ∉ p.toList := fun hc => (hp _ hc).2 rfl
  unfold Uri.ofText
  cases q with
  | none =>
    rw [Option.map_none, Option.getD_none, String.append_empty, hsent _ hfree]
    dsimp only
    rw [hpath, hrest, String.ofList_toList]
  | some t =>
    have htext : (p ++ ("?" ++ t)).toList = p.toList ++ '?' :: t.toList := by simp
    rw [Option.map_some, Option.getD_some, htext, hsent _ (by simp [hfree, hq t rfl])]
    dsimp only
    rw [List.takeWhile_append_of_pos fun c hc => decide_eq_true (hp c hc).1,
      List.dropWhile_append_of_pos fun c hc => decide_eq_true (hp c hc).1]
    simp

/-- A port is written with a colon and digits. -/
theorem Url.portText_cases (u : Url) : u.portText = "" ∨
    ∃ d ds, u.portText.toList = ':' :: d :: ds ∧ ∀ c ∈ d :: ds, c.isDigit = true := by
  unfold Url.portText
  cases u.port with
  | none => exact .inl rfl
  | some p =>
    obtain ⟨d, ds, hdigits⟩ := List.exists_cons_of_ne_nil (Nat.toDigits_ne_nil (n := p) (b := 10))
    refine .inr ⟨d, ds, ?_, ?_⟩
    · rw [← hdigits]
      simp [Nat.toList_repr]
    · rw [← hdigits]
      exact fun c hc => Nat.isDigit_of_mem_toDigits (by decide) (by decide) hc

/-- What is written of a port has none of these. -/
theorem Url.portText_plain {u : Url} {c : Char} (hc : c ∈ u.portText.toList) : c = ':' ∨ c.isDigit = true := by
  rcases u.portText_cases with hnone | ⟨d, ds, htext, hdigits⟩
  · rw [hnone] at hc
    cases hc
  · rw [htext, List.mem_cons] at hc
    exact hc.imp id (hdigits c)

/-! ## A parser for one location -/

section OneLocation
variable (host path : String) (query : Option String)

/-- The location with a scheme, at its default port. -/
def webUrl (scheme : String) : Url where
  scheme
  host := some host
  port := none
  path
  query

def locationParser : UrlParser := fun s =>
  if s = "https://" ++ (webUrl host path query "https").location host then .ok (webUrl host path query "https")
  else if s = "http://" ++ (webUrl host path query "http").location host then .ok (webUrl host path query "http")
  else .error "relative URL without a base"

variable {host path query}

theorem locationParser_cases {s : String} {u : Url} (h : locationParser host path query s = .ok u) :
    ∃ scheme, IsWebScheme scheme ∧ u = webUrl host path query scheme := by
  unfold locationParser at h
  split_ifs at h
  · cases h
    exact ⟨"https", .inr rfl, rfl⟩
  · cases h
    exact ⟨"http", .inl rfl, rfl⟩

theorem locationParser_standard (h : (webUrl host path query "https").Delimited host) :
    (locationParser host path query).Standard where
  scheme := by
    intro s u hu _
    obtain ⟨scheme, hscheme, rfl⟩ := locationParser_cases hu
    exact hscheme
  delimited := by
    intro s u hu _
    obtain ⟨scheme, -, rfl⟩ := locationParser_cases hu
    exact ⟨host, rfl, h.host_web, h.path_absolute, h.path_plain, h.query_plain, fun _ hport => by cases hport⟩
  again := by
    intro s u host' scheme hu _ hhost hscheme
    obtain ⟨scheme', -, rfl⟩ := locationParser_cases hu
    cases hhost
    rcases hscheme with rfl | rfl
    · have hne : "http" ++ "://" ++ (webUrl host path query scheme').location host ≠
          "https://" ++ (webUrl host path query "https").location host := by
        intro heq
        have := congrArg String.toList heq
        simp at this
      unfold locationParser
      rw [if_neg hne, if_pos (by rfl)]
      rfl
    · unfold locationParser
      rw [if_pos (by rfl)]
      rfl

end OneLocation

end AiManager.Egress
