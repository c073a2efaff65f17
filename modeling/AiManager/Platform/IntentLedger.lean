import AiManager.Lib.Instant
import AiManager.Lib.Text
import Mathlib.Data.List.Forall2
import Mathlib.Data.List.Perm.Basic
import Mathlib.Data.List.Sort

/-! # The ledger of intents

Claims come from the graph, from Slack and from people, each with its own way of writing times. They are listed with one
way of writing, in which the order of the texts is the order of the instants. -/

namespace AiManager.Platform

open Lib

/-- What the date library makes of a text: a timestamp with an offset, and a date and time in a given format, which is
taken to be in UTC. -/
structure TimeParsers where
  rfc3339 : String → Option Instant
  naive : String → String → Option Instant

section Times
variable (chrono : TimeParsers)

/-- A timestamp, with or without an offset. -/
def parseAsUtc (s : String) : Option Instant :=
  let s := Text.trim s
  if s = "" then none
  else
    let cleaned := s.map fun c => if c = ' ' then 'T' else c
    (((chrono.rfc3339 s).or (chrono.naive cleaned "%Y-%m-%dT%H:%M:%S%.f")).or
      (chrono.naive cleaned "%Y-%m-%dT%H:%M:%S")).or (chrono.naive s "%Y-%m-%d %H:%M:%S")

def reformatStoredToIstRfc3339 (s : String) : String :=
  match parseAsUtc chrono s with
  | some dt => dt.formatIstRfc3339
  | none => s

/-- The time that is listed; without one, that of the clock. -/
def listAt (now : Instant) (stored : String) : String :=
  if Text.trim stored = "" then now.formatIstRfc3339 else reformatStoredToIstRfc3339 chrono stored

end Times

/-- A claim of the ledger. -/
structure IntentClaimRecord (F32 : Type) where
  claimId : String
  tenantId : String
  intentType : String
  summary : String
  ownerSubject : Option String
  aboutNodeId : Option String
  confidence : F32
  evidence : List String
  source : String
  isDemo : Bool
  lifecycle : String
  «at» : String
  textPreview : Option String
  channel : Option String

variable {F32 : Type}

/-- Rows that are listed. -/
def retained (includeDemo openOnly : Bool) (c : IntentClaimRecord F32) : Bool :=
  if !includeDemo && c.isDemo then false
  else if openOnly && c.lifecycle ≠ "open" then false
  else true

/-- The rows of the three sources, newest first; `clock i` is what the clock says when the row `i` is listed. -/
def mergeLedger (chrono : TimeParsers) (clock : ℕ → Instant) (graph slack explicit : List (IntentClaimRecord F32))
    (includeDemo openOnly : Bool) : List (IntentClaimRecord F32) :=
  let all := (graph ++ slack ++ explicit).filter (retained includeDemo openOnly)
  let all := all.mapIdx fun i c => { c with «at» := listAt chrono (clock i) c.«at» }
  all.insertionSort fun a b => b.«at» ≤ a.«at»

/-! ## What is listed -/

/-- A row that passes the filters that are asked for. -/
structure Requested (includeDemo openOnly : Bool) (c : IntentClaimRecord F32) : Prop where
  demo : c.isDemo = true → includeDemo = true
  lifecycle : openOnly = true → c.lifecycle = "open"

theorem retained_iff {includeDemo openOnly : Bool} {c : IntentClaimRecord F32} :
    retained includeDemo openOnly c = true ↔ Requested includeDemo openOnly c := by
  have hrequested : Requested includeDemo openOnly c ↔
      (c.isDemo = true → includeDemo = true) ∧ (openOnly = true → c.lifecycle = "open") :=
    ⟨fun h => ⟨h.demo, h.lifecycle⟩, fun h => ⟨h.1, h.2⟩⟩
  rw [hrequested]
  unfold retained
  cases includeDemo <;> cases c.isDemo <;> cases openOnly <;> simp

instance (includeDemo openOnly : Bool) : DecidablePred (@Requested F32 includeDemo openOnly) := fun _ =>
  decidable_of_iff _ retained_iff

/-- A timestamp that the parser accepts, in a year of four digits. -/
def Dated (chrono : TimeParsers) (c : IntentClaimRecord F32) (t : Instant) : Prop :=
  parseAsUtc chrono c.«at» = some t ∧ t.IstYear

/-- The row is listed with a text of the same instant, and is otherwise the same. -/
def ListedAs (chrono : TimeParsers) (c c' : IntentClaimRecord F32) : Prop :=
  ∃ t text, parseAsUtc chrono c.«at» = some t ∧ Instant.readRfc3339 text = some t ∧ c' = { c with «at» := text }

/-- Each row is listed once and no other, and the newest come first. -/
structure Merged (chrono : TimeParsers) (rows out : List (IntentClaimRecord F32)) : Prop where
  each : ∃ sorted, sorted.Perm rows ∧ List.Forall₂ (ListedAs chrono) sorted out
  newest : out.Pairwise fun a b => ∃ t t', Instant.readRfc3339 a.«at» = some t ∧
    Instant.readRfc3339 b.«at» = some t' ∧ t' ≤ t

section Merge
variable {chrono : TimeParsers} {clock : ℕ → Instant} {rows : List (IntentClaimRecord F32)}

theorem listAt_of_parse (now : Instant) {stored : String} {t : Instant} (h : parseAsUtc chrono stored = some t) :
    listAt chrono now stored = t.formatIstRfc3339 := by
  have hstored : Text.trim stored ≠ "" := by
    intro hempty
    unfold parseAsUtc at h
    rw [if_pos hempty] at h
    cases h
  unfold listAt reformatStoredToIstRfc3339
  rw [if_neg hstored, h]

/-- The rows as they are listed, before they are sorted. -/
def relisted (chrono : TimeParsers) (clock : ℕ → Instant) (rows : List (IntentClaimRecord F32)) :
    List (IntentClaimRecord F32) :=
  rows.mapIdx fun i c => { c with «at» := listAt chrono (clock i) c.«at» }

theorem relisted_cons (c : IntentClaimRecord F32) : relisted chrono clock (c :: rows) =
    { c with «at» := listAt chrono (clock 0) c.«at» } :: relisted chrono (fun i => clock (i + 1)) rows :=
  List.mapIdx_cons

/-- No row is lost or changed. -/
theorem relisted_rows (h : ∀ c ∈ rows, ∃ t, Dated chrono c t) :
    List.Forall₂ (ListedAs chrono) rows (relisted chrono clock rows) := by
  induction rows generalizing clock with
  | nil => exact .nil
  | cons c rows ih =>
    obtain ⟨hc, hrows⟩ := List.forall_mem_cons.mp h
    obtain ⟨t, hparse, hyear⟩ := hc
    rw [relisted_cons, listAt_of_parse _ hparse]
    exact .cons ⟨t, _, hparse, Instant.readRfc3339_formatIst hyear, rfl⟩ (ih hrows)

theorem at_of_mem_relisted (h : ∀ c ∈ rows, ∃ t, Dated chrono c t) {c : IntentClaimRecord F32}
    (hc : c ∈ relisted chrono clock rows) : ∃ t : Instant, t.IstYear ∧ c.«at» = t.formatIstRfc3339 := by
  obtain ⟨i, hi, rfl⟩ := List.mem_mapIdx.mp hc
  obtain ⟨t, hparse, hyear⟩ := h _ (List.getElem_mem hi)
  refine ⟨t, hyear, ?_⟩
  dsimp only
  exact listAt_of_parse _ hparse

/-- Sorted by their texts, they are sorted by their instants. -/
theorem newest_of_relisted (h : ∀ c ∈ rows, ∃ t, Dated chrono c t) :
    ((relisted chrono clock rows).insertionSort fun a b => b.«at» ≤ a.«at»).Pairwise fun a b =>
      ∃ t t', Instant.readRfc3339 a.«at» = some t ∧ Instant.readRfc3339 b.«at» = some t' ∧ t' ≤ t := by
  have hsorted := List.pairwise_insertionSort (fun a b : IntentClaimRecord F32 => b.«at» ≤ a.«at»)
    (relisted chrono clock rows)
  refine hsorted.imp_of_mem fun {a b} ha hb hle => ?_
  obtain ⟨t, hyear, hat⟩ := at_of_mem_relisted h ((List.mem_insertionSort _).mp ha)
  obtain ⟨t', hyear', hat'⟩ := at_of_mem_relisted h ((List.mem_insertionSort _).mp hb)
  rw [hat, hat', Instant.formatIst_le_iff hyear' hyear] at hle
  refine ⟨t, t', ?_, ?_, hle⟩
  · rw [hat]
    exact Instant.readRfc3339_formatIst hyear
  · rw [hat']
    exact Instant.readRfc3339_formatIst hyear'

theorem mergeLedger_merged (clock : ℕ → Instant) {graph slack explicit : List (IntentClaimRecord F32)}
    (h : ∀ c ∈ graph ++ slack ++ explicit, ∃ t, Dated chrono c t) (includeDemo openOnly : Bool) :
    Merged chrono ((graph ++ slack ++ explicit).filter fun c => Requested includeDemo openOnly c)
      (mergeLedger chrono clock graph slack explicit includeDemo openOnly) := by
  have hfilter : (graph ++ slack ++ explicit).filter (fun c => Requested includeDemo openOnly c) =
      (graph ++ slack ++ explicit).filter (retained includeDemo openOnly) := by
    refine List.filter_congr fun c hc => ?_
    rw [Bool.eq_iff_iff, decide_eq_true_iff, retained_iff]
  rw [hfilter]
  generalize hrows : (graph ++ slack ++ explicit).filter (retained includeDemo openOnly) = rows
  have hdated : ∀ c ∈ rows, ∃ t, Dated chrono c t := by
    rw [← hrows]
    exact fun c hc => h c (List.mem_filter.mp hc).1
  have hmerged : mergeLedger chrono clock graph slack explicit includeDemo openOnly =
      (relisted chrono clock rows).insertionSort fun a b => b.«at» ≤ a.«at» := by
    rw [← hrows]
    rfl
  rw [hmerged]
  refine ⟨?_, newest_of_relisted hdated⟩
  have hperm := (List.perm_insertionSort (fun a b : IntentClaimRecord F32 => b.«at» ≤ a.«at»)
    (relisted chrono clock rows)).symm
  -- the rows are listed first and sorted then: that is to sort the rows and to list them in that order
  obtain ⟨sorted, hsorted, hlisted⟩ : Relation.Comp List.Perm (List.Forall₂ (ListedAs chrono)) rows _ := by
    rw [← List.forall₂_comp_perm_eq_perm_comp_forall₂]
    exact ⟨_, relisted_rows hdated, hperm⟩
  exact ⟨sorted, hsorted.symm, hlisted⟩

end Merge

/-! ### Three sources -/

/-- Parsers that take a text without an offset to be in UTC. -/
def zulu : TimeParsers where
  rfc3339 := Instant.readRfc3339
  naive text format :=
    if format = "%Y-%m-%dT%H:%M:%S%.f" ∨ format = "%Y-%m-%dT%H:%M:%S" then Instant.readRfc3339 (text ++ "Z") else none

def claimAt (claimId time : String) : IntentClaimRecord Unit where
  claimId
  tenantId := "ten_demo"
  intentType := "SHIP"
  summary := "Ship the release"
  ownerSubject := none
  aboutNodeId := none
  confidence := ()
  evidence := []
  source := "explicit"
  isDemo := false
  lifecycle := "open"
  «at» := time
  textPreview := none
  channel := none

theorem threeSources_merged : Merged zulu
    (([claimAt "graph" "2026-08-12T12:00:00Z"] ++ [claimAt "slack" "2026-08-12 12:00:01"] ++
      [claimAt "explicit" "2026-08-12T17:29:59.5+05:30"]).filter fun c => Requested false true c)
    (mergeLedger zulu (fun _ => Instant.ofDateTime 0) [claimAt "graph" "2026-08-12T12:00:00Z"]
      [claimAt "slack" "2026-08-12 12:00:01"] [claimAt "explicit" "2026-08-12T17:29:59.5+05:30"] false true) := by
  refine mergeLedger_merged _ ?_ false true
  intro c hc
  simp only [List.mem_append, List.mem_singleton] at hc
  obtain (rfl | rfl) | rfl := hc
  · exact ⟨⟨1786536000, 0, by decide, by decide⟩, by decide +kernel, by decide⟩
  · exact ⟨⟨1786536001, 0, by decide, by decide⟩, by decide +kernel, by decide⟩
  · exact ⟨⟨1786535999, 500000000, by decide, by decide⟩, by decide +kernel, by decide⟩

end AiManager.Platform
