import AiManager.Lib.Delimited
import AiManager.Lib.Percent
import AiManager.Twins.HttpV2

/-! # Ids in URLs

The tenant, the person and the node of a call stand in its URL. The two encoders of the graph API escape characters,
one escape each; what is read at the other side are bytes. The encoder of the Teams client escapes bytes. -/

namespace AiManager.Twins

open Lib

/-! ## The other encoders -/

/-- The copy in the twin API. -/
def urlencodingSimple (s : String) : String := String.ofList (s.toList.flatMap encodeChar)

def unreserved (b : UInt8) : Bool :=
  let c := Char.ofNat b.toNat
  b.toNat < 128 && (c.isAlphanum || ['-', '_', '.', '~'].contains c)

/-- The encoder of the Teams client, a byte at a time. -/
def urlencodingPath (s : String) : String := String.ofList (Percent.encode unreserved (Utf8.bytes s.toList))

/-! ## The URLs -/

/-- What the three calls of a view have in common. -/
def personUrl (baseUrl tenantId endpoint globalUserId nodeId rest : String) : String :=
  baseUrl ++ "/v2/tenants/" ++ urlencodingLite tenantId ++ "/" ++ endpoint ++ "?user_id=" ++
    urlencodingLite globalUserId ++ "&node_id=" ++ urlencodingLite nodeId ++ rest

def neighborhoodUrl (baseUrl tenantId globalUserId personNodeId : String) (hops : ℕ) : String :=
  personUrl baseUrl tenantId "neighborhood" globalUserId personNodeId ("&hops=" ++ toString hops)

def blockersUrl (baseUrl tenantId globalUserId personNodeId : String) : String :=
  personUrl baseUrl tenantId "blockers" globalUserId personNodeId ""

def stateUrl (baseUrl tenantId globalUserId nodeId : String) : String :=
  personUrl baseUrl tenantId "state" globalUserId nodeId "&state_key=lifecycle"

/-- The twin API reads conflicts, intents and snapshots for a reader, with the tenant as it is. -/
def readerUrl (v2 tenantId endpoint reader rest : String) : String :=
  v2 ++ "/v2/tenants/" ++ tenantId ++ "/" ++ endpoint ++ "?user_id=" ++ urlencodingSimple reader ++ rest

/-! ## What an encoder is for -/

/-- Every id is read back, and no two are written alike. -/
structure Faithful (encode : String → String) (ids : Set String) : Prop where
  read_back : ∀ s ∈ ids, Percent.text (encode s) = some s
  apart : ∀ s ∈ ids, ∀ t ∈ ids, encode s = encode t → s = t

/-- No URL about one person is a URL about another. -/
structure KeepsApart (ids : Set String) : Prop where
  neighborhood : ∀ baseUrl, ∀ t ∈ ids, ∀ t' ∈ ids, ∀ u ∈ ids, ∀ u' ∈ ids, ∀ n ∈ ids, ∀ n' ∈ ids, ∀ hops hops',
    neighborhoodUrl baseUrl t u n hops = neighborhoodUrl baseUrl t' u' n' hops' → t = t' ∧ u = u' ∧ n = n'
  blockers : ∀ baseUrl, ∀ t ∈ ids, ∀ t' ∈ ids, ∀ u ∈ ids, ∀ u' ∈ ids, ∀ n ∈ ids, ∀ n' ∈ ids,
    blockersUrl baseUrl t u n = blockersUrl baseUrl t' u' n' → t = t' ∧ u = u' ∧ n = n'
  state : ∀ baseUrl, ∀ t ∈ ids, ∀ t' ∈ ids, ∀ u ∈ ids, ∀ u' ∈ ids, ∀ n ∈ ids, ∀ n' ∈ ids,
    stateUrl baseUrl t u n = stateUrl baseUrl t' u' n' → t = t' ∧ u = u' ∧ n = n'
  reader : ∀ v2 tenantId endpoint rest, ∀ u ∈ ids, ∀ u' ∈ ids,
    readerUrl v2 tenantId endpoint u rest = readerUrl v2 tenantId endpoint u' rest → u = u'

theorem Faithful.of_read_back {encode : String → String} {ids : Set String}
    (h : ∀ s ∈ ids, Percent.text (encode s) = some s) : Faithful encode ids where
  read_back := h
  apart s hs t ht heq := Option.some.inj ((h s hs).symm.trans ((congrArg Percent.text heq).trans (h t ht)))

/-! ## A byte at a time -/

theorem isAscii_of_isAlphanum {c : Char} (h : c.isAlphanum) : Utf8.isAscii c ∧ c ≠ '%' := by
  change ((decide (c.val ≥ 'A'.val ∧ c.val ≤ 'Z'.val) || (decide (c.val ≥ 'a'.val) && decide (c.val ≤ 'z'.val))) ||
    (decide (c.val ≥ '0'.val) && decide (c.val ≤ '9'.val))) = true at h
  simp only [Bool.or_eq_true, Bool.and_eq_true, decide_eq_true_eq, ge_iff_le, UInt32.le_iff_toNat_le] at h
  constructor
  · refine decide_eq_true ?_
    show c.val.toNat < 128
    rcases h with (h | h) | h
    · exact Nat.lt_of_le_of_lt h.2 (by decide)
    · exact Nat.lt_of_le_of_lt h.2 (by decide)
    · exact Nat.lt_of_le_of_lt h.2 (by decide)
  · rintro rfl
    revert h
    decide

theorem isAscii_of_plain {c : Char} (h : c.isAlphanum || ['-', '_', '.', '~'].contains c) :
    Utf8.isAscii c ∧ c ≠ '%' := by
  rcases Bool.or_eq_true_iff.mp h with h | h
  · exact isAscii_of_isAlphanum h
  · have hall : ['-', '_', '.', '~'].all fun c => Utf8.isAscii c && c ≠ '%' := by decide
    simpa using List.all_eq_true.mp hall c (List.contains_iff_mem.mp h)

/-- The sibling reads every text back. -/
theorem text_urlencodingPath (s : String) : Percent.text (urlencodingPath s) = some s := by
  have hkeep : ∀ b, unreserved b → b.toNat < 128 ∧ Char.ofNat b.toNat ≠ '%' := by
    intro b hb
    obtain ⟨hlt, hplain⟩ := Bool.and_eq_true_iff.mp hb
    exact ⟨of_decide_eq_true hlt, (isAscii_of_plain hplain).2⟩
  have hdecode := Percent.decode_encode hkeep (Utf8.bytes s.toList) []
  rw [List.append_nil, show Percent.decode [] = [] from rfl, List.append_nil] at hdecode
  rw [Percent.text, urlencodingPath, String.toList_ofList, hdecode]
  exact Utf8.text_bytes s

/-! ## A character at a time -/

/-- Of a character the lower byte is sent. -/
theorem decode_encodeChar (c : Char) (cs : List Char) :
    Percent.decode (encodeChar c ++ cs) = UInt8.ofNat c.toNat :: Percent.decode cs := by
  rw [encodeChar]
  split
  · next h =>
    obtain ⟨hascii, hne⟩ := isAscii_of_plain h
    rw [List.singleton_append, Percent.decode_cons_of_ne hne, Utf8.utf8EncodeChar_of_isAscii hascii]
    rfl
  · have hbyte : ['%', hexDigit (c.toNat % 256 / 16), hexDigit (c.toNat % 16)] =
        Percent.escape (UInt8.ofNat c.toNat) := by
      rw [Percent.escape, UInt8.toNat_ofNat', Nat.mod_mod_of_dvd c.toNat (show 16 ∣ 2 ^ 8 by decide)]
      rfl
    rw [hbyte]
    exact Percent.decode_escape _ cs

theorem decode_flatMap_encodeChar (cs : List Char) :
    Percent.decode (cs.flatMap encodeChar) = cs.map fun c => UInt8.ofNat c.toNat := by
  induction cs with
  | nil => rfl
  | cons c cs ih =>
    rw [List.flatMap_cons, decode_encodeChar, ih]
    rfl

/-- An id is read back exactly if it is ASCII: one byte is sent for each character of it. -/
theorem text_urlencodingLite_iff (s : String) :
    Percent.text (urlencodingLite s) = some s ↔ ∀ c ∈ s.toList, Utf8.isAscii c := by
  rw [Percent.text, urlencodingLite, String.toList_ofList, decode_flatMap_encodeChar, Utf8.text_eq_some_iff]
  constructor
  · intro h
    apply Utf8.isAscii_of_length
    rw [← h, List.length_map]
  · intro h
    exact (Utf8.bytes_of_isAscii h).symm

/-! ## Where an id ends -/

theorem notMem_urlencodingLite {d : Char} (hd : ['/', '&'].contains d) (s : String) :
    d ∉ (urlencodingLite s).toList := by
  have hdigit : ∀ n, hexDigit n ≠ d := by
    intro n
    by_cases hn : n < 16
    · have hall : ['/', '&'].all fun d => (List.range 16).all fun n => hexDigit n ≠ d := by decide
      have hnot := List.all_eq_true.mp hall d (List.contains_iff_mem.mp hd)
      exact of_decide_eq_true (List.all_eq_true.mp hnot n (List.mem_range.mpr hn))
    · have hzero : hexDigit n = '0' := by
        rw [hexDigit, List.getD_eq_getElem?_getD, List.getElem?_eq_none (Nat.le_of_not_lt hn)]
        rfl
      rw [hzero]
      rintro rfl
      exact absurd hd (by decide)
  rw [urlencodingLite, String.toList_ofList]
  intro h
  obtain ⟨c, -, hc⟩ := List.mem_flatMap.mp h
  rw [encodeChar] at hc
  split at hc
  · next hplain =>
    obtain rfl := List.mem_singleton.mp hc
    have hall : ['/', '&'].all fun d => !(d.isAlphanum || ['-', '_', '.', '~'].contains d) := by decide
    have hnot := List.all_eq_true.mp hall d (List.contains_iff_mem.mp hd)
    rw [hplain] at hnot
    cases hnot
  · simp only [List.mem_cons, List.not_mem_nil, or_false] at hc
    rcases hc with rfl | rfl | rfl
    · exact absurd hd (by decide)
    · exact hdigit _ rfl
    · exact hdigit _ rfl

section Urls
variable {baseUrl tenantId tenantId' endpoint globalUserId globalUserId' nodeId nodeId' rest rest' : String}

/-- A URL says how its ids are written. -/
theorem personUrl_inj (hrest : ∀ c ∈ rest.toList.head?, c = '&') (hrest' : ∀ c ∈ rest'.toList.head?, c = '&')
    (h : personUrl baseUrl tenantId endpoint globalUserId nodeId rest =
      personUrl baseUrl tenantId' endpoint globalUserId' nodeId' rest') :
    urlencodingLite tenantId = urlencodingLite tenantId' ∧
      urlencodingLite globalUserId = urlencodingLite globalUserId' ∧
      urlencodingLite nodeId = urlencodingLite nodeId' := by
  have hslash := notMem_urlencodingLite (d := '/') (by decide)
  have hamp := notMem_urlencodingLite (d := '&') (by decide)
  have hchars := congrArg String.toList h
  simp only [personUrl, String.toList_append, List.append_assoc] at hchars
  have htail := List.append_cancel_left (List.append_cancel_left hchars)
  obtain ⟨htenant, htail⟩ := append_inj_of_notMem (hslash _) (hslash _) (by simp) (by simp) htail
  have htail := List.append_cancel_left (List.append_cancel_left (List.append_cancel_left htail))
  obtain ⟨huser, htail⟩ := append_inj_of_notMem (hamp _) (hamp _) (by simp) (by simp) htail
  obtain ⟨hnode, -⟩ := append_inj_of_notMem (hamp _) (hamp _) hrest hrest' (List.append_cancel_left htail)
  exact ⟨String.toList_injective htenant, String.toList_injective huser, String.toList_injective hnode⟩

theorem readerUrl_inj {v2 reader reader' : String}
    (h : readerUrl v2 tenantId endpoint reader rest = readerUrl v2 tenantId endpoint reader' rest) :
    urlencodingSimple reader = urlencodingSimple reader' := by
  have hchars := congrArg String.toList h
  simp only [readerUrl, String.toList_append] at hchars
  exact String.toList_injective (List.append_cancel_left (List.append_cancel_right hchars))

end Urls

/-! ## Which ids can be sent -/

section Ids
variable {ids : Set String}

theorem keepsApart_of_faithful (h : Faithful urlencodingLite ids) : KeepsApart ids := by
  have hperson : ∀ t ∈ ids, ∀ t' ∈ ids, ∀ u ∈ ids, ∀ u' ∈ ids, ∀ n ∈ ids, ∀ n' ∈ ids,
      urlencodingLite t = urlencodingLite t' ∧ urlencodingLite u = urlencodingLite u' ∧
        urlencodingLite n = urlencodingLite n' → t = t' ∧ u = u' ∧ n = n' := by
    rintro t ht t' ht' u hu u' hu' n hn n' hn' ⟨htenant, huser, hnode⟩
    exact ⟨h.apart t ht t' ht' htenant, h.apart u hu u' hu' huser, h.apart n hn n' hn' hnode⟩
  constructor
  · intro baseUrl t ht t' ht' u hu u' hu' n hn n' hn' hops hops' heq
    exact hperson t ht t' ht' u hu u' hu' n hn n' hn' (personUrl_inj (by simp) (by simp) heq)
  · intro baseUrl t ht t' ht' u hu u' hu' n hn n' hn' heq
    exact hperson t ht t' ht' u hu u' hu' n hn n' hn' (personUrl_inj (by simp) (by simp) heq)
  · intro baseUrl t ht t' ht' u hu u' hu' n hn n' hn' heq
    exact hperson t ht t' ht' u hu u' hu' n hn n' hn' (personUrl_inj (by simp) (by simp) heq)
  · intro v2 tenantId endpoint rest u hu u' hu' heq
    exact h.apart u hu u' hu' (readerUrl_inj heq)

/-- Ids can be sent exactly if they are ASCII. -/
theorem urlTexts_faithful_iff (ids : Set String) :
    (Faithful urlencodingLite ids ∧ Faithful urlencodingSimple ids ∧ KeepsApart ids) ↔
      ∀ s ∈ ids, ∀ c ∈ s.toList, Utf8.isAscii c := by
  constructor
  · rintro ⟨h, -⟩ s hs
    exact (text_urlencodingLite_iff s).mp (h.read_back s hs)
  · intro h
    have hlite : Faithful urlencodingLite ids :=
      Faithful.of_read_back fun s hs => (text_urlencodingLite_iff s).mpr (h s hs)
    exact ⟨hlite, hlite, keepsApart_of_faithful hlite⟩

/-- One id is read as another one, and two ids have one text. -/
theorem urlTexts_not_faithful :
    Percent.text (urlencodingLite "gu_bůb") = some "gu_bob" ∧
      (∀ baseUrl hops, neighborhoodUrl baseUrl "t" "guĺbob" "person:bob" hops =
        neighborhoodUrl baseUrl "t" "gu:bob" "person:bob" hops) ∧
      ¬(Faithful urlencodingLite Set.univ ∧ Faithful urlencodingSimple Set.univ ∧ KeepsApart Set.univ) := by
  have hsame : urlencodingLite "guĺbob" = urlencodingLite "gu:bob" := by decide
  refine ⟨?_, ?_, ?_⟩
  · rw [Percent.text, Utf8.text_eq_some_iff]
    decide
  · intro baseUrl hops
    rw [neighborhoodUrl, neighborhoodUrl, personUrl, personUrl, hsame]
  · rintro ⟨h, -⟩
    exact absurd (h.apart _ trivial _ trivial hsame) (by decide)

end Ids

/-! ## What is fetched -/

/-- Two persons whose ids have one text are answered alike. -/
theorem HttpV2GraphSource_of_urlencodingLite_eq {globalUserId globalUserId' : String}
    (h : urlencodingLite globalUserId = urlencodingLite globalUserId') (api : V2Api) (utcNow : DateTime)
    (tenantId personNodeId : String) (hops : ℕ) :
    HttpV2GraphSource api (fun _ => utcNow) tenantId globalUserId personNodeId hops =
      HttpV2GraphSource api (fun _ => utcNow) tenantId globalUserId' personNodeId hops := by
  have hstate : fetchState api utcNow tenantId globalUserId = fetchState api utcNow tenantId globalUserId' := by
    funext n
    rw [fetchState, fetchState, h]
  rw [HttpV2GraphSource, HttpV2GraphSource, httpPersonView, httpPersonView, h, hstate]
  simp only [fetchBlockers, h]

end AiManager.Twins
