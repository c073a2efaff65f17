import AiManager.Telemetry.ClickHouseText

/-! # Question marks in the analytical store

The client takes the text of a statement for a template, in which a question mark is the place of a value. An insert
binds none, and a query binds those of its own conditions. -/

namespace AiManager.Telemetry

open Lib Lib.SqlText

namespace ClickHouseEventStore

/-! ## The row that is stored -/

def digits : List Token → List Char × List Token
  | .char c :: ts => if c.isDigit then (c :: (digits ts).1, (digits ts).2) else ([], .char c :: ts)
  | ts => ([], ts)

def number (ts : List Token) : Option (ℕ × List Token) :=
  match digits ts with
  | ([], _) => none
  | (cs, ts) => some (Nat.ofDigitChars 10 cs 0, ts)

section Stored
variable (parseDateTime64 : String → Option DateTime)

/-- A value with a comma after it. -/
def field {α : Type} (read : List Token → Option (α × List Token)) (ts : List Token) : Option (α × List Token) := do
  let (a, ts) ← read ts
  let ts ← expect "," ts
  some (a, ts)

def literals : ℕ → List Token → Option (List String × List Token)
  | 0, ts => some ([], ts)
  | n + 1, ts => do
    let (s, ts) ← field literal ts
    let (ss, ts) ← literals n ts
    some (s :: ss, ts)

/-- `parseDateTime64BestEffort('{}', 3)` -/
def time (ts : List Token) : Option (DateTime × List Token) := do
  let ts ← expect "parseDateTime64BestEffort(" ts
  let (s, ts) ← literal ts
  let ts ← expect ",3)" ts
  let t ← parseDateTime64 s
  some (t, ts)

/-- The texts of a row, as they are grouped in an insert. -/
def texts : List String → List String → List String → Option ChEventRow
  | [eventId, tenantId, provider, category, eventType], [actorGlobalUserId, actorProviderUserId, actorEmail],
      [resourceId, parentResourceId, attributesJson, rawPayloadS3Uri] =>
    some { eventId, tenantId, provider, category, eventType, eventTimestamp := 0, ingestedAt := 0, actorGlobalUserId,
           actorProviderUserId, actorEmail, isPrivate := 0, allowedGroupIds := [], aclVersion := 0, resourceId,
           parentResourceId, attributesJson, rawPayloadS3Uri, eventSequenceNumber := 0 }
  | _, _, _ => none

/-- The values of an insert, column by column. -/
def columns (ts : List Token) : Option ChEventRow := do
  let (event, ts) ← literals 5 ts
  let (eventTimestamp, ts) ← field (time parseDateTime64) ts
  let (ingestedAt, ts) ← field (time parseDateTime64) ts
  let (actor, ts) ← literals 3 ts
  let (isPrivate, ts) ← field number ts
  let (allowedGroupIds, ts) ← field array ts
  let (aclVersion, ts) ← field number ts
  let (resource, ts) ← literals 4 ts
  let (eventSequenceNumber, ts) ← number ts
  let row ← texts event actor resource
  if ts = [.char ')'] then
    some { row with eventTimestamp, ingestedAt, isPrivate, allowedGroupIds, aclVersion, eventSequenceNumber }
  else none

/-- The row of an insert, by the text of its values. -/
def storedRow (values : List Char) : Option ChEventRow :=
  (lex .out values).bind fun ts => columns parseDateTime64 (dropBlanks ts)

/-- The row of some values as they are written. -/
def ChInsertJson.row (v : ChInsertJson) : Option ChEventRow := do
  let eventTimestamp ← parseDateTime64 v.eventTimestamp
  let ingestedAt ← parseDateTime64 v.ingestedAt
  some
    { eventId := v.eventId
      tenantId := v.tenantId
      provider := v.provider
      category := v.category
      eventType := v.eventType
      eventTimestamp
      ingestedAt
      actorGlobalUserId := v.actorGlobalUserId
      actorProviderUserId := v.actorProviderUserId
      actorEmail := v.actorEmail
      isPrivate := v.isPrivate
      allowedGroupIds := v.allowedGroupIds
      aclVersion := v.aclVersion
      resourceId := v.resourceId
      parentResourceId := v.parentResourceId
      attributesJson := v.attributesJson
      rawPayloadS3Uri := v.rawPayloadS3Uri
      eventSequenceNumber := v.eventSequenceNumber }

theorem digits_append {cs : List Char} (h : ∀ c ∈ cs, c.isDigit) {c : Char} (hc : c.isDigit = false)
    (ts : List Token) : digits (cs.map .char ++ .char c :: ts) = (cs, .char c :: ts) := by
  induction cs with
  | nil =>
    show (if c.isDigit then _ else _) = _
    rw [hc]
    rfl
  | cons d cs ih =>
    rw [List.map_cons, List.cons_append, digits, if_pos (h d List.mem_cons_self),
      ih fun c hc => h c (List.mem_cons_of_mem _ hc)]

theorem number_append (n : ℕ) {c : Char} (hc : c.isDigit = false) (ts : List Token) :
    number ((toString n).toList.map .char ++ .char c :: ts) = some (n, .char c :: ts) := by
  have hvalue : Nat.ofDigitChars 10 (toString n).toList 0 = n := by
    rw [Nat.toString_eq_ofList_toDigits, String.toList_ofList]
    exact Nat.ofDigitChars_toDigits (by decide) (by decide)
  obtain ⟨d, ds, heq⟩ := List.exists_cons_of_ne_nil (toList_toString_ne_nil n)
  rw [number, digits_append (fun c hc => isDigit_of_mem_toString hc) hc]
  rw [heq] at hvalue ⊢
  show some (Nat.ofDigitChars 10 (d :: ds) 0, _) = _
  rw [hvalue]

section Readers
variable {α : Type}

theorem field_append {read : List Token → Option (α × List Token)} {ts ts' : List Token} {a : α}
    (h : read ts = some (a, .char ',' :: ts')) : field read ts = some (a, ts') := by
  unfold field
  rw [h]
  exact congrArg (Option.map (Prod.mk a)) (expect_append "," ts')

end Readers

/-- What is written for literals, for a time and for a number, without blanks. -/
def literalTokens (ss : List String) (ts : List Token) : List Token :=
  (ss.flatMap fun s => [.literal s.toList, .char ',']) ++ ts

def timeTokens (s : String) (ts : List Token) : List Token :=
  "parseDateTime64BestEffort(".toList.map .char ++ .literal s.toList :: (",3)".toList.map .char ++ .char ',' :: ts)

def numberTokens (n : ℕ) (ts : List Token) : List Token := (toString n).toList.map .char ++ ts

theorem literals_append (ss : List String) (ts : List Token) :
    literals ss.length (literalTokens ss ts) = some (ss, ts) := by
  induction ss with
  | nil => rfl
  | cons s ss ih =>
    have hfield : field literal (literalTokens (s :: ss) ts) = some (s, literalTokens ss ts) :=
      field_append (literal_cons s _)
    rw [List.length_cons, literals, hfield]
    simp only [Option.bind_eq_bind, Option.bind_some, ih]

theorem field_time (s : String) (ts : List Token) :
    field (time parseDateTime64) (timeTokens s ts) = (parseDateTime64 s).map fun t => (t, ts) := by
  have htime : time parseDateTime64 (timeTokens s ts) = (parseDateTime64 s).map fun t => (t, .char ',' :: ts) := by
    unfold time timeTokens
    simp only [expect_append, literal_cons, Option.bind_eq_bind, Option.bind_some]
    cases parseDateTime64 s <;> rfl
  cases hparse : parseDateTime64 s with
  | none =>
    rw [hparse] at htime
    unfold field
    rw [htime]
    rfl
  | some t =>
    rw [hparse] at htime
    exact field_append htime

/-- The values of an insert without their blanks. -/
def valueTokens (v : ChInsertJson) : List Token :=
  literalTokens [v.eventId, v.tenantId, v.provider, v.category, v.eventType] <|
    timeTokens v.eventTimestamp <| timeTokens v.ingestedAt <|
    literalTokens [v.actorGlobalUserId, v.actorProviderUserId, v.actorEmail] <|
    numberTokens v.isPrivate <| .char ',' :: (arrayTokens v.allowedGroupIds ++ .char ',' ::
      (numberTokens v.aclVersion <| .char ',' ::
        (literalTokens [v.resourceId, v.parentResourceId, v.attributesJson, v.rawPayloadS3Uri] <|
          numberTokens v.eventSequenceNumber [.char ')'])))

theorem dropBlanks_digits (n : ℕ) :
    dropBlanks ((toString n).toList.map .char) = (toString n).toList.map .char := by
  apply List.filter_eq_self.mpr
  intro t ht
  obtain ⟨c, hc, rfl⟩ := List.mem_map.mp ht
  have hdigit := isDigit_of_mem_toString hc
  have hspace : c ≠ ' ' := by
    rintro rfl
    exact absurd hdigit (by decide)
  have hline : c ≠ '\n' := by
    rintro rfl
    exact absurd hdigit (by decide)
  simp [isBlank, hspace, hline]

theorem dropBlanks_valuePieces (v : ChInsertJson) : dropBlanks (tokens (valuePieces v)) = valueTokens v := by
  unfold valuePieces
  rw [List.append_assoc]
  simp only [List.cons_append, List.nil_append, tokens_append, dropBlanks_append, dropBlanks_code, dropBlanks_literal,
    dropBlanks_digits, dropBlanks_arrayPieces]
  rfl

theorem bind_of_eq_some {α β : Type} {x : Option α} {a : α} (h : x = some a) (k : α → Option β) : (x >>= k) = k a := by
  rw [h]
  rfl

theorem bind_of_eq_none {α β : Type} {x : Option α} (h : x = none) (k : α → Option β) : (x >>= k) = none := by
  rw [h]
  rfl

theorem columns_valueTokens (v : ChInsertJson) : columns parseDateTime64 (valueTokens v) = v.row parseDateTime64 := by
  have hnumber : ∀ n ts, field number (numberTokens n (.char ',' :: ts)) = some (n, ts) :=
    fun n ts => field_append (number_append n rfl ts)
  have hgroups : ∀ ts, field array (arrayTokens v.allowedGroupIds ++ .char ',' :: ts) =
      some (v.allowedGroupIds, ts) := fun ts => field_append (array_append _ _)
  have hlast : number (numberTokens v.eventSequenceNumber [.char ')']) = some (v.eventSequenceNumber, [.char ')']) :=
    number_append _ rfl []
  unfold columns valueTokens ChInsertJson.row
  refine (bind_of_eq_some (literals_append [_, _, _, _, _] _) _).trans ?_
  cases htime : parseDateTime64 v.eventTimestamp with
  | none => exact bind_of_eq_none ((field_time parseDateTime64 _ _).trans (congrArg _ htime)) _
  | some t =>
    refine (bind_of_eq_some ((field_time parseDateTime64 _ _).trans (congrArg _ htime)) _).trans ?_
    cases hingested : parseDateTime64 v.ingestedAt with
    | none => exact bind_of_eq_none ((field_time parseDateTime64 _ _).trans (congrArg _ hingested)) _
    | some t' =>
      refine (bind_of_eq_some ((field_time parseDateTime64 _ _).trans (congrArg _ hingested)) _).trans ?_
      refine (bind_of_eq_some (literals_append [_, _, _] _) _).trans ?_
      refine (bind_of_eq_some (hnumber _ _) _).trans ?_
      refine (bind_of_eq_some (hgroups _) _).trans ?_
      refine (bind_of_eq_some (hnumber _ _) _).trans ?_
      refine (bind_of_eq_some (literals_append [_, _, _, _] _) _).trans ?_
      exact bind_of_eq_some hlast _

/-- The row of an insert is that of its values. -/
theorem storedRow_valuePieces (v : ChInsertJson) :
    storedRow parseDateTime64 (text (valuePieces v)) = v.row parseDateTime64 := by
  rw [storedRow, lex_text (separated_valuePieces v), Option.bind_some, dropBlanks_valuePieces, columns_valueTokens]

end Stored

/-! ## Question marks -/

/-- A string as it is sent in a template. -/
def sentString (s : String) : String := String.ofList (SqlText.characters s.toList)

namespace ChInsertJson

def contents (v : ChInsertJson) : List String :=
  [v.eventId, v.tenantId, v.provider, v.category, v.eventType, v.eventTimestamp, v.ingestedAt, v.actorGlobalUserId,
    v.actorProviderUserId, v.actorEmail] ++ v.allowedGroupIds ++
    [v.resourceId, v.parentResourceId, v.attributesJson, v.rawPayloadS3Uri]

/-- The values as they are sent. -/
def sent (v : ChInsertJson) : ChInsertJson :=
  { eventId := sentString v.eventId
    tenantId := sentString v.tenantId
    provider := sentString v.provider
    category := sentString v.category
    eventType := sentString v.eventType
    eventTimestamp := sentString v.eventTimestamp
    ingestedAt := sentString v.ingestedAt
    actorGlobalUserId := sentString v.actorGlobalUserId
    actorProviderUserId := sentString v.actorProviderUserId
    actorEmail := sentString v.actorEmail
    isPrivate := v.isPrivate
    allowedGroupIds := v.allowedGroupIds.map sentString
    aclVersion := v.aclVersion
    resourceId := sentString v.resourceId
    parentResourceId := sentString v.parentResourceId
    attributesJson := sentString v.attributesJson
    rawPayloadS3Uri := sentString v.rawPayloadS3Uri
    eventSequenceNumber := v.eventSequenceNumber }

end ChInsertJson

section Templates
variable {ps : List Piece}

theorem framed_code {s : String} (h : s.toList.head? ≠ some '?') (hps : Framed ps) : Framed (codePiece s :: ps) := by
  intro cs hcs
  rcases List.mem_cons.mp hcs with heq | hcs
  · obtain rfl := Piece.code.inj heq
    exact h
  · exact hps cs hcs

theorem framed_literal (s : String) (hps : Framed ps) : Framed (literalPiece s :: ps) := by
  intro cs hcs
  rcases List.mem_cons.mp hcs with heq | hcs
  · cases heq
  · exact hps cs hcs

theorem framed_arrayPieces (items : List String) (hps : Framed ps) : Framed (arrayPieces items ++ ps) := by
  cases items with
  | nil => exact framed_code (by decide) hps
  | cons s items =>
    apply framed_code (by decide)
    apply framed_literal
    show Framed ((items.flatMap fun s => [codePiece ", ", literalPiece s]) ++ [codePiece "]"] ++ ps)
    induction items with
    | nil => exact framed_code (by decide) hps
    | cons t items ih => exact framed_code (by decide) (framed_literal t ih)

theorem characters_codePiece {s : String} (h : '?' ∉ s.toList) : (codePiece s).characters = codePiece s :=
  congrArg Piece.code (characters_of_notMem h)

theorem characters_literalPiece (s : String) : (literalPiece s).characters = literalPiece (sentString s) := by
  rw [literalPiece, literalPiece, sentString, String.toList_ofList]
  rfl

theorem characters_arrayPieces (items : List String) :
    (arrayPieces items).map Piece.characters = arrayPieces (items.map sentString) := by
  have hcode : ∀ s ∈ ["[", "]", ", ", "emptyArrayString()"], (codePiece s).characters = codePiece s := by
    intro s hs
    apply characters_codePiece
    revert s
    decide
  cases items with
  | nil => exact congrArg (fun p => [p]) (hcode _ (by decide))
  | cons s items =>
    have hitems : (items.flatMap fun s => [codePiece ", ", literalPiece s]).map Piece.characters =
        (items.map sentString).flatMap fun s => [codePiece ", ", literalPiece s] := by
      induction items with
      | nil => rfl
      | cons t items ih =>
        rw [List.flatMap_cons, List.map_append, ih, List.map_cons, List.map_cons, hcode _ (by decide),
          characters_literalPiece]
        rfl
    rw [arrayPieces, List.map_append, List.map_cons, List.map_cons, hitems, hcode _ (by decide),
      characters_literalPiece, List.map_cons, hcode _ (by decide)]
    rfl

theorem placeholders_arrayPieces (items : List String) :
    ((arrayPieces items).map Piece.placeholders).sum = (items.map fun s => SqlText.placeholders s.toList).sum := by
  cases items with
  | nil => rfl
  | cons s items =>
    have hitems : ((items.flatMap fun s => [codePiece ", ", literalPiece s]).map Piece.placeholders).sum =
        (items.map fun s => SqlText.placeholders s.toList).sum := by
      induction items with
      | nil => rfl
      | cons t items ih =>
        rw [List.flatMap_cons, List.map_append, List.sum_append, ih, List.map_cons, List.sum_cons]
        exact congrArg (· + _) (Nat.zero_add _)
    rw [arrayPieces, List.map_append, List.sum_append, List.map_cons, List.map_cons, List.sum_cons, List.sum_cons, hitems,
      List.map_cons, List.sum_cons]
    exact Nat.zero_add _

end Templates

theorem framed_valuePieces (v : ChInsertJson) : Framed (valuePieces v) := by
  have hdigits : ∀ n : ℕ, (toString n).toList.head? ≠ some '?' :=
    fun n h => notMem_toString rfl n (List.mem_of_head? h)
  unfold valuePieces
  rw [List.append_assoc]
  apply framed_code (by decide)
  iterate 10
    apply framed_literal
    apply framed_code (by decide)
  apply framed_code (hdigits _)
  apply framed_code (by decide)
  apply framed_arrayPieces
  apply framed_code (by decide)
  apply framed_code (hdigits _)
  apply framed_code (by decide)
  iterate 4
    apply framed_literal
    apply framed_code (by decide)
  apply framed_code (hdigits _)
  apply framed_code (by decide)
  exact fun cs hcs => by cases hcs

theorem characters_valuePieces (v : ChInsertJson) : (valuePieces v).map Piece.characters = valuePieces v.sent := by
  have hdigits : ∀ n : ℕ, (codePiece (toString n)).characters = codePiece (toString n) :=
    fun n => characters_codePiece (notMem_toString rfl n)
  unfold valuePieces
  simp (disch := decide) only [List.map_append, List.map_cons, List.map_nil, characters_codePiece, hdigits,
    characters_literalPiece, characters_arrayPieces]
  rfl

theorem placeholders_codePiece {s : String} (h : '?' ∉ s.toList) : (codePiece s).placeholders = 0 :=
  placeholders_of_notMem h

theorem placeholders_literalPiece (s : String) : (literalPiece s).placeholders = SqlText.placeholders s.toList := rfl

theorem placeholders_valuePieces (v : ChInsertJson) : ((valuePieces v).map Piece.placeholders).sum =
    (v.contents.map fun s => SqlText.placeholders s.toList).sum := by
  have hdigits : ∀ n : ℕ, (codePiece (toString n)).placeholders = 0 :=
    fun n => placeholders_codePiece (notMem_toString rfl n)
  unfold valuePieces ChInsertJson.contents
  simp (disch := decide) only [List.map_append, List.map_cons, List.map_nil, List.sum_append, List.sum_cons,
    List.sum_nil, placeholders_codePiece, hdigits, placeholders_literalPiece, placeholders_arrayPieces, Nat.add_zero,
    Nat.zero_add, Nat.add_assoc]

/-! ## Which events are stored -/

theorem fmtTs_plain (t : DateTime) : '?' ∉ (fmtTs t).toList := by
  have hpadded : ∀ width n, '?' ∉ (DateTime.padded width n).toList := by
    intro width n h
    rw [DateTime.padded, String.toList_append, String.toList_ofList, List.mem_append] at h
    rcases h with h | h
    · exact absurd (List.eq_of_mem_replicate h) (by decide)
    · exact notMem_toString rfl n h
  have hyear : ∀ y, '?' ∉ (DateTime.yearText y).toList := by
    intro y h
    rw [DateTime.yearText] at h
    split at h
    · exact hpadded _ _ h
    · split at h
      · rw [String.toList_append, List.mem_append] at h
        exact h.elim (by decide) (hpadded _ _)
      · rw [String.toList_append, List.mem_append] at h
        exact h.elim (by decide) (hpadded _ _)
  have hday : '?' ∉ t.dayText.toList := by
    rw [DateTime.dayText]
    simp [hpadded, hyear]
  have hclock : '?' ∉ t.clockText.toList := by
    rw [DateTime.clockText]
    simp [hpadded]
  rw [fmtTs]
  simp [hday, hclock, hpadded]

/-- A string that is written out, character by character. -/
theorem notMem_of_all {c : Char} {cs : List Char} (h : cs.all fun d => d ≠ c) : c ∉ (String.ofList cs).toList := by
  rw [String.toList_ofList]
  intro hmem
  exact of_decide_eq_true (List.all_eq_true.mp h c hmem) rfl

set_option maxRecDepth 2000 in
theorem insertColumns_plain : '?' ∉ insertColumns.toList := notMem_of_all rfl

set_option maxRecDepth 2000 in
theorem queryColumns_plain : '?' ∉ queryColumns.toList := notMem_of_all rfl

/-- What surrounds the name of the database in an insert. -/
theorem toList_insertHead (database : String) : (insertHead database).toList = "INSERT INTO ".toList ++
    database.toList ++ (".canonical_events_local".toList ++ insertColumns.toList) ++ "(".toList := by
  unfold insertHead table
  rw [String.toList_append, String.toList_append, String.toList_append, String.toList_append, List.append_assoc,
    List.append_assoc, List.append_assoc, List.append_assoc, List.append_assoc, List.append_assoc]

section Storable
variable (json : JsonText) (parseDateTime64 : String → Option DateTime)

/-- The insert has as many places for values as values are bound, which is none, and its row is read as the record. -/
def InsertKept (database : String) (e : CanonicalEventRecord) : Prop :=
  SqlText.placeholders (insertText json database e).toList = 0 ∧
    ∃ values row, SqlText.sent (insertText json database e).toList = some ((insertHead database).toList ++ values) ∧
      storedRow parseDateTime64 values = some row ∧ fromRow json row = e

/-- The query has as many places for values as values are bound. -/
def QueryBound (database : String) (ctx : QueryContext) (filter : EventQuery) : Prop :=
  SqlText.placeholders (queryText database ctx filter).toList = (queryBinds filter).length

/-- No question mark in a text, and nothing in the record that its row does not hold. -/
structure Storable (database : String) (e : CanonicalEventRecord) : Prop where
  database : '?' ∉ database.toList
  texts : ∀ s ∈ [e.eventId, e.tenantId, e.eventType, e.actor.globalUserId, e.actor.providerUserId, e.actor.email,
    e.resourceId, e.parentResourceId, e.rawPayloadS3Uri] ++ e.acl.allowedGroupIds, '?' ∉ s.toList
  attributes : ∃ cs, SqlText.sent (json.print e.attributes).toList = some cs ∧
    (json.parse (String.ofList cs)).getD (.obj []) = e.attributes
  provider : e.provider ≠ .unspecified
  category : e.category ≠ .unspecified
  eventTimestamp : parseDateTime64 (fmtTs e.eventTimestamp) = some e.eventTimestamp
  ingestedAt : parseDateTime64 (fmtTs e.ingestedAt) = some e.ingestedAt
  displayName : e.actor.displayName = ""
  aclTenant : e.acl.tenantId = e.tenantId

theorem toList_insertText (database : String) (e : CanonicalEventRecord) : (insertText json database e).toList =
    text (codePiece (insertHead database) :: valuePieces (toInsertJson json e)) := by
  rw [insertText, String.toList_append, toList_insertValues]
  rfl

end Storable

section Kept
variable {json : JsonText} {parseDateTime64 : String → Option DateTime} {database : String} {e : CanonicalEventRecord}

theorem sentString_of_notMem {s : String} (h : '?' ∉ s.toList) : sentString s = s := by
  rw [sentString, characters_of_notMem h, String.ofList_toList]

theorem notMem_of_sentString {s : String} (h : SqlText.placeholders s.toList = 0) (hs : sentString s = s) :
    '?' ∉ s.toList := by
  apply notMem_of_characters h
  have hchars := congrArg String.toList hs
  rwa [sentString, String.toList_ofList] at hchars

theorem framed_insertText (database : String) (v : ChInsertJson) :
    Framed (codePiece (insertHead database) :: valuePieces v) := by
  refine framed_code ?_ (framed_valuePieces v)
  rw [toList_insertHead]
  exact fun h => absurd (Option.some.inj h) (by decide)

/-- No place for a value is in an insert if none is in its head and its contents. -/
theorem placeholders_insertText : SqlText.placeholders (insertText json database e).toList =
    SqlText.placeholders (insertHead database).toList +
      ((toInsertJson json e).contents.map fun s => SqlText.placeholders s.toList).sum := by
  rw [toList_insertText, placeholders_text (framed_insertText _ _), List.map_cons, List.sum_cons,
    placeholders_valuePieces]
  rfl

theorem characters_insertText : SqlText.characters (insertText json database e).toList =
    SqlText.characters (insertHead database).toList ++ text (valuePieces (toInsertJson json e).sent) := by
  rw [toList_insertText, characters_text (framed_insertText _ _), List.map_cons, characters_valuePieces]
  rfl

theorem insertHead_plain_iff : '?' ∉ (insertHead database).toList ↔ '?' ∉ database.toList := by
  have hfirst : '?' ∉ "INSERT INTO ".toList := by decide
  have htable : '?' ∉ ".canonical_events_local".toList := by decide
  have hlast : '?' ∉ "(".toList := by decide
  rw [toList_insertHead, List.mem_append, List.mem_append, List.mem_append, List.mem_append]
  simp only [hfirst, htable, hlast, insertColumns_plain, false_or, or_false]

/-- An insert that is sent with its head is sent with its values. -/
theorem sent_insertText_iff {values : List Char} :
    SqlText.placeholders (insertText json database e).toList = 0 ∧
        SqlText.sent (insertText json database e).toList = some ((insertHead database).toList ++ values) ↔
      '?' ∉ database.toList ∧ (∀ s ∈ (toInsertJson json e).contents, SqlText.placeholders s.toList = 0) ∧
        values = text (valuePieces (toInsertJson json e).sent) := by
  constructor
  · rintro ⟨hcount, hsent⟩
    have hplain : '?' ∉ database.toList := by
      have hhead : ∀ u, (insertHead database).toList ++ u = ("INSERT INTO ".toList ++ database.toList ++
          (".canonical_events_local".toList ++ insertColumns.toList)) ++ '(' :: u := by
        intro u
        rw [toList_insertHead, List.append_assoc]
        rfl
      rw [insertText, String.toList_append, hhead, hhead] at hsent
      have hnot := notMem_of_sent (by decide) hsent
      exact fun hmem => hnot (List.mem_append_left _ (List.mem_append_right _ hmem))
    have hhead := insertHead_plain_iff.mpr hplain
    rw [SqlText.sent, if_pos hcount, characters_insertText, characters_of_notMem hhead] at hsent
    rw [placeholders_insertText, Nat.add_eq_zero_iff] at hcount
    refine ⟨hplain, ?_, (List.append_cancel_left (Option.some.inj hsent)).symm⟩
    intro s hs
    exact List.sum_eq_zero_iff_forall_eq_nat.mp hcount.2 _ (List.mem_map_of_mem hs)
  · rintro ⟨hplain, hcontents, rfl⟩
    have hhead := insertHead_plain_iff.mpr hplain
    have hcount : SqlText.placeholders (insertText json database e).toList = 0 := by
      rw [placeholders_insertText, placeholders_of_notMem hhead, Nat.zero_add, List.sum_eq_zero_iff_forall_eq_nat]
      intro n hn
      obtain ⟨s, hs, rfl⟩ := List.mem_map.mp hn
      exact hcontents s hs
    refine ⟨hcount, ?_⟩
    rw [SqlText.sent, if_pos hcount, characters_insertText, characters_of_notMem hhead]

/-! ### What the row says -/

theorem clickhouseLabel_plain (p : SourceProvider) : '?' ∉ p.clickhouseLabel.toList := by
  cases p <;> decide

theorem categoryLabel_plain (c : EventCategory) : '?' ∉ c.clickhouseLabel.toList := by
  cases c <;> decide

theorem sentString_fmtTs (t : DateTime) : sentString (fmtTs t) = fmtTs t := sentString_of_notMem (fmtTs_plain t)

theorem sentString_provider (p : SourceProvider) : sentString p.clickhouseLabel = p.clickhouseLabel :=
  sentString_of_notMem (clickhouseLabel_plain p)

theorem sentString_category (c : EventCategory) : sentString c.clickhouseLabel = c.clickhouseLabel :=
  sentString_of_notMem (categoryLabel_plain c)

theorem fromRow_sent {row : ChEventRow} (hrow : (toInsertJson json e).sent.row parseDateTime64 = some row)
    (hcontents : ∀ s ∈ (toInsertJson json e).contents, SqlText.placeholders s.toList = 0)
    (he : fromRow json row = e) (hplain : '?' ∉ database.toList) : Storable json parseDateTime64 database e := by
  simp only [ChInsertJson.row, ChInsertJson.sent, toInsertJson, sentString_fmtTs, sentString_provider,
    sentString_category, Option.bind_eq_bind, Option.bind_eq_some_iff, Option.some.injEq] at hrow
  obtain ⟨t, ht, t', ht', rfl⟩ := hrow
  obtain ⟨eventId, tenantId, provider, category, eventType, eventTimestamp, ingestedAt, actor, acl,
    resourceId, parentResourceId, attributes, rawPayloadS3Uri, eventSequenceNumber⟩ := e
  obtain ⟨globalUserId, providerUserId, email, displayName⟩ := actor
  obtain ⟨aclTenantId, allowedGroupIds, isPrivate, aclVersion⟩ := acl
  simp only [fromRow, CanonicalEventRecord.mk.injEq, ActorIdentity.mk.injEq, AclSnapshot.mk.injEq] at he
  obtain ⟨hid, htenant, hprov, hcat, htype, rfl, rfl, ⟨hglobal, hactor, hemail, hname⟩,
    ⟨hacl, hgroups, -⟩, hresource, hparent, hattributes, hraw, -⟩ := he
  simp only [toInsertJson, ChInsertJson.contents, List.forall_mem_append, List.forall_mem_cons, List.not_mem_nil,
    IsEmpty.forall_iff, implies_true, and_true] at hcontents
  obtain ⟨⟨⟨hid', htenant', -, -, htype', -, -, hglobal', hactor', hemail'⟩, hgroups'⟩, hresource', hparent',
    hattributes', hraw'⟩ := hcontents
  have hgroups'' : ∀ g ∈ allowedGroupIds, sentString g = g :=
    List.map_inj_left.mp (hgroups.trans (List.map_id allowedGroupIds).symm)
  constructor
  · exact hplain
  · simp only [List.forall_mem_append, List.forall_mem_cons, List.not_mem_nil, IsEmpty.forall_iff, implies_true, and_true]
    exact ⟨⟨notMem_of_sentString hid' hid, notMem_of_sentString htenant' htenant, notMem_of_sentString htype' htype,
      notMem_of_sentString hglobal' hglobal, notMem_of_sentString hactor' hactor, notMem_of_sentString hemail' hemail,
      notMem_of_sentString hresource' hresource, notMem_of_sentString hparent' hparent,
      notMem_of_sentString hraw' hraw⟩, fun g hg => notMem_of_sentString (hgroups' g hg) (hgroups'' g hg)⟩
  · exact ⟨_, if_pos hattributes', hattributes⟩
  · exact providerOf_label_iff.mp hprov
  · exact categoryOf_label_iff.mp hcat
  · exact ht
  · exact ht'
  · exact hname.symm
  · exact hacl.symm.trans htenant

theorem row_of_storable (h : Storable json parseDateTime64 database e) :
    ∃ row, (toInsertJson json e).sent.row parseDateTime64 = some row ∧ fromRow json row = e := by
  obtain ⟨cs, hsent, hparse⟩ := h.attributes
  have hattributes : sentString (json.print e.attributes) = String.ofList cs :=
    congrArg String.ofList (placeholders_of_sent hsent).2
  have htexts := h.texts
  simp only [List.forall_mem_append, List.forall_mem_cons, List.not_mem_nil, IsEmpty.forall_iff, implies_true,
    and_true] at htexts
  obtain ⟨⟨hid, htenant, htype, hglobal, hactor, hemail, hresource, hparent, hraw⟩, hgroups⟩ := htexts
  have hgroups' : e.acl.allowedGroupIds.map sentString = e.acl.allowedGroupIds :=
    (List.map_congr_left fun g hg => sentString_of_notMem (hgroups g hg)).trans (List.map_id _)
  simp only [ChInsertJson.row, ChInsertJson.sent, toInsertJson, sentString_fmtTs, sentString_provider,
    sentString_category, h.eventTimestamp, h.ingestedAt, Option.bind_eq_bind, Option.bind_some, hattributes, hgroups',
    sentString_of_notMem hid, sentString_of_notMem htenant, sentString_of_notMem htype, sentString_of_notMem hglobal,
    sentString_of_notMem hactor, sentString_of_notMem hemail, sentString_of_notMem hresource,
    sentString_of_notMem hparent, sentString_of_notMem hraw]
  refine ⟨_, rfl, ?_⟩
  have hprovider := providerOf_label_iff.mpr h.provider
  have hcategory := categoryOf_label_iff.mpr h.category
  have hidentity : ActorIdentity.mk e.actor.globalUserId e.actor.providerUserId e.actor.email "" = e.actor := by
    rw [← h.displayName]
  have hacl : AclSnapshot.mk e.tenantId e.acl.allowedGroupIds e.acl.isPrivate e.acl.aclVersion = e.acl := by
    rw [← h.aclTenant]
  have hprivate : decide ((if e.acl.isPrivate = true then 1 else 0) = 1) = e.acl.isPrivate := by
    cases e.acl.isPrivate <;> rfl
  unfold fromRow
  simp only [hprovider, hcategory, hparse, hprivate, hidentity, hacl]

theorem contents_of_storable (h : Storable json parseDateTime64 database e) :
    ∀ s ∈ (toInsertJson json e).contents, SqlText.placeholders s.toList = 0 := by
  obtain ⟨cs, hsent, -⟩ := h.attributes
  have hplain : ∀ s : String, '?' ∉ s.toList → SqlText.placeholders s.toList = 0 := fun s => placeholders_of_notMem
  have htexts := h.texts
  simp only [List.forall_mem_append, List.forall_mem_cons, List.not_mem_nil, IsEmpty.forall_iff, implies_true,
    and_true] at htexts
  obtain ⟨⟨hid, htenant, htype, hglobal, hactor, hemail, hresource, hparent, hraw⟩, hgroups⟩ := htexts
  simp only [toInsertJson, ChInsertJson.contents, List.forall_mem_append, List.forall_mem_cons, List.not_mem_nil,
    IsEmpty.forall_iff, implies_true, and_true]
  exact ⟨⟨⟨hplain _ hid, hplain _ htenant, hplain _ (clickhouseLabel_plain e.provider),
    hplain _ (categoryLabel_plain e.category), hplain _ htype, hplain _ (fmtTs_plain _), hplain _ (fmtTs_plain _),
    hplain _ hglobal, hplain _ hactor, hplain _ hemail⟩, fun g hg => hplain g (hgroups g hg)⟩, hplain _ hresource,
    hplain _ hparent, (placeholders_of_sent hsent).1, hplain _ hraw⟩

/-- An insert keeps exactly the events without question marks, and without anything that its row does not hold. -/
theorem insertKept_iff (json : JsonText) (parseDateTime64 : String → Option DateTime) (database : String)
    (e : CanonicalEventRecord) :
    InsertKept json parseDateTime64 database e ↔ Storable json parseDateTime64 database e := by
  constructor
  · rintro ⟨hcount, values, row, hsent, hrow, he⟩
    obtain ⟨hplain, hcontents, rfl⟩ := sent_insertText_iff.mp ⟨hcount, hsent⟩
    rw [storedRow_valuePieces] at hrow
    exact fromRow_sent hrow hcontents he hplain
  · intro h
    obtain ⟨row, hrow, he⟩ := row_of_storable h
    obtain ⟨hcount, hsent⟩ := sent_insertText_iff.mpr ⟨h.database, contents_of_storable h, rfl⟩
    exact ⟨hcount, _, row, hsent, (storedRow_valuePieces parseDateTime64 _).trans hrow, he⟩

/-! ### The query -/

theorem framed_conditionPieces (ctx : QueryContext) (filter : EventQuery) : Framed (conditionPieces ctx filter) := by
  apply framed_code (by decide)
  apply framed_arrayPieces
  apply framed_code (by decide)
  apply framed_code (by split <;> decide)
  apply framed_code (by split <;> decide)
  apply framed_code (by decide)
  exact fun cs hcs => by cases hcs

theorem placeholders_queryConditions (ctx : QueryContext) (filter : EventQuery) :
    SqlText.placeholders (queryConditions ctx filter).toList =
      (ctx.groupIds.map fun s => SqlText.placeholders s.toList).sum + filter.resourceId.toList.length +
        filter.eventType.toList.length + 1 := by
  have hresource : (codePiece (if filter.resourceId.isSome then " AND resource_id = ? " else "")).placeholders =
      filter.resourceId.toList.length := by
    cases filter.resourceId
    · rfl
    · exact congrArg (fun s => (codePiece s).placeholders) (if_pos rfl)
  have htype : (codePiece (if filter.eventType.isSome then " AND event_type = ? " else "")).placeholders =
      filter.eventType.toList.length := by
    cases filter.eventType
    · rfl
    · exact congrArg (fun s => (codePiece s).placeholders) (if_pos rfl)
  have hlimit : (codePiece " ORDER BY event_timestamp DESC LIMIT ?").placeholders = 1 := by decide
  rw [toList_queryConditions, placeholders_text (framed_conditionPieces ctx filter), conditionPieces, List.map_append,
    List.map_cons, List.sum_append, List.sum_cons, placeholders_arrayPieces]
  simp (disch := decide) only [List.map_cons, List.map_nil, List.sum_cons, List.sum_nil, hresource, htype, hlimit,
    placeholders_codePiece]
  omega

theorem placeholders_queryText (database : String) (ctx : QueryContext) (filter : EventQuery) :
    SqlText.placeholders (queryText database ctx filter).toList =
      SqlText.placeholders database.toList + 1 + SqlText.placeholders (queryConditions ctx filter).toList := by
  have hlast : queryColumns.toList.getLast? ≠ some '?' := fun h => queryColumns_plain (List.mem_of_getLast? h)
  have hhead : (queryConditions ctx filter).toList.head? ≠ some '?' := by
    rw [toList_queryConditions]
    exact Framed.head? (framed_conditionPieces ctx filter)
  have htenant : SqlText.placeholders ("\n            WHERE tenant_id = ?\n              AND ".toList ++
      (queryConditions ctx filter).toList) = 1 + SqlText.placeholders (queryConditions ctx filter).toList := by
    rw [SqlText.placeholders, template_append hhead, List.count_append]
    rfl
  have htext : (queryText database ctx filter).toList = queryColumns.toList ++ database.toList ++
      (".canonical_events_local".toList ++ ("\n            WHERE tenant_id = ?\n              AND ".toList ++
        (queryConditions ctx filter).toList)) := by
    unfold queryText queryHead table
    rw [String.toList_append, String.toList_append, String.toList_append, String.toList_append, List.append_assoc,
      List.append_assoc, List.append_assoc, List.append_assoc]
  have htable : SqlText.placeholders (".canonical_events_local".toList ++
      ("\n            WHERE tenant_id = ?\n              AND ".toList ++ (queryConditions ctx filter).toList)) =
        1 + SqlText.placeholders (queryConditions ctx filter).toList := by
    rw [SqlText.placeholders, template_append_of_getLast (by decide), List.count_append]
    exact (Nat.zero_add _).trans htenant
  have hdot : (".canonical_events_local".toList ++ ("\n            WHERE tenant_id = ?\n              AND ".toList ++
      (queryConditions ctx filter).toList)).head? = some '.' := rfl
  rw [htext, placeholders_between hlast (by rw [hdot]; decide), htable, placeholders_of_notMem queryColumns_plain]
  omega

theorem queryBound_iff (database : String) (ctx : QueryContext) (filter : EventQuery) :
    QueryBound database ctx filter ↔ SqlText.placeholders database.toList = 0 ∧
      ∀ g ∈ ctx.groupIds, SqlText.placeholders g.toList = 0 := by
  have hsum : (ctx.groupIds.map fun s => SqlText.placeholders s.toList).sum = 0 ↔
      ∀ g ∈ ctx.groupIds, SqlText.placeholders g.toList = 0 := by
    rw [List.sum_eq_zero_iff_forall_eq_nat]
    exact List.forall_mem_map
  have hbinds : (queryBinds filter).length = filter.resourceId.toList.length + filter.eventType.toList.length + 2 := by
    simp only [queryBinds, List.length_append, List.length_map, List.length_cons, List.length_nil]
    omega
  rw [QueryBound, placeholders_queryText, placeholders_queryConditions, hbinds, ← hsum]
  omega

/-- Which events are stored and which groups can be asked for, by the question marks in them. -/
theorem statements_bound_iff (json : JsonText) (parseDateTime64 : String → Option DateTime) (database : String)
    (e : CanonicalEventRecord) (ctx : QueryContext) (filter : EventQuery) :
    (InsertKept json parseDateTime64 database e ↔ Storable json parseDateTime64 database e) ∧
      (QueryBound database ctx filter ↔ SqlText.placeholders database.toList = 0 ∧
        ∀ g ∈ ctx.groupIds, SqlText.placeholders g.toList = 0) :=
  ⟨insertKept_iff json parseDateTime64 database e, queryBound_iff database ctx filter⟩

end Kept

/-! ### A link with a query -/

/-- Attributes without fields. -/
def emptyAttributes : JsonText := ⟨fun _ => "{}", fun _ => some (.obj [])⟩

def epochText (s : String) : Option DateTime := if s = "1970-01-01 00:00:00.000" then some 0 else none

def eventOn (resourceId : String) : CanonicalEventRecord :=
  { eventId := "e", tenantId := "t", provider := .github, category := .code, eventType := "code.pr.opened",
    eventTimestamp := 0, ingestedAt := 0, actor := {}, acl := ⟨"t", [], false, 1⟩, resourceId, parentResourceId := "",
    attributes := .obj [], rawPayloadS3Uri := "", eventSequenceNumber := 0 }

/-- A link to a pull request is stored, the same link to one of its pages is not, and a group with a question mark
cannot be asked for. -/
theorem statements_not_bound :
    InsertKept emptyAttributes epochText "v1" (eventOn "acme/app/pull/7") ∧
      ¬InsertKept emptyAttributes epochText "v1" (eventOn "acme/app/pull/7?tab=files") ∧
      ¬QueryBound "v1" { tenantId := "t", groupIds := ["grp?"] } { tenantId := "t" } := by
  refine ⟨?_, ?_, ?_⟩
  · rw [insertKept_iff]
    have htime : epochText (fmtTs 0) = some 0 := by decide
    exact ⟨by decide, by decide, ⟨"{}".toList, by decide, rfl⟩, by decide, by decide, htime, htime, rfl, rfl⟩
  · rw [insertKept_iff]
    intro h
    exact h.texts "acme/app/pull/7?tab=files" (by decide) (by decide)
  · rw [queryBound_iff]
    rintro ⟨-, h⟩
    exact absurd (h "grp?" List.mem_cons_self) (by decide)

end ClickHouseEventStore

end AiManager.Telemetry
