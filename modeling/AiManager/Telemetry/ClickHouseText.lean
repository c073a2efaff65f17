import AiManager.Lib.SqlText
import AiManager.Telemetry.ClickHouse

/-! # The texts of the analytical event store

An insert and a query are texts with the contents of an event, and the groups of a reader, written into them. The
literals are read back whatever they say; a question mark in one of them is taken for a value. -/

namespace AiManager.Telemetry

open Lib Lib.SqlText

namespace ClickHouseEventStore

/-! ## Literals -/

/-- `s.replace('\\', "\\\\").replace('\'', "\\'")` -/
def esc (s : String) : String :=
  String.ofList ((s.toList.flatMap fun c => if c = '\\' then ['\\', '\\'] else [c]).flatMap
    fun c => if c = '\'' then ['\\', '\''] else [c])

/-- `'{}'` -/
def quoted (s : String) : String := "'" ++ esc s ++ "'"

def formatChStringArray (items : List String) : String :=
  if items.isEmpty then "emptyArrayString()" else "[" ++ ", ".intercalate (items.map quoted) ++ "]"

/-- `%Y-%m-%d %H:%M:%S%.3f` -/
def fmtTs (t : DateTime) : String :=
  t.dayText ++ " " ++ t.clockText ++ ":" ++ DateTime.padded 2 (t.secondOfDay % 60) ++ "." ++
    DateTime.padded 3 ((t % DateTime.nanosPerSecond).toNat / 1000000)

/-! ## The insert -/

/-- The values of an insert, as they are written. -/
structure ChInsertJson where
  eventId : String
  tenantId : String
  provider : String
  category : String
  eventType : String
  eventTimestamp : String
  ingestedAt : String
  actorGlobalUserId : String
  actorProviderUserId : String
  actorEmail : String
  isPrivate : ℕ
  allowedGroupIds : List String
  aclVersion : ℕ
  resourceId : String
  parentResourceId : String
  attributesJson : String
  rawPayloadS3Uri : String
  eventSequenceNumber : ℕ

section Insert
variable (json : JsonText)

def toInsertJson (event : CanonicalEventRecord) : ChInsertJson :=
  { eventId := event.eventId
    tenantId := event.tenantId
    provider := event.provider.clickhouseLabel
    category := event.category.clickhouseLabel
    eventType := event.eventType
    eventTimestamp := fmtTs event.eventTimestamp
    ingestedAt := fmtTs event.ingestedAt
    actorGlobalUserId := event.actor.globalUserId
    actorProviderUserId := event.actor.providerUserId
    actorEmail := event.actor.email
    isPrivate := if event.acl.isPrivate then 1 else 0
    allowedGroupIds := event.acl.allowedGroupIds
    aclVersion := event.acl.aclVersion
    resourceId := event.resourceId
    parentResourceId := event.parentResourceId
    attributesJson := json.print event.attributes
    rawPayloadS3Uri := event.rawPayloadS3Uri
    eventSequenceNumber := event.eventSequenceNumber }

def table (database : String) : String := database ++ ".canonical_events_local"

def insertColumns : String :=
  " (
                event_id, tenant_id, provider, category, event_type,
                event_timestamp, ingested_at,
                actor_global_user_id, actor_provider_user_id, actor_email,
                is_private, allowed_group_ids, acl_version,
                resource_id, parent_resource_id, attributes_json, raw_payload_s3_uri,
                event_sequence_number
            ) VALUES "

/-- The text of an insert up to its values. -/
def insertHead (database : String) : String := "INSERT INTO " ++ table database ++ insertColumns ++ "("

def insertValues (event : CanonicalEventRecord) : String :=
  "
                " ++ quoted event.eventId ++ ", " ++ quoted event.tenantId ++ ", " ++
    quoted event.provider.clickhouseLabel ++ ", " ++ quoted event.category.clickhouseLabel ++ ", " ++
    quoted event.eventType ++ ",
                parseDateTime64BestEffort(" ++ quoted (fmtTs event.eventTimestamp) ++
    ", 3), parseDateTime64BestEffort(" ++ quoted (fmtTs event.ingestedAt) ++ ", 3),
                " ++ quoted event.actor.globalUserId ++ ", " ++ quoted event.actor.providerUserId ++ ", " ++
    quoted event.actor.email ++ ",
                " ++ toString (if event.acl.isPrivate then 1 else 0) ++ ", " ++
    formatChStringArray event.acl.allowedGroupIds ++ ", " ++ toString event.acl.aclVersion ++ ",
                " ++ quoted event.resourceId ++ ", " ++ quoted event.parentResourceId ++ ", " ++
    quoted (json.print event.attributes) ++ ", " ++ quoted event.rawPayloadS3Uri ++ ",
                " ++ toString event.eventSequenceNumber ++ "
            )"

/-- The text of `insert_json`; no value is bound. -/
def insertText (database : String) (event : CanonicalEventRecord) : String :=
  insertHead database ++ insertValues json event

end Insert

/-! ## The query -/

def queryColumns : String :=
  "
            SELECT
              event_id, tenant_id, provider, category,
              event_type, event_timestamp, ingested_at,
              actor_global_user_id, actor_provider_user_id, actor_email,
              is_private, allowed_group_ids, acl_version,
              resource_id, parent_resource_id, attributes_json, raw_payload_s3_uri,
              event_sequence_number
            FROM "

/-- The text of a query up to the access rule. -/
def queryHead (database : String) : String :=
  queryColumns ++ table database ++ "
            WHERE tenant_id = ?
              AND "

def queryConditions (ctx : QueryContext) (filter : EventQuery) : String :=
  "(is_private = 0 OR hasAny(allowed_group_ids, " ++ formatChStringArray ctx.groupIds ++ "))
            " ++ (if filter.resourceId.isSome then " AND resource_id = ? " else "") ++
    (if filter.eventType.isSome then " AND event_type = ? " else "") ++ " ORDER BY event_timestamp DESC LIMIT ?"

def queryText (database : String) (ctx : QueryContext) (filter : EventQuery) : String :=
  queryHead database ++ queryConditions ctx filter

inductive Bound where
  | text (s : String)
  | number (n : ℕ)

/-- The values that are bound, in their order. -/
def queryBinds (filter : EventQuery) : List Bound :=
  [.text filter.tenantId] ++ filter.resourceId.toList.map .text ++ filter.eventType.toList.map .text ++
    [.number (max filter.limit 1)]

/-! ## The texts in pieces -/

def codePiece (s : String) : Piece := .code s.toList

def literalPiece (s : String) : Piece := .literal s.toList

def arrayPieces : List String → List Piece
  | [] => [codePiece "emptyArrayString()"]
  | s :: items =>
    codePiece "[" :: literalPiece s :: (items.flatMap fun s => [codePiece ", ", literalPiece s]) ++ [codePiece "]"]

def valuePieces (row : ChInsertJson) : List Piece :=
  [codePiece "
                ", literalPiece row.eventId, codePiece ", ", literalPiece row.tenantId, codePiece ", ",
    literalPiece row.provider, codePiece ", ", literalPiece row.category, codePiece ", ",
    literalPiece row.eventType, codePiece ",
                parseDateTime64BestEffort(", literalPiece row.eventTimestamp,
    codePiece ", 3), parseDateTime64BestEffort(", literalPiece row.ingestedAt, codePiece ", 3),
                ", literalPiece row.actorGlobalUserId, codePiece ", ", literalPiece row.actorProviderUserId,
    codePiece ", ", literalPiece row.actorEmail, codePiece ",
                ", codePiece (toString row.isPrivate), codePiece ", "] ++ arrayPieces row.allowedGroupIds ++
  [codePiece ", ", codePiece (toString row.aclVersion), codePiece ",
                ", literalPiece row.resourceId, codePiece ", ", literalPiece row.parentResourceId,
    codePiece ", ", literalPiece row.attributesJson, codePiece ", ", literalPiece row.rawPayloadS3Uri,
    codePiece ",
                ", codePiece (toString row.eventSequenceNumber), codePiece "
            )"]

def conditionPieces (ctx : QueryContext) (filter : EventQuery) : List Piece :=
  codePiece "(is_private = 0 OR hasAny(allowed_group_ids, " :: arrayPieces ctx.groupIds ++
    [codePiece "))
            ", codePiece (if filter.resourceId.isSome then " AND resource_id = ? " else ""),
      codePiece (if filter.eventType.isSome then " AND event_type = ? " else ""),
      codePiece " ORDER BY event_timestamp DESC LIMIT ?"]

theorem toList_esc (s : String) : (esc s).toList = escaped s.toList := by
  rw [esc, String.toList_ofList, escaped, List.flatMap_assoc]
  apply congrArg (List.flatMap · s.toList)
  funext c
  by_cases hbackslash : c = '\\'
  · subst hbackslash
    rfl
  · by_cases hquote : c = '\''
    · subst hquote
      rfl
    · have hplain : escapeChar c = [c] := if_neg (not_or.mpr ⟨hbackslash, hquote⟩)
      rw [hplain, if_neg hbackslash, List.flatMap_singleton, if_neg hquote]

theorem text_codePiece (s : String) : (codePiece s).text = s.toList := rfl

theorem toList_quoted (s : String) : (quoted s).toList = (literalPiece s).text := by
  rw [quoted, String.toList_append, String.toList_append, toList_esc]
  rfl

theorem toList_intercalate_quoted (s : String) (items : List String) :
    (", ".intercalate ((s :: items).map quoted)).toList =
      text (literalPiece s :: (items.flatMap fun s => [codePiece ", ", literalPiece s])) := by
  induction items generalizing s with
  | nil =>
    rw [List.map_cons, List.map_nil, String.intercalate_singleton, toList_quoted]
    exact (List.append_nil _).symm
  | cons t items ih =>
    rw [List.map_cons, List.map_cons, String.intercalate_cons_cons, String.toList_append, String.toList_append,
      ← List.map_cons, ih, toList_quoted, text_cons, List.flatMap_cons, List.append_assoc]
    rfl

theorem toList_formatChStringArray (items : List String) :
    (formatChStringArray items).toList = text (arrayPieces items) := by
  cases items with
  | nil => rfl
  | cons s items =>
    show ("[" ++ ", ".intercalate ((s :: items).map quoted) ++ "]").toList = _
    rw [String.toList_append, String.toList_append, toList_intercalate_quoted, arrayPieces, text_append, text_cons]
    rfl

variable (json : JsonText)

theorem toList_insertValues (e : CanonicalEventRecord) :
    (insertValues json e).toList = text (valuePieces (toInsertJson json e)) := by
  unfold insertValues
  rw [valuePieces, text_append, text_append]
  simp only [String.toList_append, toList_quoted, toList_formatChStringArray]
  simp only [text_cons, text_nil, text_codePiece, toInsertJson, List.append_assoc]
  rw [List.nil_append, List.append_nil]

theorem toList_queryConditions (ctx : QueryContext) (filter : EventQuery) :
    (queryConditions ctx filter).toList = text (conditionPieces ctx filter) := by
  unfold queryConditions
  rw [conditionPieces, text_append, text_cons]
  simp only [String.toList_append, toList_formatChStringArray]
  simp only [text_cons, text_nil, text_codePiece, List.append_assoc]
  rw [List.append_nil]

/-! ## Literals are read back -/

/-- The string of a text that is one literal. -/
def readLiteral (s : String) : Option String :=
  match lex .out s.toList with
  | some [.literal cs] => some (String.ofList cs)
  | _ => none

def isBlank (t : Token) : Bool := t = .char ' ' || t = .char '\n'

/-- Blanks outside of literals. -/
def dropBlanks (ts : List Token) : List Token := ts.filter fun t => !isBlank t

def literal : List Token → Option (String × List Token)
  | .literal cs :: ts => some (String.ofList cs, ts)
  | _ => none

theorem literal_cons (s : String) (ts : List Token) : literal (.literal s.toList :: ts) = some (s, ts) := by
  rw [literal, String.ofList_toList]

def expect (s : String) (ts : List Token) : Option (List Token) :=
  if (s.toList.map Token.char).isPrefixOf ts then some (ts.drop s.length) else none

/-- Literals up to a closing bracket. -/
def items : List Token → Option (List String × List Token)
  | .literal cs :: .char c :: ts =>
    if c = ',' then (items ts).map fun (ss, ts) => (String.ofList cs :: ss, ts)
    else if c = ']' then some ([String.ofList cs], ts)
    else none
  | _ => none

def array (ts : List Token) : Option (List String × List Token) :=
  match expect "[" ts with
  | some ts => items ts
  | none => (expect "emptyArrayString()" ts).map fun ts => ([], ts)

/-- The strings of a text that is one array. -/
def readArray (s : String) : Option (List String) :=
  match (lex .out s.toList).bind fun ts => array (dropBlanks ts) with
  | some (ss, []) => some ss
  | _ => none

theorem expect_append (s : String) (ts : List Token) : expect s (s.toList.map Token.char ++ ts) = some ts := by
  have hprefix : (s.toList.map Token.char).isPrefixOf (s.toList.map Token.char ++ ts) = true :=
    List.isPrefixOf_iff_prefix.mpr (List.prefix_append _ _)
  rw [expect, if_pos hprefix, ← String.length_toList, ← List.length_map (f := Token.char), List.drop_left]

theorem dropBlanks_append (ts us : List Token) : dropBlanks (ts ++ us) = dropBlanks ts ++ dropBlanks us :=
  List.filter_append ts us

theorem dropBlanks_code (s : String) (ps : List Piece) : dropBlanks (tokens (codePiece s :: ps)) =
    dropBlanks (s.toList.map Token.char) ++ dropBlanks (tokens ps) := dropBlanks_append _ _

theorem dropBlanks_literal (s : String) (ps : List Piece) : dropBlanks (tokens (literalPiece s :: ps)) =
    .literal s.toList :: dropBlanks (tokens ps) := rfl

/-- The tokens of an array without its blanks. -/
def arrayTokens : List String → List Token
  | [] => "emptyArrayString()".toList.map .char
  | s :: items =>
    .char '[' :: .literal s.toList :: (items.flatMap fun s => [.char ',', .literal s.toList]) ++ [.char ']']

theorem dropBlanks_arrayPieces (items : List String) : dropBlanks (tokens (arrayPieces items)) = arrayTokens items := by
  cases items with
  | nil => rfl
  | cons s items =>
    have hitems : dropBlanks (tokens (items.flatMap fun s => [codePiece ", ", literalPiece s])) =
        items.flatMap fun s => [.char ',', .literal s.toList] := by
      induction items with
      | nil => rfl
      | cons t items ih =>
        rw [List.flatMap_cons, List.flatMap_cons, tokens_append, dropBlanks_append, ih]
        rfl
    rw [arrayPieces, tokens_append, tokens_cons, tokens_cons, dropBlanks_append, dropBlanks_append, dropBlanks_append,
      hitems]
    rfl

theorem items_append (s : String) (ss : List String) (ts : List Token) :
    items (.literal s.toList :: (ss.flatMap fun s => [.char ',', .literal s.toList]) ++ .char ']' :: ts) =
      some (s :: ss, ts) := by
  induction ss generalizing s with
  | nil =>
    show some ([String.ofList s.toList], ts) = _
    rw [String.ofList_toList]
  | cons t ss ih =>
    show (items (.literal t.toList :: (ss.flatMap fun s => [.char ',', .literal s.toList]) ++ .char ']' :: ts)).map
      (fun (ss, ts) => (String.ofList s.toList :: ss, ts)) = _
    rw [ih, String.ofList_toList]
    rfl

theorem array_append (ss : List String) (ts : List Token) : array (arrayTokens ss ++ ts) = some (ss, ts) := by
  cases ss with
  | nil =>
    have hnone : expect "[" ("emptyArrayString()".toList.map Token.char ++ ts) = none := rfl
    have hread := expect_append "emptyArrayString()" ts
    unfold array arrayTokens
    rw [hnone]
    exact congrArg (Option.map _) hread
  | cons s ss =>
    have hbracket := expect_append "[" (.literal s.toList :: (ss.flatMap fun s => [.char ',', .literal s.toList]) ++
      .char ']' :: ts)
    have htokens : arrayTokens (s :: ss) ++ ts = "[".toList.map Token.char ++ (.literal s.toList ::
        (ss.flatMap fun s => [.char ',', .literal s.toList]) ++ .char ']' :: ts) :=
      List.append_assoc _ _ _
    unfold array
    rw [htokens, hbracket]
    exact items_append s ss ts

/-! ### Where code stands -/

section Pieces
variable {ps : List Piece}

theorem separated_code {s : String} (h : '\'' ∉ s.toList) (hps : Separated ps) : Separated (codePiece s :: ps) :=
  ⟨h, hps⟩

theorem separated_literal (s : String) {t : String} (h : '\'' ∉ t.toList) (hne : t.toList ≠ []) (hps : Separated ps) :
    Separated (literalPiece s :: codePiece t :: ps) := by
  refine ⟨?_, h, hps⟩
  obtain ⟨c, cs, heq⟩ := List.exists_cons_of_ne_nil hne
  show (t.toList ++ text ps).head? ≠ _
  rw [heq]
  exact fun hc => h (heq ▸ Option.some.inj hc ▸ List.mem_cons_self)

theorem separated_arrayPieces (items : List String) (hps : Separated ps) : Separated (arrayPieces items ++ ps) := by
  cases items with
  | nil => exact separated_code (by decide) hps
  | cons s items =>
    apply separated_code (by decide)
    show Separated (literalPiece s :: (items.flatMap fun s => [codePiece ", ", literalPiece s]) ++ [codePiece "]"] ++ ps)
    induction items generalizing s with
    | nil => exact separated_literal s (by decide) (by decide) hps
    | cons t items ih => exact separated_literal s (by decide) (by decide) (ih t)

theorem isDigit_of_mem_toString {n : ℕ} {c : Char} (h : c ∈ (toString n).toList) : c.isDigit := by
  rw [Nat.toString_eq_ofList_toDigits, String.toList_ofList] at h
  exact Nat.isDigit_of_mem_toDigits (by decide) (by decide) h

theorem toList_toString_ne_nil (n : ℕ) : (toString n).toList ≠ [] := by
  rw [Nat.toString_eq_ofList_toDigits, String.toList_ofList]
  exact Nat.toDigits_ne_nil

theorem notMem_toString {c : Char} (h : c.isDigit = false) (n : ℕ) : c ∉ (toString n).toList :=
  fun hmem => Bool.false_ne_true (h.symm.trans (isDigit_of_mem_toString hmem))

end Pieces

theorem separated_valuePieces (row : ChInsertJson) : Separated (valuePieces row) := by
  unfold valuePieces
  rw [List.append_assoc]
  apply separated_code (by decide)
  iterate 10 apply separated_literal _ (by decide) (by decide)
  apply separated_code (notMem_toString rfl _)
  apply separated_code (by decide)
  apply separated_arrayPieces
  apply separated_code (by decide)
  apply separated_code (notMem_toString rfl _)
  apply separated_code (by decide)
  iterate 4 apply separated_literal _ (by decide) (by decide)
  apply separated_code (notMem_toString rfl _)
  apply separated_code (by decide)
  trivial

theorem separated_conditionPieces (ctx : QueryContext) (filter : EventQuery) :
    Separated (conditionPieces ctx filter) := by
  apply separated_code (by decide)
  apply separated_arrayPieces
  apply separated_code (by decide)
  apply separated_code (by split <;> decide)
  apply separated_code (by split <;> decide)
  apply separated_code (by decide)
  trivial

/-- Every string and every list of strings is read back, and what is read of an insert or a query is its own code with
the contents in the literals. -/
theorem literals_read_back :
    (∀ s, readLiteral (quoted s) = some s) ∧ (∀ ss, readArray (formatChStringArray ss) = some ss) ∧
      (∀ e, lex .out (insertValues json e).toList = some (tokens (valuePieces (toInsertJson json e)))) ∧
      ∀ ctx filter, lex .out (queryConditions ctx filter).toList = some (tokens (conditionPieces ctx filter)) := by
  refine ⟨?_, ?_, ?_, ?_⟩
  · intro s
    have hlex : lex .out (text [literalPiece s]) = some [.literal s.toList] :=
      lex_text ⟨fun h => Option.some_ne_none _ h.symm, trivial⟩
    rw [text_cons, text_nil, List.append_nil, ← toList_quoted] at hlex
    rw [readLiteral, hlex]
    exact congrArg some String.ofList_toList
  · intro ss
    have hsep : Separated (arrayPieces ss ++ []) := separated_arrayPieces ss trivial
    rw [List.append_nil] at hsep
    have harray := array_append ss []
    rw [List.append_nil] at harray
    rw [readArray, toList_formatChStringArray, lex_text hsep, Option.bind_some, dropBlanks_arrayPieces, harray]
  · intro e
    rw [toList_insertValues]
    exact lex_text (separated_valuePieces _)
  · intro ctx filter
    rw [toList_queryConditions]
    exact lex_text (separated_conditionPieces ctx filter)

end ClickHouseEventStore

end AiManager.Telemetry
