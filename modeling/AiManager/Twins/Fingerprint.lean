import Mathlib.Data.Prod.Lex
import Mathlib.Data.String.Basic
import AiManager.Lib.Delimited
import AiManager.Lib.Marked
import AiManager.Lib.Sorting
import AiManager.Twins.NotifyPolicy

/-! # What a fingerprint stands for

The fingerprint is a hash of lines: the rollup, the items by resource, node and kind, the blockers by node. It is to
stand for the content whatever the order. Items with the same key stay in the order they came in, and a field may hold
what separates fields and lines; `ledgerFingerprint_canonical_iff` says what this does. -/

namespace AiManager.Twins

open Lib

/-! ## Content -/

/-- What a fingerprint takes of an item. -/
structure ItemRow where
  kind : String
  resourceId : String
  nodeId : String
  summary : String
  deriving DecidableEq

structure BlockerRow where
  nodeId : String
  summary : String
  deriving DecidableEq

def LedgerItem.row (it : LedgerItem) : ItemRow := ⟨it.kind, it.resourceId, it.nodeId, normalizeSummary it.summary⟩

def BlockerItem.row (b : BlockerItem) : BlockerRow := ⟨b.nodeId, normalizeSummary b.summary⟩

/-- The same rollup, items and blockers, in whatever order. -/
structure SameContent (l l' : StatusLedger) : Prop where
  rollup : l.confidenceRollup = l'.confidenceRollup
  items : (l.items.map LedgerItem.row).Perm (l'.items.map LedgerItem.row)
  blockers : (l.openBlockers.map BlockerItem.row).Perm (l'.openBlockers.map BlockerItem.row)

/-- What items are sorted by. -/
def ItemRow.key (row : ItemRow) : String ×ₗ String ×ₗ String := toLex (row.resourceId, toLex (row.nodeId, row.kind))

/-- Items with the same key come in the same order, and so do the blockers of a node. -/
structure TiesAgree (l l' : StatusLedger) : Prop where
  items : ∀ k, (l.items.filter fun it => it.row.key = k).map LedgerItem.row =
    (l'.items.filter fun it => it.row.key = k).map LedgerItem.row
  blockers : ∀ nodeId, (l.openBlockers.filter fun b => b.row.nodeId = nodeId).map BlockerItem.row =
    (l'.openBlockers.filter fun b => b.row.nodeId = nodeId).map BlockerItem.row

/-- Items with the same key say the same, and so do the blockers of a node. -/
structure Untied (l : StatusLedger) : Prop where
  items : ∀ a ∈ l.items, ∀ b ∈ l.items, a.row.key = b.row.key → a.row = b.row
  blockers : ∀ a ∈ l.openBlockers, ∀ b ∈ l.openBlockers, a.row.nodeId = b.row.nodeId → a.row = b.row

/-! ## Lines -/

/-- What comes before the summary. -/
def ItemRow.lead (row : ItemRow) : String :=
  "i:" ++ row.kind ++ "|" ++ row.resourceId ++ "|" ++ row.nodeId ++ "|"

def BlockerRow.lead (row : BlockerRow) : String := "b:" ++ row.nodeId ++ "|"

def itemRows (l : StatusLedger) : List ItemRow := (l.items.insertionSort itemBefore).map LedgerItem.row

def blockerRows (l : StatusLedger) : List BlockerRow :=
  (l.openBlockers.insertionSort fun a b => ¬ b.nodeId < a.nodeId).map BlockerItem.row

def ledgerRows (l : StatusLedger) : List String :=
  ("rollup:" ++ l.confidenceRollup.asStr) ::
    (itemRows l).map (fun row => row.lead ++ row.summary) ++ (blockerRows l).map fun row => row.lead ++ row.summary

/-- What is hashed. -/
def hashedText (l : StatusLedger) : String := Text.join "\n" (ledgerRows l)

theorem ledgerFingerprint_eq (l : StatusLedger) : ledgerFingerprint l = Sha256.hex (hashedText l) := by
  unfold ledgerFingerprint hashedText ledgerRows itemRows blockerRows
  rw [List.map_map, List.map_map]
  rfl

/-! ### Fields -/

def ItemRow.fields (row : ItemRow) : List (List Char × List Char) :=
  [("\ni:".toList, row.kind.toList), ("|".toList, row.resourceId.toList), ("|".toList, row.nodeId.toList),
    ("|".toList, row.summary.toList)]

def BlockerRow.fields (row : BlockerRow) : List (List Char × List Char) :=
  [("\nb:".toList, row.nodeId.toList), ("|".toList, row.summary.toList)]

/-- The fields of the sorted rows, each behind what is written before it. -/
def ledgerFields (l : StatusLedger) : List (List Char × List Char) :=
  (itemRows l).flatMap ItemRow.fields ++ (blockerRows l).flatMap BlockerRow.fields

/-- Under the same rollup, behind fields that are the same, a field of one ledger is the one of the other with the
separator after it and more, and the fields after that fit. -/
def Recut (l l' : StatusLedger) : Prop :=
  l.confidenceRollup = l'.confidenceRollup ∧ RunsOver (ledgerFields l) (ledgerFields l')

/-- No kind, resource or node holds a bar. -/
structure Plain (l : StatusLedger) : Prop where
  items : ∀ it ∈ l.items, ∀ field ∈ [it.kind, it.resourceId, it.nodeId], '|' ∉ field.toList
  blockers : ∀ b ∈ l.openBlockers, '|' ∉ b.nodeId.toList

/-- The hash tells the two texts apart. -/
def NoCollision (l l' : StatusLedger) : Prop :=
  Sha256.hex (hashedText l) = Sha256.hex (hashedText l') → hashedText l = hashedText l'

section Texts
variable {l l' : StatusLedger}

theorem newline_notMem_normalizeSummary (s : String) : '\n' ∉ (normalizeSummary s).toList := by
  have hwords : ∀ ws : List (List Char), (∀ w ∈ ws, '\n' ∉ w) → '\n' ∉ [' '].intercalate ws := by
    intro ws hws
    induction ws with
    | nil => exact List.not_mem_nil
    | cons w ws ih =>
      obtain ⟨hw, hws⟩ := List.forall_mem_cons.mp hws
      cases ws with
      | nil => simpa using hw
      | cons v ws =>
        rw [List.intercalate_cons_cons]
        simpa [hw] using ih hws
  rw [normalizeSummary, Text.toList_join]
  apply hwords
  intro w hw hnewline
  obtain ⟨s', hs', rfl⟩ := List.mem_map.mp hw
  obtain ⟨w', hw', rfl⟩ := List.mem_map.mp hs'
  rw [String.toList_ofList] at hnewline
  exact Text.not_isWhitespace_of_mem_wordsOf (List.forall_mem_nil _) hw' '\n' hnewline (by decide)

theorem itemBefore_iff {a b : LedgerItem} : itemBefore a b ↔ a.row.key ≤ b.row.key := by
  unfold ItemRow.key LedgerItem.row itemBefore
  rw [Prod.Lex.toLex_le_toLex, Prod.Lex.toLex_le_toLex]
  simp only [not_lt]

theorem itemRows_eq (l : StatusLedger) :
    itemRows l = (l.items.insertionSort fun a b => a.row.key ≤ b.row.key).map LedgerItem.row := by
  unfold itemRows
  congr 1
  congr 1
  funext a b
  exact propext itemBefore_iff

theorem blockerRows_eq (l : StatusLedger) :
    blockerRows l = (l.openBlockers.insertionSort fun a b => a.row.nodeId ≤ b.row.nodeId).map BlockerItem.row := by
  unfold blockerRows
  congr 1

/-- Rows sorted by the same key are alike exactly if ties come in the same order. -/
theorem rows_sorted_iff :
    (itemRows l = itemRows l' ∧ blockerRows l = blockerRows l') ↔ TiesAgree l l' := by
  rw [itemRows_eq, itemRows_eq, blockerRows_eq, blockerRows_eq,
    map_insertionSort_eq_iff (κ := String ×ₗ String ×ₗ String) fun _ => rfl,
    map_insertionSort_eq_iff (κ := String) fun _ => rfl]
  exact ⟨fun h => ⟨h.1, h.2⟩, fun h => ⟨h.1, h.2⟩⟩

theorem perm_itemRows (l : StatusLedger) : (itemRows l).Perm (l.items.map LedgerItem.row) :=
  (List.perm_insertionSort _ _).map _

theorem perm_blockerRows (l : StatusLedger) : (blockerRows l).Perm (l.openBlockers.map BlockerItem.row) :=
  (List.perm_insertionSort _ _).map _

/-- Sorted lists of the same rows have the same keys in the same order. -/
theorem keys_eq (h : SameContent l l') :
    (itemRows l).map ItemRow.key = (itemRows l').map ItemRow.key ∧
      (blockerRows l).map BlockerRow.nodeId = (blockerRows l').map BlockerRow.nodeId := by
  constructor
  · have hsorted : ∀ l, ((itemRows l).map ItemRow.key).Pairwise (· ≤ ·) := by
      intro l
      rw [itemRows_eq, List.map_map, List.pairwise_map]
      exact List.pairwise_insertionSort (fun a b : LedgerItem => a.row.key ≤ b.row.key) l.items
    have hperm := ((perm_itemRows l).trans (h.items.trans (perm_itemRows l').symm)).map ItemRow.key
    exact hperm.eq_of_pairwise (fun _ _ _ _ => le_antisymm) (hsorted l) (hsorted l')
  · have hsorted : ∀ l, ((blockerRows l).map BlockerRow.nodeId).Pairwise (· ≤ ·) := by
      intro l
      rw [blockerRows_eq, List.map_map, List.pairwise_map]
      exact List.pairwise_insertionSort (fun a b : BlockerItem => a.row.nodeId ≤ b.row.nodeId) l.openBlockers
    have hperm := ((perm_blockerRows l).trans (h.blockers.trans (perm_blockerRows l').symm)).map BlockerRow.nodeId
    exact hperm.eq_of_pairwise (fun _ _ _ _ => le_antisymm) (hsorted l) (hsorted l')

/-! ## Rows behind one start -/

/-- What a row begins with, and its summary. -/
def rowParts (l : StatusLedger) : List (String × String) :=
  (itemRows l).map (fun row => (row.lead, row.summary)) ++ (blockerRows l).map fun row => (row.lead, row.summary)

def fingerprintRows (ps : List (String × String)) : List Char := ps.flatMap fun part => '\n' :: (part.1 ++ part.2).toList

theorem intercalate_cons_eq (d : Char) (x : List Char) (xs : List (List Char)) :
    [d].intercalate (x :: xs) = x ++ xs.flatMap (d :: ·) := by
  induction xs generalizing x with
  | nil => simp
  | cons y ys ih =>
    rw [List.intercalate_cons_cons, ih]
    simp

theorem toList_hashedText (l : StatusLedger) :
    (hashedText l).toList = ("rollup:" ++ l.confidenceRollup.asStr).toList ++ fingerprintRows (rowParts l) := by
  rw [hashedText, Text.toList_join, ledgerRows, List.cons_append, List.map_cons]
  refine (intercalate_cons_eq '\n' _ _).trans (congrArg _ ?_)
  rw [fingerprintRows, rowParts, List.flatMap_append, List.map_append, List.flatMap_append]
  simp only [List.flatMap_map, List.map_map, Function.comp_def]

/-- Summaries without line breaks behind the same starts. -/
theorem fingerprintRows_inj {ps qs : List (String × String)} (hlead : ps.map Prod.fst = qs.map Prod.fst)
    (hps : ∀ part ∈ ps, '\n' ∉ part.2.toList) (hqs : ∀ part ∈ qs, '\n' ∉ part.2.toList)
    (h : fingerprintRows ps = fingerprintRows qs) : ps = qs := by
  have hhead : ∀ ps : List (String × String), ∀ c ∈ (fingerprintRows ps).head?, c = '\n' := by
    intro ps c hc
    cases ps with
    | nil => cases hc
    | cons part ps => exact (Option.some.inj hc).symm
  induction ps generalizing qs with
  | nil => exact (List.map_eq_nil_iff.mp hlead.symm).symm
  | cons part ps ih =>
    obtain ⟨a, s⟩ := part
    cases qs with
    | nil => cases hlead
    | cons part' qs =>
      obtain ⟨a', s'⟩ := part'
      obtain ⟨hs, hps'⟩ := List.forall_mem_cons.mp hps
      obtain ⟨hs', hqs'⟩ := List.forall_mem_cons.mp hqs
      obtain ⟨rfl, hlead'⟩ := List.cons.inj hlead
      have htext : a.toList ++ (s.toList ++ fingerprintRows ps) = a.toList ++ (s'.toList ++ fingerprintRows qs) := by
        rw [← List.append_assoc, ← List.append_assoc, ← String.toList_append, ← String.toList_append]
        exact (List.cons.inj h).2
      obtain ⟨hsummary, hrest⟩ :=
        append_inj_of_notMem hs hs' (hhead ps) (hhead qs) (List.append_cancel_left htext)
      exact congrArg₂ List.cons (congrArg (Prod.mk a) (String.toList_inj.mp hsummary)) (ih hlead' hps' hqs' hrest)

theorem newline_notMem_parts {part : String × String} (h : part ∈ rowParts l) : '\n' ∉ part.2.toList := by
  rcases List.mem_append.mp h with h | h
  · obtain ⟨row, hrow, rfl⟩ := List.mem_map.mp h
    obtain ⟨it, -, rfl⟩ := List.mem_map.mp hrow
    exact newline_notMem_normalizeSummary it.summary
  · obtain ⟨row, hrow, rfl⟩ := List.mem_map.mp h
    obtain ⟨b, -, rfl⟩ := List.mem_map.mp hrow
    exact newline_notMem_normalizeSummary b.summary

/-- What two functions tell apart together. -/
theorem eq_of_map_eq {α β γ : Type} {f : α → β} {g : α → γ} {xs ys : List α}
    (hinj : ∀ a ∈ xs, ∀ b ∈ ys, f a = f b → g a = g b → a = b) (hf : xs.map f = ys.map f)
    (hg : xs.map g = ys.map g) : xs = ys := by
  induction xs generalizing ys with
  | nil => exact (List.map_eq_nil_iff.mp hf.symm).symm
  | cons x xs ih =>
    cases ys with
    | nil => cases hf
    | cons y ys =>
      obtain ⟨hfx, hf⟩ := List.cons.inj hf
      obtain ⟨hgx, hg⟩ := List.cons.inj hg
      rw [hinj x List.mem_cons_self y List.mem_cons_self hfx hgx,
        ih (fun a ha b hb => hinj a (List.mem_cons_of_mem _ ha) b (List.mem_cons_of_mem _ hb)) hf hg]

/-- Where the content is the same, texts are the same exactly if ties come in the same order. -/
theorem hashedText_eq_iff_tiesAgree (h : SameContent l l') : hashedText l = hashedText l' ↔ TiesAgree l l' := by
  obtain ⟨hitems, hblockers⟩ := keys_eq h
  have hlead : (rowParts l).map Prod.fst = (rowParts l').map Prod.fst := by
    have hleads : ∀ l, (rowParts l).map Prod.fst =
        ((itemRows l).map ItemRow.key).map (fun k => "i:" ++ (ofLex (ofLex k).2).2 ++ "|" ++ (ofLex k).1 ++ "|" ++
          (ofLex (ofLex k).2).1 ++ "|") ++
        ((blockerRows l).map BlockerRow.nodeId).map (fun nodeId => "b:" ++ nodeId ++ "|") := by
      intro l
      rw [rowParts, List.map_append, List.map_map, List.map_map, List.map_map, List.map_map]
      rfl
    rw [hleads, hleads, hitems, hblockers]
  rw [← rows_sorted_iff, ← String.toList_inj, toList_hashedText, toList_hashedText, h.rollup, List.append_cancel_left_eq]
  constructor
  · intro heq
    have hparts := fingerprintRows_inj hlead (fun _ => newline_notMem_parts) (fun _ => newline_notMem_parts) heq
    have hlen : (itemRows l).length = (itemRows l').length := by
      rw [← List.length_map ItemRow.key, hitems, List.length_map]
    obtain ⟨hi, hb⟩ := List.append_inj hparts (by rw [List.length_map, List.length_map, hlen])
    have hi' := congrArg (List.map Prod.snd) hi
    have hb' := congrArg (List.map Prod.snd) hb
    rw [List.map_map, List.map_map] at hi' hb'
    constructor
    · refine eq_of_map_eq ?_ hitems hi'
      rintro ⟨k, r, n, s⟩ - ⟨k', r', n', s'⟩ - hkey hsummary
      obtain ⟨rfl, hrest⟩ := Prod.mk.inj (toLex.injective hkey)
      obtain ⟨rfl, rfl⟩ := Prod.mk.inj (toLex.injective hrest)
      obtain rfl : s = s' := hsummary
      rfl
    · refine eq_of_map_eq ?_ hblockers hb'
      rintro ⟨n, s⟩ - ⟨n', s'⟩ - hnode hsummary
      obtain rfl : n = n' := hnode
      obtain rfl : s = s' := hsummary
      rfl
  · rintro ⟨hi, hb⟩
    rw [rowParts, rowParts, hi, hb]

/-! ## Ties and separators -/

theorem eq_of_perm_of_constant {α : Type} {xs ys : List α} (h : xs.Perm ys) (hconst : ∀ a ∈ xs, ∀ b ∈ xs, a = b) :
    xs = ys := by
  cases xs with
  | nil => exact h.nil_eq
  | cons a xs =>
    have hxs : a :: xs = List.replicate (xs.length + 1) a :=
      List.eq_replicate_iff.mpr ⟨rfl, fun b hb => hconst b hb a List.mem_cons_self⟩
    rw [hxs] at h ⊢
    exact (List.perm_replicate.mp h.symm).symm

/-- What says the same comes in every order. -/
theorem Untied.tiesAgree (h : Untied l) (hsame : SameContent l l') : TiesAgree l l' := by
  constructor
  case items =>
    intro k
    apply eq_of_perm_of_constant
    · have hperm := hsame.items.filter fun row => row.key = k
      rw [List.filter_map, List.filter_map] at hperm
      exact hperm
    · intro row hrow row' hrow'
      obtain ⟨a, ha, rfl⟩ := List.mem_map.mp hrow
      obtain ⟨b, hb, rfl⟩ := List.mem_map.mp hrow'
      obtain ⟨ha, hka⟩ := List.mem_filter.mp ha
      obtain ⟨hb, hkb⟩ := List.mem_filter.mp hb
      exact h.items a ha b hb ((of_decide_eq_true hka).trans (of_decide_eq_true hkb).symm)
  case blockers =>
    intro nodeId
    apply eq_of_perm_of_constant
    · have hperm := hsame.blockers.filter fun row => row.nodeId = nodeId
      rw [List.filter_map, List.filter_map] at hperm
      exact hperm
    · intro row hrow row' hrow'
      obtain ⟨a, ha, rfl⟩ := List.mem_map.mp hrow
      obtain ⟨b, hb, rfl⟩ := List.mem_map.mp hrow'
      obtain ⟨ha, hka⟩ := List.mem_filter.mp ha
      obtain ⟨hb, hkb⟩ := List.mem_filter.mp hb
      exact h.blockers a ha b hb ((of_decide_eq_true hka).trans (of_decide_eq_true hkb).symm)

/-! ### Fields that run over -/

/-- What may stand before a field. -/
def FieldMark (m : List Char) : Prop := m = "\ni:".toList ∨ m = "\nb:".toList ∨ m = "|".toList

theorem marks_fieldMark : Marks FieldMark fun c => c = '\n' ∨ c = '|' := by
  constructor
  · rintro m (rfl | rfl | rfl)
    · exact ⟨'\n', ['i', ':'], rfl, .inl rfl, by simp⟩
    · exact ⟨'\n', ['b', ':'], rfl, .inl rfl, by simp⟩
    · exact ⟨'|', [], rfl, .inr rfl, List.forall_mem_nil _⟩
  · rintro m m' (rfl | rfl | rfl) (rfl | rfl | rfl) <;> decide

theorem fieldMark_of_mem {part : List Char × List Char} (h : part ∈ ledgerFields l) : FieldMark part.1 := by
  rcases List.mem_append.mp h with h | h
  · obtain ⟨row, -, hpart⟩ := List.mem_flatMap.mp h
    simp only [ItemRow.fields, List.mem_cons, List.not_mem_nil, or_false] at hpart
    rcases hpart with rfl | rfl | rfl | rfl
    · exact .inl rfl
    · exact .inr (.inr rfl)
    · exact .inr (.inr rfl)
    · exact .inr (.inr rfl)
  · obtain ⟨row, -, hpart⟩ := List.mem_flatMap.mp h
    simp only [BlockerRow.fields, List.mem_cons, List.not_mem_nil, or_false] at hpart
    rcases hpart with rfl | rfl
    · exact .inr (.inl rfl)
    · exact .inr (.inr rfl)

/-- A row begins with a line break. -/
theorem newline_mem_head {is : List ItemRow} {bs : List BlockerRow} {part : List Char × List Char}
    (h : part ∈ (is.flatMap ItemRow.fields ++ bs.flatMap BlockerRow.fields).head?) :
    ∃ cs, part.1 = '\n' :: cs := by
  cases is with
  | cons i is =>
    cases h
    exact ⟨['i', ':'], rfl⟩
  | nil =>
    cases bs with
    | nil => cases h
    | cons b bs =>
      cases h
      exact ⟨['b', ':'], rfl⟩

theorem hashedText_toList (l : StatusLedger) :
    (hashedText l).toList = ("rollup:" ++ l.confidenceRollup.asStr).toList ++ writeMarked (ledgerFields l) := by
  have hitem : ∀ row : ItemRow, '\n' :: (row.lead ++ row.summary).toList = writeMarked row.fields := by
    intro row
    simp [ItemRow.lead, ItemRow.fields, writeMarked_cons, String.toList_append]
  have hblocker : ∀ row : BlockerRow, '\n' :: (row.lead ++ row.summary).toList = writeMarked row.fields := by
    intro row
    simp [BlockerRow.lead, BlockerRow.fields, writeMarked_cons, String.toList_append]
  rw [toList_hashedText, fingerprintRows, rowParts, ledgerFields, writeMarked_append, List.flatMap_append,
    writeMarked_flatMap, writeMarked_flatMap]
  simp only [List.flatMap_map, hitem, hblocker]

theorem asStr_injective {t t' : ConfidenceTier} (h : t.asStr = t'.asStr) : t = t' := by
  revert h
  cases t <;> cases t' <;> decide

/-- One text is written by one list of fields, or by fields that run over. -/
theorem hashedText_eq_iff : hashedText l = hashedText l' ↔
    l.confidenceRollup = l'.confidenceRollup ∧ (ledgerFields l = ledgerFields l' ∨
      RunsOver (ledgerFields l) (ledgerFields l')) := by
  have hrollup : ∀ t : ConfidenceTier, '\n' ∉ ("rollup:" ++ t.asStr).toList := by
    intro t
    cases t <;> decide
  have hhead : ∀ l, ∀ c ∈ (writeMarked (ledgerFields l)).head?, c = '\n' := by
    intro l c hc
    cases hfields : ledgerFields l with
    | nil =>
      rw [hfields] at hc
      cases hc
    | cons part parts =>
      have hpart : part ∈ (ledgerFields l).head? := by rw [hfields]; exact Option.mem_some_self part
      obtain ⟨cs, hcs⟩ := newline_mem_head hpart
      obtain ⟨m, f⟩ := part
      obtain rfl : m = '\n' :: cs := hcs
      rw [hfields, writeMarked_cons] at hc
      exact (Option.some.inj hc).symm
  rw [← writeMarked_eq_iff marks_fieldMark (fun _ => fieldMark_of_mem) (fun _ => fieldMark_of_mem),
    ← String.toList_inj, hashedText_toList, hashedText_toList]
  constructor
  · intro htext
    obtain ⟨hfirst, hrest⟩ := append_inj_of_notMem (hrollup _) (hrollup _) (hhead l) (hhead l') htext
    exact ⟨asStr_injective ((String.append_right_inj _).mp (String.toList_inj.mp hfirst)), hrest⟩
  · rintro ⟨hfirst, hrest⟩
    rw [hfirst, hrest]

theorem blockers_eq_of_fields {bs bs' : List BlockerRow}
    (h : bs.flatMap BlockerRow.fields = bs'.flatMap BlockerRow.fields) : bs = bs' := by
  induction bs generalizing bs' with
  | nil =>
    cases bs' with
    | nil => rfl
    | cons b' bs' => cases h
  | cons b bs ih =>
    cases bs' with
    | nil => cases h
    | cons b' bs' =>
      obtain ⟨n, s⟩ := b
      obtain ⟨n', s'⟩ := b'
      simp only [List.flatMap_cons, BlockerRow.fields, List.cons_append, List.nil_append, List.cons.injEq,
        Prod.mk.injEq, true_and, String.toList_inj] at h
      obtain ⟨rfl, rfl, hrest⟩ := h
      rw [ih hrest]

/-- The fields say which rows they are of. -/
theorem rows_eq_of_fields {is is' : List ItemRow} {bs bs' : List BlockerRow}
    (h : is.flatMap ItemRow.fields ++ bs.flatMap BlockerRow.fields =
      is'.flatMap ItemRow.fields ++ bs'.flatMap BlockerRow.fields) : is = is' ∧ bs = bs' := by
  induction is generalizing is' with
  | nil =>
    cases is' with
    | nil => exact ⟨rfl, blockers_eq_of_fields h⟩
    | cons i' is' =>
      cases bs with
      | nil => cases h
      | cons b bs => exact absurd (Prod.mk.inj (List.cons.inj h).1).1 (by decide)
  | cons i is ih =>
    cases is' with
    | nil =>
      cases bs' with
      | nil => cases h
      | cons b bs => exact absurd (Prod.mk.inj (List.cons.inj h).1).1 (by decide)
    | cons i' is' =>
      obtain ⟨k, r, n, s⟩ := i
      obtain ⟨k', r', n', s'⟩ := i'
      simp only [List.flatMap_cons, ItemRow.fields, List.cons_append, List.nil_append, List.cons.injEq,
        Prod.mk.injEq, true_and, String.toList_inj] at h
      obtain ⟨rfl, rfl, rfl, rfl, hrest⟩ := h
      obtain ⟨rfl, rfl⟩ := ih hrest
      exact ⟨rfl, rfl⟩

/-- Other contents have the same text exactly where a field runs over. -/
theorem recut_iff : Recut l l' ↔ hashedText l = hashedText l' ∧ ¬ SameContent l l' := by
  constructor
  · rintro ⟨hrollup, hover⟩
    have htext := hashedText_eq_iff.mpr ⟨hrollup, .inr hover⟩
    refine ⟨htext, fun hsame => ?_⟩
    obtain ⟨hitems, hblockers⟩ := rows_sorted_iff.mpr ((hashedText_eq_iff_tiesAgree hsame).mp htext)
    have hne : ∀ {l : StatusLedger}, ∀ part ∈ ledgerFields l, part.1 ≠ [] :=
      fun _ hpart => marks_fieldMark.ne_nil (fieldMark_of_mem hpart)
    refine hover.ne hne hne ?_
    rw [ledgerFields, ledgerFields, hitems, hblockers]
  · rintro ⟨htext, hother⟩
    obtain ⟨hrollup, hfields | hover⟩ := hashedText_eq_iff.mp htext
    · obtain ⟨hitems, hblockers⟩ := rows_eq_of_fields hfields
      refine absurd ⟨hrollup, ?_, ?_⟩ hother
      · exact (perm_itemRows l).symm.trans (hitems ▸ perm_itemRows l')
      · exact (perm_blockerRows l).symm.trans (hblockers ▸ perm_blockerRows l')
    · exact ⟨hrollup, hover⟩

/-- A bar in the summary only, and no line break there. -/
structure ItemRow.Plain (row : ItemRow) : Prop where
  bar : ∀ field ∈ [row.kind, row.resourceId, row.nodeId], '|' ∉ field.toList
  line : '\n' ∉ row.summary.toList

structure BlockerRow.Plain (row : BlockerRow) : Prop where
  bar : '|' ∉ row.nodeId.toList
  line : '\n' ∉ row.summary.toList

theorem bar_mem_head {field : List Char} {parts : List (List Char × List Char)} :
    ∀ part ∈ (("|".toList, field) :: parts).head?, '|' ∈ part.1 := by
  intro part hpart
  cases hpart
  exact List.mem_singleton.mpr rfl

theorem line_mem_head {is : List ItemRow} {bs : List BlockerRow} :
    ∀ part ∈ (is.flatMap ItemRow.fields ++ bs.flatMap BlockerRow.fields).head?, '\n' ∈ part.1 := by
  intro part hpart
  obtain ⟨cs, hcs⟩ := newline_mem_head hpart
  rw [hcs]
  exact List.mem_cons_self

theorem not_runsOver_of_plain_blockers {bs bs' : List BlockerRow} (hb : ∀ row ∈ bs, row.Plain)
    (hb' : ∀ row ∈ bs', row.Plain) : ¬ RunsOver (bs.flatMap BlockerRow.fields) (bs'.flatMap BlockerRow.fields) := by
  intro h
  induction bs generalizing bs' with
  | nil => exact absurd rfl h.ne_nil.1
  | cons b bs ih =>
    cases bs' with
    | nil => exact absurd rfl h.ne_nil.2
    | cons b' bs' =>
      rw [List.forall_mem_cons] at hb hb'
      have hsummary := (RunsOver.tail h hb.1.bar hb'.1.bar bar_mem_head bar_mem_head).2
      exact ih hb.2 hb'.2 (hsummary.tail hb.1.line hb'.1.line (@line_mem_head [] _) (@line_mem_head [] _)).2

/-- The fields of plain rows do not run over: up to the summary a bar follows, and a line break follows that. -/
theorem not_runsOver_of_plain {is is' : List ItemRow} {bs bs' : List BlockerRow}
    (hi : ∀ row ∈ is, row.Plain) (hi' : ∀ row ∈ is', row.Plain) (hb : ∀ row ∈ bs, row.Plain)
    (hb' : ∀ row ∈ bs', row.Plain) :
    ¬ RunsOver (is.flatMap ItemRow.fields ++ bs.flatMap BlockerRow.fields)
      (is'.flatMap ItemRow.fields ++ bs'.flatMap BlockerRow.fields) := by
  intro h
  induction is generalizing is' with
  | nil =>
    cases is' with
    | nil => exact not_runsOver_of_plain_blockers hb hb' h
    | cons i' is' =>
      cases bs with
      | nil => exact absurd rfl h.ne_nil.1
      | cons b bs => exact absurd (RunsOver.cons_cases h).1 (by decide)
  | cons i is ih =>
    cases is' with
    | nil =>
      cases bs' with
      | nil => exact absurd rfl h.ne_nil.2
      | cons b bs => exact absurd (RunsOver.cons_cases h).1 (by decide)
    | cons i' is' =>
      rw [List.forall_mem_cons] at hi hi'
      obtain ⟨hbars, hsummary⟩ := hi.1
      obtain ⟨hbars', hsummary'⟩ := hi'.1
      have hresource := (RunsOver.tail h (hbars _ (by simp)) (hbars' _ (by simp)) bar_mem_head bar_mem_head).2
      have hnode := (hresource.tail (hbars _ (by simp)) (hbars' _ (by simp)) bar_mem_head bar_mem_head).2
      have hlast := (hnode.tail (hbars _ (by simp)) (hbars' _ (by simp)) bar_mem_head bar_mem_head).2
      exact ih hi.2 hi'.2 (hlast.tail hsummary hsummary' line_mem_head line_mem_head).2

theorem Plain.itemRows (h : Plain l) : ∀ row ∈ itemRows l, row.Plain := by
  intro row hrow
  obtain ⟨it, hit, rfl⟩ := List.mem_map.mp ((perm_itemRows l).mem_iff.mp hrow)
  exact ⟨h.items it hit, newline_notMem_normalizeSummary it.summary⟩

theorem Plain.blockerRows (h : Plain l) : ∀ row ∈ blockerRows l, row.Plain := by
  intro row hrow
  obtain ⟨b, hb, rfl⟩ := List.mem_map.mp ((perm_blockerRows l).mem_iff.mp hrow)
  exact ⟨h.blockers b hb, newline_notMem_normalizeSummary b.summary⟩

/-- Where no kind, resource or node holds a bar, none runs over. -/
theorem Plain.not_recut (h : Plain l) (h' : Plain l') : ¬ Recut l l' := fun hcut =>
  not_runsOver_of_plain h.itemRows h'.itemRows h.blockerRows h'.blockerRows hcut.2

end Texts

/-- A fingerprint is as good as the text that is hashed. -/
theorem ledgerFingerprint_eq_iff {l l' : StatusLedger} (h : NoCollision l l') :
    ledgerFingerprint l = ledgerFingerprint l' ↔ hashedText l = hashedText l' := by
  rw [ledgerFingerprint_eq, ledgerFingerprint_eq]
  exact ⟨h, congrArg _⟩

/-- The fingerprint tells whether two ledgers have the same content where ties come in the same order and no field of
one ledger runs over the end of a field of the other. The first holds where nothing is tied, the second where no kind,
resource or node holds a bar. -/
theorem ledgerFingerprint_canonical_iff (l l' : StatusLedger) (h : NoCollision l l') :
    ((ledgerFingerprint l = ledgerFingerprint l' ↔ SameContent l l') ↔
      (SameContent l l' → TiesAgree l l') ∧ ¬ Recut l l') ∧
    (Untied l → SameContent l l' → TiesAgree l l') ∧ (Plain l → Plain l' → ¬ Recut l l') := by
  refine ⟨?_, fun huntied => huntied.tiesAgree, Plain.not_recut⟩
  rw [ledgerFingerprint_eq_iff h, recut_iff]
  constructor
  · intro hiff
    exact ⟨fun hsame => (hashedText_eq_iff_tiesAgree hsame).mp (hiff.mpr hsame), fun hcut => hcut.2 (hiff.mp hcut.1)⟩
  · rintro ⟨hties, hcut⟩
    constructor
    · intro htext
      by_contra hsame
      exact hcut ⟨htext, hsame⟩
    · intro hsame
      exact (hashedText_eq_iff_tiesAgree hsame).mpr (hties hsame)

/-! ### Tied items, and a bar in a kind -/

section Demo

def trackedItem (kind resourceId nodeId summary : String) : LedgerItem :=
  { (default : LedgerItem) with kind, resourceId, nodeId, summary }

def trackedLedger (items : List LedgerItem) : StatusLedger := { (default : StatusLedger) with items }

/-- Items with different keys may come in any order. -/
theorem reordered_canonical :
    ledgerFingerprint (trackedLedger [trackedItem "pr" "r1" "n1" "open", trackedItem "pr" "r2" "n2" "merged"]) =
        ledgerFingerprint (trackedLedger [trackedItem "pr" "r2" "n2" "merged", trackedItem "pr" "r1" "n1" "open"]) ↔
      SameContent (trackedLedger [trackedItem "pr" "r1" "n1" "open", trackedItem "pr" "r2" "n2" "merged"])
        (trackedLedger [trackedItem "pr" "r2" "n2" "merged", trackedItem "pr" "r1" "n1" "open"]) := by
  have hcanonical := ledgerFingerprint_canonical_iff
    (trackedLedger [trackedItem "pr" "r1" "n1" "open", trackedItem "pr" "r2" "n2" "merged"])
    (trackedLedger [trackedItem "pr" "r2" "n2" "merged", trackedItem "pr" "r1" "n1" "open"]) (fun _ => by decide)
  have hordered := hcanonical.2.1 ⟨by decide, by decide⟩
  have hcontent := hcanonical.2.2 ⟨by decide, by decide⟩ ⟨by decide, by decide⟩
  exact hcanonical.1.mpr ⟨hordered, hcontent⟩

/-- The same two items the other way round have another fingerprint, and different items have the same. -/
theorem ledgerFingerprint_not_canonical :
    (∃ l l', SameContent l l' ∧ ledgerFingerprint l ≠ ledgerFingerprint l') ∧
      ∃ l l', ¬ SameContent l l' ∧ ledgerFingerprint l = ledgerFingerprint l' := by
  constructor
  · refine ⟨trackedLedger [trackedItem "pr" "r" "n" "open", trackedItem "pr" "r" "n" "merged"],
      trackedLedger [trackedItem "pr" "r" "n" "merged", trackedItem "pr" "r" "n" "open"], ⟨rfl, by decide, by decide⟩, ?_⟩
    decide +kernel
  · refine ⟨trackedLedger [trackedItem "a|b" "r" "n" "open"], trackedLedger [trackedItem "a" "b|r" "n" "open"], ?_, ?_⟩
    · intro h
      exact absurd h.items (by decide)
    · rw [ledgerFingerprint_eq, ledgerFingerprint_eq]
      exact congrArg Sha256.hex (by decide)

end Demo

end AiManager.Twins
