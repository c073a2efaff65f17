import AiManager.Lib.Percent
import Mathlib.Data.List.ReduceOption

/-! # SQL texts

Contents are written into a text as quoted literals, and the text is read twice: by the client, to which a question
mark stands for a value, and by the server, to which a quote begins and ends a literal. -/

namespace AiManager.Lib.SqlText

/-! ## Texts in pieces -/

inductive Piece where
  | code (cs : List Char)
  | literal (cs : List Char)

def escapeChar (c : Char) : List Char := if c = '\\' ∨ c = '\'' then ['\\', c] else [c]

def escaped (cs : List Char) : List Char := cs.flatMap escapeChar

def Piece.text : Piece → List Char
  | .code cs => cs
  | .literal cs => '\'' :: (escaped cs ++ ['\''])

def text (ps : List Piece) : List Char := ps.flatMap Piece.text

@[simp]
theorem text_nil : text [] = [] := rfl

@[simp]
theorem text_cons (p : Piece) (ps : List Piece) : text (p :: ps) = p.text ++ text ps := rfl

@[simp]
theorem text_append (ps qs : List Piece) : text (ps ++ qs) = text ps ++ text qs := List.flatMap_append

/-! ## Literals -/

inductive Token where
  | char (c : Char)
  | literal (cs : List Char)
  deriving DecidableEq

/-- The character that a backslash and this one stand for. -/
def escapeSequence : Char → Char
  | 'b' => '\x08'
  | 'f' => '\x0c'
  | 'r' => '\r'
  | 'n' => '\n'
  | 't' => '\t'
  | '0' => '\x00'
  | 'a' => '\x07'
  | 'v' => '\x0b'
  | c => c

/-- Where the reader is: outside of literals, or in one after some characters, after a backslash, in the digits of an
escape, or after a quote. -/
inductive Mode where
  | out
  | inside (cs : List Char)
  | backslash (cs : List Char)
  | hex (cs : List Char) (digit : Option Nat)
  | quote (cs : List Char)

/-- A quote ends a literal unless another one follows; no tokens if a literal does not end. -/
def lex : Mode → List Char → Option (List Token)
  | .out, [] => some []
  | .out, c :: cs => if c = '\'' then lex (.inside []) cs else (lex .out cs).map (.char c :: ·)
  | .inside _, [] => none
  | .inside ds, c :: cs =>
    if c = '\'' then lex (.quote ds) cs
    else if c = '\\' then lex (.backslash ds) cs
    else lex (.inside (ds ++ [c])) cs
  | .backslash _, [] => none
  | .backslash ds, c :: cs =>
    if c = 'x' then lex (.hex ds none) cs else lex (.inside (ds ++ [escapeSequence c])) cs
  | .hex _ _, [] => none
  | .hex ds none, c :: cs => (Percent.value c).bind fun n => lex (.hex ds (some n)) cs
  | .hex ds (some m), c :: cs => (Percent.value c).bind fun n => lex (.inside (ds ++ [Char.ofNat (m * 16 + n)])) cs
  | .quote ds, [] => some [.literal ds]
  | .quote ds, c :: cs =>
    if c = '\'' then lex (.inside (ds ++ ['\''])) cs
    else (lex .out cs).map fun ts => .literal ds :: .char c :: ts

def Piece.tokens : Piece → List Token
  | .code cs => cs.map .char
  | .literal cs => [.literal cs]

def tokens (ps : List Piece) : List Token := ps.flatMap Piece.tokens

@[simp]
theorem tokens_nil : tokens [] = [] := rfl

@[simp]
theorem tokens_cons (p : Piece) (ps : List Piece) : tokens (p :: ps) = p.tokens ++ tokens ps := rfl

@[simp]
theorem tokens_append (ps qs : List Piece) : tokens (ps ++ qs) = tokens ps ++ tokens qs := List.flatMap_append

/-- Code has no quotes and stands between any two literals. -/
def Separated : List Piece → Prop
  | [] => True
  | .code cs :: ps => '\'' ∉ cs ∧ Separated ps
  | .literal _ :: ps => (text ps).head? ≠ some '\'' ∧ Separated ps

theorem lex_code {cs : List Char} (h : '\'' ∉ cs) (rest : List Char) :
    lex .out (cs ++ rest) = (lex .out rest).map (cs.map .char ++ ·) := by
  induction cs with
  | nil =>
    rw [List.nil_append, List.map_nil]
    cases lex .out rest <;> rfl
  | cons c cs ih =>
    have hc : c ≠ '\'' := fun hc => h (hc ▸ List.mem_cons_self)
    rw [List.cons_append, lex, if_neg hc, ih fun hmem => h (List.mem_cons_of_mem _ hmem), Option.map_map]
    rfl

/-- No content closes its literal. -/
theorem lex_escaped (ds cs rest : List Char) :
    lex (.inside ds) (escaped cs ++ '\'' :: rest) = lex (.quote (ds ++ cs)) rest := by
  induction cs generalizing ds with
  | nil =>
    rw [List.append_nil]
    exact if_pos rfl
  | cons c cs ih =>
    have hstep : lex (.inside ds) (escapeChar c ++ (escaped cs ++ '\'' :: rest)) =
        lex (.inside (ds ++ [c])) (escaped cs ++ '\'' :: rest) := by
      by_cases hbackslash : c = '\\'
      · subst hbackslash
        rfl
      · by_cases hquote : c = '\''
        · subst hquote
          rfl
        · have hplain : escapeChar c = [c] := if_neg (not_or.mpr ⟨hbackslash, hquote⟩)
          rw [hplain, List.singleton_append, lex, if_neg hquote, if_neg hbackslash]
    have hassoc : escaped (c :: cs) ++ '\'' :: rest = escapeChar c ++ (escaped cs ++ '\'' :: rest) :=
      List.append_assoc _ _ _
    rw [hassoc, hstep, ih, List.append_assoc, List.singleton_append]

theorem lex_quote (ds : List Char) {rest : List Char} (h : rest.head? ≠ some '\'') :
    lex (.quote ds) rest = (lex .out rest).map (.literal ds :: ·) := by
  cases rest with
  | nil => rfl
  | cons c cs =>
    have hc : c ≠ '\'' := fun hc => h (congrArg some hc)
    rw [lex, if_neg hc, lex, if_neg hc, Option.map_map]
    rfl

/-- A text is read as its pieces. -/
theorem lex_text {ps : List Piece} (h : Separated ps) : lex .out (text ps) = some (tokens ps) := by
  induction ps with
  | nil => rfl
  | cons p ps ih =>
    rw [text_cons, tokens_cons]
    cases p with
    | code cs =>
      obtain ⟨hcs, hps⟩ := h
      rw [Piece.text, lex_code hcs, ih hps]
      rfl
    | literal cs =>
      obtain ⟨hhead, hps⟩ := h
      have hinside : lex .out (Piece.text (.literal cs) ++ text ps) = lex (.quote cs) (text ps) := by
        show lex (.inside []) (escaped cs ++ ['\''] ++ text ps) = _
        rw [List.append_assoc, List.singleton_append, lex_escaped, List.nil_append]
      rw [hinside, lex_quote cs hhead, ih hps]
      rfl

/-! ## Templates -/

/-- What a text is as a template: characters, and the places of values. A question mark stands for itself if it is
doubled; the flag says that one is open. -/
def template : Bool → List Char → List (Option Char)
  | false, [] => []
  | true, [] => [none]
  | false, c :: cs => if c = '?' then template true cs else some c :: template false cs
  | true, c :: cs => if c = '?' then some '?' :: template false cs else none :: some c :: template false cs

def placeholders (cs : List Char) : ℕ := (template false cs).count none

/-- The characters of a template, one for each doubled question mark. -/
def characters (cs : List Char) : List Char := (template false cs).reduceOption

/-- The text that is sent if no value is bound; it is an error that one is missing. -/
def sent (cs : List Char) : Option (List Char) := if placeholders cs = 0 then some (characters cs) else none

theorem template_append {a b : List Char} (hb : b.head? ≠ some '?') (flag : Bool) :
    template flag (a ++ b) = template flag a ++ template false b := by
  induction a generalizing flag with
  | nil =>
    cases flag with
    | false => rfl
    | true =>
      cases b with
      | nil => rfl
      | cons c cs =>
        have hc : c ≠ '?' := fun hc => hb (congrArg some hc)
        have hopen : template true (c :: cs) = none :: some c :: template false cs := if_neg hc
        have hclosed : template false (c :: cs) = some c :: template false cs := if_neg hc
        rw [List.nil_append, hopen, hclosed]
        rfl
  | cons c a ih =>
    cases flag
    · rw [List.cons_append, template, template]
      split
      · exact ih true
      · rw [ih false, List.cons_append]
    · rw [List.cons_append, template, template]
      split
      · rw [ih false, List.cons_append]
      · rw [ih false, List.cons_append, List.cons_append]

theorem template_append_of_getLast {a : List Char} (ha : a.getLast? ≠ some '?') (b : List Char) :
    template false (a ++ b) = template false a ++ template false b := by
  rcases List.eq_nil_or_concat a with rfl | ⟨a, c, rfl⟩
  · rfl
  · have hc : c ≠ '?' := by
      rintro rfl
      exact ha (List.concat_eq_append ▸ List.getLast?_concat)
    have hhead : ∀ d : List Char, (c :: d).head? ≠ some '?' := fun d h => hc (Option.some.inj h)
    have hstep : ∀ d, template false (c :: d) = some c :: template false d := fun d => if_neg hc
    rw [List.concat_eq_append, List.append_assoc, List.singleton_append, template_append (hhead b),
      template_append (hhead []), hstep, hstep, List.append_assoc]
    rfl

theorem template_of_notMem {cs : List Char} (h : '?' ∉ cs) : template false cs = cs.map some := by
  induction cs with
  | nil => rfl
  | cons c cs ih =>
    have hc : c ≠ '?' := fun hc => h (hc ▸ List.mem_cons_self)
    rw [template, if_neg hc, ih fun hmem => h (List.mem_cons_of_mem _ hmem)]
    rfl

theorem map_some_reduceOption {ts : List (Option Char)} (h : none ∉ ts) : ts.reduceOption.map some = ts := by
  induction ts with
  | nil => rfl
  | cons t ts ih =>
    cases t with
    | none => exact absurd List.mem_cons_self h
    | some c => rw [List.reduceOption_cons_of_some, List.map_cons, ih fun hmem => h (List.mem_cons_of_mem _ hmem)]

theorem none_notMem_map_some (ds : List Char) : none ∉ ds.map some := by
  intro hmem
  obtain ⟨c, -, hc⟩ := List.mem_map.mp hmem
  cases hc

theorem sent_eq_some_iff {cs ds : List Char} : sent cs = some ds ↔ template false cs = ds.map some := by
  constructor
  · intro h
    rw [sent] at h
    split at h
    · next hcount =>
      rw [← Option.some.inj h, characters, map_some_reduceOption (List.count_eq_zero.mp hcount)]
    · cases h
  · intro h
    have hcount : placeholders cs = 0 := by
      rw [placeholders, h]
      exact List.count_eq_zero_of_not_mem (none_notMem_map_some ds)
    have hchars : (template false cs).reduceOption.map some = ds.map some := by
      rw [h, map_some_reduceOption (none_notMem_map_some ds)]
    rw [sent, if_pos hcount]
    exact congrArg some (List.map_injective_iff.mpr (Option.some_injective Char) hchars)

/-! ### Texts that are sent as they are -/

theorem sent_of_notMem {cs : List Char} (h : '?' ∉ cs) : sent cs = some cs :=
  sent_eq_some_iff.mpr (template_of_notMem h)

/-- After more question marks than were read, none is left to be read. -/
theorem template_ne_append {t : List Char} (ht : ∃ c ∈ t, c ≠ '?') (k : ℕ) (u v : List Char) :
    template false (t ++ u) ≠ (List.replicate (k + 1) '?' ++ t ++ v).map some := by
  match t with
  | [] =>
    obtain ⟨c, hc, -⟩ := ht
    cases hc
  | [c] =>
    obtain ⟨c', hc', hne⟩ := ht
    obtain rfl := List.mem_singleton.mp hc'
    intro h
    rw [List.singleton_append, template, if_neg hne] at h
    exact hne (Option.some.inj (List.cons.inj h).1)
  | c :: d :: t =>
    intro h
    by_cases hc : c = '?'
    · subst hc
      have hopen : template false ('?' :: d :: t ++ u) = template true (d :: t ++ u) := if_pos rfl
      rw [hopen] at h
      by_cases hd : d = '?'
      · subst hd
        have htail : template true ('?' :: t ++ u) = some '?' :: template false (t ++ u) := if_pos rfl
        have hmore : List.replicate (k + 1) '?' ++ '?' :: '?' :: t ++ v =
            '?' :: (List.replicate (k + 1 + 1) '?' ++ t ++ v) := by
          have htwo : '?' :: '?' :: t = List.replicate 2 '?' ++ t := rfl
          rw [htwo, ← List.append_assoc, List.replicate_append_replicate, List.append_assoc, List.append_assoc]
          rfl
        rw [htail, hmore] at h
        obtain ⟨c', hc', hne⟩ := ht
        have ht' : ∃ c ∈ t, c ≠ '?' := ⟨c', by simpa [hne] using hc', hne⟩
        exact template_ne_append ht' (k + 1) u v (List.cons.inj h).2
      · have htail : template true (d :: t ++ u) = none :: some d :: template false (t ++ u) := if_neg hd
        rw [htail] at h
        cases (List.cons.inj h).1
    · have hstep : template false (c :: d :: t ++ u) = some c :: template false (d :: t ++ u) := if_neg hc
      rw [hstep] at h
      exact hc (Option.some.inj (List.cons.inj h).1)

/-- What is sent as it is has no question mark, up to one of its characters that is none. -/
theorem notMem_of_sent {a u v : List Char} {c : Char} (hc : c ≠ '?')
    (h : sent (a ++ c :: u) = some (a ++ c :: v)) : '?' ∉ a := by
  rw [sent_eq_some_iff] at h
  induction a with
  | nil => exact List.not_mem_nil
  | cons d a ih =>
    by_cases hd : d = '?'
    · subst hd
      have hopen : template false ('?' :: a ++ c :: u) = template true (a ++ c :: u) := if_pos rfl
      rw [hopen] at h
      cases a with
      | nil =>
        have htail : template true ([] ++ c :: u) = none :: some c :: template false u := if_neg hc
        rw [htail] at h
        cases (List.cons.inj h).1
      | cons e a =>
        by_cases he : e = '?'
        · subst he
          have htail : template true ('?' :: a ++ c :: u) = some '?' :: template false (a ++ c :: u) := if_pos rfl
          rw [htail] at h
          have hmem : ∃ c' ∈ a ++ [c], c' ≠ '?' := ⟨c, List.mem_append_right _ List.mem_cons_self, hc⟩
          refine absurd (List.cons.inj h).2 ?_
          have hne := template_ne_append hmem 0 u v
          rwa [List.append_assoc, List.append_assoc, List.append_assoc] at hne
        · have htail : template true (e :: a ++ c :: u) = none :: some e :: template false (a ++ c :: u) := if_neg he
          rw [htail] at h
          cases (List.cons.inj h).1
    · have hstep : template false (d :: a ++ c :: u) = some d :: template false (a ++ c :: u) := if_neg hd
      rw [hstep] at h
      exact fun hmem => (List.mem_cons.mp hmem).elim (fun heq => hd heq.symm) (ih (List.cons.inj h).2)

theorem sent_eq_some_self_iff {cs : List Char} : sent cs = some cs ↔ '?' ∉ cs := by
  constructor
  · intro h
    have hquote : sent (cs ++ ['.']) = some (cs ++ ['.']) := by
      rw [sent_eq_some_iff, template_append (by decide), sent_eq_some_iff.mp h, List.map_append]
      rfl
    exact notMem_of_sent (by decide) hquote
  · exact sent_of_notMem

/-! ### Pieces of templates -/

theorem template_escaped (flag : Bool) (cs : List Char) :
    template flag (escaped cs) = (template flag cs).flatMap fun t => t.elim [none] fun c => (escapeChar c).map some := by
  induction cs generalizing flag with
  | nil => cases flag <;> rfl
  | cons c cs ih =>
    show template flag (escapeChar c ++ escaped cs) = _
    by_cases hc : c = '?'
    · subst hc
      cases flag
      · exact ih true
      · show some '?' :: template false (escaped cs) = _
        rw [ih false]
        rfl
    · by_cases hspecial : c = '\\' ∨ c = '\''
      · have htwo : escapeChar c = ['\\', c] := if_pos hspecial
        have hclosed : template false ('\\' :: c :: escaped cs) = some '\\' :: some c :: template false (escaped cs) := by
          rw [template, if_neg (by decide), template, if_neg hc]
        have hopen : template true ('\\' :: c :: escaped cs) =
            none :: some '\\' :: some c :: template false (escaped cs) := by
          rw [template, if_neg (by decide), template, if_neg hc]
        cases flag
        · rw [htwo, List.cons_append, List.singleton_append, hclosed, ih false, template, if_neg hc,
            List.flatMap_cons, Option.elim_some, htwo]
          rfl
        · rw [htwo, List.cons_append, List.singleton_append, hopen, ih false, template, if_neg hc,
            List.flatMap_cons, List.flatMap_cons, Option.elim_some, htwo]
          rfl
      · have hone : escapeChar c = [c] := if_neg hspecial
        cases flag
        · rw [hone, List.singleton_append, template, if_neg hc, ih false, template, if_neg hc, List.flatMap_cons,
            Option.elim_some, hone]
          rfl
        · rw [hone, List.singleton_append, template, if_neg hc, ih false, template, if_neg hc, List.flatMap_cons,
            List.flatMap_cons, Option.elim_some, hone]
          rfl

theorem none_notMem_escapeChar (c : Char) : none ∉ (escapeChar c).map some := none_notMem_map_some _

theorem placeholders_escaped (cs : List Char) : placeholders (escaped cs) = placeholders cs := by
  rw [placeholders, placeholders, template_escaped]
  induction template false cs with
  | nil => rfl
  | cons t ts ih =>
    rw [List.flatMap_cons, List.count_append, ih, List.count_cons]
    cases t with
    | none => exact Nat.add_comm _ _
    | some c =>
      rw [Option.elim_some, List.count_eq_zero_of_not_mem (none_notMem_escapeChar c), Nat.zero_add]
      rfl

theorem characters_escaped (cs : List Char) : characters (escaped cs) = escaped (characters cs) := by
  rw [characters, characters, template_escaped]
  induction template false cs with
  | nil => rfl
  | cons t ts ih =>
    rw [List.flatMap_cons, List.reduceOption_append, ih]
    cases t with
    | none => rfl
    | some c =>
      have hinj := List.map_injective_iff.mpr (Option.some_injective Char)
      have hchar : ((escapeChar c).map some).reduceOption = escapeChar c :=
        hinj (map_some_reduceOption (none_notMem_escapeChar c))
      rw [Option.elim_some, hchar, List.reduceOption_cons_of_some]
      rfl

/-- What becomes of a piece when it is sent. -/
def Piece.characters : Piece → Piece
  | .code cs => .code (SqlText.characters cs)
  | .literal cs => .literal (SqlText.characters cs)

def Piece.placeholders : Piece → ℕ
  | .code cs => SqlText.placeholders cs
  | .literal cs => SqlText.placeholders cs

/-- No piece begins with a question mark. -/
def Framed (ps : List Piece) : Prop := ∀ cs, .code cs ∈ ps → cs.head? ≠ some '?'

theorem Framed.of_cons {p : Piece} {ps : List Piece} (h : Framed (p :: ps)) : Framed ps :=
  fun cs hcs => h cs (List.mem_cons_of_mem _ hcs)

theorem Framed.head? {ps : List Piece} (h : Framed ps) : (text ps).head? ≠ some '?' := by
  induction ps with
  | nil => exact fun h => by cases h
  | cons p ps ih =>
    cases p with
    | code cs =>
      cases cs with
      | nil => exact ih h.of_cons
      | cons c cs => exact h (c :: cs) List.mem_cons_self
    | literal cs => exact fun heq => absurd (Option.some.inj heq) (by decide)

theorem template_literal (cs : List Char) :
    template false (Piece.text (.literal cs)) = some '\'' :: (template false (escaped cs) ++ [some '\'']) := by
  show some '\'' :: template false (escaped cs ++ ['\'']) = _
  rw [template_append (by decide)]
  rfl

theorem placeholders_text {ps : List Piece} (h : Framed ps) :
    placeholders (text ps) = (ps.map Piece.placeholders).sum := by
  induction ps with
  | nil => rfl
  | cons p ps ih =>
    have hpiece : placeholders p.text = p.placeholders := by
      cases p with
      | code cs => rfl
      | literal cs =>
        have hlit := placeholders_escaped cs
        rw [placeholders, template_literal, List.count_cons, List.count_append]
        exact hlit
    rw [text_cons, List.map_cons, List.sum_cons, ← ih h.of_cons, ← hpiece, placeholders,
      template_append h.of_cons.head?, List.count_append]
    rfl

theorem characters_text {ps : List Piece} (h : Framed ps) :
    characters (text ps) = text (ps.map Piece.characters) := by
  induction ps with
  | nil => rfl
  | cons p ps ih =>
    have hpiece : characters p.text = p.characters.text := by
      cases p with
      | code cs => rfl
      | literal cs =>
        rw [characters, template_literal, List.reduceOption_cons_of_some, List.reduceOption_append]
        exact congrArg (fun ds => '\'' :: (ds ++ ['\''])) (characters_escaped cs)
    rw [text_cons, List.map_cons, text_cons, ← ih h.of_cons, ← hpiece, characters,
      template_append h.of_cons.head?, List.reduceOption_append]
    rfl

/-- A text between two others that do not touch it with question marks. -/
theorem placeholders_between {a b : List Char} (ha : a.getLast? ≠ some '?') (hb : b.head? ≠ some '?') (x : List Char) :
    placeholders (a ++ x ++ b) = placeholders a + placeholders x + placeholders b := by
  rw [placeholders, template_append hb, template_append_of_getLast ha, List.count_append, List.count_append]
  rfl

theorem placeholders_of_notMem {cs : List Char} (h : '?' ∉ cs) : placeholders cs = 0 := by
  rw [placeholders, template_of_notMem h]
  exact List.count_eq_zero_of_not_mem (none_notMem_map_some cs)

theorem characters_of_notMem {cs : List Char} (h : '?' ∉ cs) : characters cs = cs :=
  List.map_injective_iff.mpr (Option.some_injective Char)
    ((map_some_reduceOption fun hmem => none_notMem_map_some cs (template_of_notMem h ▸ hmem)).trans
      (template_of_notMem h))

/-- A text that has no place for a value and the characters it is to have has no question mark. -/
theorem notMem_of_characters {cs : List Char} (h : placeholders cs = 0) (hcs : characters cs = cs) : '?' ∉ cs := by
  apply sent_eq_some_self_iff.mp
  rw [sent, if_pos h, hcs]

theorem placeholders_of_sent {cs ds : List Char} (h : sent cs = some ds) : placeholders cs = 0 ∧ characters cs = ds := by
  rw [sent] at h
  split at h
  · next hcount => exact ⟨hcount, Option.some.inj h⟩
  · cases h

end AiManager.Lib.SqlText
