import Mathlib.Data.List.Induction
import Myoj.Lib.Bytes

/-!
# SqlLiteral — single-quoted literals in a statement

How a server cuts a statement at its single-quoted literals: inside a literal two quotes stand for
one, and a backslash changes the meaning of the byte after it.

* `literal` — the value of a literal whose opening quote has been read, with what follows it;
* `lex` — the statement as the texts and the literals it consists of;
* `fill` — a statement made by writing values between quotes into a fixed text;
* `lex_fill_iff` — such a statement has the intended pieces exactly when every value is `Verbatim`:
  free of quotes, with backslashes only before `%` and `_`.
-/

namespace Myoj
namespace SqlLiteral

def quote : UInt8 := 39
def backslash : UInt8 := 92
def percent : UInt8 := 37
def underscore : UInt8 := 95

/-- What a backslash and the byte after it stand for. -/
def unescape (b : UInt8) : Bytes :=
  if b = 48 then [0]
  else if b = 98 then [8]
  else if b = 110 then [10]
  else if b = 114 then [13]
  else if b = 116 then [9]
  else if b = 90 then [26]
  else if b = percent ∨ b = underscore then [backslash, b]
  else [b]

/-- The literal whose opening quote stood before `s`, and what follows its closing quote; `none` when it is
never closed. -/
def literal (s : Bytes) : Option (Bytes × Bytes) :=
  match s with
  | [] => none
  | [b] => if b = quote then some ([], []) else none
  | b :: b' :: rest =>
      if b = quote then
        if b' = quote then (literal rest).map (Prod.map (quote :: ·) id)
        else some ([], b' :: rest)
      else if b = backslash then (literal rest).map (Prod.map (unescape b' ++ ·) id)
      else (literal (b' :: rest)).map (Prod.map (b :: ·) id)

section literal

variable {b c e : UInt8} {s rest value after tail : Bytes}

@[simp] theorem literal_nil : literal [] = none := rfl

theorem literal_singleton : literal [b] = if b = quote then some ([], []) else none := rfl

theorem literal_cons_cons :
    literal (b :: c :: rest) =
      if b = quote then
        if c = quote then (literal rest).map (Prod.map (quote :: ·) id)
        else some ([], c :: rest)
      else if b = backslash then (literal rest).map (Prod.map (unescape c ++ ·) id)
      else (literal (c :: rest)).map (Prod.map (b :: ·) id) := rfl

/-- A byte of the literal that stands for itself. -/
theorem literal_cons (hquote : b ≠ quote) (hback : b ≠ backslash) :
    literal (b :: rest) = (literal rest).map (Prod.map (b :: ·) id) := by
  cases rest with
  | nil =>
      rw [literal_singleton, if_neg hquote]
      rfl
  | cons c rest =>
      rw [literal_cons_cons, if_neg hquote, if_neg hback]

theorem literal_escape :
    literal (backslash :: e :: rest) = (literal rest).map (Prod.map (unescape e ++ ·) id) := by
  rw [literal_cons_cons, if_neg (by decide), if_pos rfl]

theorem literal_doubled :
    literal (quote :: quote :: rest) = (literal rest).map (Prod.map (quote :: ·) id) := by
  rw [literal_cons_cons, if_pos rfl, if_pos rfl]

theorem literal_close (h : rest.head? ≠ some quote) : literal (quote :: rest) = some ([], rest) := by
  cases rest with
  | nil =>
      rw [literal_singleton, if_pos rfl]
  | cons c rest =>
      have hc : c ≠ quote := by simpa using h
      rw [literal_cons_cons, if_pos rfl, if_neg hc]

theorem length_unescape_le : (unescape e).length ≤ 2 := by
  unfold unescape
  split_ifs <;> simp

/-- A literal is no longer than what is written between its quotes. -/
theorem length_of_literal (h : literal s = some (value, after)) :
    value.length + after.length < s.length := by
  induction s using List.twoStepInduction generalizing value after with
  | nil =>
      simp at h
  | singleton b =>
      by_cases hquote : b = quote
      · simp [literal_singleton, hquote] at h
        rw [h.1, h.2]
        simp
      · simp [literal_singleton, hquote] at h
  | cons_cons b c rest ih ihc =>
      rw [literal_cons_cons] at h
      split_ifs at h with hquote hc hback
      · obtain ⟨p, hp, he⟩ := Option.map_eq_some_iff.1 h
        have hlen := ih hp
        cases he
        simpa using by omega
      · cases h
        simp
      · obtain ⟨p, hp, he⟩ := Option.map_eq_some_iff.1 h
        have hlen := ih hp
        have hone : (unescape c).length ≤ 2 := length_unescape_le
        cases he
        simpa using by omega
      · obtain ⟨p, hp, he⟩ := Option.map_eq_some_iff.1 h
        have hlen := ihc c hp
        rw [List.length_cons] at hlen
        cases he
        simpa using by omega

end literal

/-! ## Values that stand for themselves -/

/-- Free of quotes, and every backslash is followed by `%` or `_`. -/
def Verbatim : Bytes → Prop
  | [] => True
  | b :: rest =>
      b ≠ quote ∧ (b = backslash → rest.head? = some percent ∨ rest.head? = some underscore) ∧
        Verbatim rest

instance decidableVerbatim : DecidablePred Verbatim
  | [] => isTrue trivial
  | _ :: rest =>
      have := decidableVerbatim rest
      inferInstanceAs (Decidable (_ ∧ (_ → _) ∧ _))

/-- A byte that is not an ordinary member of a literal. -/
def Special (b : UInt8) : Prop := b = quote ∨ b = backslash

section verbatim

variable {b c e : UInt8} {v w x rest value after tail : Bytes}

theorem unescape_wildcard (h : e = percent ∨ e = underscore) : unescape e = [backslash, e] := by
  rcases h with rfl | rfl <;> rfl

theorem not_special_wildcard (h : e = percent ∨ e = underscore) : ¬ Special e := by
  rcases h with rfl | rfl <;> simp [Special, quote, backslash, percent, underscore]

/-- Unless it keeps its backslash, an escape stands for one byte, which is special only when it is the
escaped byte itself. -/
theorem unescape_single (h : ¬ (e = percent ∨ e = underscore)) :
    ∃ d, unescape e = [d] ∧ (Special d → d = e) := by
  unfold unescape
  rw [if_neg h]
  split_ifs <;> exact ⟨_, rfl, by simp [Special, quote, backslash]⟩

theorem literal_of_verbatim (hv : Verbatim v) (htail : tail.head? ≠ some quote) :
    literal (v ++ quote :: tail) = some (v, tail) := by
  induction v using List.twoStepInduction with
  | nil =>
      exact literal_close htail
  | singleton b =>
      obtain ⟨hquote, hback, -⟩ := hv
      have hplain : b ≠ backslash := fun hb => by simpa using hback hb
      rw [List.singleton_append, literal_cons hquote hplain, literal_close htail]
      rfl
  | cons_cons b c rest ih ihc =>
      obtain ⟨hquote, hback, hrest⟩ := hv
      by_cases hb : b = backslash
      · -- the backslash keeps its place before a wildcard
        have hc : c = percent ∨ c = underscore := by simpa using hback hb
        subst hb
        rw [List.cons_append, List.cons_append, literal_escape, ih hrest.2.2, unescape_wildcard hc]
        rfl
      · rw [List.cons_append, literal_cons hquote hb, ihc c hrest]
        rfl

/-- The value of a literal begins with its first byte when that is an ordinary one. -/
theorem head_of_literal (hb : ¬ Special b) (h : literal (b :: rest) = some (value, after)) :
    value.head? = some b := by
  rw [literal_cons (fun hq => hb (.inl hq)) (fun hs => hb (.inr hs))] at h
  obtain ⟨p, -, he⟩ := Option.map_eq_some_iff.1 h
  cases he
  rfl

/-- A literal that goes on into an ordinary text has no value that begins with a special byte. -/
theorem head_not_special (htail : ∀ c, tail.head? = some c → ¬ Special c)
    (h : literal tail = some (value, after)) (hc : value.head? = some c) : ¬ Special c := by
  cases tail with
  | nil =>
      simp at h
  | cons d tail =>
      have hd : ¬ Special d := htail d rfl
      rw [head_of_literal hd h] at hc
      cases hc
      exact hd

/-- A literal that goes on into an ordinary text is not empty. -/
theorem literal_ne_nil (htail : ∀ c, tail.head? = some c → ¬ Special c) :
    literal tail ≠ some ([], after) := by
  intro h
  cases tail with
  | nil =>
      simp at h
  | cons c tail =>
      simpa using head_of_literal (htail c rfl) h

/-- Two bytes the first of which is special: they stand for the second, or the second is a wildcard that
stands for itself. -/
theorem literal_pair {d : UInt8} (hb : Special b)
    (h : literal (b :: c :: rest) = some (d :: value, after)) :
    ((Special d → d = c) ∧ literal rest = some (value, after)) ∨
      (b = backslash ∧ (c = percent ∨ c = underscore) ∧
        ∃ value', value = c :: value' ∧ literal rest = some (value', after)) := by
  rcases hb with rfl | rfl
  · by_cases hc : c = quote
    · subst hc
      rw [literal_doubled] at h
      obtain ⟨p, hp, he⟩ := Option.map_eq_some_iff.1 h
      cases he
      exact .inl ⟨fun _ => rfl, hp⟩
    · rw [literal_close (by simpa using hc)] at h
      cases h
  · rw [literal_escape] at h
    obtain ⟨p, hp, he⟩ := Option.map_eq_some_iff.1 h
    by_cases hc : c = percent ∨ c = underscore
    · rw [unescape_wildcard hc] at he
      cases he
      exact .inr ⟨rfl, hc, _, rfl, hp⟩
    · obtain ⟨e, he', hspecial⟩ := unescape_single hc
      rw [he'] at he
      cases he
      exact .inl ⟨hspecial, hp⟩

theorem head_of_special {d : UInt8} (hx : ∀ d ∈ x, Special d) (hb : Special b)
    (h : (x ++ b :: rest).head? = some d) : Special d := by
  cases x with
  | nil =>
      cases h
      exact hb
  | cons d' x =>
      cases h
      exact hx d (by simp)

/-- **No recovery.** Once the value read is ahead of the value written by special bytes, the quote written
after the value cannot end the literal at the right place. -/
theorem literal_ne_ahead (htail : ∀ c, tail.head? = some c → ¬ Special c) (hx : x ≠ [])
    (hspecial : ∀ d ∈ x, Special d) : literal (w ++ quote :: tail) ≠ some (x ++ w, after) := by
  -- by two bytes at a time: an escape and a doubled quote each take two
  induction w using List.twoStepInduction generalizing x with
  | nil =>
      intro h
      rw [List.nil_append, literal_close fun h => htail quote h (.inl rfl)] at h
      simp [hx] at h
  | singleton b =>
      obtain ⟨d, x, rfl⟩ := List.exists_cons_of_ne_nil hx
      have hx' : ∀ d ∈ x, Special d := fun d' hmem => hspecial d' (by simp [hmem])
      intro h
      by_cases hb : Special b
      · -- the byte takes the closing quote with it, and the tail would have to yield a special byte
        rcases literal_pair hb h with ⟨-, hread⟩ | ⟨-, hquote, -⟩
        · have hne : x ++ [b] ≠ [] := by simp
          obtain ⟨e, rest, he⟩ := List.exists_cons_of_ne_nil hne
          have hhead : (x ++ [b]).head? = some e := by rw [he]; rfl
          exact head_not_special htail hread hhead (head_of_special hx' hb hhead)
        · exact not_special_wildcard hquote (.inl rfl)
      · have hd : d = b := by simpa using head_of_literal hb h
        exact hb (hd ▸ hspecial d (by simp))
  | cons_cons b c rest ih ihc =>
      obtain ⟨d, x, rfl⟩ := List.exists_cons_of_ne_nil hx
      have hd : Special d := hspecial d (by simp)
      have hx' : ∀ d ∈ x, Special d := fun d' hmem => hspecial d' (by simp [hmem])
      intro h
      by_cases hb : Special b
      · rcases literal_pair hb h with ⟨hdc, hread⟩ | ⟨-, hc, value, hvalue, -⟩
        · -- the value read stays ahead, now by the pair just written
          refine ih (x := x ++ [b, c]) (by simp) ?_ (by simpa using hread)
          intro e hmem
          rcases List.mem_append.1 hmem with hmem | hmem
          · exact hx' e hmem
          · have hcases : e = b ∨ e = c := by simpa using hmem
            rcases hcases with rfl | rfl
            · exact hb
            · exact hdc hd ▸ hd
        · have hhead : (x ++ b :: c :: rest).head? = some c := congrArg List.head? hvalue
          exact not_special_wildcard hc (head_of_special hx' hb hhead)
      · have hdb : d = b := by simpa using head_of_literal hb h
        exact hb (hdb ▸ hd)

/-- **Exactly the verbatim values.** A value written between quotes is read back, with the text after it,
only when it stands for itself. -/
theorem literal_eq_iff (htail : ∀ c, tail.head? = some c → ¬ Special c) :
    literal (v ++ quote :: tail) = some (v, after) ↔ Verbatim v ∧ after = tail := by
  have hclose : tail.head? ≠ some quote := fun h => htail quote h (.inl rfl)
  constructor
  · intro h
    induction v using List.twoStepInduction with
    | nil =>
        rw [List.nil_append, literal_close hclose] at h
        cases h
        exact ⟨trivial, rfl⟩
    | singleton b =>
        by_cases hb : Special b
        · rcases literal_pair hb h with ⟨-, hread⟩ | ⟨-, hquote, -⟩
          · exact absurd hread (literal_ne_nil htail)
          · exact absurd (.inl rfl) (not_special_wildcard hquote)
        · rw [List.singleton_append, literal_cons (fun hq => hb (.inl hq)) fun hs => hb (.inr hs),
            literal_close hclose] at h
          cases h
          exact ⟨⟨fun hq => hb (.inl hq), fun hs => absurd (.inr hs) hb, trivial⟩, rfl⟩
    | cons_cons b c rest ih ihc =>
        by_cases hb : Special b
        · rcases literal_pair hb h with ⟨hbc, hread⟩ | ⟨rfl, hc, value, hvalue, hread⟩
          · -- `b` has been read as one byte for the two written, so the value read is ahead by `c`
            have hc : Special c := hbc hb ▸ hb
            exact absurd hread
              (literal_ne_ahead (x := [c]) htail (by simp) fun d hd => by
                rw [List.mem_singleton.1 hd]
                exact hc)
          · cases hvalue
            obtain ⟨hrest, hafter⟩ := ih hread
            have hc' : c ≠ quote ∧ c ≠ backslash := by
              have hnot := not_special_wildcard hc
              exact ⟨fun hq => hnot (.inl hq), fun hs => hnot (.inr hs)⟩
            refine ⟨⟨by decide, fun _ => ?_, hc'.1, fun hs => absurd hs hc'.2, hrest⟩, hafter⟩
            simpa using hc
        · have hquote : b ≠ quote := fun hq => hb (.inl hq)
          have hback : b ≠ backslash := fun hs => hb (.inr hs)
          rw [List.cons_append, literal_cons hquote hback] at h
          obtain ⟨⟨value, after'⟩, hp, he⟩ := Option.map_eq_some_iff.1 h
          have hvalue : value = c :: rest := congrArg (fun p => p.1.tail) he
          have hsnd : after' = after := congrArg Prod.snd he
          obtain ⟨hrest, hafter⟩ := ihc c (by rw [hp, hvalue, hsnd])
          exact ⟨⟨hquote, fun hs => absurd hs hback, hrest⟩, hafter⟩
  · rintro ⟨hv, rfl⟩
    exact literal_of_verbatim hv hclose

end verbatim

/-! ## Statements -/

/-- What a statement is cut into. -/
inductive Piece where
  | text (t : Bytes)
  | literal (value : Bytes)
  deriving DecidableEq, Repr

/-- A statement as the texts and the literals it consists of; `none` when a literal is never closed. -/
def lex (s : Bytes) : Option (List Piece) :=
  match s with
  | [] => some []
  | b :: rest =>
      if b = quote then
        match _h : literal rest with
        | none => none
        | some (value, after) => (lex after).map (.literal value :: ·)
      else (lex (rest.dropWhile (· ≠ quote))).map (.text (b :: rest.takeWhile (· ≠ quote)) :: ·)
termination_by s.length
decreasing_by
  · have := length_of_literal _h
    simpa using by omega
  · exact Nat.lt_succ_of_le (List.length_dropWhile_le _ _)

@[simp] theorem lex_nil : lex [] = some [] := by
  rw [lex]

theorem lex_cons {b : UInt8} {rest : Bytes} :
    lex (b :: rest) =
      if b = quote then (literal rest).bind fun p => (lex p.2).map (.literal p.1 :: ·)
      else (lex (rest.dropWhile (· ≠ quote))).map (.text (b :: rest.takeWhile (· ≠ quote)) :: ·) := by
  rw [lex]
  split
  · split <;> simp_all
  · rfl

theorem lex_text {t s : Bytes} (ht : t ≠ []) (hquote : quote ∉ t)
    (hs : ∀ c, s.head? = some c → c = quote) : lex (t ++ s) = (lex s).map (.text t :: ·) := by
  obtain ⟨b, t, rfl⟩ := List.exists_cons_of_ne_nil ht
  obtain ⟨hb, ht'⟩ : b ≠ quote ∧ quote ∉ t := by
    simpa [eq_comm] using hquote
  have hcut : (t ++ s).takeWhile (· ≠ quote) = t ∧ (t ++ s).dropWhile (· ≠ quote) = s := by
    cases s with
    | nil =>
        rw [List.append_nil]
        exact ⟨takeWhile_ne_of_not_mem ht', List.dropWhile_eq_nil_iff.2 (forall_ne_of_not_mem ht')⟩
    | cons c s =>
        obtain rfl : c = quote := hs c rfl
        exact ⟨takeWhile_ne_append ht', dropWhile_ne_append ht'⟩
  rw [List.cons_append, lex_cons, if_neg hb, hcut.1, hcut.2]

/-- Values written between quotes, each with the text that follows it. -/
def fields : List (Bytes × Bytes) → Bytes
  | [] => []
  | (value, after) :: rest => quote :: (value ++ quote :: (after ++ fields rest))

/-- A statement: a fixed text into which values are written. -/
def fill (first : Bytes) (values : List (Bytes × Bytes)) : Bytes := first ++ fields values

/-- The piece of a text, if it is there at all. -/
def textPiece (t : Bytes) : List Piece := if t = [] then [] else [.text t]

def fieldPieces : List (Bytes × Bytes) → List Piece
  | [] => []
  | (value, after) :: rest => .literal value :: (textPiece after ++ fieldPieces rest)

/-- The pieces a statement is meant to have: the fixed texts, and one literal for each value. -/
def intended (first : Bytes) (values : List (Bytes × Bytes)) : List Piece :=
  .text first :: fieldPieces values

/-- Texts between which a value can be read: none holds a quote or begins with a backslash, and none but the
last is empty. -/
def Separated : List Bytes → Prop
  | [] => True
  | t :: rest =>
      quote ∉ t ∧ t.head? ≠ some backslash ∧ (t = [] → rest = []) ∧ Separated rest

instance decidableSeparated : DecidablePred Separated
  | [] => isTrue trivial
  | _ :: rest =>
      have := decidableSeparated rest
      inferInstanceAs (Decidable (_ ∧ _ ∧ (_ → _) ∧ _))

theorem head_fields {values : List (Bytes × Bytes)} {c : UInt8} (h : (fields values).head? = some c) :
    c = quote := by
  cases values with
  | nil =>
      cases h
  | cons f rest =>
      cases h
      rfl

theorem lex_textPiece {t : Bytes} {values : List (Bytes × Bytes)} (hquote : quote ∉ t)
    (hlast : t = [] → values = []) :
    lex (t ++ fields values) = (lex (fields values)).map (textPiece t ++ ·) := by
  by_cases ht : t = []
  · subst ht
    rw [hlast rfl]
    simp [textPiece]
  · rw [lex_text ht hquote fun c => head_fields, textPiece, if_neg ht]
    rfl

theorem lex_fields_iff {values : List (Bytes × Bytes)} (h : Separated (values.map Prod.snd)) :
    lex (fields values) = some (fieldPieces values) ↔ ∀ f ∈ values, Verbatim f.1 := by
  induction values with
  | nil =>
      simp [fields, fieldPieces, lex_nil]
  | cons f rest ih =>
      obtain ⟨value, after⟩ := f
      obtain ⟨hquote, hback, hlast, hrest⟩ := h
      have hempty : after = [] → rest = [] := fun ha => by simpa using hlast ha
      -- what follows the value is not a quote and not a backslash
      have htail : ∀ c, (after ++ fields rest).head? = some c → ¬ Special c := by
        intro c hc
        cases after with
        | nil =>
            rw [hempty rfl] at hc
            cases hc
        | cons d after =>
            cases hc
            rintro (rfl | rfl)
            · simp at hquote
            · simp at hback
      have hlex : lex (after ++ fields rest) = some (textPiece after ++ fieldPieces rest) ↔
          ∀ f ∈ rest, Verbatim f.1 := by
        rw [lex_textPiece hquote hempty, ← ih hrest]
        simp
      rw [List.forall_mem_cons, fields, fieldPieces, lex_cons, if_pos rfl]
      constructor
      · intro hread
        obtain ⟨⟨value', after'⟩, hliteral, hlater⟩ := Option.bind_eq_some_iff.1 hread
        obtain ⟨pieces, hpieces, he⟩ := Option.map_eq_some_iff.1 hlater
        cases he
        obtain ⟨hverbatim, rfl⟩ := (literal_eq_iff htail).1 hliteral
        exact ⟨hverbatim, hlex.1 hpieces⟩
      · rintro ⟨hverbatim, hothers⟩
        rw [(literal_eq_iff htail).2 ⟨hverbatim, rfl⟩, Option.bind_some, hlex.2 hothers]
        rfl

/-- **Values stay values.** A statement made by writing values between quotes has the intended pieces
exactly when every value stands for itself. -/
theorem lex_fill_iff {first : Bytes} {values : List (Bytes × Bytes)} (hfirst : first ≠ [])
    (hquote : quote ∉ first) (h : Separated (values.map Prod.snd)) :
    lex (fill first values) = some (intended first values) ↔ ∀ f ∈ values, Verbatim f.1 := by
  rw [fill, lex_text hfirst hquote fun c => head_fields, intended, ← lex_fields_iff h]
  simp

/-! ## The room a statement takes -/

def Piece.size : Piece → Nat
  | .text t => t.length
  | .literal value => value.length + 2

def size (pieces : List Piece) : Nat := (pieces.map Piece.size).sum

@[simp] theorem size_cons (p : Piece) (pieces : List Piece) :
    size (p :: pieces) = p.size + size pieces := by
  simp [size]

theorem size_textPiece_append (t : Bytes) (pieces : List Piece) :
    size (textPiece t ++ pieces) = t.length + size pieces := by
  by_cases ht : t = []
  · simp [textPiece, ht]
  · simp [textPiece, ht, Piece.size]

/-- A statement is at least as long as the pieces it is read as. -/
theorem size_le_of_lex {s : Bytes} {pieces : List Piece} (h : lex s = some pieces) :
    size pieces ≤ s.length := by
  -- by the length of what is left to read
  induction hn : s.length using Nat.strong_induction_on generalizing s pieces with
  | _ n ih =>
      cases s with
      | nil =>
          cases lex_nil.symm.trans h
          simp [size]
      | cons b rest =>
          rw [List.length_cons] at hn
          rw [lex_cons] at h
          split at h
          · obtain ⟨⟨value, after⟩, hliteral, hlater⟩ := Option.bind_eq_some_iff.1 h
            obtain ⟨pieces, hp, rfl⟩ := Option.map_eq_some_iff.1 hlater
            have hlen := length_of_literal hliteral
            have hafter := ih after.length (by omega) hp rfl
            simp only [size_cons, Piece.size]
            omega
          · obtain ⟨pieces, hp, rfl⟩ := Option.map_eq_some_iff.1 h
            have hcut := congrArg List.length
              (List.takeWhile_append_dropWhile (p := (· ≠ quote)) (l := rest))
            rw [List.length_append] at hcut
            have hafter := ih _ (by omega) hp rfl
            simp only [size_cons, Piece.size, List.length_cons]
            omega

theorem size_fieldPieces (values : List (Bytes × Bytes)) :
    size (fieldPieces values) = (fields values).length := by
  induction values with
  | nil =>
      rfl
  | cons f rest ih =>
      simp only [fieldPieces, fields, size_cons, Piece.size, size_textPiece_append, ih,
        List.length_cons, List.length_append]
      omega

/-- What is read as the intended pieces has not lost a byte of the statement. -/
theorem length_fill_le_of_lex {s first : Bytes} {values : List (Bytes × Bytes)}
    (h : lex s = some (intended first values)) : (fill first values).length ≤ s.length := by
  have hsize := size_le_of_lex h
  rwa [intended, size_cons, size_fieldPieces, Piece.size, ← List.length_append] at hsize

theorem mem_fields {b : UInt8} (hb : b ≠ quote) {values : List (Bytes × Bytes)} :
    b ∈ fields values ↔ ∃ f ∈ values, b ∈ f.1 ∨ b ∈ f.2 := by
  induction values with
  | nil =>
      simp [fields]
  | cons f rest ih =>
      simp only [fields, List.mem_cons, List.mem_append, hb, false_or, ih, exists_eq_or_imp, or_assoc]

end SqlLiteral
end Myoj
