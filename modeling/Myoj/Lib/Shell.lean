import Myoj.Lib.Bytes

/-!
# Shell — command lines that contain names from outside

A command line is put together from fixed words and from paths `base ++ name ++ file`, where the name comes
from somebody else.  What does the shell make of it, and where do the paths lead?

* `tokens` — the token recognition of the shell; `none` when there is something to quote, expand or match,
  so that the words are not what they look like;
* `components`, `resolve` — a path as the directories it goes through;
* `Command` — the command that is meant, with its `text`;
* `Command.Meant` — the shell reads a text as that command, and its paths stay where they should;
* `meant_iff` — it does exactly when every name is a `SafeName`.
-/

namespace Myoj
namespace Shell

/-! ## Token recognition -/

/-- An operator character. -/
def operator (c : UInt8) : Bool := c ∈ bytes "|&;<>()\n"

def blank (c : UInt8) : Bool := c ∈ bytes " \t"

/-- What begins a quotation, an expansion or a pattern, or ends the command line. -/
def special (c : UInt8) : Bool := c ∈ 0 :: bytes "\\'\"$`*?["

/-- What stands for itself inside a word. -/
def plain (c : UInt8) : Bool := !operator c && !blank c && !special c

/-- What begins a comment or a tilde expansion at the beginning of a word. -/
def initial (c : UInt8) : Bool := c ∈ bytes "#~"

inductive Token where
  | word (w : Bytes)
  /-- The number of a descriptor right before a redirection. -/
  | io_number (w : Bytes)
  | operator (c : UInt8)
  deriving DecidableEq, Repr

/-- The end of a word, if one was begun. -/
def delimit (w : Bytes) : List Token := if w.isEmpty then [] else [.word w]

/-- The end of a word before an operator. -/
def delimitBefore (c : UInt8) (w : Bytes) : List Token :=
  if (c = 60 ∨ c = 62) ∧ w ≠ [] ∧ w.all (fun d => 48 ≤ d && d ≤ 57) then [.io_number w] else delimit w

/-- The tokens of `s`, behind the part `w` of a word. -/
def lex : Bytes → Bytes → Option (List Token)
  | [], w => some (delimit w)
  | c :: s, w =>
      if plain c then
        if w.isEmpty && initial c then none else lex s (w ++ [c])
      else if blank c then (lex s []).map (delimit w ++ ·)
      else if operator c then (lex s []).map (delimitBefore c w ++ .operator c :: ·)
      else none

def tokens (s : Bytes) : Option (List Token) := lex s []

/-- Words and their separators, without a separator at the end. -/
def unwords : List Bytes → Bytes
  | [] => []
  | [w] => w
  | w :: ws => w ++ 32 :: unwords ws

/-- The shell takes this word as it is. -/
def Word (w : Bytes) : Prop := w ≠ [] ∧ w.all plain = true ∧ w.head?.all (fun c => !initial c) = true

instance : DecidablePred Word := fun _ => inferInstanceAs (Decidable (_ ∧ _ ∧ _))

section lexer

variable {c : UInt8} {s w p : Bytes} {ts : List Token} {ws : List Bytes}

/-- Plain characters go on with a word that has begun. -/
theorem lex_append (hp : p.all plain = true) (hw : w ≠ []) : lex (p ++ s) w = lex s (w ++ p) := by
  induction p generalizing w with
  | nil =>
      rw [List.nil_append, List.append_nil]
  | cons c p ih =>
      rw [List.all_cons, Bool.and_eq_true] at hp
      -- inside a word nothing is initial
      have hbegun : w.isEmpty = false := List.isEmpty_eq_false_iff.2 hw
      have hnext : w ++ [c] ≠ [] := List.append_ne_nil_of_left_ne_nil hw _
      rw [List.cons_append, lex, if_pos hp.1, hbegun, Bool.false_and, if_neg Bool.false_ne_true, ih hp.2 hnext,
        List.append_assoc]
      rfl

/-- A word is read up to its end. -/
theorem lex_word (hp : Word p) : lex (p ++ s) [] = lex s p := by
  rcases hp with ⟨hne, hplain, hhead⟩
  cases p with
  | nil =>
      exact absurd rfl hne
  | cons c p =>
      rw [List.all_cons, Bool.and_eq_true] at hplain
      have hinitial : initial c = false := by simpa using hhead
      rw [List.cons_append, lex, if_pos hplain.1, hinitial, Bool.and_false, if_neg Bool.false_ne_true]
      exact lex_append hplain.2 (List.append_ne_nil_of_right_ne_nil _ (List.cons_ne_nil _ _))

theorem lex_blank : lex (32 :: s) w = (lex s []).map (delimit w ++ ·) := by
  rw [lex, if_neg (by decide), if_pos (by decide)]

theorem delimit_word (hp : Word p) : delimit p = [.word p] := by
  rw [delimit, List.isEmpty_eq_false_iff.2 hp.1, if_neg Bool.false_ne_true]

/-- Words in front of a rest are words. -/
theorem lex_unwords_blank (hws : ∀ w ∈ ws, Word w) (s : Bytes) :
    lex (unwords ws ++ 32 :: s) [] = (lex s []).map (ws.map Token.word ++ ·) := by
  induction ws with
  | nil =>
      rw [unwords, List.nil_append, lex_blank]
      rfl
  | cons w ws ih =>
      have hw : Word w := hws w (List.mem_cons_self ..)
      have hrest : ∀ v ∈ ws, Word v := fun v hv => hws v (List.mem_cons_of_mem _ hv)
      cases ws with
      | nil =>
          rw [unwords, lex_word hw, lex_blank, delimit_word hw]
          rfl
      | cons v ws =>
          rw [unwords, List.append_assoc, List.cons_append, lex_word hw, lex_blank, delimit_word hw, ih hrest,
            Option.map_map]
          · rfl
          · simp

/-- A line of words is read as these words. -/
theorem tokens_unwords (hws : ∀ w ∈ ws, Word w) : tokens (unwords ws) = some (ws.map Token.word) := by
  induction ws with
  | nil =>
      rfl
  | cons w ws ih =>
      have hw : Word w := hws w (List.mem_cons_self ..)
      have hrest : ∀ v ∈ ws, Word v := fun v hv => hws v (List.mem_cons_of_mem _ hv)
      cases ws with
      | nil =>
          have hend := lex_word (s := []) hw
          rw [List.append_nil] at hend
          rw [tokens, unwords, hend, lex, delimit_word hw]
          rfl
      | cons v ws =>
          have hnext := ih hrest
          rw [tokens] at hnext
          rw [tokens, unwords, lex_word hw, lex_blank, delimit_word hw, hnext]
          · rfl
          · simp

/-- The redirection of the error output. -/
theorem lex_redirected (hp : Word p) :
    lex (50 :: 62 :: p) [] = some [.io_number [50], .operator 62, .word p] := by
  have hend := lex_word (s := []) hp
  rw [List.append_nil] at hend
  -- the digit begins a word, which the operator makes the number of a descriptor
  have hfirst : lex (50 :: 62 :: p) [] = lex (62 :: p) [50] := by
    rw [lex, if_pos (by decide), if_neg (by decide)]
    rfl
  rw [hfirst, lex, if_neg (by decide), if_neg (by decide), if_pos (by decide), hend, lex, delimit_word hp]
  rfl

/-- The words the shell finds hold plain characters only. -/
theorem plain_of_lex (h : lex s w = some ts) (hw : w.all plain = true) :
    ∀ v, Token.word v ∈ ts → v.all plain = true := by
  have hdelimit : ∀ {u v : Bytes}, u.all plain = true → Token.word v ∈ delimit u → v.all plain = true := by
    intro u v hu hv
    unfold delimit at hv
    split at hv
    · cases hv
    · cases List.mem_singleton.1 hv
      exact hu
  have hbefore : ∀ {u v : Bytes} (c : UInt8), u.all plain = true → Token.word v ∈ delimitBefore c u →
      v.all plain = true := by
    intro u v c hu hv
    unfold delimitBefore at hv
    split at hv
    · cases List.mem_singleton.1 hv
    · exact hdelimit hu hv
  induction s generalizing w ts with
  | nil =>
      cases h
      intro v hv
      exact hdelimit hw hv
  | cons c s ih =>
      rw [lex] at h
      intro v hv
      split at h
      · next hplain =>
        split at h
        · cases h
        · exact ih h (by simp [hw, hplain]) v hv
      · split at h
        · rcases Option.map_eq_some_iff.1 h with ⟨rest, hrest, rfl⟩
          rcases List.mem_append.1 hv with hv | hv
          · exact hdelimit hw hv
          · exact ih hrest rfl v hv
        · split at h
          · rcases Option.map_eq_some_iff.1 h with ⟨rest, hrest, rfl⟩
            rcases List.mem_append.1 hv with hv | hv
            · exact hbefore c hw hv
            · rcases List.mem_cons.1 hv with hv | hv
              · cases hv
              · exact ih hrest rfl v hv
          · cases h

end lexer

/-! ## Paths -/

/-- The parts of a path between its slashes. -/
def components : Bytes → List Bytes
  | [] => [[]]
  | c :: s =>
      if c = 47 then [] :: components s
      else
        match components s with
        | [] => [[c]]
        | first :: rest => (c :: first) :: rest

/-- An empty component and `.` stay in the directory. -/
def Names (c : Bytes) : Prop := c ≠ [] ∧ c ≠ bytes "."

instance : DecidablePred Names := fun _ => inferInstanceAs (Decidable (_ ∧ _))

/-- `..` -/
def parent : Bytes := bytes ".."

/-- One component further; `..` above the directory the path starts in is kept. -/
def enter (dir : List Bytes) (c : Bytes) : List Bytes :=
  if ¬ Names c then dir
  else if c = parent then
    match dir.getLast? with
    | none => [parent]
    | some last => if last = parent then dir ++ [parent] else dir.dropLast
  else dir ++ [c]

/-- The directories a path goes through, from the one it starts in. -/
def resolve (path : Bytes) : List Bytes := (components path).foldl enter []

section paths

variable {a b c : Bytes} {cs dir : List Bytes}

theorem components_ne_nil (s : Bytes) : components s ≠ [] := by
  cases s with
  | nil =>
      exact List.cons_ne_nil _ _
  | cons c s =>
      rw [components]
      split
      · exact List.cons_ne_nil _ _
      · split <;> exact List.cons_ne_nil _ _

theorem components_slash (a b : Bytes) : components (a ++ 47 :: b) = components a ++ components b := by
  induction a with
  | nil =>
      exact if_pos rfl
  | cons c a ih =>
      rw [List.cons_append, components, ih]
      by_cases hc : c = 47
      · rw [if_pos hc, components, if_pos hc]
        rfl
      · rw [if_neg hc, components, if_neg hc]
        cases hfirst : components a with
        | nil =>
            exact absurd hfirst (components_ne_nil a)
        | cons first rest =>
            rfl

theorem components_eq_singleton (h : 47 ∉ a) : components a = [a] := by
  induction a with
  | nil =>
      rfl
  | cons c a ih =>
      rw [List.mem_cons, not_or] at h
      rw [components, if_neg (Ne.symm h.1), ih h.2]

theorem resolve_slash (a b : Bytes) : resolve (a ++ 47 :: b) = (components b).foldl enter (resolve a) := by
  rw [resolve, components_slash, List.foldl_append]
  rfl

/-- Without `..` a path only goes further. -/
theorem foldl_enter (h : parent ∉ cs) : cs.foldl enter dir = dir ++ cs.filter Names := by
  induction cs generalizing dir with
  | nil =>
      simp
  | cons c cs ih =>
      rw [List.mem_cons, not_or] at h
      rw [List.foldl_cons, ih h.2, enter]
      by_cases hc : Names c
      · rw [if_neg (not_not.2 hc), if_neg (Ne.symm h.1), List.filter_cons_of_pos (by simpa using hc),
          List.append_assoc]
        rfl
      · rw [if_pos hc, List.filter_cons_of_neg (by simpa using hc)]

end paths

/-! ## Commands -/

/-- A path with a name from outside. -/
structure Path where
  base : Bytes
  name : Bytes
  file : Bytes

namespace Path

/-- The directory of the name. -/
def directory (p : Path) : Bytes := p.base ++ p.name

def text (p : Path) : Bytes := p.directory ++ p.file

/-- The name brings no `..` and leads to a directory strictly inside the base, and the path to that directory
or into it. -/
structure Confined (p : Path) : Prop where
  no_parent : parent ∉ components p.name
  inside : ∃ names, names ≠ [] ∧ resolve p.directory = resolve p.base ++ names
  file : resolve p.directory <+: resolve p.text

/-- The base is a directory. -/
def BaseShaped (base : Bytes) : Prop := Word base ∧ base.getLast? = some 47

/-- The file is in a directory, or nothing. -/
def FileShaped (file : Bytes) : Prop :=
  file.all plain = true ∧ (file.head?.all fun c => c == 47) = true ∧ parent ∉ components file

instance : DecidablePred BaseShaped := fun _ => inferInstanceAs (Decidable (_ ∧ _))

instance : DecidablePred FileShaped := fun _ => inferInstanceAs (Decidable (_ ∧ _ ∧ _))

def Shaped (p : Path) : Prop := BaseShaped p.base ∧ FileShaped p.file

instance : DecidablePred Shaped := fun _ => inferInstanceAs (Decidable (_ ∧ _))

end Path

/-- A name that does what it should in every command. -/
structure SafeName (name : Bytes) : Prop where
  plain : name.all plain = true
  no_parent : parent ∉ components name
  names : ∃ c ∈ components name, Names c

inductive Arg where
  | literal (w : Bytes)
  | path (p : Path)

def Arg.text : Arg → Bytes
  | .literal w => w
  | .path p => p.text

def Arg.Shaped : Arg → Prop
  | .literal w => Word w
  | .path p => p.Shaped

instance : DecidablePred Arg.Shaped
  | .literal w => inferInstanceAs (Decidable (Word w))
  | .path p => inferInstanceAs (Decidable p.Shaped)

def Arg.paths : Arg → List Path
  | .literal _ => []
  | .path p => [p]

/-- A command that is meant: its words, and where its error output goes. -/
structure Command where
  argv : List Arg
  stderr : Option Path

namespace Command

def words (cmd : Command) : List Bytes := cmd.argv.map Arg.text

def paths (cmd : Command) : List Path := cmd.argv.flatMap Arg.paths ++ cmd.stderr.toList

def text (cmd : Command) : Bytes :=
  match cmd.stderr with
  | none => unwords cmd.words
  | some p => unwords cmd.words ++ 32 :: 50 :: 62 :: p.text

def tokens (cmd : Command) : List Token :=
  cmd.words.map Token.word ++
    match cmd.stderr with
    | none => []
    | some p => [.io_number [50], .operator 62, .word p.text]

/-- The command line that `system(text.data())` runs is this command, and its paths stay where they should. -/
def Meant (cmd : Command) (text : Bytes) : Prop :=
  Shell.tokens (cstr text) = some cmd.tokens ∧ ∀ p ∈ cmd.paths, p.Confined

def Shaped (cmd : Command) : Prop := (∀ a ∈ cmd.argv, a.Shaped) ∧ ∀ p ∈ cmd.stderr, p.Shaped

end Command

section meant

variable {p : Path} {cmd : Command}

/-- The base without its slash. -/
theorem Path.Shaped.base_eq (h : p.Shaped) : ∃ b, p.base = b ++ [47] := by
  rcases List.getLast?_eq_some_iff.1 h.1.2 with ⟨b, hb⟩
  exact ⟨b, hb⟩

theorem Path.Shaped.resolve_directory (h : p.Shaped) :
    resolve p.directory = (components p.name).foldl enter (resolve p.base) := by
  rcases h.base_eq with ⟨b, hb⟩
  have hbase : resolve p.base = resolve b := by
    rw [hb, resolve_slash]
    rfl
  rw [Path.directory, hbase, hb, List.append_assoc]
  exact resolve_slash b p.name

/-- Where the path ends. -/
theorem Path.Shaped.resolve_text (h : p.Shaped) :
    p.file = [] ∧ resolve p.text = resolve p.directory ∨
      ∃ f, p.file = 47 :: f ∧ resolve p.text = (components f).foldl enter (resolve p.directory) := by
  rcases h with ⟨-, -, hhead, -⟩
  cases hfile : p.file with
  | nil =>
      left
      rw [Path.text, hfile, List.append_nil]
      exact ⟨rfl, rfl⟩
  | cons c f =>
      right
      rw [hfile] at hhead
      obtain rfl : c = 47 := by simpa using hhead
      exact ⟨f, rfl, by rw [Path.text, hfile, resolve_slash]⟩

/-- A path stays in its directory when the name leads to one and does not go up. -/
theorem Path.Shaped.confined_iff (h : p.Shaped) :
    p.Confined ↔ parent ∉ components p.name ∧ ∃ c ∈ components p.name, Names c := by
  have hdirectory := h.resolve_directory
  constructor
  · rintro ⟨hparent, ⟨names, hne, hinside⟩, -⟩
    refine ⟨hparent, ?_⟩
    rw [hdirectory, foldl_enter hparent] at hinside
    -- with no `..` the name adds just its own components
    have hnames : (components p.name).filter Names = names := List.append_cancel_left hinside
    rw [← hnames] at hne
    rcases List.exists_mem_of_ne_nil _ hne with ⟨c, hc⟩
    rcases List.mem_filter.1 hc with ⟨hmem, hname⟩
    exact ⟨c, hmem, by simpa using hname⟩
  · rintro ⟨hparent, c, hc, hnames⟩
    refine ⟨hparent, ⟨(components p.name).filter Names, ?_, ?_⟩, ?_⟩
    · have hmem : c ∈ (components p.name).filter Names := List.mem_filter.2 ⟨hc, by simpa using hnames⟩
      exact List.ne_nil_of_mem hmem
    · rw [hdirectory, foldl_enter hparent]
    · rcases h.resolve_text with ⟨-, htext⟩ | ⟨f, hf, htext⟩
      · exact ⟨[], by rw [List.append_nil, htext]⟩
      · have hfile := h.2.2.2
        have hup : parent ∉ components f := by
          rw [hf] at hfile
          have hslash : components (47 :: f) = [] :: components f := if_pos rfl
          rw [hslash, List.mem_cons, not_or] at hfile
          exact hfile.2
        rw [htext, foldl_enter hup]
        exact List.prefix_append _ _

/-- With a plain name the path is one word. -/
theorem Path.Shaped.word (h : p.Shaped) (hname : p.name.all plain = true) : Word p.text := by
  rcases h with ⟨⟨⟨hne, hplain, hhead⟩, -⟩, hfile, -⟩
  refine ⟨?_, ?_, ?_⟩
  · exact List.append_ne_nil_of_left_ne_nil (List.append_ne_nil_of_left_ne_nil hne _) _
  · simp [Path.text, Path.directory, hplain, hname, hfile]
  · cases hbase : p.base with
    | nil =>
        exact absurd hbase hne
    | cons c b =>
        rw [hbase] at hhead
        rw [Path.text, Path.directory, hbase]
        exact hhead

theorem zero_not_mem_of_plain {w : Bytes} (h : w.all plain = true) : (0 : UInt8) ∉ w := by
  intro hmem
  have hplain : plain 0 = true := List.all_eq_true.1 h 0 hmem
  revert hplain
  decide

theorem zero_not_mem_unwords {ws : List Bytes} (h : ∀ w ∈ ws, Word w) : (0 : UInt8) ∉ unwords ws := by
  induction ws with
  | nil =>
      exact List.not_mem_nil
  | cons w ws ih =>
      have hfirst : (0 : UInt8) ∉ w := zero_not_mem_of_plain (h w (List.mem_cons_self ..)).2.1
      have hrest := ih fun v hv => h v (List.mem_cons_of_mem _ hv)
      cases ws with
      | nil =>
          exact hfirst
      | cons v ws =>
          rw [unwords]
          · simp [hfirst, hrest]
          · simp

/-- When all its words are words, the command is read as it is meant. -/
theorem tokens_text (hwords : ∀ w ∈ cmd.words, Word w) (hstderr : ∀ p ∈ cmd.stderr, Word p.text) :
    tokens (cstr cmd.text) = some cmd.tokens := by
  have hzero := zero_not_mem_unwords hwords
  unfold Command.text Command.tokens
  cases hout : cmd.stderr with
  | none =>
      rw [cstr, takeWhile_ne_of_not_mem hzero, tokens_unwords hwords, List.append_nil]
  | some p =>
      have hp : Word p.text := hstderr p (by rw [hout]; rfl)
      have hend : (0 : UInt8) ∉ p.text := zero_not_mem_of_plain hp.2.1
      have hall : (0 : UInt8) ∉ unwords cmd.words ++ 32 :: 50 :: 62 :: p.text := by
        simp [hzero, hend]
      rw [cstr, takeWhile_ne_of_not_mem hall, tokens, lex_unwords_blank hwords, lex_redirected hp]
      rfl

/-- The word of each path is among the tokens. -/
theorem word_mem_tokens (hp : p ∈ cmd.paths) : Token.word p.text ∈ cmd.tokens := by
  rw [Command.paths, List.mem_append, List.mem_flatMap] at hp
  rw [Command.tokens, List.mem_append]
  rcases hp with ⟨a, ha, hp⟩ | hp
  · left
    cases a with
    | literal w =>
        cases hp
    | path q =>
        cases List.mem_singleton.1 hp
        exact List.mem_map_of_mem (List.mem_map_of_mem ha)
  · right
    cases hout : cmd.stderr with
    | none =>
        rw [hout] at hp
        cases hp
    | some q =>
        rw [hout] at hp
        cases List.mem_singleton.1 hp
        simp

/-- **The shell runs the command that is meant exactly when every name is safe.** -/
theorem meant_iff (h : cmd.Shaped) :
    cmd.Meant cmd.text ↔ ∀ p ∈ cmd.paths, SafeName p.name := by
  have hshaped : ∀ p ∈ cmd.paths, p.Shaped := by
    intro p hp
    rw [Command.paths, List.mem_append, List.mem_flatMap] at hp
    rcases hp with ⟨a, ha, hp⟩ | hp
    · cases a with
      | literal w =>
          cases hp
      | path q =>
          cases List.mem_singleton.1 hp
          exact h.1 _ ha
    · exact h.2 p (Option.mem_toList.1 hp)
  constructor
  · rintro ⟨htokens, hconfined⟩ p hp
    -- the path is among the words the shell found, so all of it is plain
    have hplain : p.text.all plain = true := plain_of_lex htokens rfl _ (word_mem_tokens hp)
    have hname : p.name.all plain = true := by
      simp only [Path.text, Path.directory, List.all_append, Bool.and_eq_true] at hplain
      exact hplain.1.2
    rcases (hshaped p hp).confined_iff.1 (hconfined p hp) with ⟨hparent, hnames⟩
    exact ⟨hname, hparent, hnames⟩
  · intro hsafe
    constructor
    · refine tokens_text ?_ ?_
      · intro w hw
        rcases List.mem_map.1 hw with ⟨a, ha, rfl⟩
        cases a with
        | literal w =>
            exact h.1 _ ha
        | path q =>
            have hq : q ∈ cmd.paths :=
              List.mem_append_left _ (List.mem_flatMap.2 ⟨_, ha, List.mem_singleton.2 rfl⟩)
            exact (hshaped q hq).word (hsafe q hq).plain
      · intro p hp
        have hq : p ∈ cmd.paths := List.mem_append_right _ (Option.mem_toList.2 hp)
        exact (hshaped p hq).word (hsafe p hq).plain
    · intro p hp
      exact (hshaped p hp).confined_iff.2 ⟨(hsafe p hp).no_parent, (hsafe p hp).names⟩

end meant

example : SafeName (bytes "1024") := ⟨by decide, by decide, bytes "1024", by decide, by decide⟩

example : ¬ SafeName (bytes "1/../..") := fun h => h.no_parent (by decide)

end Shell
end Myoj
