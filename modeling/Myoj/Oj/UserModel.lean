import Myoj.Lib.Numerals
import Myoj.Lib.SqlLiteral
import Myoj.Oj.Backend

/-!
# UserModel — the statements about users

`UserModel` writes the values it is given between quotes, as they are.  Here are the texts of its
statements, and what the server reads them as:

* `queryByUserName`, `queryNickName`, `verifyCredentials`, `insert` — the texts;
* `mysql_query` — the statement the server is given, a C string by then;
* `Clean` — the values that come through unchanged;
* `statements_iff` — each statement consists of its fixed text with one literal for each value
  exactly when the values are clean and, for `insert`, the text fits its buffer.
-/

namespace Myoj
namespace Oj
namespace UserModel

open SqlLiteral

/-! ## The texts -/

/-- `sprintf` into `sql`: the values are C strings. -/
def insertText (user : User) : Bytes :=
  bytes "insert into user(username, nickname, password, school, major, acnum, submitnum) values('" ++
    cstr user.username ++ bytes "', '" ++ cstr user.nickname ++ bytes "', '" ++ cstr user.password ++
    bytes "', '" ++ cstr user.school ++ bytes "', '" ++ cstr user.major ++ bytes "', '" ++
    Numerals.to_string 0 ++ bytes "', '" ++ Numerals.to_string 0 ++ bytes "')"

/-- `char sql[1024]`; `none` when the text and its NUL are written beyond it. -/
def insert (user : User) : Option Bytes :=
  if (insertText user).length < 1024 then some (insertText user) else none

def queryByUserName (username : Bytes) : Bytes :=
  bytes "SELECT * FROM user WHERE username = '" ++ username ++ bytes "'"

def queryNickName (nickname : Bytes) : Bytes :=
  bytes "SELECT nickname FROM user WHERE nickname = '" ++ nickname ++ bytes "'"

def verifyCredentials (username password : Bytes) : Bytes :=
  bytes "SELECT username FROM user WHERE username = '" ++ username ++ bytes "' AND password = '" ++
    password ++ bytes "'"

/-- `MysqlConn` hands every statement over as `sql.c_str()`. -/
def mysql_query (sql : Bytes) : Bytes := cstr sql

/-! ## What the server reads -/

/-- The pieces the server reads a statement as. -/
def read (sql : Bytes) : Option (List Piece) := lex (mysql_query sql)

/-- A value that comes through unchanged. -/
def Clean (value : Bytes) : Prop := Verbatim value ∧ 0 ∉ value

instance decidableClean : DecidablePred Clean := fun _ => inferInstanceAs (Decidable (_ ∧ _))

/-- A fixed text whose values can be told apart: what stands before the first value and after each. -/
def Fixed (first : Bytes) (afters : List Bytes) : Prop :=
  (first ≠ [] ∧ quote ∉ first ∧ 0 ∉ first) ∧ (∀ t ∈ afters, 0 ∉ t) ∧ Separated afters

instance decidableFixed (first : Bytes) (afters : List Bytes) : Decidable (Fixed first afters) :=
  inferInstanceAs (Decidable (_ ∧ _ ∧ _))

section read

variable {first : Bytes} {values : List (Bytes × Bytes)}

theorem Fixed.not_mem_fill (h : Fixed first (values.map Prod.snd)) :
    0 ∉ fill first values ↔ ∀ f ∈ values, 0 ∉ f.1 := by
  obtain ⟨⟨-, -, hfirst⟩, hafters, -⟩ := h
  rw [fill, List.mem_append, mem_fields (by decide)]
  constructor
  · intro h f hf hmem
    exact h (.inr ⟨f, hf, .inl hmem⟩)
  · rintro h (hmem | ⟨f, hf, hmem | hmem⟩)
    · exact hfirst hmem
    · exact h f hf hmem
    · exact hafters _ (List.mem_map_of_mem hf) hmem

/-- A statement is read as intended exactly when its values are clean. -/
theorem Fixed.read_fill_iff (h : Fixed first (values.map Prod.snd)) :
    read (fill first values) = some (intended first values) ↔ ∀ f ∈ values, Clean f.1 := by
  have hnul := h.not_mem_fill
  have hlex := lex_fill_iff h.1.1 h.1.2.1 h.2.2
  constructor
  · intro hread
    -- a NUL would have cut the statement short of its pieces
    have hwhole : 0 ∉ fill first values := fun hmem =>
      absurd (length_fill_le_of_lex hread) (Nat.not_le.2 (length_cstr_lt_iff.2 hmem))
    rw [read, mysql_query, cstr_of_not_mem hwhole] at hread
    exact fun f hf => ⟨hlex.1 hread f hf, hnul.1 hwhole f hf⟩
  · intro hclean
    rw [read, mysql_query, cstr_of_not_mem (hnul.2 fun f hf => (hclean f hf).2)]
    exact hlex.2 fun f hf => (hclean f hf).1

end read

/-! ## The pieces of each statement -/

/-- What stands before the first value of each statement. -/
def selectByUserName : Bytes := bytes "SELECT * FROM user WHERE username = "
def selectNickName : Bytes := bytes "SELECT nickname FROM user WHERE nickname = "
def selectCredentials : Bytes := bytes "SELECT username FROM user WHERE username = "
def insertInto : Bytes :=
  bytes "insert into user(username, nickname, password, school, major, acnum, submitnum) values("

/-- The pieces of `queryByUserName`'s statement, when the value is one. -/
def queryByUserNamePieces (username : Bytes) : List Piece :=
  [.text selectByUserName, .literal username]

def queryNickNamePieces (nickname : Bytes) : List Piece :=
  [.text selectNickName, .literal nickname]

def verifyCredentialsPieces (username password : Bytes) : List Piece :=
  [.text selectCredentials, .literal username, .text (bytes " AND password = "), .literal password]

/-- The values of `insert`, each with what stands after it; the last two are its own. -/
def insertValues (user : User) : List (Bytes × Bytes) :=
  [(user.username, bytes ", "), (user.nickname, bytes ", "), (user.password, bytes ", "),
    (user.school, bytes ", "), (user.major, bytes ", "), (bytes "0", bytes ", "),
    (bytes "0", bytes ")")]

def insertPieces (user : User) : List Piece := intended insertInto (insertValues user)

/-- The fixed texts of the four statements: what stands before the first value, and after each. -/
def statements : List (Bytes × List Bytes) :=
  [(selectByUserName, [[]]), (selectNickName, [[]]),
    (selectCredentials, [bytes " AND password = ", []]),
    (insertInto, [bytes ", ", bytes ", ", bytes ", ", bytes ", ", bytes ", ", bytes ", ", bytes ")"])]

theorem fixed_statements : ∀ t ∈ statements, Fixed t.1 t.2 := by
  decide +kernel

/-- The texts of the source end with the quote before a value. -/
theorem opening_texts :
    bytes "SELECT * FROM user WHERE username = '" = selectByUserName ++ [quote] ∧
      bytes "SELECT nickname FROM user WHERE nickname = '" = selectNickName ++ [quote] ∧
      bytes "SELECT username FROM user WHERE username = '" = selectCredentials ++ [quote] ∧
      bytes "' AND password = '" = quote :: (bytes " AND password = " ++ [quote]) ∧
      bytes
          "insert into user(username, nickname, password, school, major, acnum, submitnum) values('" =
        insertInto ++ [quote] ∧
      insertInto.length = 87 := by
  decide +kernel

theorem closing_text : bytes "'" = [quote] := by decide

theorem queryByUserName_eq_fill (username : Bytes) :
    queryByUserName username = fill selectByUserName [(username, [])] := by
  simp [queryByUserName, fill, fields, opening_texts.1, closing_text]

theorem queryNickName_eq_fill (nickname : Bytes) :
    queryNickName nickname = fill selectNickName [(nickname, [])] := by
  simp [queryNickName, fill, fields, opening_texts.2.1, closing_text]

theorem verifyCredentials_eq_fill (username password : Bytes) :
    verifyCredentials username password =
      fill selectCredentials [(username, bytes " AND password = "), (password, [])] := by
  obtain ⟨-, -, hselect, hand, -⟩ := opening_texts
  simp [verifyCredentials, fill, fields, hselect, hand, closing_text]

/-- `sprintf` fills in the values as C strings. -/
theorem insertText_eq_fill (user : User) :
    insertText user = fill insertInto ((insertValues user).map (Prod.map cstr id)) := by
  obtain ⟨-, -, -, -, htext, -⟩ := opening_texts
  have hnext : bytes "', '" = quote :: (bytes ", " ++ [quote]) := by decide
  have hclose : bytes "')" = quote :: bytes ")" := by decide
  have hzero : Numerals.to_string 0 = bytes "0" := rfl
  have hcstr : cstr (bytes "0") = bytes "0" := by decide
  simp [insertText, insertValues, fill, fields, htext, hnext, hclose, hzero, hcstr]

/-! ## When each statement is read as intended -/

theorem queryByUserName_read_iff (username : Bytes) :
    read (queryByUserName username) = some (queryByUserNamePieces username) ↔ Clean username := by
  have hfixed := fixed_statements (selectByUserName, [[]]) (by simp [statements])
  have hread := @Fixed.read_fill_iff _ [(username, [])] hfixed
  rw [List.forall_mem_singleton] at hread
  rw [queryByUserName_eq_fill]
  exact hread

theorem queryNickName_read_iff (nickname : Bytes) :
    read (queryNickName nickname) = some (queryNickNamePieces nickname) ↔ Clean nickname := by
  have hfixed := fixed_statements (selectNickName, [[]]) (by simp [statements])
  have hread := @Fixed.read_fill_iff _ [(nickname, [])] hfixed
  rw [List.forall_mem_singleton] at hread
  rw [queryNickName_eq_fill]
  exact hread

theorem verifyCredentials_read_iff (username password : Bytes) :
    read (verifyCredentials username password) = some (verifyCredentialsPieces username password) ↔
      Clean username ∧ Clean password := by
  have hfixed := fixed_statements (selectCredentials, [bytes " AND password = ", []])
    (by simp [statements])
  have hread := @Fixed.read_fill_iff _ [(username, bytes " AND password = "), (password, [])] hfixed
  rw [List.forall_mem_cons, List.forall_mem_singleton] at hread
  rw [verifyCredentials_eq_fill]
  exact hread

/-- The five texts of a user. -/
def texts (user : User) : List Bytes :=
  [user.username, user.nickname, user.password, user.school, user.major]

theorem insertValues_clean_iff (user : User) :
    (∀ f ∈ insertValues user, Clean f.1) ↔ ∀ v ∈ texts user, Clean v := by
  have hzero : Clean (bytes "0") := by decide
  simp [insertValues, texts, hzero]

theorem insertText_of_not_mem {user : User} (h : ∀ f ∈ insertValues user, 0 ∉ f.1) :
    insertText user = fill insertInto (insertValues user) := by
  have hvalues : (insertValues user).map (Prod.map cstr id) = (insertValues user).map id :=
    List.map_congr_left fun f hf => Prod.ext (cstr_of_not_mem (h f hf)) rfl
  rw [insertText_eq_fill, hvalues, List.map_id]

theorem length_insert (user : User) :
    (fill insertInto (insertValues user)).length = 116 + ((texts user).map List.length).sum := by
  obtain ⟨-, -, -, -, -, hfirst⟩ := opening_texts
  have hnext : (bytes ", ").length = 2 := by decide
  have hzero : (bytes "0").length = 1 := by decide
  have hlast : (bytes ")").length = 1 := by decide
  simp [fill, fields, insertValues, texts, hfirst, hnext, hzero, hlast]
  omega

/-- Only values without a NUL are as long in print as they are. -/
theorem not_mem_of_length_le {values : List (Bytes × Bytes)}
    (h : (fields values).length ≤ (fields (values.map (Prod.map cstr id))).length) :
    ∀ f ∈ values, 0 ∉ f.1 := by
  have hle : ∀ values : List (Bytes × Bytes),
      (fields (values.map (Prod.map cstr id))).length ≤ (fields values).length := by
    intro values
    induction values with
    | nil =>
        exact le_rfl
    | cons f rest ih =>
        have hcut : (cstr f.1).length ≤ f.1.length := length_cstr_le _
        simp only [List.map_cons, Prod.map, id, fields, List.length_cons, List.length_append]
        omega
  induction values with
  | nil =>
      simp
  | cons f rest ih =>
      have hcut : (cstr f.1).length ≤ f.1.length := length_cstr_le _
      have hrest := hle rest
      simp only [List.map_cons, Prod.map, id, fields, List.length_cons, List.length_append] at h
      rw [List.forall_mem_cons]
      exact ⟨fun hmem => absurd (length_cstr_lt_iff.2 hmem) (by omega), ih (by omega)⟩

theorem insert_read_iff (user : User) :
    (∃ sql, insert user = some sql ∧ read sql = some (insertPieces user)) ↔
      (∀ v ∈ texts user, Clean v) ∧ ((texts user).map List.length).sum < 908 := by
  have hfixed : Fixed insertInto ((insertValues user).map Prod.snd) :=
    fixed_statements (insertInto, (insertValues user).map Prod.snd) (by simp [statements, insertValues])
  have hread := hfixed.read_fill_iff
  rw [insertValues_clean_iff] at hread
  have hlength := length_insert user
  constructor
  · rintro ⟨sql, hsql, hpieces⟩
    obtain ⟨hfits, htext⟩ := Option.ite_none_right_eq_some.1 hsql
    obtain rfl : insertText user = sql := Option.some.inj htext
    -- what is read as the values written is no shorter than they are
    have hwhole : ∀ f ∈ insertValues user, 0 ∉ f.1 := by
      have hle := length_fill_le_of_lex hpieces
      have hcut : (mysql_query (insertText user)).length ≤ (insertText user).length :=
        length_cstr_le _
      rw [insertText_eq_fill] at hcut hle
      refine not_mem_of_length_le ?_
      simp only [fill, List.length_append] at hcut hle
      omega
    rw [insertText_of_not_mem hwhole] at hfits hpieces
    exact ⟨hread.1 hpieces, by omega⟩
  · rintro ⟨hclean, hsum⟩
    have hwhole : ∀ f ∈ insertValues user, 0 ∉ f.1 := fun f hf =>
      ((insertValues_clean_iff user).2 hclean f hf).2
    have htext := insertText_of_not_mem hwhole
    refine ⟨insertText user, if_pos ?_, ?_⟩
    · rw [htext]
      omega
    · rw [htext]
      exact hread.2 hclean

/-- **Data stays data.** Each statement is its fixed text with one literal for each value, each literal
denoting the value, exactly when the values are clean and the text of `insert` fits its buffer. -/
theorem statements_iff (user : User) :
    (read (queryByUserName user.username) = some (queryByUserNamePieces user.username) ↔
        Clean user.username) ∧
      (read (queryNickName user.nickname) = some (queryNickNamePieces user.nickname) ↔
        Clean user.nickname) ∧
      ((∃ sql, insert user = some sql ∧ read sql = some (insertPieces user)) ↔
        (∀ v ∈ texts user, Clean v) ∧ ((texts user).map List.length).sum < 908) :=
  ⟨queryByUserName_read_iff user.username, queryNickName_read_iff user.nickname, insert_read_iff user⟩

/-- A user name that is read as a condition of its own. -/
theorem queryByUserName_injected :
    read (queryByUserName (bytes "' OR '1'='1")) =
        some [.text selectByUserName, .literal [], .text (bytes " OR "), .literal (bytes "1"),
          .text (bytes "="), .literal (bytes "1")] ∧
      ¬ ∀ username,
        read (queryByUserName username) = some (queryByUserNamePieces username) := by
  -- the same text is a statement of three values
  obtain ⟨htext, hfixed⟩ : queryByUserName (bytes "' OR '1'='1") = fill selectByUserName
        [([], bytes " OR "), (bytes "1", bytes "="), (bytes "1", [])] ∧
      Fixed selectByUserName [bytes " OR ", bytes "=", []] := by
    decide +kernel
  have hread := (@Fixed.read_fill_iff _
    [([], bytes " OR "), (bytes "1", bytes "="), (bytes "1", [])] hfixed).2 (by decide)
  rw [← htext] at hread
  refine ⟨hread, fun h => ?_⟩
  have hpieces := congrArg (Option.map List.length) (hread.symm.trans (h _))
  cases hpieces

end UserModel
end Oj
end Myoj
