import Myoj.Oj.Databases

/-!
# SearchById — the numbers a search is made of

The lists of problems and of records are searched by the text of an id.  `mystoi` and `mystoll` add up
the digits of a text that is short enough, and are 0 for any other.

* `addDigit`, `digitLoop`, `loopOf` — the loop, with every value it computes in its type;
* `loopOf_eq` — none of them leaves it, whatever the text;
* `digitsOf_to_string` — a number whose digits are fewer than the bound reads back;
* `SelectProblemList_byId` — what is selected has the id, and whatever else was asked for.
-/

namespace Myoj
namespace Oj
namespace MoDB

open Effect

/-! ## The loop -/

/-- A value of a signed type of `w` bits; `none` when it is out of range. -/
def representable (w : Nat) (n : Int) : Option Int :=
  if -2 ^ (w - 1) ≤ n ∧ n < 2 ^ (w - 1) then some n else none

/-- `resnum = resnum * 10 + n - '0'`. -/
def addDigit (w : Nat) (resnum : Int) (n : UInt8) : Option Int := do
  let shifted ← representable w (resnum * 10)
  let added ← representable w (shifted + n.toNat)
  representable w (added - 48)

/-- `for (auto n : num) if (isdigit(n)) …` -/
def digitLoop (w : Nat) : Bytes → Int → Option Int
  | [], resnum => some resnum
  | n :: num, resnum =>
      if Numerals.isdigit n then do digitLoop w num (← addDigit w resnum n)
      else digitLoop w num resnum

/-- `mystoi` is this for 32 bits and the size 4, `mystoll` for 64 and 19. -/
def loopOf (w size : Nat) (num : Bytes) : Option Int :=
  if num.length ≥ size ∨ num.length = 0 then some 0 else digitLoop w num 0

theorem representable_of_lt {w n : Nat} (h : n < 2 ^ (w - 1)) : representable w n = some (n : Int) := by
  have hbound : (n : Int) < 2 ^ (w - 1) := by exact_mod_cast h
  exact if_pos ⟨by omega, hbound⟩

/-- A digit is added as long as there is room for it and for `'0'`. -/
theorem addDigit_eq {w resnum : Nat} {n : UInt8} (hdigit : Numerals.isdigit n = true)
    (h : (resnum + 1) * 10 + 48 ≤ 2 ^ (w - 1)) :
    addDigit w resnum n = some ((10 * resnum + (n.toNat - 48) : Nat) : Int) := by
  simp only [Numerals.isdigit, Bool.and_eq_true, decide_eq_true_eq, UInt8.le_iff_toNat_le] at hdigit
  obtain ⟨hlow, hhigh⟩ := hdigit
  have hlow : 48 ≤ n.toNat := hlow
  have hhigh : n.toNat ≤ 57 := hhigh
  have hshifted : representable w ((resnum : Int) * 10) = some ((resnum * 10 : Nat) : Int) := by
    exact_mod_cast representable_of_lt (w := w) (n := resnum * 10) (by omega)
  have hadded : representable w ((resnum * 10 : Nat) + (n.toNat : Int)) =
      some ((resnum * 10 + n.toNat : Nat) : Int) := by
    exact_mod_cast representable_of_lt (w := w) (n := resnum * 10 + n.toNat) (by omega)
  have hresult : ((resnum * 10 + n.toNat : Nat) : Int) - 48 = (10 * resnum + (n.toNat - 48) : Nat) := by
    omega
  simp only [addDigit, hshifted, hadded, Option.bind_eq_bind, Option.bind_some, hresult]
  exact representable_of_lt (by omega)

/-- What is still to come has room for its digits. -/
theorem digitLoop_eq {w : Nat} (num : Bytes) {resnum : Nat}
    (h : (resnum + 1) * 10 ^ num.length + 48 ≤ 2 ^ (w - 1)) :
    digitLoop w num resnum =
      some (((num.filter Numerals.isdigit).foldl (fun n b => 10 * n + (b.toNat - 48)) resnum : Nat) : Int) := by
  induction num generalizing resnum with
  | nil =>
      rfl
  | cons n num ih =>
      rw [List.length_cons, Nat.pow_succ'] at h
      have hpos : 0 < 10 ^ num.length := Nat.pow_pos (by decide)
      rw [digitLoop]
      by_cases hdigit : Numerals.isdigit n = true
      · have hroom : (resnum + 1) * 10 ≤ (resnum + 1) * (10 * 10 ^ num.length) :=
          Nat.mul_le_mul_left _ (Nat.le_mul_of_pos_right 10 hpos)
        have hnext : (10 * resnum + (n.toNat - 48) + 1) * 10 ^ num.length ≤
            (resnum + 1) * (10 * 10 ^ num.length) := by
          rw [← Nat.mul_assoc]
          refine Nat.mul_le_mul_right _ ?_
          simp only [Numerals.isdigit, Bool.and_eq_true, decide_eq_true_eq, UInt8.le_iff_toNat_le] at hdigit
          have hhigh : n.toNat ≤ 57 := hdigit.2
          omega
        rw [if_pos hdigit, addDigit_eq hdigit (by omega), List.filter_cons_of_pos hdigit, List.foldl_cons]
        exact ih (by omega)
      · have hless : (resnum + 1) * 10 ^ num.length ≤ (resnum + 1) * (10 * 10 ^ num.length) :=
          Nat.mul_le_mul_left _ (Nat.le_mul_of_pos_left _ (by decide))
        rw [if_neg hdigit, List.filter_cons_of_neg hdigit]
        exact ih (by omega)

/-- The bound on the length keeps every value of the loop in its type. -/
theorem loopOf_eq {w size : Nat} (h : 10 ^ (size - 1) + 48 ≤ 2 ^ (w - 1)) (num : Bytes) :
    loopOf w size num = some (digitsOf size num) := by
  unfold loopOf digitsOf
  split
  · rfl
  · next hshort =>
    have hlength : 10 ^ num.length ≤ 10 ^ (size - 1) :=
      Nat.pow_le_pow_right (by decide) (by omega)
    have hroom : (0 + 1) * 10 ^ num.length + 48 ≤ 2 ^ (w - 1) := by
      rw [Nat.zero_add, Nat.one_mul]
      omega
    exact digitLoop_eq num hroom

/-! ## Numbers -/

theorem digitsOf_to_string {size n : Nat} (hsize : 1 < size) (h : n < 10 ^ (size - 1)) :
    digitsOf size (Numerals.to_string n) = n := by
  have hlength : (Numerals.to_string n).length ≤ size - 1 :=
    Numerals.length_to_string_le (by omega) h
  have hpos : 0 < (Numerals.to_string n).length :=
    List.length_pos_of_ne_nil (Numerals.to_string_ne_nil n)
  have hdigits : (Numerals.to_string n).filter Numerals.isdigit = Numerals.to_string n :=
    List.filter_eq_self.2 (List.all_eq_true.1 (Numerals.isdigit_to_string n))
  rw [digitsOf, if_neg (by omega), hdigits, Numerals.value_to_string]

theorem digitsOf_of_le {size : Nat} {num : Bytes} (h : size ≤ num.length) : digitsOf size num = 0 :=
  if_pos (Or.inl h)

/-! ## The search -/

variable {S : Type} {base : Backend S} {regex : Bytes → Option (Bytes → Bool)}

theorem searched_eq {searchinfo : Json} {k : String} {text : Bytes} {match_ : Bytes → Except Exception Stage}
    {stage : Stage} (htext : searchinfo.stringAt k = .ok text) (hmatch : match_ text = .ok stage) :
    searched searchinfo k match_ = .ok (if text.isEmpty then [] else [stage]) := by
  simp only [searched, htext, hmatch, bind, Except.bind]
  split <;> rfl

/-- The match on the id stands before those on title and tags. -/
theorem filter_problemPage {queryjson searchinfo : Json} {text : Bytes} {page : Page}
    (hsearch : queryjson.index "SearchInfo" = .ok searchinfo) (hid : searchinfo.stringAt "Id" = .ok text)
    (hne : text ≠ []) (hpage : problemPage queryjson = .ok page) :
    page.filter = .matching "_id" (.ofInt (mystoi text)) :: page.filter.tail ∧
      (searchinfo.stringAt "Title" = .ok [] → (searchinfo.member "Tags").size = 0 →
        page.filter.tail = []) := by
  have hnonempty : text.isEmpty = false := List.isEmpty_eq_false_iff.2 hne
  simp only [problemPage, except_bind_eq_ok_iff] at hpage
  obtain ⟨info, hinfo, cut, -, ids, hids, title, htitle, json, hjson, tags, htags, heq⟩ := hpage
  cases hsearch.symm.trans hinfo
  rw [searched_eq hid rfl, hnonempty] at hids
  cases hids
  cases heq
  refine ⟨rfl, fun hnotitle hnotags => ?_⟩
  rw [searched_eq hnotitle rfl] at htitle
  cases htitle
  have hnone : json.size = 0 := by
    rw [Json.index_eq] at hjson
    split at hjson
    · cases hjson
      exact hnotags
    · cases hjson
  rw [stringsOf, hnone] at htags
  cases htags
  rfl

variable (regex) in
/-- What the list of problems answers when `rows` are all the problems there are. -/
def problemListJson (t : Databases S) (page : Page) (rows : List Row) : Json :=
  pageJson problemFields "数据库出错啦！"
    (fun resjson docs => (pushDocs "ArrayInfo" resjson docs).put "Reuslt" (.str "Success"))
    (runStages regex (t.rows .User) page.filter rows)
    (runStages regex (t.rows .User)
      (page.pipe [.sort [("_id", 1)]] [] problemFields [("ProblemId", "$_id")]) rows)

theorem SelectProblemList_apply {queryjson : Json} {page : Page} (hpage : problemPage queryjson = .ok page)
    (server : Server (Databases S)) :
    SelectProblemList (base.onDatabases regex) queryjson server =
      .ok (problemListJson regex server.outside page (server.outside.rows .Problem)) server := by
  rw [SelectProblemList, pagedList_apply, hpage]
  rfl

/-- A list whose filter begins with an id is the list of what else was asked for, over the document with
that id. -/
theorem problemListJson_byId (t : Databases S) {page : Page} {id : Int64} {narrower : List Stage}
    (hfilter : page.filter = byId id :: narrower) :
    problemListJson regex t page (t.rows .Problem) =
      problemListJson regex t { page with filter := narrower }
        ((t.find .Problem id).toList.map fun doc => (id, doc.members)) := by
  have hmatched := t.query_byId regex .Problem id narrower
  have hcut := t.query_byId regex .Problem id
    (({ page with filter := narrower } : Page).pipe [.sort [("_id", 1)]] [] problemFields
      [("ProblemId", "$_id")])
  unfold problemListJson
  rw [hfilter]
  have hpipe : page.pipe [.sort [("_id", 1)]] [] problemFields [("ProblemId", "$_id")] =
      byId id :: ({ page with filter := narrower } : Page).pipe [.sort [("_id", 1)]] [] problemFields
        [("ProblemId", "$_id")] := by
    rw [Page.pipe, hfilter]
    rfl
  rw [hpipe]
  exact congrArg₂ _ hmatched hcut

/-- A search for the digits of `n` is a search in the problem with the id `n`. -/
theorem SelectProblemList_byId {n : Nat} (hn : n < 10 ^ 3) {queryjson searchinfo : Json} {page : Page}
    (hsearch : queryjson.index "SearchInfo" = .ok searchinfo)
    (hid : searchinfo.stringAt "Id" = .ok (Numerals.to_string n))
    (hpage : problemPage queryjson = .ok page) (server : Server (Databases S)) :
    SelectProblemList (base.onDatabases regex) queryjson server =
      .ok (problemListJson regex server.outside { page with filter := page.filter.tail }
        ((server.outside.find .Problem (Int64.ofNat n)).toList.map fun doc =>
          (Int64.ofNat n, doc.members))) server := by
  have hfilter := (filter_problemPage hsearch hid (Numerals.to_string_ne_nil n) hpage).1
  have hnumber : mystoi (Numerals.to_string n) = (Int64.ofNat n).toInt := by
    rw [mystoi, digitsOf_to_string (by decide) hn, Int64.toInt_ofNat_of_lt (by omega)]
  rw [hnumber] at hfilter
  rw [SelectProblemList_apply hpage, problemListJson_byId server.outside hfilter]

/-- **Search by id.**  A number of at most three digits, and one of at most eighteen, reads back; a text
longer than 4 or 19 bytes is 0; no loop leaves its type, whatever the text.  A search for a number of
three digits is a search in the problem with that id, for the title and the tags if there are any. -/
theorem search_by_id :
    (∀ n : Nat, n < 10 ^ 3 → mystoi (Numerals.to_string n) = n) ∧
      (∀ n : Nat, n < 10 ^ 18 → mystoll (Numerals.to_string n) = n) ∧
      (∀ num : Bytes, (4 < num.length → mystoi num = 0) ∧ (19 < num.length → mystoll num = 0)) ∧
      (∀ num : Bytes, loopOf 32 4 num = some (mystoi num) ∧ loopOf 64 19 num = some (mystoll num)) ∧
      ∀ (n : Nat) (queryjson searchinfo : Json) (page : Page), n < 10 ^ 3 →
        queryjson.index "SearchInfo" = .ok searchinfo →
        searchinfo.stringAt "Id" = .ok (Numerals.to_string n) → problemPage queryjson = .ok page →
          (searchinfo.stringAt "Title" = .ok [] → (searchinfo.member "Tags").size = 0 →
            page.filter.tail = []) ∧
          ∀ server : Server (Databases S), SelectProblemList (base.onDatabases regex) queryjson server =
            .ok (problemListJson regex server.outside { page with filter := page.filter.tail }
              ((server.outside.find .Problem (Int64.ofNat n)).toList.map fun doc =>
                (Int64.ofNat n, doc.members))) server := by
  refine ⟨fun n hn => digitsOf_to_string (by decide) hn, fun n hn => digitsOf_to_string (by decide) hn,
    fun num => ⟨fun h => digitsOf_of_le h.le, fun h => digitsOf_of_le h.le⟩,
    fun num => ⟨loopOf_eq (by decide) num, loopOf_eq (by decide) num⟩, ?_⟩
  intro n queryjson searchinfo page hn hsearch hid hpage
  exact ⟨(filter_problemPage hsearch hid (Numerals.to_string_ne_nil n) hpage).2,
    SelectProblemList_byId hn hsearch hid hpage⟩

def problemSeven : Doc where
  members := [("Title", .str "A+B"), ("SubmitNum", .ofInt 3), ("ACNum", .ofInt 1), ("Tags", .array [.str "DP"])]
  utf8 := by decide

def problemEight : Doc where
  members := [("Title", .str "A-B"), ("SubmitNum", .ofInt 0), ("ACNum", .ofInt 0), ("Tags", .array [])]
  utf8 := by decide

theorem nodup_problems : ([((7 : Int64), problemSeven), (8, problemEight)].map Prod.fst).Nodup := by decide

/-- Two problems are stored. -/
def twoProblems : Server (Databases Unit) where
  UserAuthorityMap := fun _ => 0
  m_problemid := 8
  m_commentid := 0
  m_articleid := 0
  problemtags := .null
  outside :=
    { Databases.empty () with
      colls := fun coll =>
        if coll = .Problem then ⟨[(7, problemSeven), (8, problemEight)], nodup_problems⟩ else Rows.empty }

/-- The search for the id of one of them finds it. -/
theorem search_by_id_seven :
    let searchinfo : Json := .object [("Id", .str "7"), ("Title", .str ""), ("Tags", .array [])]
    let queryjson : Json := .object [("SearchInfo", searchinfo), ("Page", .str "1"), ("PageSize", .str "10")]
    ∃ page, problemPage queryjson = .ok page ∧
      SelectProblemList (Backend.idle.onDatabases fun _ => none) queryjson twoProblems =
        .ok (problemListJson (fun _ => none) twoProblems.outside { page with filter := [] }
          [(7, problemSeven.members)]) twoProblems := by
  intro searchinfo queryjson
  obtain ⟨page, hpage⟩ : ∃ page, problemPage queryjson = .ok page := ⟨_, rfl⟩
  obtain ⟨-, -, -, -, hsearch⟩ := @search_by_id Unit Backend.idle fun _ => none
  obtain ⟨hfilter, hselect⟩ := hsearch 7 queryjson searchinfo page (by decide) rfl rfl hpage
  have hseven : twoProblems.outside.find .Problem (Int64.ofNat 7) = some problemSeven := rfl
  refine ⟨page, hpage, ?_⟩
  rw [hselect, hfilter rfl rfl, hseven]
  rfl

/-- 10000 is an `int`, and is searched as 0. -/
theorem long_id_read_as_zero :
    (10000 : Int) < 2 ^ 31 ∧ mystoi (Numerals.to_string 10000) = 0 := by
  have hlength : 4 ≤ (Numerals.to_string 10000).length := by decide
  exact ⟨by decide, digitsOf_of_le hlength⟩

end MoDB
end Oj
end Myoj
