import Myoj.Lib.Pages
import Myoj.Oj.Databases

/-!
# Pages — the pages of the lists

Every list operation skips `(page - 1) * pagesize` of its sorted documents and takes the next `pagesize`;
the number of documents to skip is an `int`, and so are the ranks that `SelectUserRank` attaches.

* `skipOf`, `cut` — the number, and what `$skip` and `$limit` leave;
* `forall_cut_iff` — the page is right exactly when the number is in range;
* `forall_ranked_iff` — the ranks are right when the last of them is;
* `collects_iff` — the pages put together;
* `Listing`, `Asked` — the list operations, and what a request asks of them;
* `Listing.run_apply`, `Listing.asked_page` — what they answer, and that all of them cut at the same place.
-/

namespace Myoj
namespace Oj
namespace MoDB

open Effect

/-! ## One page -/

/-- `int skip = (page - 1) * pagesize`. -/
def skipOf (page pagesize : Int32) : Int32 := (page - 1) * pagesize

/-- `$skip` and `$limit`. -/
def cut (skip limit : Int32) (sorted : List Row) : Except Exception (List Row) :=
  if skip < 0 ∨ limit ≤ 0 then .error .database
  else .ok (Pages.window skip.toInt.toNat limit.toInt.toNat sorted)

section numbers

variable {page pagesize : Int32} {i size : Nat}

theorem toInt_skipOf (hpage : page.toInt = i + 1) (hsize : pagesize.toInt = size) :
    (skipOf page pagesize).toInt = ((i * size : Nat) : Int).bmod (2 ^ 32) := by
  have hone : page.toInt - Int32.toInt 1 = i := by
    rw [hpage, Int32.toInt_one]
    omega
  rw [skipOf, Int32.toInt_mul, Int32.toInt_sub, hone, hsize, Int.bmod_mul_bmod]
  norm_cast

/-- The product is what it should be when it fits. -/
theorem toInt_skipOf_eq_iff (hpage : page.toInt = i + 1) (hsize : pagesize.toInt = size) :
    (skipOf page pagesize).toInt = (i * size : Nat) ↔ i * size < 2 ^ 31 := by
  constructor
  · intro heq
    have hlt := (skipOf page pagesize).toInt_lt
    omega
  · intro hlt
    rw [toInt_skipOf hpage hsize]
    exact Int.bmod_eq_of_le (by omega) (by omega)

theorem cut_eq_page (hpage : page.toInt = i + 1) (hsize : pagesize.toInt = size) (hpos : 0 < size)
    (h : i * size < 2 ^ 31) (sorted : List Row) :
    cut (skipOf page pagesize) pagesize sorted = .ok (Pages.page size i sorted) := by
  have hskip := (toInt_skipOf_eq_iff hpage hsize).2 h
  have hfine : ¬ (skipOf page pagesize < 0 ∨ pagesize ≤ 0) := by
    rw [Int32.lt_iff_toInt_lt, Int32.le_iff_toInt_le, hskip, hsize, Int32.toInt_zero]
    omega
  rw [cut, if_neg hfine, hskip, hsize, Int.toNat_natCast, Int.toNat_natCast, Pages.page]

/-- The page of every list is right exactly when the product fits. -/
theorem forall_cut_iff (hpage : page.toInt = i + 1) (hsize : pagesize.toInt = size) (hpos : 0 < size) :
    (∀ sorted, cut (skipOf page pagesize) pagesize sorted = .ok (Pages.page size i sorted)) ↔
      i * size < 2 ^ 31 := by
  constructor
  · intro h
    by_cases hfine : skipOf page pagesize < 0 ∨ pagesize ≤ 0
    · have herror := h []
      rw [cut, if_pos hfine] at herror
      cases herror
    · -- the window stands at the product, and at what the product has become
      have hwindow : ∀ sorted : List Row,
          Pages.window (skipOf page pagesize).toInt.toNat size sorted =
            Pages.window (i * size) size sorted := by
        intro sorted
        have hcut := h sorted
        rw [cut, if_neg hfine, hsize, Int.toNat_natCast] at hcut
        exact Except.ok.inj hcut
      have hskip := (Pages.forall_window_eq_iff hpos).1 hwindow
      have hlt := (skipOf page pagesize).toInt_lt
      omega
  · exact fun h => cut_eq_page hpage hsize hpos h

end numbers

/-! ## Ranks -/

theorem ranked_eq (currank : Int32) (docs : List Json) :
    ranked currank docs =
      docs.mapIdx fun n doc => doc.put "Rank" (.ofInt (currank + Int32.ofNat n).toInt) := by
  induction docs generalizing currank with
  | nil =>
      rfl
  | cons doc docs ih =>
      rw [ranked, ih, List.mapIdx_cons]
      have hzero : currank + Int32.ofNat 0 = currank := Int32.add_zero currank
      have hnext : ∀ n : Nat, currank + 1 + Int32.ofNat n = currank + Int32.ofNat (n + 1) := by
        intro n
        rw [Int32.ofNat_add, Int32.add_comm (Int32.ofNat n), Int32.add_assoc]
        rfl
      simp only [hzero, hnext]

section ranks

variable {page pagesize : Int32} {i size : Nat}

/-- The rank of a document is its position when the position fits. -/
theorem toInt_rank (hpage : page.toInt = i + 1) (hsize : pagesize.toInt = size) {n : Nat}
    (h : i * size + n + 1 < 2 ^ 31) :
    (skipOf page pagesize + 1 + Int32.ofNat n).toInt = (i * size + n + 1 : Nat) := by
  have hskip := (toInt_skipOf_eq_iff hpage hsize).2 (by omega)
  have hn : (Int32.ofNat n).toInt = n := Int32.toInt_ofNat_of_lt (by omega)
  rw [Int32.toInt_add, Int32.toInt_add, hskip, hn, Int32.toInt_one, Int.bmod_add_bmod]
  exact (Int.bmod_eq_of_le (by omega) (by omega)).trans (by omega)

/-- The ranks on every page of this number are the positions exactly when its last position fits. -/
theorem forall_ranked_iff (hpage : page.toInt = i + 1) (hsize : pagesize.toInt = size) (hpos : 0 < size) :
    (∀ docs : List Json, docs.length ≤ size → ranked (skipOf page pagesize + 1) docs =
        docs.mapIdx fun n doc => doc.put "Rank" (.ofInt (i * size + n + 1 : Nat))) ↔
      (i + 1) * size < 2 ^ 31 := by
  constructor
  · intro h
    have hfull := h (List.replicate size .null) (Nat.le_of_eq List.length_replicate)
    rw [ranked_eq, List.mapIdx_eq_mapIdx_iff] at hfull
    have hlast := hfull (size - 1) (by rw [List.length_replicate]; omega)
    simp only [List.getElem_replicate, Json.put, Json.ofInt, Json.object.injEq,
      List.cons.injEq, Prod.mk.injEq, Json.number_integer.injEq, true_and, and_true] at hlast
    have hlt := (skipOf page pagesize + 1 + Int32.ofNat (size - 1)).toInt_lt
    have hmul : (i + 1) * size = i * size + size := Nat.succ_mul i size
    omega
  · intro h docs hdocs
    rw [ranked_eq, List.mapIdx_eq_mapIdx_iff]
    intro n hn
    have hmul : (i + 1) * size = i * size + size := Nat.succ_mul i size
    rw [toInt_rank hpage hsize (by omega)]

end ranks

/-! ## All pages -/

/-- The pages 1 to `k`, asked for one after the other. -/
def collectPages (pagesize : Int32) (sorted : List Row) (k : Nat) : Except Exception (List Row) :=
  Pages.collect (fun i => cut (skipOf (Int32.ofNat (i + 1)) pagesize) pagesize sorted) k

section pages

variable {pagesize : Int32} {size k : Nat}

theorem collectPages_eq (hsize : pagesize.toInt = size) (hpos : 0 < size) (hk : k < 2 ^ 31)
    (h : ∀ i < k, i * size < 2 ^ 31) (sorted : List Row) :
    collectPages pagesize sorted k = .ok (sorted.take (k * size)) := by
  refine Pages.collect_page fun i hi => ?_
  have hpage : (Int32.ofNat (i + 1)).toInt = i + 1 := Int32.toInt_ofNat_of_lt (by omega)
  exact cut_eq_page hpage hsize hpos (h i hi) sorted

/-- The pages that fit, when not all do: there are enough of them for 2 ^ 31 documents. -/
theorem exists_last_fitting (hpos : 0 < size) (h : 2 ^ 31 ≤ k * size) :
    ∃ j ≤ k, (∀ i < j, i * size < 2 ^ 31) ∧ 2 ^ 31 ≤ j * size := by
  -- the first position that does not fit
  let j := (2 ^ 31 - 1) / size + 1
  have hfit : ∀ i, i < j ↔ i * size < 2 ^ 31 := by
    intro i
    rw [Nat.lt_succ_iff, Nat.le_div_iff_mul_le hpos]
    omega
  have hjk : j ≤ k := Nat.le_of_not_lt fun hkj => Nat.not_le.2 ((hfit k).1 hkj) h
  exact ⟨j, hjk, fun i hi => (hfit i).1 hi, Nat.le_of_not_lt fun hj => Nat.lt_irrefl j ((hfit j).2 hj)⟩

/-- A page behind the last that fits fails, or repeats what the pages before have shown. -/
theorem exists_collectPages_ne (hsize : pagesize.toInt = size) (hpos : 0 < size) (hk : k + 1 < 2 ^ 31)
    (h : 2 ^ 31 ≤ k * size) :
    ∃ sorted : List Row, sorted.length ≤ (k + 1) * size ∧
      collectPages pagesize sorted (k + 1) ≠ .ok sorted := by
  have hmul : (k + 1) * size = k * size + size := Nat.succ_mul k size
  by_cases hfine : skipOf (Int32.ofNat (k + 1)) pagesize < 0 ∨ pagesize ≤ 0
  · refine ⟨[], Nat.zero_le _, fun hall => ?_⟩
    obtain ⟨-, piece, -, hpiece, -⟩ := Pages.collect_succ_eq_ok hall
    rw [cut, if_pos hfine] at hpiece
    cases hpiece
  · -- the pages that fit cover every list up to 2 ^ 31
    have hskip := (skipOf (Int32.ofNat (k + 1)) pagesize).toInt_lt
    generalize hw : (skipOf (Int32.ofNat (k + 1)) pagesize).toInt.toNat = w at *
    have hlength : (List.replicate (w + 1) ((0, []) : Row)).length = w + 1 := List.length_replicate
    refine ⟨List.replicate (w + 1) (0, []), by omega, fun hall => ?_⟩
    obtain ⟨before, piece, hbefore, hpiece, happend⟩ := Pages.collect_succ_eq_ok hall
    rw [cut, if_neg hfine, hsize, hw, Int.toNat_natCast] at hpiece
    have hnonempty : piece ≠ [] := by
      cases hpiece
      exact Pages.window_ne_nil hpos (by omega)
    obtain ⟨j, hjk, hfit, hcovers⟩ := exists_last_fitting hpos h
    have hcover := collectPages_eq hsize hpos (by omega) hfit (List.replicate (w + 1) (0, []))
    rw [List.take_of_length_le (by omega)] at hcover
    have hshown := Pages.length_collect_le hjk hcover hbefore
    have hpos' := List.length_pos_of_ne_nil hnonempty
    have hsum := congrArg List.length happend
    rw [List.length_append] at hsum
    omega

/-- The pages are the list exactly when the last of them fits. -/
theorem collects_iff (hsize : pagesize.toInt = size) (hpos : 0 < size) (hk : k + 1 < 2 ^ 31) :
    (∀ sorted : List Row, sorted.length ≤ (k + 1) * size →
        collectPages pagesize sorted (k + 1) = .ok sorted) ↔ k * size < 2 ^ 31 := by
  constructor
  · intro h
    by_contra hlarge
    obtain ⟨sorted, hlength, hne⟩ := exists_collectPages_ne hsize hpos hk (Nat.le_of_not_lt hlarge)
    exact hne (h sorted hlength)
  · intro h sorted hlength
    have hfits : ∀ i < k + 1, i * size < 2 ^ 31 := fun i hi =>
      Nat.lt_of_le_of_lt (Nat.mul_le_mul_right size (Nat.le_of_lt_succ hi)) h
    rw [collectPages_eq hsize hpos hk hfits, List.take_of_length_le hlength]

end pages

/-! ## The list operations -/

/-- The functions that skip and limit. -/
inductive Listing where
  | SelectUserRank
  | SelectUserSetInfo
  | SelectProblemList
  | SelectProblemListByAdmin
  | SelectStatusRecordList
  | SelectDiscussList
  | SelectDiscussListByAdmin
  | SelectSolutionList
  | SelectSolutionListByAdmin
  | SelectAnnouncementList
  | SelectCommentListByAdmin
  | getFatherComment

/-- What a request asks for: the matches, how they are sorted, and what is made of a page of them. -/
structure Asked where
  coll : Collection
  page : Page
  order : List Stage
  rest : List Stage

namespace Asked

variable {S : Type} (regex : Bytes → Option (Bytes → Bool)) (t : Databases S) (asked : Asked)

/-- What is counted. -/
def matched : Except Exception (List Row) := t.query regex asked.coll asked.page.filter

def sorted : Except Exception (List Row) := t.query regex asked.coll (asked.page.filter ++ asked.order)

/-- What is made of a page. -/
def shown (page : List Row) : Except Exception (List Row) :=
  runStages regex (t.rows .User) asked.rest page

/-- What is fetched. -/
def fetched : Except Exception (List Row) :=
  (asked.sorted regex t >>= cut asked.page.skip asked.page.limit) >>= asked.shown regex t

end Asked

/-- What `countedList` answers for what is counted, and what is fetched. -/
def countJson (name : String) (fields : List String) (finish : Json → Json)
    (matched fetched : Except Exception (List Row)) : Json :=
  match fetched >>= Databases.docsOf with
  | .error _ => caught .null "数据库异常！"
  | .ok docs =>
      let resjson := finish (pushDocs name .null (docs.map fun (id, doc) => doc.toJson fields id))
      match matched with
      | .error _ => caught resjson "数据库异常！"
      | .ok rows => resjson.put "TotalNum" (.string (Numerals.to_string rows.length))

namespace Listing

def run {S : Type} (b : Backend S) : Listing → Json → Action S Json
  | SelectUserRank => MoDB.SelectUserRank b
  | SelectUserSetInfo => MoDB.SelectUserSetInfo b
  | SelectProblemList => MoDB.SelectProblemList b
  | SelectProblemListByAdmin => MoDB.SelectProblemListByAdmin b
  | SelectStatusRecordList => MoDB.SelectStatusRecordList b
  | SelectDiscussList => MoDB.SelectDiscussList b
  | SelectDiscussListByAdmin => MoDB.SelectDiscussListByAdmin b
  | SelectSolutionList => MoDB.SelectSolutionList b
  | SelectSolutionListByAdmin => MoDB.SelectSolutionListByAdmin b
  | SelectAnnouncementList => MoDB.SelectAnnouncementList b
  | SelectCommentListByAdmin => MoDB.SelectCommentListByAdmin b
  | getFatherComment => MoDB.getFatherComment b

def asked (queryjson : Json) : Listing → Except Exception Asked
  | SelectUserRank => do
      return ⟨.User, ← pageOf [] queryjson, [.sort [("ACNum", -1), ("SubmitNum", 1)]],
        [.project ["Avatar", "NickName", "PersonalProfile", "SubmitNum", "ACNum"] []]⟩
  | SelectUserSetInfo => do
      return ⟨.User, ← pageOf [] queryjson, [], [.project userSetFields []]⟩
  | SelectProblemList => do
      return ⟨.Problem, ← problemPage queryjson, [.sort [("_id", 1)]],
        [.project problemFields [("ProblemId", "$_id")]]⟩
  | SelectProblemListByAdmin => do
      return ⟨.Problem, ← pageOf [] queryjson, [.sort [("_id", 1)]],
        [.project problemFields [("ProblemId", "$_id")]]⟩
  | SelectStatusRecordList => do
      return ⟨.StatusRecord, ← statusRecordPage queryjson, [.sort [("SubmitTime", -1)]],
        [.project recordFields []]⟩
  | SelectDiscussList => do
      let (parentid, userid) ← articleIds queryjson
      let fathers := if parentid = 0 ∧ userid = 0 then [.matching "ParentId" (.ofInt 0)] else []
      let filter := matchId "ParentId" parentid ++ matchId "UserId" userid ++ fathers
      return ⟨.Discuss, ← pageOf filter queryjson, [.sort [("CreateTime", -1)]],
        [.lookupUser "UserId" "User", .project articleFields []]⟩
  | SelectDiscussListByAdmin => do
      return ⟨.Discuss, ← pageOf [] queryjson, [.sort [("CreateTime", -1)]],
        [.lookupUser "UserId" "User", .project articleFieldsByAdmin []]⟩
  | SelectSolutionList => do
      let (parentid, userid) ← articleIds queryjson
      let isPublic := if parentid > 0 then [.matching "Public" (.boolean true)] else []
      let filter := matchId "ParentId" parentid ++ isPublic ++ matchId "UserId" userid
      return ⟨.Solution, ← pageOf filter queryjson, [.sort [("CreateTime", -1)]],
        [.lookupUser "UserId" "User", .project articleFields []]⟩
  | SelectSolutionListByAdmin => do
      return ⟨.Solution, ← pageOf [] queryjson, [.sort [("CreateTime", -1)]],
        [.lookupUser "UserId" "User", .project articleFieldsByAdmin []]⟩
  | SelectAnnouncementList => do
      return ⟨.Announcement, ← pageOf [] queryjson,
        [.sort [("CreateTime", -1)], .sort [("Level", -1)]],
        [.project ["Title", "Views", "Comments", "CreateTime"] []]⟩
  | SelectCommentListByAdmin => do
      return ⟨.Comment, ← pageOf [] queryjson, [.sort [("CreateTime", -1)]],
        [.project commentFieldsByAdmin []]⟩
  | getFatherComment => do
      let parentid ← queryjson.int64At "ParentId"
      let page ← pageOf [.matching "ParentId" (.ofInt parentid.toInt)] queryjson
      let sonnum ← queryjson.intAt "SonNum"
      return ⟨.Comment, page, [.sort [("CreateTime", 1)]],
        [.childTotal, .childSlice 0 sonnum,
          .joinChildren ["ParentId", "Content", "Likes", "UserId", "CreateTime", "Child_Total"],
          .lookupUser "UserId" "User", .project fatherFields [], .sort [("CreateTime", 1)]]⟩

/-- The answer without a page. -/
def refused : Listing → Json
  | SelectProblemList => caught .null "数据库出错啦！"
  | SelectProblemListByAdmin => caught .null "数据库出错啦！"
  | _ => caught .null "数据库异常！"

/-- The answer for what is counted and what is fetched. -/
def answer (page : Page) : Listing → Except Exception (List Row) → Except Exception (List Row) → Json
  | SelectUserRank =>
      pageJson ["Avatar", "NickName", "PersonalProfile", "SubmitNum", "ACNum"] "数据库异常！"
        fun resjson docs => success (resjson.put "ArrayInfo"
          (if docs.isEmpty then .null else .array (ranked (page.skip + 1) docs)))
  | SelectUserSetInfo => countJson "ArrayInfo" userSetFields success
  | SelectProblemList =>
      pageJson problemFields "数据库出错啦！"
        fun resjson docs => (pushDocs "ArrayInfo" resjson docs).put "Reuslt" (.str "Success")
  | SelectProblemListByAdmin => pageJson problemFields "数据库出错啦！" assignDocs
  | SelectStatusRecordList => pageJson recordFields "数据库异常！" assignDocs
  | SelectDiscussListByAdmin => pageJson articleFieldsByAdmin "数据库异常！" (pushDocs "ArrayInfo")
  | SelectSolutionListByAdmin => pageJson articleFieldsByAdmin "数据库异常！" (pushDocs "ArrayInfo")
  | SelectAnnouncementList =>
      pageJson ["Title", "Views", "Comments", "CreateTime"] "数据库异常！"
        fun resjson docs => success (pushDocs "ArrayInfo" resjson docs)
  | SelectCommentListByAdmin => countJson "ArrayInfo" commentFieldsByAdmin id
  | getFatherComment => countJson "ArryInfo" fatherFields id
  -- the lists of articles
  | _ =>
      pageJson articleFields "数据库异常！"
        fun resjson docs => success (pushDocs "ArrayInfo" resjson docs)

end Listing

/-! ## What they answer -/

section tables

variable {S : Type} {base : Backend S} {regex : Bytes → Option (Bytes → Bool)}

theorem runStages_append (users : List Row) (p q : List Stage) (rows : List Row) :
    runStages regex users (p ++ q) rows = runStages regex users p rows >>= runStages regex users q := by
  induction p generalizing rows with
  | nil =>
      rfl
  | cons stage p ih =>
      simp only [List.cons_append, runStages]
      cases stage.run regex users rows with
      | error e =>
          rfl
      | ok rows' =>
          exact ih rows'

theorem runStages_cut (users : List Row) (skip limit : Int32) (rows : List Row) :
    runStages regex users [.skip skip, .limit limit] rows = cut skip limit rows := by
  simp only [runStages, Stage.run, cut, bind, Except.bind]
  by_cases hskip : skip < 0
  · simp [hskip]
  · by_cases hlimit : limit ≤ 0
    · simp [hskip, hlimit]
    · simp [hskip, hlimit, Pages.window]

/-- A pipeline that skips and limits, cut at that place. -/
theorem query_cut (t : Databases S) (coll : Collection) (before rest : List Stage) (skip limit : Int32) :
    t.query regex coll (before ++ [.skip skip, .limit limit] ++ rest) =
      (t.query regex coll before >>= cut skip limit) >>= runStages regex (t.rows .User) rest := by
  have hcut : runStages regex (t.rows .User) [.skip skip, .limit limit] = cut skip limit :=
    funext fun rows => runStages_cut _ _ _ rows
  simp only [Databases.query, runStages_append, hcut]

/-- A pipeline over the matches, sorted, cut and shown. -/
theorem query_asked (t : Databases S) (asked : Asked) :
    t.query regex asked.coll (asked.page.filter ++ asked.order ++
        [.skip asked.page.skip, .limit asked.page.limit] ++ asked.rest) = asked.fetched regex t :=
  query_cut ..

/-- A page is made of the two numbers of the request. -/
theorem pageOf_eq_ok {filter : List Stage} {queryjson : Json} {page : Page}
    (h : pageOf filter queryjson = .ok page) :
    ∃ number pagesize, queryjson.intAt "Page" = .ok number ∧ queryjson.intAt "PageSize" = .ok pagesize ∧
      page = { filter, skip := skipOf number pagesize, limit := pagesize } := by
  simp only [pageOf, except_bind_eq_ok_iff] at h
  obtain ⟨number, hnumber, pagesize, hpagesize, heq⟩ := h
  cases heq
  exact ⟨number, pagesize, hnumber, hpagesize, rfl⟩

/-- The page is fetched, then the matches are counted. -/
theorem countedList_apply (coll : Collection) (query : Except Exception (List Stage × List Stage))
    (name : String) (fields : List String) (finish : Json → Json) (server : Server (Databases S)) :
    countedList (base.onDatabases regex) coll query name fields finish server =
      .ok
        (match query with
        | .error _ => caught .null "数据库异常！"
        | .ok (filter, pipe) => countJson name fields finish (server.outside.query regex coll filter)
            (server.outside.query regex coll pipe)) server := by
  simp only [countedList, orElse500, attempt, bind_apply, Backend.onDatabases, call_reads]
  cases query with
  | error e =>
      rfl
  | ok query =>
      obtain ⟨filter, pipe⟩ := query
      simp only [liftM_ok_apply, countJson]
      cases server.outside.query regex coll pipe >>= Databases.docsOf with
      | error e =>
          rfl
      | ok docs =>
          simp only [liftM_ok_apply]
          cases server.outside.query regex coll filter <;> rfl

/-- A page is a count and a fetch. -/
theorem pagedList_asked (coll : Collection) (query : Except Exception Page) (order joined : List Stage)
    (fields : List String) (computed : List (String × String)) (reason : String)
    (finish : Page → Json → List Json → Json) (server : Server (Databases S)) :
    pagedList (base.onDatabases regex) coll query order joined fields computed reason finish server =
      .ok
        (match query >>= fun page => pure (Asked.mk coll page order (joined ++ [.project fields computed])) with
        | .error _ => caught .null reason
        | .ok asked => pageJson fields reason (finish asked.page) (asked.matched regex server.outside)
            (asked.fetched regex server.outside)) server := by
  rw [pagedList_apply]
  cases query with
  | error e =>
      rfl
  | ok page =>
      have hpipe : page.pipe order joined fields computed =
          page.filter ++ order ++ [.skip page.skip, .limit page.limit] ++
            (joined ++ [.project fields computed]) := by
        simp only [Page.pipe, List.append_assoc]
      simp only [hpipe, query_cut]
      rfl

/-- A list operation answers with what it counts and what it fetches. -/
theorem Listing.run_apply (l : Listing) (queryjson : Json) (server : Server (Databases S)) :
    l.run (base.onDatabases regex) queryjson server =
      .ok
        (match l.asked queryjson with
        | .error _ => l.refused
        | .ok asked => l.answer asked.page (asked.matched regex server.outside)
            (asked.fetched regex server.outside)) server := by
  cases l with
  | SelectUserRank =>
      rw [run, MoDB.SelectUserRank, pagedList_asked]
      rfl
  | SelectProblemList =>
      rw [run, MoDB.SelectProblemList, pagedList_asked]
      rfl
  | SelectProblemListByAdmin =>
      rw [run, MoDB.SelectProblemListByAdmin, pagedList_asked]
      rfl
  | SelectStatusRecordList =>
      rw [run, MoDB.SelectStatusRecordList, pagedList_asked]
      rfl
  | SelectDiscussList =>
      rw [run, MoDB.SelectDiscussList, pagedList_asked, bind_assoc]
      rfl
  | SelectDiscussListByAdmin =>
      rw [run, MoDB.SelectDiscussListByAdmin, pagedList_asked]
      rfl
  | SelectSolutionList =>
      rw [run, MoDB.SelectSolutionList, pagedList_asked, bind_assoc]
      rfl
  | SelectSolutionListByAdmin =>
      rw [run, MoDB.SelectSolutionListByAdmin, pagedList_asked]
      rfl
  | SelectAnnouncementList =>
      rw [run, MoDB.SelectAnnouncementList, pagedList_asked]
      rfl
  | SelectUserSetInfo =>
      simp only [run, MoDB.SelectUserSetInfo, countedList_apply, asked]
      cases hpage : pageOf [] queryjson with
      | error e =>
          rfl
      | ok page =>
          obtain ⟨number, pagesize, -, -, rfl⟩ := pageOf_eq_ok hpage
          simp only [bind, Except.bind, pure, Except.pure, answer]
          rw [← query_asked]
          rfl
  | SelectCommentListByAdmin =>
      simp only [run, MoDB.SelectCommentListByAdmin, countedList_apply, asked, commentQueryByAdmin]
      cases hpage : pageOf [] queryjson with
      | error e =>
          rfl
      | ok page =>
          obtain ⟨number, pagesize, -, -, rfl⟩ := pageOf_eq_ok hpage
          simp only [bind, Except.bind, pure, Except.pure, answer]
          rw [← query_asked]
          rfl
  | getFatherComment =>
      simp only [run, MoDB.getFatherComment, countedList_apply, asked, fatherQuery, bind, Except.bind]
      cases queryjson.int64At "ParentId" with
      | error e =>
          rfl
      | ok parentid =>
          dsimp only
          cases pageOf [.matching "ParentId" (.ofInt parentid.toInt)] queryjson with
          | error e =>
              rfl
          | ok page =>
              dsimp only
              cases queryjson.intAt "SonNum" with
              | error e =>
                  rfl
              | ok sonnum =>
                  simp only [pure, Except.pure, answer]
                  rw [← query_asked, List.append_assoc, List.append_assoc]
                  rfl

/-- Every list operation cuts at the two numbers of its request. -/
theorem Listing.asked_page {l : Listing} {queryjson : Json} {asked : Asked} {page pagesize : Int32}
    (h : l.asked queryjson = .ok asked) (hpage : queryjson.intAt "Page" = .ok page)
    (hsize : queryjson.intAt "PageSize" = .ok pagesize) :
    asked.page.skip = skipOf page pagesize ∧ asked.page.limit = pagesize := by
  have hpageOf : ∀ {filter : List Stage} {cut : Page}, pageOf filter queryjson = .ok cut →
      cut.skip = skipOf page pagesize ∧ cut.limit = pagesize := by
    intro filter cut hcut
    obtain ⟨number, size, hnumber, hlimit, rfl⟩ := pageOf_eq_ok hcut
    cases hpage.symm.trans hnumber
    cases hsize.symm.trans hlimit
    exact ⟨rfl, rfl⟩
  cases l with
  | SelectProblemList =>
      simp only [Listing.asked, problemPage, except_bind_eq_ok_iff] at h
      obtain ⟨_, ⟨_, -, cut, hcut, _, -, _, -, _, -, _, -, heq⟩, heq'⟩ := h
      have hnumbers := hpageOf hcut
      cases heq
      cases heq'
      exact hnumbers
  | SelectStatusRecordList =>
      simp only [Listing.asked, statusRecordPage, except_bind_eq_ok_iff] at h
      obtain ⟨_, ⟨_, -, cut, hcut, _, -, _, -, _, -, _, -, _, -, heq⟩, heq'⟩ := h
      have hnumbers := hpageOf hcut
      cases heq
      cases heq'
      exact hnumbers
  | SelectDiscussList =>
      simp only [Listing.asked, except_bind_eq_ok_iff] at h
      obtain ⟨_, -, cut, hcut, heq⟩ := h
      cases heq
      exact hpageOf hcut
  | SelectSolutionList =>
      simp only [Listing.asked, except_bind_eq_ok_iff] at h
      obtain ⟨_, -, cut, hcut, heq⟩ := h
      cases heq
      exact hpageOf hcut
  | getFatherComment =>
      simp only [Listing.asked, except_bind_eq_ok_iff] at h
      obtain ⟨_, -, cut, hcut, _, -, heq⟩ := h
      cases heq
      exact hpageOf hcut
  | _ =>
      simp only [Listing.asked, except_bind_eq_ok_iff] at h
      obtain ⟨cut, hcut, heq⟩ := h
      cases heq
      exact hpageOf hcut

/-- **Pages.**  Every list operation counts its matches and shows what it cuts out of them when they are
sorted.  What is cut out is the page, of every sorted list, exactly when `(page - 1) * pagesize` is an
`int`; the pages up to this one put together are the list under the same condition; and the ranks on the
page are the positions exactly when `page * pagesize` is an `int`. -/
theorem pages_tile_iff {page pagesize : Int32} (hpage : 1 ≤ page) (hsize : 1 ≤ pagesize) :
    (∀ (l : Listing) (queryjson : Json) (asked : Asked), l.asked queryjson = .ok asked →
        queryjson.intAt "Page" = .ok page → queryjson.intAt "PageSize" = .ok pagesize →
          asked.page.skip = skipOf page pagesize ∧
          ∀ server : Server (Databases S), l.run (base.onDatabases regex) queryjson server =
            .ok (l.answer asked.page (asked.matched regex server.outside)
              ((asked.sorted regex server.outside >>= cut (skipOf page pagesize) pagesize) >>=
                asked.shown regex server.outside)) server) ∧
      ((∀ sorted : List Row, cut (skipOf page pagesize) pagesize sorted =
          .ok (Pages.page pagesize.toInt.toNat (page.toInt.toNat - 1) sorted)) ↔
        (page.toInt - 1) * pagesize.toInt < 2 ^ 31) ∧
      ((∀ sorted : List Row, (sorted.length : Int) ≤ page.toInt * pagesize.toInt →
          collectPages pagesize sorted page.toInt.toNat = .ok sorted) ↔
        (page.toInt - 1) * pagesize.toInt < 2 ^ 31) ∧
      ((∀ docs : List Json, (docs.length : Int) ≤ pagesize.toInt →
          ranked (skipOf page pagesize + 1) docs = docs.mapIdx fun n doc =>
            doc.put "Rank" (.ofInt ((page.toInt - 1) * pagesize.toInt + n + 1))) ↔
        page.toInt * pagesize.toInt < 2 ^ 31) := by
  have hpage' := Int32.le_iff_toInt_le.1 hpage
  have hsize' := Int32.le_iff_toInt_le.1 hsize
  rw [Int32.toInt_one] at hpage' hsize'
  have hlt := page.toInt_lt
  obtain ⟨i, hi⟩ : ∃ i : Nat, page.toInt = i + 1 := ⟨(page.toInt - 1).toNat, by omega⟩
  obtain ⟨size, hs⟩ : ∃ size : Nat, pagesize.toInt = size := ⟨pagesize.toInt.toNat, by omega⟩
  have hnumber : page.toInt.toNat = i + 1 := by omega
  have hwidth : pagesize.toInt.toNat = size := by omega
  have hpos : 0 < size := by omega
  have hcut : (page.toInt - 1) * pagesize.toInt = (i * size : Nat) := by
    rw [hi, hs, Int.add_sub_cancel]
    norm_cast
  have hlast : page.toInt * pagesize.toInt = ((i + 1) * size : Nat) := by
    rw [hi, hs]
    norm_cast
  have hfits : ∀ n : Nat, (n : Int) < 2 ^ 31 ↔ n < 2 ^ 31 := fun n => by omega
  rw [hcut, hlast, hnumber, hwidth, hfits, hfits, Nat.add_sub_cancel]
  refine ⟨fun l queryjson asked hasked hnumber hlimit => ?_, forall_cut_iff hi hs hpos, ?_, ?_⟩
  · obtain ⟨hskip, hlim⟩ := l.asked_page hasked hnumber hlimit
    refine ⟨hskip, fun server => ?_⟩
    rw [← hskip, ← hlim, l.run_apply, hasked]
    rfl
  · refine Iff.trans ?_ (collects_iff hs hpos (by omega))
    exact forall_congr' fun sorted => by norm_cast
  · refine Iff.trans ?_ (forall_ranked_iff hi hs hpos)
    rw [hs]
    exact forall_congr' fun docs => by norm_cast

end tables

/-- The second page of ten is the last document of eleven. -/
theorem second_page_of_ten :
    cut (skipOf 2 10) 10 (List.replicate 11 (1, [])) = .ok [(1, [])] :=
  (@pages_tile_iff Unit Backend.idle (fun _ => none) 2 10 (by decide) (by decide)).2.1.2 (by decide)
    (List.replicate 11 (1, []))

/-- Page 65537 of 65536 documents each is the first page. -/
theorem far_page_is_the_first :
    stoi (bytes "65537") = .ok 65537 ∧ stoi (bytes "65536") = .ok 65536 ∧
      cut (skipOf 65537 65536) 65536 [(1, [])] = .ok [(1, [])] ∧
      Pages.page 65536 65536 [((1, []) : Row)] = [] :=
  ⟨by decide, by decide, rfl, rfl⟩

end MoDB
end Oj
end Myoj
