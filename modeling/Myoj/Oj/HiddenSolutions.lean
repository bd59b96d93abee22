import Myoj.Oj.Conditions
import Myoj.Oj.Databases

/-!
# HiddenSolutions — what is shown of solutions that are not public

`SelectSolutionList` matches `Public` only when a problem is given, and `SelectSolution` never looks at
it, or at who asks.

* `SolutionRequest` — the two requests, and who makes them;
* `Row.hidden` — not public, and not by the requester;
* `Hides` — what is hidden does not show in the response: two collections that differ in nothing else
  give the same one;
* `Shielded` — the requests for which the filter, or a number that does not parse, sees to it.
-/

namespace Myoj
namespace Oj

open Effect
open UserList (authorityOf tokenUser)

variable {S : Type}

inductive SolutionRequest where
  | SelectSolutionList (queryjson : Json)
  | SelectSolution (queryjson : Json)

/-- A solution that is not public, for everybody but its author. -/
def Row.hidden (requester : Option Int64) (row : Row) : Bool :=
  (match row.2.lookup "Public" with
  | some (.boolean false) => true
  | _ => false) &&
    !requester.any fun id => row.matching "UserId" (.ofInt id.toInt)

/-- The server with other solutions. -/
def withSolutions (server : Server (Databases S)) (solutions : Rows Int64 Doc) : Server (Databases S) :=
  { server with outside := server.outside.setColl .Solution solutions }

/-- What of the solutions is not hidden. -/
def visible (requester : Option Int64) (server : Server (Databases S)) : List Row :=
  (server.outside.rows .Solution).filter fun row => !row.hidden requester

/-- The ids a list is asked for by, when the page is one. -/
def searchedIds (queryjson : Json) : Option (Int64 × Int64) :=
  match MoDB.articleIds queryjson, MoDB.pageOf [] queryjson with
  | .ok ids, .ok _ => some ids
  | _, _ => none

namespace SolutionRequest

def queryjson : SolutionRequest → Json
  | .SelectSolutionList queryjson => queryjson
  | .SelectSolution queryjson => queryjson

variable (b : Backend S) (req : SolutionRequest)

def run : SolutionRequest → Action S Json
  | .SelectSolutionList queryjson => Control.SelectSolutionList b queryjson
  | .SelectSolution queryjson => Control.SelectSolution b queryjson

/-- The user id the request's token resolves to, as text. -/
def userid (server : Server S) : Bytes :=
  match req.queryjson.member "Token" with
  | .string token => tokenUser b token server
  | _ => bytes "0"

/-- Who asks; a text that is no number is nobody. -/
def requester (server : Server S) : Option Int64 := (stoll (req.userid b server)).toOption

def ByAdministrator (server : Server S) : Prop :=
  authorityOf server.UserAuthorityMap (req.userid b server) ≥ 5

/-- Unless an administrator asks, what is hidden from the requester does not change the response. -/
def Hides (b : Backend (Databases S)) (server : Server (Databases S)) : Prop :=
  ¬ req.ByAdministrator b server → ∀ solutions solutions',
    visible (req.requester b server) (withSolutions server solutions) =
        visible (req.requester b server) (withSolutions server solutions') →
      outcome (req.run b) (withSolutions server solutions) =
        outcome (req.run b) (withSolutions server solutions')

/-- The list of one problem, or of the requester; otherwise only what does not parse is safe. -/
def Shielded (requester : Option Int64) : SolutionRequest → Prop
  | .SelectSolutionList queryjson => ∀ parentid userid, searchedIds queryjson = some (parentid, userid) →
      0 < parentid ∨ (0 < userid ∧ requester = some userid)
  | .SelectSolution queryjson => ∀ id, queryjson.int64At "SolutionId" ≠ .ok id

/-! ## Lists -/

section lists

variable {base : Backend S} {regex : Bytes → Option (Bytes → Bool)} {requester : Option Int64}
  {server server' : Server (Databases S)} {queryjson : Json} {parentid userid : Int64}

/-- The matches of a list, as pairs. -/
def solutionFilter (parentid userid : Int64) : List (String × Json) :=
  (if 0 < parentid then [("ParentId", .ofInt parentid.toInt), ("Public", .boolean true)] else []) ++
    (if 0 < userid then [("UserId", .ofInt userid.toInt)] else [])

theorem stages_solutionFilter (parentid userid : Int64) :
    MoDB.matchId "ParentId" parentid ++
        (if parentid > 0 then [.matching "Public" (.boolean true)] else []) ++
        MoDB.matchId "UserId" userid =
      (solutionFilter parentid userid).map fun (field, value) => .matching field value := by
  unfold solutionFilter MoDB.matchId
  by_cases hp : 0 < parentid
  · by_cases hu : 0 < userid <;> simp [hp, hu]
  · by_cases hu : 0 < userid <;> simp [hp, hu]

theorem pageOf_filter (filter : List Stage) (queryjson : Json) :
    MoDB.pageOf filter queryjson = (MoDB.pageOf [] queryjson).map fun page => { page with filter } := by
  unfold MoDB.pageOf
  cases queryjson.intAt "Page" with
  | error e =>
      rfl
  | ok page =>
      cases queryjson.intAt "PageSize" <;> rfl

/-- The page a list is for. -/
def solutionPage (queryjson : Json) : Except Exception MoDB.Page := do
  let (parentid, userid) ← MoDB.articleIds queryjson
  MoDB.pageOf ((solutionFilter parentid userid).map fun (field, value) => .matching field value) queryjson

/-- The response for the page. -/
def listJson (regex : Bytes → Option (Bytes → Bool)) (t : Databases S) :
    Except Exception MoDB.Page → Json
  | .error _ => caught .null "数据库异常！"
  | .ok page => MoDB.pageJson MoDB.articleFields "数据库异常！"
      (fun resjson docs => success (MoDB.pushDocs "ArrayInfo" resjson docs))
      (t.query regex .Solution page.filter)
      (t.query regex .Solution (page.pipe [.sort [("CreateTime", -1)]] [.lookupUser "UserId" "User"]
        MoDB.articleFields []))

variable (base regex queryjson server) in
theorem outcome_SelectSolutionList :
    outcome (Control.SelectSolutionList (base.onDatabases regex) queryjson) server =
      .ok (listJson regex server.outside (solutionPage queryjson)) := by
  have hpage : (do
      let (parentid, userid) ← MoDB.articleIds queryjson
      let isPublic := if parentid > 0 then [.matching "Public" (.boolean true)] else []
      MoDB.pageOf (MoDB.matchId "ParentId" parentid ++ isPublic ++ MoDB.matchId "UserId" userid)
        queryjson) = solutionPage queryjson := by
    simp only [solutionPage, stages_solutionFilter]
  rw [Control.SelectSolutionList, MoDB.SelectSolutionList, hpage,
    outcome_of_ok (MoDB.pagedList_apply ..)]
  cases solutionPage queryjson <;> rfl

/-- Without two ids and a page there is no page. -/
theorem solutionPage_of_none (h : searchedIds queryjson = none) :
    ∃ e, solutionPage queryjson = .error e := by
  unfold searchedIds at h
  unfold solutionPage
  cases hids : MoDB.articleIds queryjson with
  | error e =>
      exact ⟨e, rfl⟩
  | ok ids =>
      cases hpage : MoDB.pageOf [] queryjson with
      | error e =>
          refine ⟨e, ?_⟩
          simp only [bind, Except.bind]
          rw [pageOf_filter, hpage]
          rfl
      | ok page =>
          simp [hids, hpage] at h

theorem solutionPage_of_some (h : searchedIds queryjson = some (parentid, userid)) :
    ∃ page, solutionPage queryjson = .ok page ∧
      page.filter = (solutionFilter parentid userid).map fun (field, value) => .matching field value := by
  unfold searchedIds at h
  unfold solutionPage
  split at h
  · next ids page hids hpage =>
    cases h
    refine ⟨{ page with filter := _ }, ?_, rfl⟩
    rw [hids]
    simp only [bind, Except.bind]
    rw [pageOf_filter, hpage]
    rfl
  · cases h

/-! ## Filters -/

/-- A list seen through a filter decides what a narrower one lets through. -/
theorem filter_of_filter {α : Type} {l l' : List α} {p q : α → Bool} (hqp : ∀ a, q a = true → p a = true)
    (h : l.filter p = l'.filter p) : l.filter q = l'.filter q := by
  have hboth : ∀ l : List α, l.filter q = (l.filter p).filter q := by
    intro l
    rw [List.filter_filter]
    refine List.filter_congr fun a _ => ?_
    cases hq : q a with
    | false =>
        rfl
    | true =>
        simp [hqp a hq]
  rw [hboth, hboth l', h]

theorem matching_private {row : Row} (h : row.2.lookup "Public" = some (.boolean false)) :
    row.matching "Public" (.boolean true) = false := by
  have hpath : pathOf "Public" = ["Public"] := by decide
  have hlookup : (("_id", Json.number_integer row.1.toInt) :: row.2).lookup "Public" =
      some (.boolean false) := by
    rw [Json.lookup_cons_ite, if_neg (by decide), h]
  simp [Row.matching, hpath, Row.json, Json.valuesAt, Json.children, hlookup, Json.same]

/-- The filter of a list that is shielded selects nothing hidden. -/
theorem visible_of_selects (h : 0 < parentid ∨ (0 < userid ∧ requester = some userid)) {row : Row}
    (hselects : selects (solutionFilter parentid userid) row = true) : row.hidden requester = false := by
  simp only [selects, solutionFilter, List.all_append, Bool.and_eq_true] at hselects
  rw [Bool.eq_false_iff]
  intro hhidden
  rw [Row.hidden, Bool.and_eq_true, Bool.not_eq_true'] at hhidden
  obtain ⟨hpublic, hother⟩ := hhidden
  rcases h with hparent | ⟨huser, rfl⟩
  · -- the match on `Public` fails
    have hmatch : row.matching "Public" (.boolean true) = true := by
      simp only [if_pos hparent, List.all_cons, Bool.and_eq_true] at hselects
      exact hselects.1.2.1
    split at hpublic
    · next hlookup =>
      rw [matching_private hlookup] at hmatch
      cases hmatch
    · cases hpublic
  · -- the match on `UserId` leaves the requester their own
    simp [huser] at hselects
    simp [hselects.2] at hother

/-- What a page is made of: the users, and the solutions its filter selects. -/
theorem listJson_congr {t t' : Databases S} {filter : List (String × Json)} {page : MoDB.Page}
    (hfilter : page.filter = filter.map fun (field, value) => .matching field value)
    (husers : t.rows .User = t'.rows .User)
    (hrows : (t.rows .Solution).filter (selects filter) = (t'.rows .Solution).filter (selects filter)) :
    listJson regex t (.ok page) = listJson regex t' (.ok page) := by
  have hquery : ∀ p, t.query regex .Solution (page.filter ++ p) = t'.query regex .Solution (page.filter ++ p) := by
    intro p
    rw [hfilter, Databases.query, Databases.query, runStages_matching, runStages_matching, husers, hrows]
  have hmatched := hquery []
  rw [List.append_nil] at hmatched
  simp only [listJson, MoDB.Page.pipe, List.append_assoc, hmatched, hquery]

variable (regex) in
/-- The number of what is matched is in the response, whatever becomes of the page. -/
theorem member_listJson (t : Databases S) {filter : List (String × Json)} {page : MoDB.Page}
    (hfilter : page.filter = filter.map fun (field, value) => .matching field value) {rows : List Row}
    (hrows : (t.rows .Solution).filter (selects filter) = rows) :
    (listJson regex t (.ok page)).member "TotalNum" =
      (MoDB.totalNum (if rows.isEmpty then none else some rows.length)).member "TotalNum" := by
  have hmatched : t.query regex .Solution page.filter = .ok rows := by
    have hquery := runStages_matching regex (t.rows .User) filter [] (t.rows .Solution)
    rw [List.append_nil, hrows] at hquery
    rw [hfilter]
    exact hquery
  simp only [listJson, hmatched, MoDB.pageJson]
  split
  · rw [member_caught (indexable_totalNum _), if_neg (by decide), if_neg (by decide)]
  · rw [member_success (indexable_pushDocs (indexable_totalNum _)), if_neg (by decide),
      member_pushDocs (by decide) _ (indexable_totalNum _)]

end lists

/-! ## One solution -/

section single

variable {base : Backend S} {regex : Bytes → Option (Bytes → Bool)} {server : Server (Databases S)}
  {queryjson : Json} {id : Int64}

variable (base regex) in
/-- A number that does not parse is all that is looked at. -/
theorem outcome_SelectSolution_of_error {e : Exception} (hid : queryjson.int64At "SolutionId" = .error e) :
    outcome (Control.SelectSolution (base.onDatabases regex) queryjson) server =
      .ok (caught .null "数据库异常！") := by
  simp only [Control.SelectSolution, MoDB.SelectSolution, MoDB.selectById, orElse500, hid]
  rfl

/-- The page of a solution with a number: the view is counted before the solution is looked for. -/
theorem SelectSolution_of_id (hid : queryjson.int64At "SolutionId" = .ok id) :
    Control.SelectSolution (base.onDatabases regex) queryjson =
      orElse500 .null "数据库异常！" (do
        let _ ← call (Databases.update_one .Solution id (.inc "Views" 1))
        let docs ← call ((base.onDatabases regex).aggregate .Solution
          [MoDB.byId id, .lookupUser "UserId" "User", .project MoDB.articlePage []])
        return MoDB.found MoDB.articlePage "数据库未查询到数据，可能是请求参数错误！" docs) := by
  simp only [Control.SelectSolution, MoDB.SelectSolution, MoDB.selectById, hid]
  rfl

theorem outcome_SelectSolution_missing (hid : queryjson.int64At "SolutionId" = .ok id)
    (hmissing : server.outside.find .Solution id = none) :
    outcome (Control.SelectSolution (base.onDatabases regex) queryjson) server =
      .ok (failure "Fail" "数据库未查询到数据，可能是请求参数错误！") := by
  have hnone : (server.outside.colls .Solution).get? id = none := hmissing
  have hupdate : call (Databases.update_one .Solution id (.inc "Views" 1)) server = .ok 0 server := by
    simp only [call, Databases.update_one, hnone]
  have hdocs : call ((base.onDatabases regex).aggregate .Solution
      [MoDB.byId id, .lookupUser "UserId" "User", .project MoDB.articlePage []]) server =
      .ok [] server := by
    refine call_reads.trans ?_
    rw [Databases.query_byId, hnone]
    rfl
  rw [SelectSolution_of_id hid]
  simp only [outcome, orElse500, attempt, bind_of_ok hupdate, bind_of_ok hdocs]
  rfl

variable (regex) in
/-- A document with the id is one row of the page, unless its users or fields are refused. -/
theorem aggregate_found {t : Databases S} {doc : Doc} (hfound : t.find .Solution id = some doc) :
    ∃ row : Row, t.query regex .Solution
      [MoDB.byId id, .lookupUser "UserId" "User", .project MoDB.articlePage []] = .ok [row] := by
  have hdoc : (t.colls .Solution).get? id = some doc := hfound
  rw [Databases.query_byId, hdoc]
  exact ⟨_, rfl⟩

theorem SelectSolution_found {doc : Doc} (hid : queryjson.int64At "SolutionId" = .ok id)
    (hfound : server.outside.find .Solution id = some doc) :
    Returns (Control.SelectSolution (base.onDatabases regex) queryjson) server
      fun resjson _ => resjson.member "Result" ≠ .str "Fail" := by
  have hcaught : ∀ server : Server (Databases S),
      (caught .null "数据库异常！").member "Result" ≠ .str "Fail" := fun _ => by
    rw [member_caught rfl]
    simp
  rw [SelectSolution_of_id hid, returns_orElse500 hcaught]
  -- where a database refuses, the catch answers; where none does, the page is found
  refine throws_or_returns fun resjson server' hbody => ?_
  -- the update leaves a document under the id
  cases hupdate : call (Databases.update_one .Solution id (.inc "Views" 1)) server with
  | error e server₁ =>
      rw [bind_apply, hupdate] at hbody
      cases hbody
  | ok n server₁ =>
      have hafter : server₁.outside.find .Solution id = some (Doc.update (.inc "Views" 1) doc) := by
        rw [← final_of_ok hupdate, final_call, Databases.find_update_one, hfound, if_pos ⟨rfl, rfl⟩]
        rfl
      obtain ⟨row, hrow⟩ := aggregate_found regex hafter
      rw [bind_of_ok hupdate, bind_apply] at hbody
      have hdocs : call ((base.onDatabases regex).aggregate .Solution
          [MoDB.byId id, .lookupUser "UserId" "User", .project MoDB.articlePage []]) server₁ =
          (liftM (Databases.docsOf [row]) : Action (Databases S) _) server₁ := by
        refine call_reads.trans ?_
        rw [hrow]
        rfl
      rw [hdocs, Databases.docsOf, List.mapM_cons, List.mapM_nil] at hbody
      cases hdoc : Doc.ofMembers row.2 with
      | error e =>
          rw [hdoc] at hbody
          cases hbody
      | ok doc' =>
          rw [hdoc] at hbody
          cases hbody
          rw [MoDB.found, if_neg (by simp), member_success (indexable_lastDoc _ _)]
          simp [Json.str]

end single

/-! ## What is hidden -/

section hidden

variable {base : Backend S} {regex : Bytes → Option (Bytes → Bool)} {requester : Option Int64}
  {server : Server (Databases S)}

/-- A solution that is not public. -/
def privateSolution (userid : Int64) : Doc where
  members := [("Title", .str "A"), ("Content", .str "B"), ("ParentId", .ofInt 1),
    ("UserId", .ofInt userid.toInt), ("Public", .boolean false)] ++
      MoDB.articleMembers (bytes "2026-01-01 00:00:00")
  utf8 := rfl

def onlyPrivate (id userid : Int64) : Rows Int64 Doc :=
  Rows.empty.insert id (privateSolution userid) Rows.get?_empty

theorem rows_withSolutions_empty :
    (withSolutions server Rows.empty).outside.rows .Solution = [] := rfl

theorem rows_withSolutions_onlyPrivate (id userid : Int64) :
    (withSolutions server (onlyPrivate id userid)).outside.rows .Solution =
      [(id, (privateSolution userid).members)] := rfl

theorem matching_privateSolution (id userid userid' : Int64) :
    Row.matching "UserId" (.ofInt userid'.toInt) (id, (privateSolution userid).members) =
      decide (userid = userid') := by
  rw [Row.matching_number (by decide) (by decide) rfl]
  exact decide_eq_decide.2 Int64.toInt_inj

/-- It shows to nobody but its author. -/
theorem visible_onlyPrivate {id userid : Int64} (h : requester ≠ some userid) :
    visible requester (withSolutions server (onlyPrivate id userid)) =
      visible requester (withSolutions server Rows.empty) := by
  have hhidden : Row.hidden requester (id, (privateSolution userid).members) = true := by
    cases requester with
    | none =>
        rfl
    | some requester =>
        have hne : userid ≠ requester := fun heq => h (heq ▸ rfl)
        simp only [Row.hidden, Option.any_some, matching_privateSolution, hne, decide_false]
        rfl
  simp only [visible, rows_withSolutions_empty, rows_withSolutions_onlyPrivate, List.filter_nil,
    List.filter_cons, hhidden, Bool.not_true, Bool.false_eq_true, if_false]

theorem exists_other (requester : Option Int64) : ∃ userid, requester ≠ some userid := by
  by_cases h : requester = some 0
  · refine ⟨1, ?_⟩
    rw [h]
    decide
  · exact ⟨0, h⟩

/-- A list that is not shielded selects what somebody else has hidden. -/
theorem selects_privateSolution {parentid userid : Int64}
    (h : ¬ (0 < parentid ∨ (0 < userid ∧ requester = some userid))) (id : Int64) :
    ∃ other, requester ≠ some other ∧
      selects (solutionFilter parentid userid) (id, (privateSolution other).members) = true := by
  rw [not_or, not_and] at h
  -- a search that names no user leaves the author free, so it is anyone but the requester
  by_cases huser : 0 < userid
  · refine ⟨userid, h.2 huser, ?_⟩
    simp [selects, solutionFilter, h.1, huser, matching_privateSolution]
  · obtain ⟨other, hother⟩ := exists_other requester
    refine ⟨other, hother, ?_⟩
    simp [selects, solutionFilter, h.1, huser]

/-- Its number is in the response. -/
theorem list_shows {queryjson : Json} {parentid userid : Int64}
    (hids : searchedIds queryjson = some (parentid, userid))
    (h : ¬ (0 < parentid ∨ (0 < userid ∧ requester = some userid))) :
    ∃ solutions, visible requester (withSolutions server solutions) =
        visible requester (withSolutions server Rows.empty) ∧
      outcome (Control.SelectSolutionList (base.onDatabases regex) queryjson)
          (withSolutions server solutions) ≠
        outcome (Control.SelectSolutionList (base.onDatabases regex) queryjson)
          (withSolutions server Rows.empty) := by
  obtain ⟨page, hpage, hfilter⟩ := solutionPage_of_some hids
  obtain ⟨other, hother, hselects⟩ := selects_privateSolution h 1
  refine ⟨onlyPrivate 1 other, visible_onlyPrivate hother, fun heq => ?_⟩
  rw [outcome_SelectSolutionList, outcome_SelectSolutionList, hpage, Except.ok.injEq] at heq
  -- one solution is counted, or none
  have hone : (listJson regex (withSolutions server (onlyPrivate 1 other)).outside (.ok page)).member
      "TotalNum" = .ofInt 1 := by
    rw [member_listJson regex _ hfilter rfl, rows_withSolutions_onlyPrivate, List.filter_cons,
      if_pos hselects]
    rfl
  have hnone : (listJson regex (withSolutions server Rows.empty).outside (.ok page)).member
      "TotalNum" = .null := by
    rw [member_listJson regex _ hfilter rfl]
    rfl
  rw [heq, hnone] at hone
  cases hone

/-- Whether it is there is in the response. -/
theorem single_shows {queryjson : Json} {id : Int64} (hid : queryjson.int64At "SolutionId" = .ok id) :
    ∃ solutions, visible requester (withSolutions server solutions) =
        visible requester (withSolutions server Rows.empty) ∧
      outcome (Control.SelectSolution (base.onDatabases regex) queryjson)
          (withSolutions server solutions) ≠
        outcome (Control.SelectSolution (base.onDatabases regex) queryjson)
          (withSolutions server Rows.empty) := by
  obtain ⟨other, hother⟩ := exists_other requester
  refine ⟨onlyPrivate id other, visible_onlyPrivate hother, fun heq => ?_⟩
  have hmissing : (withSolutions server Rows.empty).outside.find .Solution id = none := rfl
  -- missing it is a failure, and found it is none
  rw [outcome_SelectSolution_missing hid hmissing] at heq
  have hfound : (withSolutions server (onlyPrivate id other)).outside.find .Solution id =
      some (privateSolution other) := by
    rw [withSolutions, Databases.find_setColl, if_pos rfl, onlyPrivate, Rows.get?_insert, if_pos rfl]
  refine returns_outcome (SelectSolution_found hid hfound) heq ?_
  rw [member_failure]
  simp

/-- **Private solutions.**  What is hidden from a requester who is no administrator does not show in the
response precisely when the request is shielded. -/
theorem hides_iff (req : SolutionRequest) (base : Backend S) (regex : Bytes → Option (Bytes → Bool))
    (server : Server (Databases S)) :
    req.Hides (base.onDatabases regex) server ↔
      req.ByAdministrator (base.onDatabases regex) server ∨
        Shielded (req.requester (base.onDatabases regex) server) req := by
  by_cases hadmin : req.ByAdministrator (base.onDatabases regex) server
  · exact iff_of_true (fun hnot => absurd hadmin hnot) (.inl hadmin)
  rw [Hides, forall_prop_of_true hadmin, or_iff_right hadmin]
  cases req with
  | SelectSolutionList queryjson =>
      constructor
      · intro hhides parentid userid hids
        by_contra hnot
        obtain ⟨solutions, hvisible, hshows⟩ := list_shows hids hnot
        exact hshows (hhides _ _ hvisible)
      · intro hshielded solutions solutions' hvisible
        simp only [run, outcome_SelectSolutionList]
        cases hids : searchedIds queryjson with
        | none =>
            obtain ⟨e, he⟩ := solutionPage_of_none hids
            rw [he]
            rfl
        | some ids =>
            obtain ⟨page, hpage, hfilter⟩ := solutionPage_of_some hids
            -- what the filter selects is visible, so it is the same on both sides
            have hrows := filter_of_filter (q := selects (solutionFilter ids.1 ids.2))
              (fun row hselects => by rw [visible_of_selects (hshielded _ _ hids) hselects]; rfl) hvisible
            have husers : (withSolutions server solutions).outside.rows .User =
                (withSolutions server solutions').outside.rows .User := rfl
            rw [hpage, listJson_congr hfilter husers hrows]
  | SelectSolution queryjson =>
      constructor
      · intro hhides id hid
        obtain ⟨solutions, hvisible, hshows⟩ := single_shows hid
        exact hshows (hhides _ _ hvisible)
      · intro hshielded solutions solutions' _
        cases hid : queryjson.int64At "SolutionId" with
        | error e =>
            simp only [run, outcome_SelectSolution_of_error base regex hid]
        | ok id =>
            exact absurd hid (hshielded id)

end hidden

/-! ## Everybody's solutions -/

/-- Nobody is logged in. -/
def visitedServer : Server (Databases Unit) where
  UserAuthorityMap := fun _ => 0
  m_problemid := 0
  m_commentid := 0
  m_articleid := 0
  problemtags := .null
  outside := .empty ()

/-- The first page of a search without a problem and without a user. -/
def listAll : Json :=
  .object [("SearchInfo", .object [("ParentId", .str "0"), ("UserId", .str "0")]), ("Page", .str "1"),
    ("PageSize", .str "10"), ("Token", .str "0")]

/-- A visitor is told how many solutions there are, those that are not public included. -/
theorem private_solution_counted :
    ¬ Hides (.SelectSolutionList listAll) (Backend.idle.onDatabases fun _ => none) visitedServer := by
  intro hhides
  have hvisitor : ¬ ByAdministrator (Backend.idle.onDatabases fun _ => none)
      (.SelectSolutionList listAll) visitedServer := by
    unfold ByAdministrator
    decide +kernel
  have hids : searchedIds listAll = some (0, 0) := by decide +kernel
  obtain ⟨solutions, hvisible, hshows⟩ := list_shows hids (by simp)
  exact hshows (hhides hvisitor _ _ hvisible)

end SolutionRequest

end Oj
end Myoj
