import Myoj.Http.Server
import Myoj.Oj.Control

/-!
# OJServer — the handlers, their routes, and `onRequest`

A handler reads parameters or a JSON body, asks `Control`, sets the status from the result and puts the
dumped result into the response.  Most handlers are one of three programs with their own parameters:

* `withParams` — the request must have the parameters, which go into the query as strings;
* `withSearch` — one of them is a JSON text;
* `withBody` — the body is a JSON text.

`Handler` enumerates them, `get_map_` and `post_map_` are the routes, and `onRequest` is the callback
of the HTTP server.
-/

namespace Myoj
namespace Oj

open Effect
open Http (HttpRequest HttpResponse)

/-! ## Requests -/

def hasParam (req : HttpRequest) (field : String) : Bool := (req.params_.lookup (bytes field)).isSome

def getParam (req : HttpRequest) (field : String) : Bytes :=
  (req.params_.lookup (bytes field)).getD []

/-- The header, or `"0"`. -/
def GetRequestToken (req : HttpRequest) : Bytes :=
  (req.headers_.lookup (bytes "Authorization")).getD (bytes "0")

/-- The token as a value. -/
def tokenOf (req : HttpRequest) : Json := .string (GetRequestToken req)

/-- The answer to a request that lacks a parameter, in the two wordings. -/
def missingParam : Json := failure "400" "缺少请求参数！"

def wrongParam : Json := failure "400" "请求参数有误！"

/-- The query of a handler: its parameters and the token. -/
def queryOf (req : HttpRequest) (params : List String) : Json :=
  .object (params.map (fun k => (k, .string (getParam req k))) ++ [("Token", tokenOf req)])

/-- The parameters of a search. -/
def searchParams : List String := ["SearchInfo", "Page", "PageSize"]

/-- The query of a search, with the parsed search info. -/
def searchOf (req : HttpRequest) (searchinfo : Json) : Json :=
  .object [("SearchInfo", searchinfo), ("Page", .string (getParam req "Page")),
    ("PageSize", .string (getParam req "PageSize")), ("Token", tokenOf req)]

/-- What a query holds: the parameters it was asked for, and the token. -/
theorem member_queryOf (req : HttpRequest) (params : List String) (k : String) :
    (queryOf req params).member k =
      if k ∈ params then .string (getParam req k)
      else if k = "Token" then tokenOf req else .null := by
  simp only [queryOf, Json.member]
  induction params with
  | nil =>
      by_cases hk : k = "Token"
      · simp [hk]
      · simp [Json.lookup_cons_ite, hk]
  | cons p params ih =>
      rw [List.map_cons, List.cons_append, Json.lookup_cons_ite]
      by_cases hk : k = p
      · simp [hk]
      · simpa [hk] using ih

variable {S : Type} (b : Backend S)

def withParams (req : HttpRequest) (params : List String) (missing : Json)
    (act : Json → Action S Json) : Action S Json :=
  if params.all (hasParam req) then act (queryOf req params) else pure missing

def withSearch (req : HttpRequest) (missing : Json) (act : Json → Action S Json) : Action S Json :=
  if searchParams.all (hasParam req) then do
    let searchinfo ← b.parseJson (getParam req "SearchInfo")
    act (searchOf req searchinfo)
  else pure missing

/-- The token goes into the body's JSON. -/
def withBody (req : HttpRequest) (act : Json → Action S Json) : Action S Json := do
  let jsonvalue ← b.parseJson req.body_
  let jsonvalue ← jsonvalue.set "Token" (tokenOf req)
  act jsonvalue

/-- The token goes into a member of the body's JSON, and the member is passed on. -/
def withMember (req : HttpRequest) (k : String) (act : Json → Action S Json) : Action S Json := do
  let jsonvalue ← b.parseJson req.body_
  let info ← (← jsonvalue.index k).set "Token" (tokenOf req)
  act info

/-! ## Handlers -/

section handlers

variable (req : HttpRequest)

def doRegisterUser : Action S Json := do
  let jsonvalue ← b.parseJson req.body_
  Control.RegisterUser b jsonvalue

def doLoginUser : Action S Json := do
  let jsonvalue ← b.parseJson req.body_
  Control.LoginUser b jsonvalue

def doGetUserInfoByToken : Action S Json :=
  Control.LoginUserByToken b (.object [("Token", tokenOf req)])

def doGetUserRank : Action S Json :=
  withParams req ["Page", "PageSize"] missingParam (Control.SelectUserRank b)

def doGetUserInfo : Action S Json :=
  withParams req ["UserId"] missingParam (Control.SelectUserInfo b)

def doUpdateUserInfo : Action S Json := withBody b req (Control.UpdateUserInfo b)

def doGetUserUpdateInfo : Action S Json :=
  withParams req ["UserId"] missingParam (Control.SelectUserUpdateInfo b)

def doGetUserSetInfo : Action S Json :=
  withParams req ["Page", "PageSize"] missingParam (Control.SelectUserSetInfo b)

/-- A parameter and a body: the id of the one is put into the JSON of the other. -/
def doDeleteUser : Action S Json :=
  if hasParam req "UserId" then do
    let jsonvalue ← b.parseJson req.body_
    let jsonvalue ← jsonvalue.set "UserId" (.string (getParam req "UserId"))
    let jsonvalue ← jsonvalue.set "Token" (tokenOf req)
    Control.DeleteUser b jsonvalue
  else pure missingParam

def doGetProblem : Action S Json :=
  withParams req ["ProblemId"] missingParam (Control.SelectProblem b)

def doGetProblemList : Action S Json := withSearch b req wrongParam (Control.SelectProblemList b)

def doGetProblemListByAdmin : Action S Json :=
  withParams req ["Page", "PageSize"] wrongParam (Control.SelectProblemListByAdmin b)

def doGetProblemInfo : Action S Json :=
  withParams req ["ProblemId"] wrongParam (Control.SelectProblemInfoByAdmin b)

def doEditProblem : Action S Json := withMember b req "datainfo" (Control.EditProblem b)

def doDeleteProblem : Action S Json :=
  withParams req ["ProblemId"] wrongParam (Control.DeleteProblem b)

def doPostCode : Action S Json := withBody b req (Control.GetJudgeCode b)

def doGetStatusRecordList : Action S Json :=
  withSearch b req missingParam (Control.SelectStatusRecordList b)

def doGetStatusRecord : Action S Json :=
  withParams req ["SubmitId"] missingParam (Control.SelectStatusRecord b)

def doGetAnnouncementList : Action S Json :=
  withParams req ["Page", "PageSize"] missingParam (Control.SelectAnnouncementList b)

def doGetAnnouncementListByAdmin : Action S Json :=
  withParams req ["Page", "PageSize"] missingParam (Control.SelectAnnouncementListByAdmin b)

def doGetAnnouncement : Action S Json :=
  withParams req ["AnnouncementId"] missingParam (Control.SelectAnnouncement b)

def doSelectAnnouncement : Action S Json :=
  withParams req ["AnnouncementId"] missingParam (Control.SelectAnnouncementByEdit b)

def doInsertAnnouncement : Action S Json := withBody b req (Control.InsertAnnouncement b)

def doUpdateAnnouncement : Action S Json := withBody b req (Control.UpdateAnnouncement b)

def doDeleteAnnouncement : Action S Json :=
  withParams req ["AnnouncementId"] missingParam (Control.DeleteAnnouncement b)

def doGetSolutionList : Action S Json := withSearch b req missingParam (Control.SelectSolutionList b)

def doGetSolutionListByAdmin : Action S Json :=
  withParams req ["Page", "PageSize"] missingParam (Control.SelectSolutionListByAdmin b)

def doGetSolution : Action S Json :=
  withParams req ["SolutionId"] missingParam (Control.SelectSolution b)

def doSelectSolutionByEdit : Action S Json :=
  withParams req ["SolutionId"] missingParam (Control.SelectSolutionByEdit b)

def doInsertSolution : Action S Json := withBody b req (Control.InsertSolution b)

def doUpdateSolution : Action S Json := withBody b req (Control.UpdateSolution b)

def doDeleteSolution : Action S Json :=
  withParams req ["SolutionId", "UserId"] missingParam (Control.DeleteSolution b)

def doGetDiscussList : Action S Json := withSearch b req missingParam (Control.SelectDiscussList b)

def doGetDiscussListByAdmin : Action S Json :=
  withParams req ["Page", "PageSize"] missingParam (Control.SelectDiscussListByAdmin b)

def doGetDiscuss : Action S Json :=
  withParams req ["DiscussId"] missingParam (Control.SelectDiscuss b)

def doSelectDiscussByEdit : Action S Json :=
  withParams req ["DiscussId"] missingParam (Control.SelectDiscussByEdit b)

def doInsertDiscuss : Action S Json := withBody b req (Control.InsertDiscuss b)

def doUpdateDiscuss : Action S Json := withBody b req (Control.UpdateDiscuss b)

def doDeleteDiscuss : Action S Json :=
  withParams req ["DiscussId", "UserId"] missingParam (Control.DeleteDiscuss b)

def doSelectCommentListByAdmin : Action S Json :=
  withParams req ["Page", "PageSize"] missingParam (Control.SelectCommentListByAdmin b)

def doGetComment : Action S Json :=
  withParams req ["Type", "ParentId", "Page", "PageSize", "SonNum"] missingParam (Control.GetComment b)

def doInsertComment : Action S Json := withMember b req "Info" (Control.InsertComment b)

def doDeleteComment : Action S Json :=
  withParams req ["ArticleId", "CommentId"] missingParam (Control.DeleteComment b)

end handlers

/-! ## Routes -/

inductive Handler where
  | doRegisterUser
  | doLoginUser
  | doGetUserInfoByToken
  | doGetUserRank
  | doGetUserInfo
  | doUpdateUserInfo
  | doGetUserUpdateInfo
  | doGetUserSetInfo
  | doDeleteUser
  | doGetProblem
  | doGetProblemList
  | doGetProblemListByAdmin
  | doGetProblemInfo
  | doEditProblem
  | doDeleteProblem
  | doGetStatusRecordList
  | doGetStatusRecord
  | doPostCode
  | doGetAnnouncementList
  | doGetAnnouncementListByAdmin
  | doGetAnnouncement
  | doSelectAnnouncement
  | doInsertAnnouncement
  | doUpdateAnnouncement
  | doDeleteAnnouncement
  | doGetSolutionList
  | doGetSolutionListByAdmin
  | doGetSolution
  | doSelectSolutionByEdit
  | doInsertSolution
  | doUpdateSolution
  | doDeleteSolution
  | doGetDiscussList
  | doGetDiscussListByAdmin
  | doGetDiscuss
  | doSelectDiscussByEdit
  | doInsertDiscuss
  | doUpdateDiscuss
  | doDeleteDiscuss
  | doSelectCommentListByAdmin
  | doGetComment
  | doInsertComment
  | doDeleteComment
  deriving DecidableEq, Repr

/-- The result a handler puts together. -/
def Handler.run (req : HttpRequest) : Handler → Action S Json
  | .doRegisterUser => Oj.doRegisterUser b req
  | .doLoginUser => Oj.doLoginUser b req
  | .doGetUserInfoByToken => Oj.doGetUserInfoByToken b req
  | .doGetUserRank => Oj.doGetUserRank b req
  | .doGetUserInfo => Oj.doGetUserInfo b req
  | .doUpdateUserInfo => Oj.doUpdateUserInfo b req
  | .doGetUserUpdateInfo => Oj.doGetUserUpdateInfo b req
  | .doGetUserSetInfo => Oj.doGetUserSetInfo b req
  | .doDeleteUser => Oj.doDeleteUser b req
  | .doGetProblem => Oj.doGetProblem b req
  | .doGetProblemList => Oj.doGetProblemList b req
  | .doGetProblemListByAdmin => Oj.doGetProblemListByAdmin b req
  | .doGetProblemInfo => Oj.doGetProblemInfo b req
  | .doEditProblem => Oj.doEditProblem b req
  | .doDeleteProblem => Oj.doDeleteProblem b req
  | .doGetStatusRecordList => Oj.doGetStatusRecordList b req
  | .doGetStatusRecord => Oj.doGetStatusRecord b req
  | .doPostCode => Oj.doPostCode b req
  | .doGetAnnouncementList => Oj.doGetAnnouncementList b req
  | .doGetAnnouncementListByAdmin => Oj.doGetAnnouncementListByAdmin b req
  | .doGetAnnouncement => Oj.doGetAnnouncement b req
  | .doSelectAnnouncement => Oj.doSelectAnnouncement b req
  | .doInsertAnnouncement => Oj.doInsertAnnouncement b req
  | .doUpdateAnnouncement => Oj.doUpdateAnnouncement b req
  | .doDeleteAnnouncement => Oj.doDeleteAnnouncement b req
  | .doGetSolutionList => Oj.doGetSolutionList b req
  | .doGetSolutionListByAdmin => Oj.doGetSolutionListByAdmin b req
  | .doGetSolution => Oj.doGetSolution b req
  | .doSelectSolutionByEdit => Oj.doSelectSolutionByEdit b req
  | .doInsertSolution => Oj.doInsertSolution b req
  | .doUpdateSolution => Oj.doUpdateSolution b req
  | .doDeleteSolution => Oj.doDeleteSolution b req
  | .doGetDiscussList => Oj.doGetDiscussList b req
  | .doGetDiscussListByAdmin => Oj.doGetDiscussListByAdmin b req
  | .doGetDiscuss => Oj.doGetDiscuss b req
  | .doSelectDiscussByEdit => Oj.doSelectDiscussByEdit b req
  | .doInsertDiscuss => Oj.doInsertDiscuss b req
  | .doUpdateDiscuss => Oj.doUpdateDiscuss b req
  | .doDeleteDiscuss => Oj.doDeleteDiscuss b req
  | .doSelectCommentListByAdmin => Oj.doSelectCommentListByAdmin b req
  | .doGetComment => Oj.doGetComment b req
  | .doInsertComment => Oj.doInsertComment b req
  | .doDeleteComment => Oj.doDeleteComment b req

def get_map_ : List (String × Handler) :=
  [("/user/tokenlogin", .doGetUserInfoByToken),
    ("/user/rank", .doGetUserRank),
    ("/user/home", .doGetUserInfo),
    ("/user/updateinfo", .doGetUserUpdateInfo),
    ("/userset", .doGetUserSetInfo),
    ("/problem", .doGetProblem),
    ("/problemlist", .doGetProblemList),
    ("/problemlist/admin", .doGetProblemListByAdmin),
    ("/problem/select", .doGetProblemInfo),
    ("/statusrecordlist", .doGetStatusRecordList),
    ("/statusrecord", .doGetStatusRecord),
    ("/announcementlist", .doGetAnnouncementList),
    ("/announcementlist/admin", .doGetAnnouncementListByAdmin),
    ("/announcement", .doGetAnnouncement),
    ("/announcement/select", .doSelectAnnouncement),
    ("/solutionlist", .doGetSolutionList),
    ("/solutionlist/admin", .doGetSolutionListByAdmin),
    ("/solution", .doGetSolution),
    ("/solution/select", .doSelectSolutionByEdit),
    ("/discusslist", .doGetDiscussList),
    ("/discusslist/admin", .doGetDiscussListByAdmin),
    ("/discuss", .doGetDiscuss),
    ("/discuss/select", .doSelectDiscussByEdit),
    ("/commentlist/admin", .doSelectCommentListByAdmin),
    ("/comment", .doGetComment)]

def post_map_ : List (String × Handler) :=
  [("/user/register", .doRegisterUser),
    ("/user/login", .doLoginUser),
    ("/user/update", .doUpdateUserInfo),
    ("/user", .doDeleteUser),
    ("/problem/edit", .doEditProblem),
    ("/problem", .doDeleteProblem),
    ("/problemcode", .doPostCode),
    ("/announcement/insert", .doInsertAnnouncement),
    ("/announcement/update", .doUpdateAnnouncement),
    ("/announcement", .doDeleteAnnouncement),
    ("/solution/insert", .doInsertSolution),
    ("/solution/update", .doUpdateSolution),
    ("/solution", .doDeleteSolution),
    ("/discuss/insert", .doInsertDiscuss),
    ("/discuss/update", .doUpdateDiscuss),
    ("/discuss", .doDeleteDiscuss),
    ("/comment/insert", .doInsertComment),
    ("/comment", .doDeleteComment)]

/-- `map.find(path)`. -/
def findPath (path : Bytes) : List (String × Handler) → Option Handler
  | [] => none
  | (p, handler) :: routes => if path = bytes p then some handler else findPath path routes

/-- The handler of a request, if it has one. -/
def handlerOf (req : HttpRequest) : Option Handler :=
  if req.method_ = .kGet then findPath req.path_ get_map_
  else if req.method_ = .kPost then findPath req.path_ post_map_
  else none

/-! ## Responses -/

/-- The status for a result; it is written over in `onRequest`. -/
def statusOf (result : Bytes) (statusCode : Int) : Int :=
  if result = bytes "400" then 400
  else if result = bytes "401" then 401
  else if result = bytes "500" then 500
  else statusCode

/-- The JSON is const: a result that is missing is not read as `null`. -/
def SetResponseStatus (json : Json) (resp : HttpResponse) : Except Exception HttpResponse := do
  let result ← (← json.constIndex "Result").getString
  return { resp with statusCode_ := statusOf result resp.statusCode_ }

/-- The two lines every handler ends with. -/
def respond (resjson : Json) (resp : HttpResponse) : Except Exception HttpResponse := do
  let resp ← SetResponseStatus resjson resp
  resjson.dump
  return { resp with body_ := b.dumpText resjson }

/-- `setStatusCode`, `setStatusMessage` and `setContentType` at the end of `onRequest`. -/
def finishResponse (resp : HttpResponse) : HttpResponse :=
  { resp with
    statusCode_ := 200
    statusMessage_ := bytes "OK"
    headers_ := (bytes "Content-Type", bytes "application/json") ::
      resp.headers_.filter fun h => h.1 ≠ bytes "Content-Type" }

/-- `OJServer::onRequest`. -/
def onRequest (req : HttpRequest) (resp : HttpResponse) : Action S HttpResponse := do
  match handlerOf req with
  | none => return finishResponse resp
  | some handler =>
      let resjson ← handler.run b req
      let resp ← respond b resjson resp
      return finishResponse resp

end Oj
end Myoj
