import Myoj.Oj.ProblemList
import Myoj.Oj.UserList

/-!
# Control — one function for each request, behind its permission check

The functions pass the request JSON on to the lists; where a list only forwards to `MoDB`, the call is
to `MoDB`.
-/

namespace Myoj
namespace Oj

/-- `m_resjson`, as the database functions read it: the status is a number. -/
def testInfoJson (t : Judge.TestInfo) : Json :=
  .object [("RunTime", .string t.RunTime), ("RunMemory", .string t.RunMemory),
    ("StandardInput", .string t.StandardInput), ("StandardOutput", .string t.StandardOutput),
    ("PersonalOutput", .string t.PersonalOutput),
    ("Status", match t.Status with
      | none => .null
      | some status => .ofInt status.toNat)]

def reportJson (report : Judge.Judger.Report) : Json :=
  let json : Json := .object [("SubmitId", .string report.SubmitId),
    ("Status", .ofInt report.Status.toNat), ("ComplierInfo", .string report.ComplierInfo),
    ("RunTime", .string report.RunTime), ("RunMemory", .string report.RunMemory),
    ("Length", .string report.Length)]
  MoDB.pushDocs "TestInfo" json (report.TestInfo.map testInfoJson)

namespace Control

open Effect

variable {S : Type} (b : Backend S)

/-- The answer to whoever is not allowed. -/
def NoPermission : Json := failure "401" "无权限"

/-- `if (!check(json)) return NoPermission; return act(json);` -/
def guarded (check : Json → Action S (Bool × Json)) (act : Json → Action S Json) (json : Json) :
    Action S Json := do
  let (allowed, json) ← check json
  if allowed then act json else return NoPermission

/-! ## Users -/

def RegisterUser : Json → Action S Json := UserList.RegisterUser b

def LoginUser : Json → Action S Json := UserList.LoginUser b

def LoginUserByToken : Json → Action S Json := UserList.LoginUserByToken b

def SelectUserRank : Json → Action S Json := MoDB.SelectUserRank b

def SelectUserInfo : Json → Action S Json := MoDB.SelectUserInfo b

def UpdateUserInfo : Json → Action S Json := guarded (UserList.IsAuthor b) (MoDB.UpdateUserInfo b)

def SelectUserUpdateInfo : Json → Action S Json :=
  guarded (UserList.IsAuthor b) (MoDB.SelectUserUpdateInfo b)

def SelectUserSetInfo : Json → Action S Json :=
  guarded (UserList.IsAdministrator b) (MoDB.SelectUserSetInfo b)

def DeleteUser : Json → Action S Json :=
  guarded (UserList.IsAdministrator b) (UserList.DeleteUser b)

/-! ## Problems -/

def SelectProblemInfoByAdmin : Json → Action S Json :=
  guarded (UserList.IsAdministrator b) (ProblemList.SelectProblemInfoByAdmin b)

def SelectProblem : Json → Action S Json := ProblemList.SelectProblem b

/-- The two kinds of edit; another `EditType` leaves the result `null`. -/
def editProblem (insertjson : Json) : Action S Json := do
  let edittype ← insertjson.stringAt "EditType"
  let resjson ←
    if edittype = bytes "Insert" then ProblemList.InsertProblem b insertjson
    else if edittype = bytes "Update" then ProblemList.UpdateProblem b insertjson
    else pure Json.null
  Tag.InitProblemTags b
  return resjson

def EditProblem : Json → Action S Json := guarded (UserList.IsAdministrator b) (editProblem b)

def DeleteProblem : Json → Action S Json :=
  guarded (UserList.IsAdministrator b) (ProblemList.DeleteProblem b)

def SelectProblemList : Json → Action S Json := MoDB.SelectProblemList b

def SelectProblemListByAdmin : Json → Action S Json :=
  guarded (UserList.IsAdministrator b) (MoDB.SelectProblemListByAdmin b)

/-- The members of `runjson`. -/
def runMembers : List String :=
  ["UserId", "UserNickName", "ProblemTitle", "Code", "SubmitId", "ProblemId", "Language", "JudgeNum",
    "TimeLimit", "MemoryLimit"]

/-- Judge a submission, record it, and count it for the problem and the user. -/
def GetJudgeCode (judgejson : Json) : Action S Json := do
  let members ← runMembers.mapM fun k => do return (k, ← judgejson.index k)
  let (machine, judgeResult) ← affect b.judging
  let (report, _) ← Judge.Judger.Run machine judgeResult (.object members)
  let json := reportJson report
  let _ ← MysqlDataBase.InsertStatusRecord b json
  let updatejson : Json := .object [("ProblemId", ← judgejson.index "ProblemId"),
    ("Status", json.member "Status")]
  let _ ← MysqlDataBase.UpdateProblemStatusNum b updatejson
  let updatejson := updatejson.put "UserId" (← judgejson.index "UserId")
  let isFirstAC ← MysqlDataBase.UpdateUserProblemInfo b updatejson
  return .object [("IsFirstAC", .boolean isFirstAC), ("Result", .str "Success"),
    ("Status", json.member "Status"), ("ComplierInfo", json.member "ComplierInfo")]

def SelectStatusRecordList : Json → Action S Json := MoDB.SelectStatusRecordList b

def SelectStatusRecord : Json → Action S Json := StatusRecordList.SelectStatusRecord b

/-! ## Comments -/

def SelectCommentListByAdmin : Json → Action S Json :=
  guarded (UserList.IsAdministrator b) (MoDB.SelectCommentListByAdmin b)

def GetComment (queryjson : Json) : Action S Json := do
  if (← queryjson.stringAt "Type") = bytes "Father" then MoDB.getFatherComment b queryjson
  else MoDB.getSonComment b queryjson

/-- The number of comments of the article a comment belongs to. -/
def updateArticleComments (articletype : Bytes) (updatejson : Json) : Action S Unit := do
  if articletype = bytes "Discuss" then
    let _ ← MoDB.UpdateDiscussComments b updatejson
  else if articletype = bytes "Solution" then
    let _ ← MoDB.UpdateSolutionComments b updatejson
  else if articletype = bytes "Announcement" then
    let _ ← MoDB.UpdateAnnouncementComments b updatejson

/-- The article is counted up before the comment is inserted. -/
def insertComment (insertjson : Json) : Action S Json := do
  let updatejson : Json := .object [("ArticleId", ← insertjson.index "ArticleId"),
    ("Num", .ofInt 1)]
  updateArticleComments b (← insertjson.stringAt "ArticleType") updatejson
  if (← insertjson.stringAt "Type") = bytes "Father" then MoDB.InsertFatherComment b insertjson
  else MoDB.InsertSonComment b insertjson

def InsertComment : Json → Action S Json :=
  guarded (UserList.IsOrdinaryUser b) (insertComment b)

/-- Try the comment as a father, then as a son, then count the article down. -/
def deleteComment (deletejson : Json) : Action S Json := do
  let articleid ← deletejson.stringAt "ArticleId"
  let json ← MoDB.DeleteFatherComment b deletejson
  let json ←
    if (← json.index "Result").eqString "Fail" then MoDB.DeleteSonComment b deletejson
    else pure json
  if (← json.index "Result").eqString "Fail" then
    return failure "Fail" "数据库未查询到数据！"
  else
    let num ← json.intAt "DeleteNum"
    let articlejson : Json := .object [("Num", .ofInt (-num).toInt), ("ArticleId", .string articleid)]
    updateArticleComments b (← json.stringAt "ArticleType") articlejson
    return success .null

def DeleteComment : Json → Action S Json :=
  guarded (UserList.IsOrdinaryUser b) (deleteComment b)

/-- Delete an article, and its comments when it was there. -/
def deleteArticle (delete : Json → Action S Json) (idField : String) (deletejson : Json) :
    Action S Json := do
  let resjson ← delete deletejson
  if (← resjson.stringAt "Result") = bytes "Success" then
    let json : Json := .object [("ArticleId", ← deletejson.index idField)]
    let _ ← MoDB.DeleteArticleComment b json
  return resjson

/-! ## Announcements -/

def SelectAnnouncementList : Json → Action S Json := MoDB.SelectAnnouncementList b

/-- The list is the one everybody sees. -/
def SelectAnnouncementListByAdmin : Json → Action S Json :=
  guarded (UserList.IsAdministrator b) (MoDB.SelectAnnouncementList b)

def SelectAnnouncement : Json → Action S Json := MoDB.SelectAnnouncement b

def SelectAnnouncementByEdit : Json → Action S Json :=
  guarded (UserList.IsAdministrator b) (MoDB.SelectAnnouncementByEdit b)

def InsertAnnouncement : Json → Action S Json :=
  guarded (UserList.IsAdministrator b) (MoDB.InsertAnnouncement b)

def UpdateAnnouncement : Json → Action S Json :=
  guarded (UserList.IsAdministrator b) (MoDB.UpdateAnnouncement b)

def DeleteAnnouncement : Json → Action S Json :=
  guarded (UserList.IsAdministrator b) (deleteArticle b (MoDB.DeleteAnnouncement b) "AnnouncementId")

/-! ## Solutions -/

def SelectSolutionList : Json → Action S Json := MoDB.SelectSolutionList b

def SelectSolutionListByAdmin : Json → Action S Json :=
  guarded (UserList.IsAdministrator b) (MoDB.SelectSolutionListByAdmin b)

def SelectSolution : Json → Action S Json := MoDB.SelectSolution b

def SelectSolutionByEdit : Json → Action S Json :=
  guarded (UserList.IsOrdinaryUser b) (MoDB.SelectSolutionByEdit b)

def InsertSolution : Json → Action S Json :=
  guarded (UserList.IsOrdinaryUser b) (MoDB.InsertSolution b)

def UpdateSolution : Json → Action S Json := guarded (UserList.IsAuthor b) (MoDB.UpdateSolution b)

def DeleteSolution : Json → Action S Json :=
  guarded (UserList.IsAuthor b) (deleteArticle b (MoDB.DeleteSolution b) "SolutionId")

/-! ## Discussions -/

def SelectDiscussList : Json → Action S Json := MoDB.SelectDiscussList b

def SelectDiscussListByAdmin : Json → Action S Json :=
  guarded (UserList.IsAdministrator b) (MoDB.SelectDiscussListByAdmin b)

def SelectDiscuss : Json → Action S Json := MoDB.SelectDiscuss b

def SelectDiscussByEdit : Json → Action S Json :=
  guarded (UserList.IsOrdinaryUser b) (MoDB.SelectDiscussByEdit b)

def InsertDiscuss : Json → Action S Json :=
  guarded (UserList.IsOrdinaryUser b) (MoDB.InsertDiscuss b)

def UpdateDiscuss : Json → Action S Json := guarded (UserList.IsAuthor b) (MoDB.UpdateDiscuss b)

def DeleteDiscuss : Json → Action S Json :=
  guarded (UserList.IsAuthor b) (deleteArticle b (MoDB.DeleteDiscuss b) "DiscussId")

end Control
end Oj
end Myoj
