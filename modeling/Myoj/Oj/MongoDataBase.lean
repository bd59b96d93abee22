import Myoj.Oj.Mongo

/-!
# MongoDataBase — the functions of `MoDB` the server calls

Each is a program of `Mongo` at its own collection, fields and texts, or is written out where it is
like no other.
-/

namespace Myoj
namespace Oj
namespace MoDB

open Effect

variable {S : Type} (b : Backend S)

/-! ## Users -/

/-- `resjson["ArrayInfo"][i]["Rank"] = currank++`. -/
def ranked (currank : Int32) : List Json → List Json
  | [] => []
  | doc :: docs => doc.put "Rank" (.ofInt currank.toInt) :: ranked (currank + 1) docs

def SelectUserRank (queryjson : Json) : Action S Json :=
  pagedList b .User (pageOf [] queryjson) [.sort [("ACNum", -1), ("SubmitNum", 1)]] []
    ["Avatar", "NickName", "PersonalProfile", "SubmitNum", "ACNum"] [] "数据库异常！"
    fun page resjson docs =>
      -- asking for the size of a missing array makes it a `null` member
      success (resjson.put "ArrayInfo"
        (if docs.isEmpty then .null else .array (ranked (page.skip + 1) docs)))

def SelectUserInfo (queryjson : Json) : Action S Json :=
  selectById b .User "UserId" false []
    ["Avatar", "NickName", "PersonalProfile", "School", "Major", "JoinTime", "Solves", "ACNum",
      "SubmitNum"]
    "数据库未查询到该信息！" "数据库异常！" queryjson

def UpdateUserInfo (updatejson : Json) : Action S Json :=
  orElse500 .null "数据库异常！" do
    let userid ← updatejson.int64At "UserId"
    let avatar ← updatejson.stringAt "Avatar"
    let personalprofile ← updatejson.stringAt "PersonalProfile"
    let school ← updatejson.stringAt "School"
    let major ← updatejson.stringAt "Major"
    updateById b .User userid (.set [("Avatar", .field avatar),
      ("PersonalProfile", .field personalprofile), ("School", .field school),
      ("Major", .field major)])

def SelectUserUpdateInfo (queryjson : Json) : Action S Json :=
  selectById b .User "UserId" false [] ["Avatar", "NickName", "PersonalProfile", "School", "Major"]
    "数据库未查询到该信息！" "数据库异常！" queryjson

/-- The fields of a line of the user list. -/
def userSetFields : List String := ["NickName", "PersonalProfile", "School", "Major", "JoinTime"]

def SelectUserSetInfo (queryjson : Json) : Action S Json :=
  countedList b .User
    (do
      let page ← pageOf [] queryjson
      return ([], [.skip page.skip, .limit page.limit, .project userSetFields []]))
    "ArrayInfo" userSetFields success

def DeleteUser (deletejson : Json) : Action S Json :=
  deleteById b .User "UserId" "数据库未查询到该数据！" deletejson

/-! ## Problems -/

/-- The fields of a problem an administrator edits. -/
def problemInfoFields : List String :=
  ["Title", "Description", "TimeLimit", "MemoryLimit", "JudgeNum", "UserNickName", "Tags"]

def SelectProblemInfoByAdmin (queryjson : Json) : Action S Json :=
  selectById b .Problem "ProblemId" false [] problemInfoFields
    "数据库未查询到该信息！" "数据库异常！" queryjson

def SelectProblem (queryjson : Json) : Action S Json :=
  selectById b .Problem "ProblemId" false []
    ["Title", "Description", "TimeLimit", "MemoryLimit", "JudgeNum", "SubmitNum", "ACNum",
      "UserNickName", "Tags"]
    "数据库未查询到该信息！" "数据库出错啦！" queryjson

/-- The members an administrator fills in. -/
def problemMembers (json : Json) : Except Exception (List (String × Json)) := do
  let title ← json.stringAt "Title"
  let description ← json.stringAt "Description"
  let timelimit ← json.intAt "TimeLimit"
  let memorylimit ← json.intAt "MemoryLimit"
  let judgenum ← json.intAt "JudgeNum"
  let usernickname ← json.stringAt "UserNickName"
  let tags ← stringsOf (← json.index "Tags")
  return [("Title", .field title), ("Description", .field description),
    ("TimeLimit", .ofInt timelimit.toInt), ("MemoryLimit", .ofInt memorylimit.toInt),
    ("JudgeNum", .ofInt judgenum.toInt), ("UserNickName", .field usernickname),
    ("Tags", .array (tags.map Json.field))]

/-- The counters of a new problem. -/
def problemCounters : List (String × Json) :=
  ["SubmitNum", "CENum", "ACNum", "WANum", "RENum", "TLENum", "MLENum", "SENum"].map
    fun k => (k, .ofInt 0)

/-- The result of the insertion: the new id is a number. -/
def insertedProblem (problemid : Int32) (inserted : Nat) : Json :=
  if inserted < 1 then failure "Fail" "数据库插入失败！"
  else (success .null).put "ProblemId" (.ofInt problemid.toInt)

def InsertProblem (insertjson : Json) : Action S Json :=
  orElse500 .null "数据库异常！" do
    -- `int problemid`
    let problemid := (← nextProblemId).toInt32
    let members ← problemMembers insertjson
    let inserted ← call (b.insert_one .Problem problemid.toInt64 (members ++ problemCounters))
    return insertedProblem problemid inserted

def UpdateProblem (updatejson : Json) : Action S Json :=
  orElse500 .null "数据库异常！" do
    let problemid ← updatejson.intAt "ProblemId"
    let members ← problemMembers updatejson
    updateById b .Problem problemid.toInt64 (.set members)

def DeleteProblem (deletejson : Json) : Action S Json :=
  deleteById b .Problem "ProblemId" "数据库未查询到该数据！" deletejson

/-- The matches of a search for problems. -/
def problemPage (queryjson : Json) : Except Exception Page := do
  let searchinfo ← queryjson.index "SearchInfo"
  let page ← pageOf [] queryjson
  let id ← searched searchinfo "Id" fun text => .ok (.matching "_id" (.ofInt (mystoi text)))
  let title ← searched searchinfo "Title" fun text => .ok (.regex "Title" text)
  let tags ← stringsOf (← searchinfo.index "Tags")
  return { page with
    filter := id ++ title ++ if tags.isEmpty then [] else [.oneOf "Tags" tags] }

/-- The fields of a line of the problem list. -/
def problemFields : List String :=
  ["ProblemId", "Title", "SubmitNum", "CENum", "ACNum", "WANum", "RENum", "TLENum", "MLENum",
    "SENum", "Tags"]

/-- The success is written under `Reuslt`. -/
def SelectProblemList (queryjson : Json) : Action S Json :=
  pagedList b .Problem (problemPage queryjson) [.sort [("_id", 1)]] [] problemFields
    [("ProblemId", "$_id")] "数据库出错啦！"
    fun _ resjson docs => (pushDocs "ArrayInfo" resjson docs).put "Reuslt" (.str "Success")

/-- `resjson["ArrayInfo"] = arryjson`, `null` when there are no documents. -/
def assignDocs (resjson : Json) (docs : List Json) : Json :=
  resjson.put "ArrayInfo" (if docs.isEmpty then .null else .array docs)

def SelectProblemListByAdmin (queryjson : Json) : Action S Json :=
  pagedList b .Problem (pageOf [] queryjson) [.sort [("_id", 1)]] [] problemFields
    [("ProblemId", "$_id")] "数据库出错啦！" fun _ resjson docs => assignDocs resjson docs

/-- The last document of `distinct`; nothing is caught. -/
def getProblemTags : Action S Json := do
  let docs ← call (b.distinct .Problem "Tags")
  match docs.getLast? with
  | none => return .null
  | some doc => return .object doc.members

/-! ## Status records -/

/-- The matches of a search for status records. -/
def statusRecordPage (queryjson : Json) : Except Exception Page := do
  let searchinfo ← queryjson.index "SearchInfo"
  let page ← pageOf [] queryjson
  let problemid ← searched searchinfo "ProblemId" fun text =>
    .ok (.matching "ProblemId" (.ofInt (mystoll text)))
  let userid ← searched searchinfo "UserId" fun text => do
    return .matching "UserId" (.ofInt (← stoll text).toInt)
  let title ← searched searchinfo "ProblemTitle" fun text => .ok (.regex "ProblemTitle" text)
  let status ← searched searchinfo "Status" fun text => do
    return .matching "Status" (.ofInt (← stoi text).toInt)
  let language ← searched searchinfo "Language" fun text =>
    .ok (.matching "Language" (.string text))
  return { page with filter := problemid ++ userid ++ title ++ status ++ language }

/-- The fields of a line of the list of records. -/
def recordFields : List String :=
  ["ProbleId", "UserId", "UserNickName", "ProblemTitle", "Status", "RunTime", "RunMemory", "Length",
    "Language", "SubmitTime"]

def SelectStatusRecordList (queryjson : Json) : Action S Json :=
  pagedList b .StatusRecord (statusRecordPage queryjson) [.sort [("SubmitTime", -1)]] []
    recordFields [] "数据库异常！" fun _ resjson docs => assignDocs resjson docs

/-- The fields of a status record the page shows. -/
def statusRecordFields : List String := ["Status", "Language", "Code", "ComplierInfo", "TestInfo"]

/-- A missing record is not told apart: the result is a success without members. -/
def SelectStatusRecord (queryjson : Json) : Action S Json :=
  orElse500 .null "数据库异常！" do
    let submitid ← queryjson.int64At "SubmitId"
    let docs ← call (b.aggregate .StatusRecord [byId submitid, .project statusRecordFields []])
    return success (lastDoc statusRecordFields docs)

/-! ## Discussions -/

/-- The counters and times of a new article. -/
def articleMembers (now : Bytes) : List (String × Json) :=
  [("Views", .ofInt 0), ("Comments", .ofInt 0), ("CreateTime", .field now),
    ("UpdateTime", .field now)]

/-- `atoll(json[k].get<std::string>().data())`. -/
def atollAt (json : Json) (k : String) : Except Exception Json := do
  return .ofInt (Numerals.atoll (← json.stringAt k))

def InsertDiscuss (insertjson : Json) : Action S Json :=
  orElse500 .null "数据库异常！" do
    let id ← nextArticleId
    let title ← insertjson.stringAt "Title"
    let content ← insertjson.stringAt "Content"
    let parentid ← atollAt insertjson "ParentId"
    let userid ← atollAt insertjson "UserId"
    let now ← observe b.GetTime
    insertOne b .Discuss id ([("Title", .field title), ("Content", .field content),
      ("ParentId", parentid), ("UserId", userid)] ++ articleMembers now.1)

/-- The fields of a line of an article list, and those an administrator sees. -/
def articleFields : List String :=
  ["Title", "Views", "Comments", "CreateTime", "User.Avatar", "User.NickName"]

def articleFieldsByAdmin : List String :=
  ["Title", "Views", "Comments", "CreateTime", "UserId", "User.Avatar", "User.NickName"]

/-- The fields of an article's page. -/
def articlePage : List String :=
  ["Title", "Content", "Views", "Comments", "CreateTime", "UpdateTime", "User._id", "User.Avatar",
    "User.NickName"]

/-- The ids an article list is searched by. -/
def articleIds (queryjson : Json) : Except Exception (Int64 × Int64) := do
  let parentid ← (← queryjson.index "SearchInfo").int64At "ParentId"
  let userid ← (← queryjson.index "SearchInfo").int64At "UserId"
  return (parentid, userid)

/-- The match on an id that is given. -/
def matchId (field : String) (id : Int64) : List Stage :=
  if id > 0 then [.matching field (.ofInt id.toInt)] else []

def SelectDiscussList (queryjson : Json) : Action S Json :=
  pagedList b .Discuss
    (do
      let (parentid, userid) ← articleIds queryjson
      let fathers := if parentid = 0 ∧ userid = 0 then [.matching "ParentId" (.ofInt 0)] else []
      pageOf (matchId "ParentId" parentid ++ matchId "UserId" userid ++ fathers) queryjson)
    [.sort [("CreateTime", -1)]] [.lookupUser "UserId" "User"] articleFields [] "数据库异常！"
    fun _ resjson docs => success (pushDocs "ArrayInfo" resjson docs)

def SelectDiscussListByAdmin (queryjson : Json) : Action S Json :=
  pagedList b .Discuss (pageOf [] queryjson) [.sort [("CreateTime", -1)]]
    [.lookupUser "UserId" "User"] articleFieldsByAdmin [] "数据库异常！"
    fun _ resjson docs => pushDocs "ArrayInfo" resjson docs

def SelectDiscussByEdit (queryjson : Json) : Action S Json :=
  selectById b .Discuss "DiscussId" false [] ["Title", "UserId", "Content"]
    "数据库未查询到数据！" "数据库异常！" queryjson

def SelectDiscuss (queryjson : Json) : Action S Json :=
  selectById b .Discuss "DiscussId" true [.lookupUser "UserId" "User"] articlePage
    "数据库未查询到数据，可能是请求参数错误！" "数据库异常！" queryjson

def UpdateDiscussComments (updatejson : Json) : Action S Bool := updateComments b .Discuss updatejson

def UpdateDiscuss (updatejson : Json) : Action S Json :=
  orElse500 .null "数据库异常！" do
    let discussid ← updatejson.int64At "DiscussId"
    let title ← updatejson.stringAt "Title"
    let content ← updatejson.stringAt "Content"
    let now ← observe b.GetTime
    updateById b .Discuss discussid (.set [("Title", .field title), ("Content", .field content),
      ("UpdateTime", .field now.1)])

def DeleteDiscuss (deletejson : Json) : Action S Json :=
  deleteById b .Discuss "DiscussId" "数据库删除失败！" deletejson

/-! ## Solutions -/

def InsertSolution (insertjson : Json) : Action S Json :=
  orElse500 .null "数据库异常！" do
    let id ← nextArticleId
    let title ← insertjson.stringAt "Title"
    let content ← insertjson.stringAt "Content"
    let parentid ← insertjson.int64At "ParentId"
    let userid ← insertjson.int64At "UserId"
    let ispublic ← (← insertjson.index "Public").getBool
    let now ← observe b.GetTime
    insertOne b .Solution id ([("Title", .field title), ("Content", .field content),
      ("ParentId", .ofInt parentid.toInt), ("UserId", .ofInt userid.toInt),
      ("Public", .boolean ispublic)] ++ articleMembers now.1)

def SelectSolutionList (queryjson : Json) : Action S Json :=
  pagedList b .Solution
    (do
      let (parentid, userid) ← articleIds queryjson
      let isPublic := if parentid > 0 then [.matching "Public" (.boolean true)] else []
      pageOf (matchId "ParentId" parentid ++ isPublic ++ matchId "UserId" userid) queryjson)
    [.sort [("CreateTime", -1)]] [.lookupUser "UserId" "User"] articleFields [] "数据库异常！"
    fun _ resjson docs => success (pushDocs "ArrayInfo" resjson docs)

def SelectSolutionListByAdmin (queryjson : Json) : Action S Json :=
  pagedList b .Solution (pageOf [] queryjson) [.sort [("CreateTime", -1)]]
    [.lookupUser "UserId" "User"] articleFieldsByAdmin [] "数据库异常！"
    fun _ resjson docs => pushDocs "ArrayInfo" resjson docs

def SelectSolutionByEdit (queryjson : Json) : Action S Json :=
  selectById b .Solution "SolutionId" false [] ["Title", "Content", "UserId", "Public"]
    "数据库未查询到数据！" "数据库异常！" queryjson

def SelectSolution (queryjson : Json) : Action S Json :=
  selectById b .Solution "SolutionId" true [.lookupUser "UserId" "User"] articlePage
    "数据库未查询到数据，可能是请求参数错误！" "数据库异常！" queryjson

def UpdateSolutionComments (updatejson : Json) : Action S Bool :=
  updateComments b .Solution updatejson

def UpdateSolution (updatejson : Json) : Action S Json :=
  orElse500 .null "数据库异常！" do
    let solutionid ← updatejson.int64At "SolutionId"
    let title ← updatejson.stringAt "Title"
    let content ← updatejson.stringAt "Content"
    let ispublic ← (← updatejson.index "Public").getBool
    let now ← observe b.GetTime
    updateById b .Solution solutionid (.set [("Title", .field title), ("Content", .field content),
      ("Public", .boolean ispublic), ("UpdateTime", .field now.1)])

def DeleteSolution (deletejson : Json) : Action S Json :=
  deleteById b .Solution "SolutionId" "数据库删除失败！" deletejson

/-! ## Announcements -/

def InsertAnnouncement (insertjson : Json) : Action S Json :=
  orElse500 .null "数据库异常！" do
    let id ← nextArticleId
    let title ← insertjson.stringAt "Title"
    let content ← insertjson.stringAt "Content"
    let userid ← insertjson.int64At "UserId"
    let level ← insertjson.intAt "Level"
    let now ← observe b.GetTime
    insertOne b .Announcement id ([("Title", .field title), ("Content", .field content),
      ("UserId", .ofInt userid.toInt), ("Level", .ofInt level.toInt)] ++ articleMembers now.1)

def SelectAnnouncementList (queryjson : Json) : Action S Json :=
  pagedList b .Announcement (pageOf [] queryjson)
    [.sort [("CreateTime", -1)], .sort [("Level", -1)]] []
    ["Title", "Views", "Comments", "CreateTime"] [] "数据库异常！"
    fun _ resjson docs => success (pushDocs "ArrayInfo" resjson docs)

def SelectAnnouncementByEdit (queryjson : Json) : Action S Json :=
  selectById b .Announcement "AnnouncementId" false [] ["Title", "Content", "Level"]
    "数据库未查询到数据！,可能是请求参数出错！" "数据库异常！" queryjson

def SelectAnnouncement (queryjson : Json) : Action S Json :=
  selectById b .Announcement "AnnouncementId" true []
    ["Title", "Content", "Views", "Comments", "CreateTime", "UpdateTime"]
    "数据库未查询到数据，可能是请求参数出错！" "数据库异常！" queryjson

def UpdateAnnouncementComments (updatejson : Json) : Action S Bool :=
  updateComments b .Announcement updatejson

def UpdateAnnouncement (updatejson : Json) : Action S Json :=
  orElse500 .null "数据库异常！" do
    let announcementid ← updatejson.int64At "AnnouncementId"
    let title ← updatejson.stringAt "Title"
    let content ← updatejson.stringAt "Content"
    let level ← updatejson.intAt "Level"
    let now ← observe b.GetTime
    updateById b .Announcement announcementid (.set [("Title", .field title),
      ("Content", .field content), ("Level", .ofInt level.toInt), ("UpdateTime", .field now.1)])

def DeleteAnnouncement (deletejson : Json) : Action S Json :=
  deleteById b .Announcement "AnnouncementId" "数据库删除失败！" deletejson

/-! ## Comments -/

/-- The fields of a comment an administrator sees. -/
def commentFieldsByAdmin : List String :=
  ["ParentId", "ParentType", "Content", "CreateTime", "Child_Comments._id",
    "Child_Comments.Content", "Child_Comments.CreateTime"]

/-- The filter to count and the pipeline of a page of comments. -/
def commentQueryByAdmin (queryjson : Json) : Except Exception (List Stage × List Stage) := do
  let page ← pageOf [] queryjson
  return ([], [.sort [("CreateTime", -1)], .skip page.skip, .limit page.limit,
    .project commentFieldsByAdmin []])

def SelectCommentListByAdmin (queryjson : Json) : Action S Json :=
  countedList b .Comment (commentQueryByAdmin queryjson) "ArrayInfo" commentFieldsByAdmin id

/-- The fields of a comment below an article. -/
def fatherFields : List String :=
  ["ParentId", "Content", "Likes", "CreateTime", "Child_Total", "User._id", "User.Avatar",
    "User.NickName", "Child_Comments._id", "Child_Comments.Content", "Child_Comments.Likes",
    "Child_Comments.CreateTime", "Child_Comments.User._id", "Child_Comments.User.Avatar",
    "Child_Comments.User.NickName"]

/-- The comments of an article, each with some of its sons. -/
def fatherQuery (queryjson : Json) : Except Exception (List Stage × List Stage) := do
  let parentid ← queryjson.int64At "ParentId"
  let page ← pageOf [.matching "ParentId" (.ofInt parentid.toInt)] queryjson
  let sonnum ← queryjson.intAt "SonNum"
  return (page.filter, page.filter ++ [.sort [("CreateTime", 1)], .skip page.skip,
    .limit page.limit, .childTotal, .childSlice 0 sonnum,
    .joinChildren ["ParentId", "Content", "Likes", "UserId", "CreateTime", "Child_Total"],
    .lookupUser "UserId" "User", .project fatherFields [], .sort [("CreateTime", 1)]])

def getFatherComment (queryjson : Json) : Action S Json :=
  countedList b .Comment (fatherQuery queryjson) "ArryInfo" fatherFields id

/-- The fields of a list of sons. -/
def sonFields : List String :=
  ["Child_Total", "Child_Comments._id", "Child_Comments.Content", "Child_Comments.Likes",
    "Child_Comments.CreateTime", "Child_Comments.User._id", "Child_Comments.User.NickName",
    "Child_Comments.User.Avatar"]

/-- A slice of the sons of one comment. -/
def sonQuery (queryjson : Json) : Except Exception (List Stage) := do
  let id ← queryjson.int64At "ParentId"
  let page ← pageOf [byId id] queryjson
  return page.filter ++ [.childTotal, .childSlice page.skip page.limit,
    .joinChildren ["Child_Total"], .project sonFields []]

/-- The document itself, or `null`: there is no result in it. -/
def getSonComment (queryjson : Json) : Action S Json :=
  orElse500 .null "数据库异常！" do
    let pipe ← sonQuery queryjson
    let docs ← call (b.aggregate .Comment pipe)
    return lastDoc sonFields docs

/-- What the insertion of a comment reports. -/
def inserted (id : Int64) (createtime : Bytes) : Json :=
  success ((Json.null.put "_id" (.string (Numerals.to_string id.toInt))).put "CreateTime"
    (.string createtime))

def InsertFatherComment (insertjson : Json) : Action S Json :=
  orElse500 .null "数据库异常！" do
    let id ← nextCommentId
    let parentid ← insertjson.int64At "ParentId"
    let parenttype ← insertjson.stringAt "ArticleType"
    let content ← insertjson.stringAt "Content"
    let userid ← insertjson.int64At "UserId"
    let createtime ← observe b.GetTime
    let _ ← call (b.insert_one .Comment id [("ParentId", .ofInt parentid.toInt),
      ("ParentType", .field parenttype), ("Content", .field content),
      ("UserId", .ofInt userid.toInt), ("Likes", .ofInt 0), ("CreateTime", .field createtime.1),
      ("Child_Comments", .array [])])
    return inserted id createtime.1

def InsertSonComment (insertjson : Json) : Action S Json :=
  orElse500 .null "数据库异常！" do
    let parentid ← insertjson.int64At "ParentId"
    let id ← nextCommentId
    let content ← insertjson.stringAt "Content"
    let userid ← insertjson.int64At "UserId"
    let createtime ← observe b.GetTime
    let _ ← call (b.update_one .Comment parentid (.addToSet "Child_Comments"
      (.object [("_id", .ofInt id.toInt), ("Content", .field content),
        ("UserId", .ofInt userid.toInt), ("Likes", .ofInt 0),
        ("CreateTime", .field createtime.1)])))
    return inserted id createtime.1

def DeleteArticleComment (deletejson : Json) : Action S Bool :=
  attempt
    (do
      let articleid ← deletejson.int64At "ArticleId"
      let _ ← call (b.delete_many .Comment [.matching "ParentId" (.ofInt articleid.toInt)])
      return true)
    fun _ => pure false

/-- What the deletion of a comment reports. -/
def deletedComment (num : Int) (articletype : Bytes) : Json :=
  ((success .null).put "DeleteNum" (.ofInt num)).put "ArticleType" (.string articletype)

def DeleteFatherComment (deletejson : Json) : Action S Json :=
  orElse500 .null "数据库异常！" do
    let commentid ← deletejson.int64At "CommentId"
    if (← call (b.find .Comment [byId commentid])).isEmpty then
      return failure "Fail" "数据库未查询到该评论！"
    let docs ← call (b.aggregateSized .Comment [byId commentid, .childTotal])
    let jsonvalue : Json :=
      match docs.getLast? with
      | none => .null
      | some (_, total, doc) => (Json.object doc.members).put "Child_Total" (.ofInt total)
    -- the total is a number, and a number is no string
    let sonnum ← jsonvalue.intAt "Child_Total"
    let articletype ← jsonvalue.stringAt "ParentType"
    let deleted ← call (b.delete_one .Comment commentid)
    if deleted < 1 then return failure "Fail" "数据库未查询到该数据！"
    return deletedComment (sonnum + 1).toInt articletype

def DeleteSonComment (deletejson : Json) : Action S Json :=
  orElse500 .null "数据库异常！" do
    let commentid ← deletejson.int64At "CommentId"
    let docs ← call (b.find .Comment
      [.matching "Child_Comments._id" (.ofInt commentid.toInt)])
    match docs.getLast? with
    | none => return failure "Fail" "数据库未查询到数据！"
    | some (id, doc) =>
        let jsonvalue := (Json.object doc.members).put "_id" (.ofInt id.toInt)
        -- the id is a number, and a number is no string
        let fatherid ← jsonvalue.int64At "_id"
        let articletype ← jsonvalue.stringAt "ParentType"
        let matched ← call (b.update_one .Comment fatherid (.pull "Child_Comments" commentid))
        if matched < 1 then return failure "Fail" "数据库未找到该数据！"
        return deletedComment 1 articletype

end MoDB
end Oj
end Myoj
