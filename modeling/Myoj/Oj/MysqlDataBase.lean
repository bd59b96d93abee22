import Myoj.Oj.Backend

/-!
# MysqlDataBase — users, and what is written about submissions

The texts of the SQL statements are not part of the model, only which statement is made with which
values.
-/

namespace Myoj
namespace Oj
namespace MysqlDataBase

open Effect

variable {S : Type} (b : Backend S)

def RegisterUser (registerjson : Json) : Action S Json :=
  orElse500 .null "数据库异常！" do
    let username ← registerjson.stringAt "username"
    let nickname ← registerjson.stringAt "nickname"
    let password ← registerjson.stringAt "password"
    let school ← registerjson.stringAt "school"
    let major ← registerjson.stringAt "major"
    if (← call (b.queryByUserName username)).isSome then
      return failure "Fail" "账户已存在，请重新填写！"
    if ← call (b.queryNickName nickname) then
      return failure "Fail" "昵称已存在，请重新填写！"
    let user : User :=
      { id := 0, username, nickname, password, school, major, acnum := 0, submitnum := 0 }
    match ← call (b.insertUser user) with
    | none => return failure "Fail" "数据库插入失败！"
    | some id => return (failure "Success" "注册成功！").put "Id" (.ofInt id.toInt)

/-- The members of `Info` after a login. -/
def userInfo (user : User) : Json :=
  .object [("id", .ofInt user.id.toInt), ("username", .string user.username),
    ("nickname", .string user.nickname), ("school", .string user.school),
    ("major", .string user.major), ("acnum", .ofInt user.acnum.toInt),
    ("submitnum", .ofInt user.submitnum.toInt)]

/-- The result of a login that succeeded. -/
def loggedIn (user : User) : Json :=
  (Json.null.put "Result" (.str "Success")).put "Info" (userInfo user)

def LoginUser (loginjson : Json) : Action S Json :=
  orElse500 .null "数据库异常！" do
    let username ← loginjson.stringAt "username"
    let password ← loginjson.stringAt "password"
    match ← call (b.queryByUserName username) with
    | none => return failure "Fail" "账户或密码错误！"
    | some user =>
        if user.password ≠ password then return failure "Fail" "账户或密码错误！"
        else return loggedIn user

def LoginUserByToken (loginjson : Json) : Action S Json :=
  orElse500 .null "数据库异常！" do
    let id ← loginjson.stringAt "id"
    match ← call (b.queryByUserId id) with
    | none => return failure "Fail" "不存在该用户"
    | some user => return loggedIn user

/-- `statusRecordModel::insert`: the id of the new row, if there is one. -/
def insertStatusRecord (insertjson : Json) : Action S (Option Int64) := do
  let problem_id ← (← insertjson.index "ProblemId").getInt64
  let username ← (← insertjson.index "UserId").getInt64
  let user_nickname ← insertjson.stringAt "UserNickName"
  let problem_title ← insertjson.stringAt "ProblemTitle"
  let status ← (← insertjson.index "Status").getInt
  let run_time ← insertjson.stringAt "RunTime"
  let run_memory ← insertjson.stringAt "RunMemory"
  let length ← insertjson.stringAt "Length"
  let language ← insertjson.stringAt "Language"
  let submit_time ← insertjson.stringAt "SubmitTime"
  let code ← insertjson.stringAt "Code"
  let compiler_info ← insertjson.stringAt "CompilerInfo"
  call (b.insertStatusRecord
    { problem_id, username, user_nickname, problem_title, status, run_time, run_memory, length,
      language, submit_time, code, compiler_info })

/-- The text of the new id; `"0"` when the record could not be inserted. -/
def InsertStatusRecord (insertjson : Json) : Action S Bytes :=
  attempt
    (do
      insertjson.dump
      match ← insertStatusRecord b insertjson with
      | some id => return Numerals.to_string id.toInt
      | none => return b.dumpText (insertjson.member "id"))
    fun _ => pure (bytes "0")

/-- The column of `problem` that counts a status. -/
def statusColumn (status : Int32) : String :=
  if status = 1 then "ce_num"
  else if status = 2 then "ac_num"
  else if status = 3 then "wa_num"
  else if status = 4 then "re_num"
  else if status = 5 then "tle_num"
  else if status = 6 then "mle_num"
  else if status = 7 then "se_num"
  else ""

def UpdateProblemStatusNum (updatejson : Json) : Action S Bool :=
  attempt
    (do
      let problemid ← updatejson.int64At "ProblemId"
      let status ← updatejson.intAt "Status"
      let _ ← call (b.updateProblem problemid (statusColumn status))
      return true)
    fun _ => pure false

def UpdateUserProblemInfo (updatejson : Json) : Action S Bool :=
  attempt
    (do
      let username ← updatejson.stringAt "UserId"
      let _ ← updatejson.intAt "ProblemId"
      let status ← updatejson.intAt "Status"
      let _ ← call (b.updateProblemStatus username (status = 2) 1)
      return true)
    fun _ => pure false

end MysqlDataBase
end Oj
end Myoj
