import Myoj.Oj.Recorded
import Myoj.Oj.UserModel

/-!
# StatementLengths — the buffer of a statement

Four functions of the models print a statement into `char sql[1024]`, without a look at the lengths of
what they are given.  `UserModel::insert` is reached by a registration; the other three stand behind
`GetJudgeCode`, whose calls throw before they get there.

* `Statement` — the four statements, with the values that are printed;
* `text`, `values`, `room` — the text, what of it depends on the request, and what the rest leaves;
* `Backend.printing` — a backend that notes the statements;
* `printed` — the statements a request makes;
* `statements_fit_iff` — they fit exactly when their values do, and which requests that concerns;
* `run_withModels` — no other handler makes one.
-/

namespace Myoj
namespace Oj

open Effect

/-! ## The statements -/

def acUpdate (ac : Bool) : Bytes := if ac then bytes ", ac_num=ac_num+1" else []

/-- `sprintf` in `UserModel::updateProblemStatus`; the name is not quoted. -/
def UserModel.updateProblemStatusText (username : Bytes) (ac : Bool) (submitNumAdd : Int32) : Bytes :=
  bytes "update user set submit_num=submit_num+" ++ Numerals.to_string submitNumAdd.toInt ++
    bytes " " ++ acUpdate ac ++ bytes " where username=" ++ cstr username

/-- `sprintf` in `statusRecordModel::insert`. -/
def statusRecordModel.insertText (record : StatusRecord) : Bytes :=
  bytes "INSERT INTO status_record (problem_id, username, user_nickname, problem_title, status, " ++
    bytes "run_time, run_memory, length, language, submit_time, code, compiler_info) VALUES ('" ++
    Numerals.to_string record.problem_id.toInt ++ bytes "', '" ++
    Numerals.to_string record.username.toInt ++ bytes "', '" ++ cstr record.user_nickname ++
    bytes "', '" ++ cstr record.problem_title ++ bytes "', '" ++
    Numerals.to_string record.status.toInt ++ bytes "', '" ++ cstr record.run_time ++
    bytes "', '" ++ cstr record.run_memory ++ bytes "', '" ++ cstr record.length ++ bytes "', '" ++
    cstr record.language ++ bytes "', '" ++ cstr record.submit_time ++ bytes "', '" ++
    cstr record.code ++ bytes "', '" ++ cstr record.compiler_info ++ bytes "');"

/-- `sprintf` in `ProblemListModel::update`. -/
def ProblemListModel.updateText (id : UInt64) (addCol : Bytes) : Bytes :=
  bytes "UPDATE problem SET submit_num = submit_num + 1, " ++ cstr addCol ++ bytes " = " ++
    cstr addCol ++ bytes " + 1 WHERE id = " ++ Numerals.to_string id.toNat

/-- A statement that is printed by `sprintf`. -/
inductive Statement where
  /-- `UserModel::insert` -/
  | insertUser (user : User)
  /-- `UserModel::updateProblemStatus` -/
  | updateProblemStatus (username : Bytes) (ac : Bool) (submitNumAdd : Int32)
  /-- `statusRecordModel::insert` -/
  | insertStatusRecord (record : StatusRecord)
  /-- `ProblemListModel::update` -/
  | updateProblem (id : UInt64) (addCol : Bytes)

namespace Statement

/-- What is printed, without the terminating zero. -/
def text : Statement → Bytes
  | insertUser user => UserModel.insertText user
  | updateProblemStatus username ac submitNumAdd =>
      UserModel.updateProblemStatusText username ac submitNumAdd
  | insertStatusRecord record => statusRecordModel.insertText record
  | updateProblem id addCol => ProblemListModel.updateText id addCol

/-- `char sql[1024]` holds the text and the terminating zero. -/
def Fits (st : Statement) : Prop := st.text.length + 1 ≤ 1024

instance : DecidablePred Fits := fun _ => inferInstanceAs (Decidable (_ ≤ _))

/-- What is printed for the directives whose arguments the request decides. -/
def values : Statement → List Bytes
  | insertUser user => (UserModel.texts user).map cstr
  | updateProblemStatus username ac submitNumAdd =>
      [Numerals.to_string submitNumAdd.toInt, acUpdate ac, cstr username]
  | insertStatusRecord record =>
      [Numerals.to_string record.problem_id.toInt, Numerals.to_string record.username.toInt,
        cstr record.user_nickname, cstr record.problem_title, Numerals.to_string record.status.toInt,
        cstr record.run_time, cstr record.run_memory, cstr record.length, cstr record.language,
        cstr record.submit_time, cstr record.code, cstr record.compiler_info]
  | updateProblem id addCol => [cstr addCol, cstr addCol, Numerals.to_string id.toNat]

/-- How many bytes the rest of the text leaves. -/
def room : Statement → Nat
  | insertUser _ => 907
  | updateProblemStatus .. => 968
  | insertStatusRecord _ => 806
  | updateProblem .. => 956

end Statement

/-! ## Who makes them -/

/-- The four functions. -/
structure Models (S : Type) where
  insertUser : User → EStateM Exception S (Option Int64)
  updateProblemStatus : Bytes → Bool → Int32 → EStateM Exception S Bool
  insertStatusRecord : StatusRecord → EStateM Exception S (Option Int64)
  updateProblem : Int64 → String → EStateM Exception S Bool

variable {S : Type}

def Backend.withModels (b : Backend S) (models : Models S) : Backend S :=
  { b with
    insertUser := models.insertUser
    updateProblemStatus := models.updateProblemStatus
    insertStatusRecord := models.insertStatusRecord
    updateProblem := models.updateProblem }

section withModels

variable (b : Backend S) (models : Models S)

theorem writeTests_withModels (problemid : Bytes) (testinfo : Json) (tests : List Nat) :
    ProblemList.writeTests (b.withModels models) problemid testinfo tests =
      ProblemList.writeTests b problemid testinfo tests := by
  induction tests with
  | nil =>
      rfl
  | cons i rest ih =>
      simp only [ProblemList.writeTests, ih]
      rfl

theorem InsertProblemDataInfo_withModels :
    ProblemList.InsertProblemDataInfo (b.withModels models) = ProblemList.InsertProblemDataInfo b := by
  funext insertjson
  simp only [ProblemList.InsertProblemDataInfo, writeTests_withModels]
  rfl

theorem readTests_withModels (problemid : Bytes) (indices : List Nat) :
    ProblemList.readTests (b.withModels models) problemid indices =
      ProblemList.readTests b problemid indices := by
  induction indices with
  | nil =>
      rfl
  | cons index rest ih =>
      simp only [ProblemList.readTests, ih]
      rfl

theorem SelectProblemInfoByAdmin_withModels :
    ProblemList.SelectProblemInfoByAdmin (b.withModels models) =
      ProblemList.SelectProblemInfoByAdmin b := by
  funext queryjson
  simp only [ProblemList.SelectProblemInfoByAdmin, ProblemList.addTestInfo, readTests_withModels]
  rfl

theorem editProblem_withModels :
    Control.editProblem (b.withModels models) = Control.editProblem b := by
  have hinsert : ProblemList.InsertProblem (b.withModels models) = ProblemList.InsertProblem b := by
    funext insertjson
    simp only [ProblemList.InsertProblem, ProblemList.insertData, InsertProblemDataInfo_withModels]
    rfl
  have hupdate : ProblemList.UpdateProblem (b.withModels models) = ProblemList.UpdateProblem b := by
    funext updatejson
    simp only [ProblemList.UpdateProblem, ProblemList.updateData, InsertProblemDataInfo_withModels]
    rfl
  funext insertjson
  simp only [Control.editProblem, hinsert, hupdate]
  rfl

/-- The statements are made for a registration and for a submission, and by no other handler. -/
theorem run_withModels (req : Http.HttpRequest) {h : Handler} (hregister : h ≠ .doRegisterUser)
    (hpost : h ≠ .doPostCode) : h.run (b.withModels models) req = h.run b req := by
  cases h with
  | doRegisterUser =>
      exact absurd rfl hregister
  | doPostCode =>
      exact absurd rfl hpost
  | doEditProblem =>
      simp only [Handler.run, doEditProblem, Control.EditProblem, editProblem_withModels]
      rfl
  | doGetProblemInfo =>
      simp only [Handler.run, doGetProblemInfo, Control.SelectProblemInfoByAdmin,
        SelectProblemInfoByAdmin_withModels]
      rfl
  | _ =>
      rfl

end withModels

/-! ## What is printed -/

/-- A call that prints a statement, whatever comes of it. -/
def prints {α : Type} (st : Statement) (op : EStateM Exception S α) :
    EStateM Exception (S × List Statement) α := fun s =>
  match op s.1 with
  | .ok a s' => .ok a (s', s.2 ++ [st])
  | .error e s' => .error e (s', s.2 ++ [st])

/-- `update` takes the id as a `uint64_t`. -/
def Backend.printing (b : Backend S) : Backend (S × List Statement) :=
  (b.watched ⟨fun _ l => l, fun _ l => l, fun _ l => l, fun _ _ l => l⟩).withModels
    { insertUser := fun user => prints (.insertUser user) (b.insertUser user)
      updateProblemStatus := fun username ac n =>
        prints (.updateProblemStatus username ac n) (b.updateProblemStatus username ac n)
      insertStatusRecord := fun record =>
        prints (.insertStatusRecord record) (b.insertStatusRecord record)
      updateProblem := fun id addCol =>
        prints (.updateProblem id.toUInt64 (bytes addCol)) (b.updateProblem id addCol) }

/-- The statements a request makes. -/
def printed (b : Backend S) (h : Handler) (req : Http.HttpRequest) (server : Server S) : List Statement :=
  watch (final (h.run b.printing req) (server.watching []))

/-- The user in the JSON of a registration. -/
def registering (registerjson : Json) : Except Exception User := do
  let username ← registerjson.stringAt "username"
  let nickname ← registerjson.stringAt "nickname"
  let password ← registerjson.stringAt "password"
  let school ← registerjson.stringAt "school"
  let major ← registerjson.stringAt "major"
  return { id := 0, username, nickname, password, school, major, acnum := 0, submitnum := 0 }

/-- The user a registration gets as far as inserting: its JSON has the five members, and neither the name
nor the nickname is known. -/
def newUser (b : Backend S) (req : Http.HttpRequest) (server : Server S) : Option User := do
  let json ← (b.parseJson req.body_).toOption
  let user ← (registering json).toOption
  match b.queryByUserName user.username server.outside with
  | .ok none s =>
      match b.queryNickName user.nickname s with
      | .ok false _ => some user
      | _ => none
  | _ => none

/-! ## The lengths -/

namespace Statement

/-- The fixed texts, in the order of the statements. -/
theorem length_literals :
    (bytes "insert into user(username, nickname, password, school, major, acnum, submitnum) values('").length = 88 ∧
      (bytes "', '").length = 4 ∧ (bytes "')").length = 2 ∧
      (bytes "update user set submit_num=submit_num+").length = 38 ∧ (bytes " ").length = 1 ∧
      (bytes " where username=").length = 16 ∧
      (bytes "INSERT INTO status_record (problem_id, username, user_nickname, problem_title, status, ").length = 87 ∧
      (bytes "run_time, run_memory, length, language, submit_time, code, compiler_info) VALUES ('").length = 83 ∧
      (bytes "');").length = 3 ∧
      (bytes "UPDATE problem SET submit_num = submit_num + 1, ").length = 48 ∧ (bytes " = ").length = 3 ∧
      (bytes " + 1 WHERE id = ").length = 16 := by
  decide +kernel

theorem length_text (st : Statement) :
    st.text.length + st.room = (st.values.map List.length).sum + 1023 := by
  obtain ⟨hinsert, hnext, hclose, hupdate, hblank, hwhere, hrecord, hrecord', hend, hproblem, heq, hid⟩ :=
    length_literals
  cases st with
  | insertUser user =>
      have hzero : (Numerals.to_string 0).length = 1 := by decide
      change (UserModel.insertText user).length + 907 = _
      unfold UserModel.insertText
      simp only [values, UserModel.texts, List.length_append, List.map_cons,
        List.map_nil, List.sum_cons, List.sum_nil]
      rw [hinsert, hnext, hclose, hzero]
      omega
  | updateProblemStatus username ac submitNumAdd =>
      change (UserModel.updateProblemStatusText username ac submitNumAdd).length + 968 = _
      unfold UserModel.updateProblemStatusText
      simp only [values, List.length_append, List.map_cons,
        List.map_nil, List.sum_cons, List.sum_nil]
      rw [hupdate, hblank, hwhere]
      omega
  | insertStatusRecord record =>
      change (statusRecordModel.insertText record).length + 806 = _
      unfold statusRecordModel.insertText
      simp only [values, List.length_append, List.map_cons,
        List.map_nil, List.sum_cons, List.sum_nil]
      rw [hrecord, hrecord', hnext, hend]
      omega
  | updateProblem id addCol =>
      change (ProblemListModel.updateText id addCol).length + 956 = _
      unfold ProblemListModel.updateText
      simp only [values, List.length_append, List.map_cons,
        List.map_nil, List.sum_cons, List.sum_nil]
      rw [hproblem, heq, hid]
      omega

/-- A statement fits exactly when its values do. -/
theorem fits_iff (st : Statement) : st.Fits ↔ (st.values.map List.length).sum ≤ st.room := by
  have hlength := st.length_text
  unfold Fits
  omega

end Statement

/-! ## The statements of a request -/

section printed

variable (b : Backend S) (req : Http.HttpRequest) (server : Server S)

/-- What `RegisterUser` does with a user whose name is new. -/
def insertNamed (user : User) : Action S Json := do
  if ← call (b.queryNickName user.nickname) then
    return failure "Fail" "昵称已存在，请重新填写！"
  match ← call (b.insertUser user) with
  | none => return failure "Fail" "数据库插入失败！"
  | some id => return (failure "Success" "注册成功！").put "Id" (.ofInt id.toInt)

/-- What it does with any user. -/
def insertUnknown (user : User) : Action S Json := do
  if (← call (b.queryByUserName user.username)).isSome then
    return failure "Fail" "账户已存在，请重新填写！"
  insertNamed b user

theorem RegisterUser_eq (registerjson : Json) :
    MysqlDataBase.RegisterUser b registerjson =
      orElse500 .null "数据库异常！" (liftM (registering registerjson) >>= insertUnknown b) := by
  simp only [registering, liftM_bind, liftM_pure, bind_assoc, pure_bind]
  rfl

variable {b req server}

theorem call_onBase_ok {T α : Type} {op : EStateM Exception S α} {a : α} {s : S} (t : T)
    (h : op server.outside = .ok a s) :
    call (onBase op) (server.watching t) =
      .ok a (({ server with outside := s } : Server S).watching t) := by
  simp only [call, onBase, Server.watching, h]

theorem call_onBase_error {T α : Type} {op : EStateM Exception S α} {e : Exception} {s : S} (t : T)
    (h : op server.outside = .error e s) :
    call (onBase op) (server.watching t) =
      .error e (({ server with outside := s } : Server S).watching t) := by
  simp only [call, onBase, Server.watching, h]

/-- A call makes its statement, whatever comes of it. -/
theorem watch_prints {α : Type} (st : Statement) (op : EStateM Exception S α)
    (server : Server (S × List Statement)) :
    watch (final (call (prints st op)) server) = watch server ++ [st] := by
  rw [final_call]
  simp only [watch, final, prints]
  cases op server.outside.1 <;> rfl

theorem watch_insertNamed (user : User) :
    watch (final (insertNamed b.printing user) (server.watching [])) =
      match b.queryNickName user.nickname server.outside with
      | .ok false _ => [.insertUser user]
      | _ => [] := by
  unfold insertNamed
  cases hnick : b.queryNickName user.nickname server.outside with
  | error e s =>
      have hcall : call (b.printing.queryNickName user.nickname) (server.watching []) = .error e _ :=
        call_onBase_error [] hnick
      rw [final_bind_of_error hcall]
      rfl
  | ok taken s =>
      have hcall : call (b.printing.queryNickName user.nickname) (server.watching []) = .ok taken _ :=
        call_onBase_ok [] hnick
      rw [final_bind_of_ok hcall]
      cases taken with
      | true =>
          rfl
      | false =>
          have hrest : ∀ id : Option Int64, Keeps (watch (S := S)) (match id with
              | none => (return failure "Fail" "数据库插入失败！" : Action (S × List Statement) Json)
              | some id => return (failure "Success" "注册成功！").put "Id" (.ofInt id.toInt)) := by
            intro id
            cases id <;> exact Keeps.pure _
          exact (final_bind_of_keeps hrest _ _).trans (watch_prints (.insertUser user) _ _)

/-- The statement is made when both questions are answered with no. -/
theorem watch_insertUnknown (user : User) :
    watch (final (insertUnknown b.printing user) (server.watching [])) =
      match b.queryByUserName user.username server.outside with
      | .ok none s =>
          match b.queryNickName user.nickname s with
          | .ok false _ => [.insertUser user]
          | _ => []
      | _ => [] := by
  unfold insertUnknown
  cases hname : b.queryByUserName user.username server.outside with
  | error e s =>
      have hcall : call (b.printing.queryByUserName user.username) (server.watching []) = .error e _ :=
        call_onBase_error [] hname
      rw [final_bind_of_error hcall]
      rfl
  | ok known s =>
      have hcall : call (b.printing.queryByUserName user.username) (server.watching []) = .ok known _ :=
        call_onBase_ok [] hname
      rw [final_bind_of_ok hcall]
      cases known with
      | some account =>
          rfl
      | none =>
          exact watch_insertNamed user

/-- What follows `MysqlDataBase::RegisterUser` makes no statement. -/
theorem watch_RegisterUser (json : Json) (server : Server (S × List Statement)) :
    watch (final (UserList.RegisterUser b.printing json) server) =
      watch (final (MysqlDataBase.RegisterUser b.printing json) server) := by
  refine final_bind_of_keeps (fun resjson => ?_) _ _
  refine Keeps.bind (Keeps.liftM _) fun result => ?_
  split
  · refine Keeps.bind (Keeps.liftM _) fun id => ?_
    refine Keeps.bind (Keeps.liftM _) fun id => ?_
    exact Keeps.bind (fun _ => rfl) fun _ => Keeps.pure _
  · exact Keeps.pure _

variable (b req server)

/-- A registration makes one statement at most. -/
theorem printed_doRegisterUser :
    printed b .doRegisterUser req server = (newUser b req server).toList.map .insertUser := by
  have hparse : b.printing.parseJson = b.parseJson := rfl
  change watch (final (doRegisterUser b.printing req) (server.watching [])) = _
  rw [doRegisterUser, hparse, newUser, final_liftM_bind]
  cases b.parseJson req.body_ with
  | error e =>
      rfl
  | ok json =>
      dsimp only [Control.RegisterUser]
      rw [watch_RegisterUser, RegisterUser_eq, orElse500, final_attempt_pure, final_liftM_bind]
      simp only [Except.toOption, Option.bind_eq_bind, Option.bind_some]
      cases registering json with
      | error e =>
          rfl
      | ok user =>
          dsimp only
          rw [watch_insertUnknown]
          simp only [Option.bind_some]
          cases b.queryByUserName user.username server.outside with
          | error e s =>
              rfl
          | ok known s =>
              cases known with
              | some account =>
                  rfl
              | none =>
                  dsimp only
                  cases b.queryNickName user.nickname s with
                  | error e s' =>
                      rfl
                  | ok taken s' =>
                      cases taken <;> rfl

/-- No submission makes a statement. -/
theorem printed_doPostCode : printed b .doPostCode req server = [] := by
  have hparse : b.printing.parseJson = b.parseJson := rfl
  change watch (final (doPostCode b.printing req) (server.watching [])) = _
  rw [doPostCode, withBody, hparse]
  refine final_liftM_bind_of (P := fun s => watch s = []) rfl fun json _ => ?_
  refine final_liftM_bind_of (P := fun s => watch s = []) rfl fun json _ => ?_
  rcases final_GetJudgeCode b.printing json (server.watching []) with h | h
  · exact congrArg watch h
  · exact congrArg watch h

/-- **Lengths.**  A statement fits its buffer exactly when the values printed into it do.  A registration
that gets as far as its statement is bound by this, a submission makes none, and the other handlers do not
call the four functions. -/
theorem statements_fit_iff :
    (∀ st : Statement, st.Fits ↔ (st.values.map List.length).sum ≤ st.room) ∧
      ((∀ st ∈ printed b .doRegisterUser req server, st.Fits) ↔
        ∀ user, newUser b req server = some user →
          (((UserModel.texts user).map cstr).map List.length).sum ≤ 907) ∧
      (∀ st ∈ printed b .doPostCode req server, st.Fits) ∧
      ∀ h, h ≠ Handler.doRegisterUser → h ≠ .doPostCode →
        ∀ models, h.run (b.withModels models) req = h.run b req := by
  refine ⟨Statement.fits_iff, ?_, ?_, fun h hregister hpost models => ?_⟩
  · rw [printed_doRegisterUser]
    simp only [List.forall_mem_map, Option.mem_toList, Statement.fits_iff]
    exact Iff.rfl
  · rw [printed_doPostCode]
    exact fun _ hmem => absurd hmem List.not_mem_nil
  · exact run_withModels b models req hregister hpost

/-- A body whose user name has 1000 letters. -/
def longRegistration : Json :=
  .object [("username", .string (List.replicate 1000 97)), ("nickname", .str "n"),
    ("password", .str "p"), ("school", .str "s"), ("major", .str "m")]

/-- Nobody is known, and bodies are read as `longRegistration`. -/
def Backend.longNamed : Backend Unit :=
  { Backend.idle with parse := fun _ => some ⟨longRegistration, by decide +kernel⟩ }

/-- The statement of such a registration takes 1121 bytes of a buffer of 1024. -/
theorem long_name_overflows :
    ∃ st ∈ printed Backend.longNamed .doRegisterUser .new emptyServer,
      st.text.length + 1 = 1121 ∧ ¬ st.Fits := by
  let user : User :=
    { id := 0, username := List.replicate 1000 97, nickname := bytes "n", password := bytes "p",
      school := bytes "s", major := bytes "m", acnum := 0, submitnum := 0 }
  have hnew : newUser Backend.longNamed .new emptyServer = some user := rfl
  have hlength : (Statement.insertUser user).text.length = 1120 := by
    have hvalues : (((Statement.insertUser user).values).map List.length).sum = 1004 := by decide +kernel
    have hroom : (Statement.insertUser user).room = 907 := rfl
    have hlength := (Statement.insertUser user).length_text
    omega
  refine ⟨.insertUser user, ?_, by rw [hlength], ?_⟩
  · rw [printed_doRegisterUser, hnew]
    exact List.mem_singleton_self _
  · unfold Statement.Fits
    omega

/-- The columns of `UpdateProblemStatusNum` are short enough for any id. -/
theorem updateProblem_fits (id : UInt64) (status : Int32) :
    (Statement.updateProblem id (bytes (MysqlDataBase.statusColumn status))).Fits := by
  have hid : (Numerals.to_string id.toNat).length ≤ 20 :=
    Numerals.length_to_string_le (by decide) (id.toNat_lt.trans (by decide))
  have hcolumn : (cstr (bytes (MysqlDataBase.statusColumn status))).length ≤ 7 := by
    refine (length_cstr_le _).trans ?_
    simp only [MysqlDataBase.statusColumn]
    split_ifs <;> decide
  rw [Statement.fits_iff]
  change (cstr (bytes (MysqlDataBase.statusColumn status))).length +
    ((cstr (bytes (MysqlDataBase.statusColumn status))).length +
      ((Numerals.to_string id.toNat).length + 0)) ≤ 956
  omega

end printed

end Oj
end Myoj
