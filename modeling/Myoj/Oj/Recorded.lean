import Myoj.Oj.Survival
import Myoj.Oj.Watch

/-!
# Recorded — what of a judged submission reaches the tables

`GetJudgeCode` hands the JSON of the judger to `statusRecordModel::insert` and its `Status` to
`UpdateProblemStatusNum`.  The first asks it for `ProblemId`, which the judger does not write; the second asks
for a string, and `Status` is a number.  Both throw before they reach the database, and both exceptions are
caught.

* `Tables`, `tables` — what the two statements change;
* `RunRecorded` — a run of calls that records every submission once and counts it;
* `GetJudgeCode_apply` — what a call answers; nothing is done outside but the judging;
* `runRecorded_iff` — so only the run without calls is recorded.
-/

namespace Myoj
namespace Oj

open Effect
open MysqlDataBase (statusColumn)

/-! ## The tables -/

/-- The table `status_record`, and the numbers of `problem` by the id of the row. -/
structure Tables where
  status_record : List StatusRecord
  submit_num : Int64 → Int
  /-- The column with this name. -/
  counter : Int64 → String → Int

def Tables.empty : Tables where
  status_record := []
  submit_num := fun _ => 0
  counter := fun _ _ => 0

/-- `INSERT INTO status_record`. -/
def Tables.insert (record : StatusRecord) (t : Tables) : Tables :=
  { t with status_record := t.status_record ++ [record] }

/-- `UPDATE problem SET submit_num = submit_num + 1, addCol = addCol + 1 WHERE id = id`. -/
def Tables.update (id : Int64) (addCol : String) (t : Tables) : Tables :=
  { t with
    submit_num := Function.update t.submit_num id (t.submit_num id + 1)
    counter := Function.update t.counter id
      (Function.update (t.counter id) addCol (t.counter id addCol + 1)) }

/-- The columns `statusColumn` names. -/
def verdictColumns : List String :=
  ["ce_num", "ac_num", "wa_num", "re_num", "tle_num", "mle_num", "se_num"]

/-- Every submission of a problem is counted under one verdict. -/
def Tables.Balanced (t : Tables) : Prop :=
  ∀ id, t.submit_num id = (verdictColumns.map (t.counter id)).sum

def tables : Watch Tables where
  makeProblemData := fun _ t => t
  removeProblemData := fun _ t => t
  insertStatusRecord := Tables.insert
  updateProblem := Tables.update

/-! ## Recorded runs -/

section runs

variable {S : Type} (b : Backend S)

/-- What the judger makes of a submission, on the machine of the moment. -/
def judged (judgejson : Json) (server : Server (S × Tables)) :
    Except Exception (Judge.Judger.Report × Judge.Judger) :=
  Judge.Judger.Run (b.judging server.outside.1).1.1 (b.judging server.outside.1).1.2
    (submissionOf judgejson)

/-- The state after one submission. -/
def afterCall (server : Server (S × Tables)) (judgejson : Json) : Server (S × Tables) :=
  final (Control.GetJudgeCode (b.watched tables) judgejson) server

def afterCalls (server : Server (S × Tables)) (calls : List Json) : Server (S × Tables) :=
  calls.foldl (afterCall b) server

/-- The row tells of the submission and of its report. -/
structure Tells (record : StatusRecord) (judgejson : Json) (report : Judge.Judger.Report) : Prop where
  problem_id : judgejson.int64At "ProblemId" = .ok record.problem_id
  username : judgejson.int64At "UserId" = .ok record.username
  status : record.status = Int32.ofNat report.Status.toNat
  run_time : record.run_time = report.RunTime
  compiler_info : record.compiler_info = report.ComplierInfo

/-- The submission is judged, one row that tells of it is inserted, and its problem and its verdict are
counted once. -/
def RecordedOnce (server : Server (S × Tables)) (judgejson : Json) : Prop :=
  ∃ report j record, judged b judgejson server = .ok (report, j) ∧ Tells record judgejson report ∧
    watch (afterCall b server judgejson) =
      ((watch server).insert record).update record.problem_id (statusColumn record.status)

/-- Every call of a run, in the state the calls before it have left. -/
def EachRecorded : Server (S × Tables) → List Json → Prop
  | _, [] => True
  | server, judgejson :: calls =>
      RecordedOnce b server judgejson ∧ EachRecorded (afterCall b server judgejson) calls

/-- How many submissions to a problem are judged in a run. -/
def judgedNum (id : Int64) : Server (S × Tables) → List Json → Nat
  | _, [] => 0
  | server, judgejson :: calls =>
      (if (judgejson.int64At "ProblemId").toOption = some id ∧ (judged b judgejson server).isOk then 1 else 0) +
        judgedNum id (afterCall b server judgejson) calls

/-- Every judged submission of the run is recorded once, and the numbers of its problem agree. -/
structure RunRecorded (server : Server (S × Tables)) (calls : List Json) : Prop where
  each : EachRecorded b server calls
  balanced : (watch server).Balanced → (watch (afterCalls b server calls)).Balanced
  submitted : ∀ id, (watch (afterCalls b server calls)).submit_num id =
    (watch server).submit_num id + judgedNum b id server calls

end runs

/-! ## What a call does -/

section calls

variable {S : Type} (b : Backend S)

/-- The judger does not write the id of the problem. -/
theorem member_ProblemId_reportJson (report : Judge.Judger.Report) :
    (reportJson report).member "ProblemId" = .null := by
  rw [reportJson, member_pushDocs (by decide) _ rfl]
  rfl

theorem indexable_reportJson (report : Judge.Judger.Report) : (reportJson report).Indexable = true := by
  rw [reportJson, indexable_pushDocs rfl]

/-- `insert` throws at the first member it asks for, and the id is `"0"`. -/
theorem InsertStatusRecord_apply (report : Judge.Judger.Report) (server : Server S) :
    MysqlDataBase.InsertStatusRecord b (reportJson report) server = .ok (bytes "0") server := by
  have hindex : (reportJson report).index "ProblemId" = .ok .null := by
    rw [Json.index_of_indexable (indexable_reportJson report), member_ProblemId_reportJson]
  have hinsert : MysqlDataBase.insertStatusRecord b (reportJson report) server =
      .error (.type_error 302) server := by
    -- `get<long>()` on `null`
    rw [MysqlDataBase.insertStatusRecord, hindex, bind_apply]
    rfl
  unfold MysqlDataBase.InsertStatusRecord attempt Json.dump
  by_cases hdump : (reportJson report).dumpable = true
  · rw [if_pos hdump, bind_of_ok liftM_ok_apply, bind_apply, hinsert]
    rfl
  · rw [if_neg hdump, bind_apply]
    rfl

theorem intAt_of_ofInt {updatejson : Json} {n : Int} (h : updatejson.index "Status" = .ok (.ofInt n)) :
    updatejson.intAt "Status" = .error (.type_error 302) := by
  simp [Json.intAt, Json.stringAt, h, Json.ofInt, Json.getString, bind, Except.bind]

/-- `stoi(updatejson["Status"].get<std::string>())` throws on a number. -/
theorem UpdateProblemStatusNum_apply {updatejson : Json} {n : Int}
    (hstatus : updatejson.index "Status" = .ok (.ofInt n)) (server : Server S) :
    MysqlDataBase.UpdateProblemStatusNum b updatejson server = .ok false server := by
  unfold MysqlDataBase.UpdateProblemStatusNum attempt
  rw [intAt_of_ofInt hstatus, bind_apply]
  cases updatejson.int64At "ProblemId" <;> rfl

theorem UpdateUserProblemInfo_apply {updatejson : Json} {n : Int}
    (hstatus : updatejson.index "Status" = .ok (.ofInt n)) (server : Server S) :
    MysqlDataBase.UpdateUserProblemInfo b updatejson server = .ok false server := by
  unfold MysqlDataBase.UpdateUserProblemInfo attempt
  rw [intAt_of_ofInt hstatus, bind_apply]
  cases updatejson.stringAt "UserId" with
  | error e =>
      rfl
  | ok username =>
      cases updatejson.intAt "ProblemId" <;> rfl

/-- The reply to a submission that was judged: `IsFirstAC` is false. -/
def verdictJson (report : Judge.Judger.Report) : Json :=
  .object [("IsFirstAC", .boolean false), ("Result", .str "Success"),
    ("Status", .ofInt report.Status.toNat), ("ComplierInfo", .string report.ComplierInfo)]

/-- A submission is judged, and nothing else is done outside. -/
theorem GetJudgeCode_apply {judgejson : Json} (hj : judgejson.Indexable) (server : Server S) :
    Control.GetJudgeCode b judgejson server =
      match Judge.Judger.Run (b.judging server.outside).1.1 (b.judging server.outside).1.2
          (submissionOf judgejson) with
      | .ok (report, _) => .ok (verdictJson report) { server with outside := (b.judging server.outside).2 }
      | .error e => .error e { server with outside := (b.judging server.outside).2 } := by
  have hjudging : affect b.judging server = .ok (b.judging server.outside).1
    { server with outside := (b.judging server.outside).2 } := rfl
  have hstatus : ∀ (report : Judge.Judger.Report) (problemid : Json),
      (Json.object [("ProblemId", problemid), ("Status", .ofInt report.Status.toNat)]).index "Status" =
        .ok (.ofInt report.Status.toNat) := fun _ _ => rfl
  have hstatus' : ∀ (report : Judge.Judger.Report) (problemid userid : Json),
      ((Json.object [("ProblemId", problemid), ("Status", .ofInt report.Status.toNat)]).put "UserId"
        userid).index "Status" = .ok (.ofInt report.Status.toNat) := fun _ _ _ => rfl
  rw [Control.GetJudgeCode, bind_of_ok (mapM_index hj _ _), bind_of_ok hjudging, ← submissionOf]
  generalize (b.judging server.outside).1 = machines
  obtain ⟨machine, judgeResult⟩ := machines
  dsimp only
  cases Judge.Judger.Run machine judgeResult (submissionOf judgejson) with
  | error e =>
      rfl
  | ok out =>
      simp only [member_Status_reportJson, member_ComplierInfo_reportJson, Json.index_of_indexable hj]
      rw [bind_of_ok liftM_ok_apply, bind_of_ok (InsertStatusRecord_apply b _ _), bind_of_ok liftM_ok_apply,
        bind_of_ok (UpdateProblemStatusNum_apply b (hstatus ..) _), bind_of_ok liftM_ok_apply,
        bind_of_ok (UpdateUserProblemInfo_apply b (hstatus' ..) _)]
      rfl

/-- A value without members is refused at the first one. -/
theorem GetJudgeCode_of_not_indexable {judgejson : Json} (hj : ¬ judgejson.Indexable) (server : Server S) :
    ∃ e, Control.GetJudgeCode b judgejson server = .error e server := by
  have hindex : judgejson.index "UserId" = .error (.type_error 305) := by
    rw [Json.index_eq, if_neg hj]
  refine ⟨.type_error 305, ?_⟩
  rw [Control.GetJudgeCode, Control.runMembers, List.mapM_cons, hindex]
  rfl

/-- Whatever a call is given, the outside has judged or is as it was. -/
theorem final_GetJudgeCode (judgejson : Json) (server : Server S) :
    final (Control.GetJudgeCode b judgejson) server = server ∨
      final (Control.GetJudgeCode b judgejson) server =
        { server with outside := (b.judging server.outside).2 } := by
  by_cases hj : judgejson.Indexable = true
  · right
    rw [final, GetJudgeCode_apply b hj]
    cases Judge.Judger.Run (b.judging server.outside).1.1 (b.judging server.outside).1.2
      (submissionOf judgejson) <;> rfl
  · left
    obtain ⟨e, herror⟩ := GetJudgeCode_of_not_indexable b hj server
    rw [final, herror]

end calls

/-! ## Runs -/

section runs

variable {S : Type} (b : Backend S)

theorem watch_afterCall (server : Server (S × Tables)) (judgejson : Json) :
    watch (afterCall b server judgejson) = watch server := by
  rw [afterCall]
  rcases final_GetJudgeCode (b.watched tables) judgejson server with h | h
  · rw [h]
  · rw [h]
    rfl

/-- A run leaves the tables as they were. -/
theorem watch_afterCalls (server : Server (S × Tables)) (calls : List Json) :
    watch (afterCalls b server calls) = watch server := by
  induction calls generalizing server with
  | nil =>
      rfl
  | cons judgejson calls ih =>
      have hrest := ih (afterCall b server judgejson)
      rw [watch_afterCall] at hrest
      exact hrest

/-- A recorded submission has left a row. -/
theorem not_recordedOnce (server : Server (S × Tables)) (judgejson : Json) :
    ¬ RecordedOnce b server judgejson := by
  rintro ⟨report, j, record, -, -, hafter⟩
  rw [watch_afterCall] at hafter
  -- no list is as long as itself with a row more
  have hrows : (watch server).status_record = (watch server).status_record ++ [record] :=
    congrArg Tables.status_record hafter
  exact List.cons_ne_nil record [] (List.self_eq_append_right.1 hrows)

theorem not_eachRecorded (server : Server (S × Tables)) {calls : List Json} (hcalls : calls ≠ []) :
    ¬ EachRecorded b server calls := by
  cases calls with
  | nil =>
      exact absurd rfl hcalls
  | cons judgejson calls =>
      rintro ⟨hfirst, -⟩
      exact not_recordedOnce b server judgejson hfirst

/-- **Recorded submissions.**  Whatever the databases answer, a run changes neither table; it records its
submissions exactly when it has none, and `submit_num` counts those that are judged exactly when none
is. -/
theorem runRecorded_iff {S : Type} (b : Backend S) (server : Server (S × Tables)) (calls : List Json) :
    watch (afterCalls b server calls) = watch server ∧
    (RunRecorded b server calls ↔ calls = []) ∧
    ∀ id, (watch (afterCalls b server calls)).submit_num id =
      (watch server).submit_num id + judgedNum b id server calls ↔ judgedNum b id server calls = 0 := by
  have hwatch := watch_afterCalls b server calls
  refine ⟨hwatch, ?_, ?_⟩
  · constructor
    · intro hrecorded
      by_contra hcalls
      exact not_eachRecorded b server hcalls hrecorded.each
    · rintro rfl
      exact ⟨trivial, fun hbalanced => hbalanced, fun _ => (Int.add_zero _).symm⟩
  · intro id
    rw [hwatch]
    omega

/-- The program exits with 0 after two milliseconds; it prints nothing, and nothing is the right answer. -/
def acceptedRun : Judge.TestRun :=
  { (default : Judge.TestRun) with child := .waited ⟨0, ⟨0, 2000⟩, 1024, ⟨10, 0⟩, ⟨10, 3000⟩⟩ }

/-- A machine on which the program compiles and passes every test. -/
def acceptingMachine : Judge.Machine :=
  { (default : Judge.Machine) with
    mkdirRuns := true
    sourceOpens := true
    compileRuns := true
    compileProduces := true
    test := fun _ => acceptedRun }

/-- Every call succeeds, and submissions are judged on `acceptingMachine`. -/
def Backend.accepting : Backend Unit :=
  { Backend.idle with judging := fun s => ((acceptingMachine, default), s) }

/-- A submission as the page sends it. -/
def acceptedSubmission : Json :=
  .object [("UserId", .str "7"), ("UserNickName", .str "nick"), ("ProblemTitle", .str "Nothing"),
    ("Code", .str "int main() {}"), ("SubmitId", .str "3"), ("ProblemId", .str "1"),
    ("Language", .str "C++"), ("JudgeNum", .number_unsigned 1), ("TimeLimit", .number_unsigned 1000),
    ("MemoryLimit", .number_unsigned 128)]

/-- The submission is accepted, and neither inserted nor counted. -/
theorem accepted_not_recorded :
    (judged Backend.accepting acceptedSubmission (emptyServer.watching .empty)).map (·.1.Status) =
        .ok .AC ∧
      ¬ RunRecorded Backend.accepting (emptyServer.watching .empty) [acceptedSubmission] := by
  refine ⟨by decide +kernel, ?_⟩
  intro hrecorded
  exact not_eachRecorded _ _ (List.cons_ne_nil _ _) hrecorded.each

end runs

end Oj
end Myoj
