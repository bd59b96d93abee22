import Myoj.Judge.Commands
import Myoj.Oj.Survival
import Myoj.Oj.Watch

/-!
# ProblemCommands — where the identifiers of requests reach a shell

Three requests lead to `system`: a submission, with its `SubmitId` and `ProblemId`, and the two that change
or delete a problem, with its `ProblemId`.  Nothing on the way looks at the strings but `stoi` and `stoll`,
which stop at the first byte that is no digit, and `UpdateProblem` and `DeleteProblem` go on even when
these have thrown.

`identifiers_iff` says which identifiers are harmless.
-/

namespace Myoj
namespace Oj

open Effect Shell
open Judge (SystemCall)
open Judge.Judger (Run_calls sourceFile)

/-! ## The calls of `ProblemList` -/

def PROBLEMDATAPATH : Bytes := bytes "../../problemdata/"

/-- The directory of a problem. -/
def problemDir (problemid : Bytes) : Path := ⟨PROBLEMDATAPATH, problemid, []⟩

theorem shaped_problemDir (problemid : Bytes) : (problemDir problemid).Shaped := by
  have hbase : Path.BaseShaped PROBLEMDATAPATH := by decide
  have hfile : Path.FileShaped [] := by decide
  exact ⟨hbase, hfile⟩

theorem text_problemDir (problemid : Bytes) : (problemDir problemid).text = PROBLEMDATAPATH ++ problemid :=
  List.append_nil _

/-- `mkdir` in `InsertProblemDataInfo`. -/
def mkdirProblem (problemid : Bytes) : SystemCall where
  text := bytes "mkdir " ++ (PROBLEMDATAPATH ++ problemid)
  meant := { argv := [.literal (bytes "mkdir"), .path (problemDir problemid)], stderr := none }
  text_eq := by
    simp only [Command.text, Command.words, List.map, Arg.text, unwords, text_problemDir]
    rfl
  shaped := by
    have hdir := shaped_problemDir problemid
    simp only [Command.Shaped, List.forall_mem_cons]
    exact ⟨⟨by decide, hdir, by simp⟩, by simp⟩

/-- `rm` in `UpdateProblem` and `DeleteProblem`. -/
def rmProblem (problemid : Bytes) : SystemCall where
  text := bytes "rm -rf " ++ (PROBLEMDATAPATH ++ problemid)
  meant := {
    argv := [.literal (bytes "rm"), .literal (bytes "-rf"), .path (problemDir problemid)]
    stderr := none }
  text_eq := by
    simp only [Command.text, Command.words, List.map, Arg.text, unwords, text_problemDir]
    rfl
  shaped := by
    have hdir := shaped_problemDir problemid
    simp only [Command.Shaped, List.forall_mem_cons]
    exact ⟨⟨by decide, by decide, hdir, by simp⟩, by simp⟩

theorem mkdirProblem_intended_iff (problemid : Bytes) :
    (mkdirProblem problemid).Intended ↔ SafeName problemid := by
  rw [SystemCall.intended_iff]
  simp [mkdirProblem, Command.paths, Arg.paths, problemDir]

theorem rmProblem_intended_iff (problemid : Bytes) :
    (rmProblem problemid).Intended ↔ SafeName problemid := by
  rw [SystemCall.intended_iff]
  simp [rmProblem, Command.paths, Arg.paths, problemDir]

/-- The calls to `system` are logged. -/
def systemLog : Watch (List SystemCall) where
  makeProblemData := fun problemid calls => calls ++ [mkdirProblem problemid]
  removeProblemData := fun problemid calls => calls ++ [rmProblem problemid]
  insertStatusRecord := fun _ calls => calls
  updateProblem := fun _ _ calls => calls

section requests

variable {S : Type} (b : Backend S)

theorem keeps_UpdateProblem (json : Json) : Keeps watch (MoDB.UpdateProblem (b.watched systemLog) json) := by
  refine Keeps.attempt_pure (Keeps.bind (Keeps.liftM _) fun problemid => ?_) _
  refine Keeps.bind (Keeps.liftM _) fun members => ?_
  exact Keeps.bind (keeps_call _) fun _ => Keeps.pure _

theorem keeps_DeleteProblem (json : Json) : Keeps watch (MoDB.DeleteProblem (b.watched systemLog) json) := by
  refine Keeps.attempt_pure (Keeps.bind (Keeps.liftM _) fun problemid => ?_) _
  refine Keeps.bind (keeps_call _) fun deleted => ?_
  split <;> exact Keeps.pure _

variable {json : Json} {problemid : Bytes} (server : Server (S × List SystemCall))

/-- The directory is made before anything else is looked at. -/
theorem calls_InsertProblemDataInfo (hid : json.stringAt "ProblemId" = .ok problemid) :
    watch (final (ProblemList.InsertProblemDataInfo (b.watched systemLog) json) server) =
      watch server ++ [mkdirProblem problemid] := by
  unfold ProblemList.InsertProblemDataInfo
  rw [hid, final_liftM_bind]
  simp only
  rw [final_affect_bind]
  exact keeps_problemFiles (fun _ _ _ => keeps_affect _) json problemid _

theorem calls_updateData (hid : json.stringAt "ProblemId" = .ok problemid) (tmpjson : Json) :
    watch (final (ProblemList.updateData (b.watched systemLog) json tmpjson) server) =
      watch server ++ [rmProblem problemid, mkdirProblem problemid] := by
  unfold ProblemList.updateData
  rw [hid, final_liftM_bind]
  simp only
  rw [final_affect_bind]
  have hcache : ∀ u : Unit, Keeps watch (do
      let _ ← ReDB.DeleteProblemCache (b.watched systemLog) problemid
      return tmpjson : Action (S × List SystemCall) Json) := by
    intro _
    exact Keeps.bind (Keeps.attempt_pure (keeps_call _) _) fun _ => Keeps.pure _
  rw [final_bind_of_keeps hcache, calls_InsertProblemDataInfo b _ hid]
  exact List.append_assoc _ [rmProblem problemid] [mkdirProblem problemid]

/-- `UpdateProblem` acts on every string. -/
theorem calls_UpdateProblem (hid : json.stringAt "ProblemId" = .ok problemid) :
    watch (final (ProblemList.UpdateProblem (b.watched systemLog) json) server) =
      watch server ++ [rmProblem problemid, mkdirProblem problemid] := by
  obtain ⟨tmpjson, hdata⟩ := final_UpdateProblem_data (b := b.watched systemLog) json server
  rw [hdata, calls_updateData b _ hid, keeps_UpdateProblem b json server]

/-- `DeleteProblem` acts on every string for which no document was missing. -/
theorem calls_DeleteProblem (hid : json.stringAt "ProblemId" = .ok problemid) :
    watch (final (ProblemList.DeleteProblem (b.watched systemLog) json) server) = watch server ∨
      watch (final (ProblemList.DeleteProblem (b.watched systemLog) json) server) =
        watch server ++ [rmProblem problemid] := by
  have hkept := keeps_DeleteProblem b json server
  have halways := always_DeleteProblem (b.watched systemLog) json
  rcases halways server with ⟨tmpjson, server', hdelete, hans⟩
  rw [final_of_ok hdelete] at hkept
  unfold ProblemList.DeleteProblem
  rw [final_bind_of_ok hdelete, Json.index_of_indexable hans.indexable, final_liftM_bind]
  simp only
  split
  · left
    exact hkept
  · right
    rw [hid, final_liftM_bind]
    simp only
    rw [final_affect_bind]
    have hcache : Keeps watch (do
        let _ ← ReDB.DeleteProblemCache (b.watched systemLog) problemid
        return tmpjson : Action (S × List SystemCall) Json) :=
      Keeps.bind (Keeps.attempt_pure (keeps_call _) _) fun _ => Keeps.pure _
    rw [hcache]
    show watch server' ++ [rmProblem problemid] = _
    rw [hkept]

/-- What a request passes to `system`. -/
def systemCalls (program : Action (S × List SystemCall) Json) (server : Server S) : List SystemCall :=
  watch (final program (server.watching []))

theorem systemCalls_UpdateProblem (hid : json.stringAt "ProblemId" = .ok problemid) (server : Server S) :
    (∀ c ∈ systemCalls (ProblemList.UpdateProblem (b.watched systemLog) json) server, c.Intended) ↔
      SafeName problemid := by
  -- exactly two calls, with the same identifier
  have hcalls : systemCalls (ProblemList.UpdateProblem (b.watched systemLog) json) server =
      [rmProblem problemid, mkdirProblem problemid] := calls_UpdateProblem b (server.watching []) hid
  rw [hcalls]
  simp [rmProblem_intended_iff, mkdirProblem_intended_iff]

theorem systemCalls_DeleteProblem (hid : json.stringAt "ProblemId" = .ok problemid) (server : Server S)
    (hacts : systemCalls (ProblemList.DeleteProblem (b.watched systemLog) json) server ≠ []) :
    (∀ c ∈ systemCalls (ProblemList.DeleteProblem (b.watched systemLog) json) server, c.Intended) ↔
      SafeName problemid := by
  have hcalls : systemCalls (ProblemList.DeleteProblem (b.watched systemLog) json) server =
      [rmProblem problemid] := (calls_DeleteProblem b (server.watching []) hid).resolve_left hacts
  rw [hcalls]
  simp [rmProblem_intended_iff]

end requests

/-- The identifiers are the strings of the request. -/
theorem ids_of_load {json : Json} {j : Judge.Judger}
    (h : Judge.Judger.load (submissionOf json) = .ok j) :
    json.member "SubmitId" = .string j.m_submitid ∧ json.member "ProblemId" = .string j.m_problemid := by
  have hindex : ∀ k ∈ Control.runMembers, (submissionOf json).index k = .ok (json.member k) :=
    fun k hk => submissionOf_index hk
  simp only [Control.runMembers, List.forall_mem_cons] at hindex
  simp only [Judge.Judger.load, except_bind_eq_ok_iff, hindex, Except.ok.injEq, exists_eq_left',
    Json.getString_eq_ok_iff] at h
  rcases h with ⟨_, -, submitid, hsubmitid, problemid, hproblemid, _, -, _, -, _, -, _, -, _, -, hj⟩
  cases hj
  exact ⟨hsubmitid, hproblemid⟩

/-- **Identifiers and shell commands.**  Whatever happens to a submission, and in every state in which a
problem is changed or deleted, the shell runs what is meant, on files inside the directories of the
identifiers, exactly when the identifiers that are used are safe. -/
theorem identifiers_iff {S : Type} (b : Backend S) (server : Server S) :
    (∀ judgejson j, Judge.Judger.load (submissionOf judgejson) = .ok j →
      judgejson.member "SubmitId" = .string j.m_submitid ∧
      judgejson.member "ProblemId" = .string j.m_problemid ∧
      ((∀ machine judgeResult, ∀ c ∈ Run_calls machine judgeResult j, c.Intended) ↔
        SafeName j.m_submitid ∧ ((sourceFile j.m_language).isSome → SafeName j.m_problemid))) ∧
    (∀ updatejson problemid, updatejson.stringAt "ProblemId" = .ok problemid →
      ((∀ c ∈ systemCalls (ProblemList.UpdateProblem (b.watched systemLog) updatejson) server, c.Intended) ↔
        SafeName problemid)) ∧
    ∀ deletejson problemid, deletejson.stringAt "ProblemId" = .ok problemid →
      systemCalls (ProblemList.DeleteProblem (b.watched systemLog) deletejson) server ≠ [] →
      ((∀ c ∈ systemCalls (ProblemList.DeleteProblem (b.watched systemLog) deletejson) server, c.Intended) ↔
        SafeName problemid) := by
  refine ⟨?_, ?_, ?_⟩
  · intro judgejson j hload
    rcases ids_of_load hload with ⟨hsubmit, hproblem⟩
    exact ⟨hsubmit, hproblem, Judge.Judger.run_intended_iff j⟩
  · intro updatejson problemid hid
    exact systemCalls_UpdateProblem b hid server
  · intro deletejson problemid hid hacts
    exact systemCalls_DeleteProblem b hid server hacts

/-- A request to delete the problem `;reboot`. -/
def rebootRequest : Json := .object [("ProblemId", .str ";reboot")]

/-- `stoll` throws on this id, which is no reason to stop, and the shell finds a second command. -/
theorem delete_runs_another_command :
    ∃ c ∈ systemCalls (ProblemList.DeleteProblem (Backend.idle.watched systemLog) rebootRequest) emptyServer,
      ¬ c.Intended := by
  have hid : rebootRequest.stringAt "ProblemId" = .ok (bytes ";reboot") := rfl
  have hone : (systemCalls (ProblemList.DeleteProblem (Backend.idle.watched systemLog) rebootRequest)
      emptyServer).length = 1 := by
    decide +kernel
  rcases calls_DeleteProblem Backend.idle (emptyServer.watching []) hid with hnone | hrm
  · rw [systemCalls, hnone] at hone
    cases hone
  · refine ⟨rmProblem (bytes ";reboot"), ?_, ?_⟩
    · rw [systemCalls, hrm]
      exact List.mem_singleton.2 rfl
    · rw [rmProblem_intended_iff]
      intro hsafe
      have hplain : (bytes ";reboot").all plain = true := hsafe.plain
      revert hplain
      decide

end Oj
end Myoj
