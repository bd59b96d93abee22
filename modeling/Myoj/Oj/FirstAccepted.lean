import Myoj.Oj.Recorded

/-!
# FirstAccepted — `IsFirstAC` and the counters of a user

After a submission is judged, `UpdateUserProblemInfo` is to count it for its user and to tell whether it is
the first that solves its problem.  It asks for `Status` as a string, and `Status` is a number: the exception
is caught before the statement is made, and the answer is false.

* `Counters` — the two numbers of the table `user`, and what the statement does to them;
* `Ledger` — a server with the submissions that were judged on it and what was answered;
* `Right` — the answers and the numbers agree with the submissions;
* `right_throughout_iff` — the runs that stay right are those that judge nothing for a user.
-/

namespace Myoj
namespace Oj

open Effect

/-! ## The counters -/

/-- The numbers of the table `user`, by what the statement compares with `username`. -/
structure Counters where
  submit_num : Bytes → Int
  ac_num : Bytes → Int

def Counters.zero : Counters := ⟨fun _ => 0, fun _ => 0⟩

/-- `update user set submit_num=submit_num+n, ac_num=ac_num+1 where username=username`; without an `ac`
the second assignment is not there. -/
def Counters.update (username : Bytes) (ac : Bool) (n : Int32) (c : Counters) : Counters where
  submit_num := Function.update c.submit_num username (c.submit_num username + n.toInt)
  ac_num := if ac then Function.update c.ac_num username (c.ac_num username + 1) else c.ac_num

/-- Nothing but the statement about a user is looked at. -/
def Watch.nothing (T : Type) : Watch T where
  makeProblemData := fun _ t => t
  removeProblemData := fun _ t => t
  insertStatusRecord := fun _ t => t
  updateProblem := fun _ _ t => t

/-- A backend with the counters, which change when the statement succeeds. -/
def Backend.counting {S : Type} (base : Backend S) : Backend (S × Counters) :=
  { base.watched (.nothing Counters) with
    updateProblemStatus := fun username ac n =>
      onBoth (base.updateProblemStatus username ac n) (fun updated => updated)
        (Counters.update username ac n) }

/-! ## Submissions -/

/-- A submission that was judged, and the answer. -/
structure Judged where
  user : Option Bytes
  problem : Option Int32
  accepted : Bool
  isFirstAC : Bool
  deriving DecidableEq, Repr

/-- The user of a submission, and its problem, when they are given as the database function reads them. -/
def submitter (judgejson : Json) : Option Bytes := (judgejson.stringAt "UserId").toOption
def problemOf (judgejson : Json) : Option Int32 := (judgejson.intAt "ProblemId").toOption

/-- A member of an answer that is true. -/
def saysTrue (resjson : Json) (k : String) : Bool :=
  match resjson.member k with
  | .boolean b => b
  | _ => false

/-- The verdict of an answer is `AC`. -/
def saysAccepted (resjson : Json) : Bool :=
  match resjson.member "Status" with
  | .number_integer n => n = Judge.Status.AC.toNat
  | _ => false

def judgedOf (judgejson resjson : Json) : Judged where
  user := submitter judgejson
  problem := problemOf judgejson
  accepted := saysAccepted resjson
  isFirstAC := saysTrue resjson "IsFirstAC"

/-- The submission is accepted, for a user and a problem, and none of those before it was for both. -/
def Judged.First (before : List Judged) (e : Judged) : Prop :=
  e.accepted = true ∧ e.user ≠ none ∧ e.problem ≠ none ∧
    ∀ e' ∈ before, e'.accepted = true → e'.user = e.user → e'.problem ≠ e.problem

/-- The problems that the user has solved. -/
def solved (user : Bytes) (history : List Judged) : Finset Int32 :=
  ((history.filter fun e => e.accepted ∧ e.user = some user).filterMap (·.problem)).toFinset

/-! ## Runs -/

/-- A server and what has been judged on it, in order. -/
structure Ledger (S : Type) where
  server : Server (S × Counters)
  history : List Judged

namespace Ledger

variable {S : Type}

/-- A server on which nobody has submitted anything. -/
def start (server : Server S) : Ledger S where
  server := server.watching .zero
  history := []

/-- One submission; a call that throws has judged nothing. -/
def call (b : Backend S) (l : Ledger S) (judgejson : Json) : Ledger S :=
  match Control.GetJudgeCode b.counting judgejson l.server with
  | .ok resjson server => ⟨server, l.history ++ [judgedOf judgejson resjson]⟩
  | .error _ server => { l with server }

/-- `IsFirstAC` was true for the first accepted submissions and no others, the first number of a user is
that of his judged submissions, and the second one that of the problems he has solved. -/
structure Right (l : Ledger S) : Prop where
  replies : ∀ before e after, l.history = before ++ e :: after → (e.isFirstAC = true ↔ e.First before)
  submitted : ∀ user, (watch l.server).submit_num user = l.history.countP fun e => e.user = some user
  accepted : ∀ user, (watch l.server).ac_num user = (solved user l.history).card

/-! ## One submission -/

section call

variable (b : Backend S) (l : Ledger S) {judgejson : Json}

theorem run_of_typed (h : SubmissionTyped judgejson) (machine : Judge.Machine)
    (judgeResult : Judge.JudgeResult) :
    ∃ out, Judge.Judger.Run machine judgeResult (submissionOf judgejson) = .ok out := by
  obtain ⟨j, hload⟩ := (exists_load_iff judgejson).2 h
  rw [Judge.Judger.Run, hload]
  exact ⟨_, rfl⟩

theorem run_of_not_typed (h : ¬ SubmissionTyped judgejson) (machine : Judge.Machine)
    (judgeResult : Judge.JudgeResult) :
    ∃ e, Judge.Judger.Run machine judgeResult (submissionOf judgejson) = .error e := by
  cases hload : Judge.Judger.load (submissionOf judgejson) with
  | ok j =>
      exact absurd ((exists_load_iff judgejson).1 ⟨j, hload⟩) h
  | error e =>
      rw [Judge.Judger.Run, hload]
      exact ⟨e, rfl⟩

/-- What is judged is answered with false, and the counters stay. -/
theorem call_of_typed (h : SubmissionTyped judgejson) :
    ∃ e, (call b l judgejson).history = l.history ++ [e] ∧ e.isFirstAC = false ∧
      e.user = submitter judgejson ∧ watch (call b l judgejson).server = watch l.server := by
  obtain ⟨submitid, hsubmitid⟩ := h.texts "SubmitId" (by decide)
  have hj : judgejson.Indexable = true := Json.indexable_of_member hsubmitid
  obtain ⟨out, hrun⟩ := run_of_typed h (b.counting.judging l.server.outside).1.1
    (b.counting.judging l.server.outside).1.2
  rw [call, GetJudgeCode_apply b.counting hj, hrun]
  exact ⟨judgedOf judgejson (verdictJson out.1), rfl, rfl, rfl, rfl⟩

/-- What is not judged leaves no trace. -/
theorem call_of_not_typed (h : ¬ SubmissionTyped judgejson) :
    (call b l judgejson).history = l.history ∧
      watch (call b l judgejson).server = watch l.server := by
  by_cases hj : judgejson.Indexable = true
  · obtain ⟨e, hrun⟩ := run_of_not_typed h (b.counting.judging l.server.outside).1.1
      (b.counting.judging l.server.outside).1.2
    rw [call, GetJudgeCode_apply b.counting hj, hrun]
    exact ⟨rfl, rfl⟩
  · obtain ⟨e, herror⟩ := GetJudgeCode_of_not_indexable b.counting hj l.server
    rw [call, herror]
    exact ⟨rfl, rfl⟩

end call

/-! ## Whole runs -/

/-- The submission is not judged, or nobody has made it: the judger is not given what it asks for, or there
is no text under `UserId`. -/
def Unclaimed (judgejson : Json) : Prop :=
  SubmissionTyped judgejson → ∀ user, judgejson.member "UserId" ≠ .string user

theorem submitter_eq_some_iff {judgejson : Json} {user : Bytes} :
    submitter judgejson = some user ↔ judgejson.member "UserId" = .string user := by
  rw [← stringAt_eq_ok_iff, submitter]
  cases judgejson.stringAt "UserId" <;> simp [Except.toOption]

theorem Right.congr {l l' : Ledger S} (h : l.Right) (hhistory : l'.history = l.history)
    (hwatch : watch l'.server = watch l.server) : l'.Right where
  replies := by rw [hhistory]; exact h.replies
  submitted := by rw [hhistory, hwatch]; exact h.submitted
  accepted := by rw [hhistory, hwatch]; exact h.accepted

/-- A judged submission that is answered with false and counted nowhere is right when it is nobody's. -/
theorem right_append_iff {l l' : Ledger S} (h : l.Right) {e : Judged}
    (hhistory : l'.history = l.history ++ [e]) (hreply : e.isFirstAC = false)
    (hwatch : watch l'.server = watch l.server) : l'.Right ↔ e.user = none := by
  constructor
  · intro hright
    rw [Option.eq_none_iff_forall_ne_some]
    intro user huser
    -- his submissions are one more, and his number is the same
    have hsubmitted := hright.submitted user
    rw [hwatch, h.submitted, hhistory, List.countP_append] at hsubmitted
    simp [huser] at hsubmitted
  · intro hnone
    refine ⟨?_, ?_, ?_⟩
    · intro before e' after hsplit
      rw [hhistory] at hsplit
      rcases List.eq_nil_or_concat after with rfl | ⟨after, last, rfl⟩
      · obtain ⟨rfl, heq⟩ := List.append_inj' hsplit rfl
        obtain rfl : e = e' := List.singleton_inj.1 heq
        exact iff_of_false (by simp [hreply]) fun hfirst => hfirst.2.1 hnone
      · rw [List.concat_eq_append, ← List.cons_append, ← List.append_assoc] at hsplit
        exact h.replies before e' after (List.append_inj' hsplit rfl).1
    · intro user
      rw [hwatch, h.submitted, hhistory, List.countP_append]
      simp [hnone]
    · intro user
      rw [hwatch, h.accepted, hhistory]
      simp [solved, hnone]

theorem right_call_iff (b : Backend S) {l : Ledger S} (h : l.Right) (judgejson : Json) :
    (call b l judgejson).Right ↔ Unclaimed judgejson := by
  unfold Unclaimed
  by_cases htyped : SubmissionTyped judgejson
  · obtain ⟨e, hhistory, hreply, huser, hwatch⟩ := call_of_typed b l htyped
    rw [right_append_iff h hhistory hreply hwatch, huser, forall_prop_of_true htyped,
      Option.eq_none_iff_forall_ne_some]
    exact forall_congr' fun user => not_congr submitter_eq_some_iff
  · obtain ⟨hhistory, hwatch⟩ := call_of_not_typed b l htyped
    exact iff_of_true (h.congr hhistory hwatch) fun h => absurd h htyped

theorem right_start (server : Server S) : (start server).Right where
  replies := fun before e after h => by simp [start] at h
  submitted := fun _ => rfl
  accepted := fun _ => rfl

/-- No answer is true and no number moves. -/
theorem untouched_call (b : Backend S) (l : Ledger S) (judgejson : Json)
    (h : (∀ e ∈ l.history, e.isFirstAC = false) ∧ watch l.server = .zero) :
    (∀ e ∈ (call b l judgejson).history, e.isFirstAC = false) ∧
      watch (call b l judgejson).server = .zero := by
  by_cases htyped : SubmissionTyped judgejson
  · obtain ⟨e, hhistory, hreply, -, hwatch⟩ := call_of_typed b l htyped
    rw [hhistory, hwatch, List.forall_mem_append, List.forall_mem_singleton]
    exact ⟨⟨h.1, hreply⟩, h.2⟩
  · obtain ⟨hhistory, hwatch⟩ := call_of_not_typed b l htyped
    rw [hhistory, hwatch]
    exact h

/-- **First accepted submissions.**  Whatever the databases answer, `IsFirstAC` is never true and no number
of a user changes; so a run is right throughout exactly when nobody's submission is judged in it. -/
theorem right_throughout_iff (b : Backend S) (server : Server S) (calls : List Json) :
    ((∀ e ∈ (calls.foldl (call b) (start server)).history, e.isFirstAC = false) ∧
      watch (calls.foldl (call b) (start server)).server = .zero) ∧
    (Runs.Throughout (call b) Right (start server) calls ↔ ∀ judgejson ∈ calls, Unclaimed judgejson) := by
  refine ⟨Runs.invariant_run (untouched_call b) ⟨by simp [start], rfl⟩ calls, ?_⟩
  have hguard : Runs.Guarded (call b) (fun _ judgejson => Unclaimed judgejson) (start server) calls ↔
      ∀ judgejson ∈ calls, Unclaimed judgejson := Runs.guarded_const_iff
  rw [← hguard]
  refine (Runs.guarded_iff_throughout (I := fun _ => True) (fun _ _ _ => trivial) ?_ trivial
    (right_start server)).symm
  exact fun l judgejson _ hright => right_call_iff b hright judgejson

/-- The first accepted submission of user 7 is answered with false, and is counted nowhere. -/
theorem first_accepted_missed :
    (call .accepting (start emptyServer) acceptedSubmission).history =
        [⟨some (bytes "7"), some 1, true, false⟩] ∧
      ¬ Runs.Throughout (call .accepting) Right (start emptyServer) [acceptedSubmission] := by
  have hhistory : (call .accepting (start emptyServer) acceptedSubmission).history =
      [⟨some (bytes "7"), some 1, true, false⟩] := by
    decide +kernel
  refine ⟨hhistory, fun h => ?_⟩
  have hfirst := (h.2.replies [] _ [] hhistory).2 ⟨rfl, by simp, by simp, by simp⟩
  cases hfirst

end Ledger

end Oj
end Myoj
