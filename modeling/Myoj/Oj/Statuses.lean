import Myoj.Http.Response
import Myoj.Oj.Survival

/-!
# Statuses — the status code a client gets with an answer

A handler takes the status from the result of the operation, and `onRequest` writes `200` after it,
whatever ran before: also where no handler did.

* `sentStatus` — the code in the bytes that `HttpServer::onRequest` sends;
* `Honest` — an error is sent as one, and so is a request without a route;
* `honest_iff` — the requests that are routed and end with a result that is no error.
-/

namespace Myoj
namespace Oj

open Effect
open Http (HttpRequest HttpResponse Session)

variable {S : Type}

/-- `httpCallback_`: a handler that throws leaves nothing to send. -/
def httpCallback (b : Backend S) (server : Server S) (req : HttpRequest) (resp : HttpResponse) :
    HttpResponse :=
  match onRequest b req resp server with
  | .ok resp _ => resp
  | .error _ _ => resp

/-- What a client reads from the last payload that `HttpServer::onRequest` sends. -/
def sentStatus (b : Backend S) (server : Server S) (session : Session) (req : HttpRequest) :
    Option Nat :=
  (session.onRequest (httpCallback b server) req).sent.getLast?.bind HttpResponse.readStatusCode

/-- The statuses of `SetResponseStatus`. -/
def errorCodes : List Nat := [400, 401, 500]

/-- The operation ends with this as its result. -/
def HasResult (code : Nat) (resjson : Json) : Prop :=
  resjson.member "Result" = .string (HttpResponse.decimal code)

/-- An error goes out as one and nothing else does, and a request without a route is not a success. -/
structure Honest (b : Backend S) (server : Server S) (session : Session) (req : HttpRequest) :
    Prop where
  routed : ∀ handler resjson server', handlerOf req = some handler →
    handler.run b req server = .ok resjson server' → ∀ code ∈ errorCodes,
      (sentStatus b server session req = some code ↔ HasResult code resjson)
  unrouted : handlerOf req = none → sentStatus b server session req ≠ some 200

/-- The request has a route, and what its handler puts together is not an error. -/
def EndsWithoutError (b : Backend S) (server : Server S) (req : HttpRequest) : Prop :=
  ∃ handler resjson server', handlerOf req = some handler ∧
    handler.run b req server = .ok resjson server' ∧ ∀ code ∈ errorCodes, ¬ HasResult code resjson

variable {b : Backend S} {req : HttpRequest} {resp resp' : HttpResponse} {server server' : Server S}

/-! ## The last write -/

/-- Whatever a handler has put into the response. -/
theorem finished_of_onRequest (h : onRequest b req resp server = .ok resp' server') :
    ∃ resp₀, resp' = finishResponse resp₀ := by
  unfold onRequest at h
  cases hroute : handlerOf req with
  | none =>
      simp only [hroute] at h
      cases h
      exact ⟨resp, rfl⟩
  | some handler =>
      simp only [hroute, bind_apply] at h
      cases hrun : handler.run b req server with
      | error e server₁ =>
          simp only [hrun] at h
          cases h
      | ok resjson server₁ =>
          cases hrespond : respond b resjson resp with
          | error e =>
              simp only [hrun, hrespond] at h
              cases h
          | ok resp₀ =>
              simp only [hrun, hrespond] at h
              cases h
              exact ⟨resp₀, rfl⟩

theorem readStatusCode_finishResponse (resp : HttpResponse) (size : Nat) :
    HttpResponse.readStatusCode ((finishResponse resp).appendToBuffer (.new size)).readable = some 200 :=
  have hmessage : 13 ∉ cstr (bytes "OK") := by decide
  HttpResponse.readStatusCode_appendToBuffer rfl (by decide) hmessage

/-- A handler that returns normally does so for every response it is given. -/
theorem exists_onRequest (h : ReturnsNormally b req resp server) (resp₁ : HttpResponse) :
    ∃ resp' server', onRequest b req resp₁ server = .ok resp' server' := by
  have hreturns : Returns (onRequest b req resp₁) server fun _ _ => True := by
    cases hroute : handlerOf req with
    | none =>
        simp [onRequest, hroute]
    | some handler =>
        exact (returns_onRequest_iff hroute resp₁ server).2 ((returns_onRequest_iff hroute resp server).1 h.1)
  obtain ⟨resp', server', hok, -⟩ := hreturns
  exact ⟨resp', server', hok⟩

theorem returnsNormally_of_answers {handler : Handler} (hroute : handlerOf req = some handler)
    (h : Answers (handler.run b req) server) : ReturnsNormally b req resp server := by
  refine ⟨(returns_onRequest_iff hroute resp server).2 h, ?_⟩
  intro handler' resjson server' hroute' hrun
  cases hroute.symm.trans hroute'
  exact ((returns_iff_of_ok hrun).1 h).1

/-- Every answer is a success to whoever reads the status line. -/
theorem sentStatus_eq (h : ReturnsNormally b req resp server) (session : Session) :
    sentStatus b server session req = some 200 := by
  have hcallback : ∀ resp₁, ∃ resp₀, httpCallback b server req resp₁ = finishResponse resp₀ := by
    intro resp₁
    obtain ⟨resp', server', hok⟩ := exists_onRequest h resp₁
    obtain ⟨resp₀, hfinish⟩ := finished_of_onRequest hok
    exact ⟨resp₀, by rw [httpCallback, hok, hfinish]⟩
  simp only [sentStatus, Session.onRequest, List.getLast?_append, List.getLast?_singleton,
    Option.some_or, Option.bind_some]
  generalize HttpResponse.new _ = resp₁
  obtain ⟨resp₀, hfinish⟩ := hcallback resp₁
  rw [hfinish]
  exact readStatusCode_finishResponse resp₀ _

/-! ## Errors -/

/-- **Errors as HTTP errors.**  Of the requests that are answered, those are answered honestly that have a
route and end with a result which is no error: everything goes out with `200`. -/
theorem honest_iff (h : ReturnsNormally b req resp server) (session : Session) :
    Honest b server session req ↔ EndsWithoutError b server req := by
  have hsent : sentStatus b server session req = some 200 := sentStatus_eq h session
  have hne : ∀ code ∈ errorCodes, some 200 ≠ some code := by decide
  constructor
  · intro hhonest
    cases hroute : handlerOf req with
    | none =>
        exact absurd hsent (hhonest.unrouted hroute)
    | some handler =>
        obtain ⟨resjson, server', hrun, -⟩ := (returns_onRequest_iff hroute resp server).1 h.1
        refine ⟨handler, resjson, server', hroute, hrun, fun code hcode hresult => ?_⟩
        have hstatus := (hhonest.routed handler resjson server' hroute hrun code hcode).2 hresult
        exact hne code hcode (hsent.symm.trans hstatus)
  · rintro ⟨handler, resjson, server', hroute, hrun, herror⟩
    constructor
    · intro handler₁ resjson₁ server₁ hroute₁ hrun₁ code hcode
      cases hroute.symm.trans hroute₁
      cases hrun.symm.trans hrun₁
      rw [hsent]
      exact iff_of_false (hne code hcode) (herror code hcode)
    · intro hnone
      cases hroute.symm.trans hnone

/-- `GET /user/rank` with these parameters. -/
def rankRequest (params : Http.StringMap) : HttpRequest :=
  { HttpRequest.new with
    method_ := .kGet
    path_ := bytes "/user/rank"
    params_ := params }

theorem route_rank (params : Http.StringMap) : handlerOf (rankRequest params) = some .doGetUserRank := by
  have hfind : findPath (bytes "/user/rank") get_map_ = some .doGetUserRank := by decide +kernel
  exact (if_pos rfl).trans hfind

theorem returnsNormally_rank (params : Http.StringMap) :
    ReturnsNormally Backend.idle (rankRequest params) (.new false) emptyServer :=
  returnsNormally_of_answers (route_rank params) ((answers_run_iff .doGetUserRank emptyServer).2 trivial)

/-- The first page of the ranks. -/
def firstRanks : HttpRequest :=
  rankRequest ((Finmap.singleton (bytes "Page") (bytes "1")).insert (bytes "PageSize") (bytes "10"))

/-- Nobody has registered, and the list of nobody is a success. -/
theorem honest_iff_firstRanks : Honest Backend.idle emptyServer .new firstRanks := by
  refine (honest_iff (returnsNormally_rank _) .new).2 ?_
  have hparams : ["Page", "PageSize"].all (hasParam firstRanks) = true := by decide +kernel
  have hrun : (Handler.doGetUserRank).run Backend.idle firstRanks emptyServer =
      .ok (success (Json.null.put "ArrayInfo" .null)) emptyServer := by
    rw [Handler.run, doGetUserRank, withParams, if_pos hparams]
    rfl
  have hcodes : ∀ code ∈ errorCodes, bytes "Success" ≠ HttpResponse.decimal code := by decide
  refine ⟨.doGetUserRank, _, _, route_rank _, hrun, fun code hcode hresult => ?_⟩
  have hsuccess : Json.string (bytes "Success") = .string (HttpResponse.decimal code) :=
    (member_success (Json.indexable_put ..) "Result").symm.trans hresult
  exact hcodes code hcode (Json.string.inj hsuccess)

/-- `GET /` on the server of the online judge. -/
def rootRequest : HttpRequest := { HttpRequest.new with method_ := .kGet, path_ := bytes "/" }

/-- The parameters are missing, or nothing is there at all, and the client reads `200`. -/
theorem missing_sent_as_success :
    ¬ Honest Backend.idle emptyServer .new (rankRequest ∅) ∧
      ¬ Honest Backend.idle emptyServer .new rootRequest := by
  constructor
  · intro hhonest
    have hmissing : (Handler.doGetUserRank).run Backend.idle (rankRequest ∅) emptyServer =
        .ok missingParam emptyServer := rfl
    have hresult : HasResult 400 missingParam := member_failure ..
    have hstatus := (hhonest.routed _ _ _ (route_rank ∅) hmissing 400 (by decide)).2 hresult
    rw [sentStatus_eq (returnsNormally_rank ∅)] at hstatus
    cases hstatus
  · intro hhonest
    have hroute : handlerOf rootRequest = none := by decide +kernel
    have hreturns : ReturnsNormally Backend.idle rootRequest (.new false) emptyServer := by
      refine ⟨by simp [onRequest, hroute], fun handler _ _ hrouted => ?_⟩
      cases hroute.symm.trans hrouted
    exact hhonest.unrouted hroute (sentStatus_eq hreturns .new)

end Oj
end Myoj
