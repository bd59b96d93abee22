import Myoj.Oj.Mutations
import Myoj.Oj.StatementLengths

/-!
# ComesBack — which requests leave the server running

A request takes the process down when an exception leaves its handler, or when a statement that is made for it
is longer than the buffer it is printed into.

* `SamePrinted` — the calls that make no statement leave the list of statements as it is;
* `printed_of_ne` — so no handler but that of a registration makes one;
* `ComesBack`, `Survives` — the server comes back, and for each handler the condition for it;
* `comesBack_iff` — the two are equivalent.
-/

namespace Myoj
namespace Oj

open Effect
open Http (HttpRequest HttpResponse)

variable {S : Type}

/-! ## The statements of the other handlers -/

/-- No statement was made in between. -/
def SamePrinted (server server' : Server (S × List Statement)) : Prop := watch server' = watch server

instance reflSamePrinted : Std.Refl (SamePrinted (S := S)) where
  refl _ := rfl

instance transSamePrinted : IsTrans (Server (S × List Statement)) SamePrinted where
  trans _ _ _ h h' := h'.trans h

instance readsSamePrinted (b : Backend S) : Reads b.printing SamePrinted where
  get _ _ := keeps_call _
  queryByUserName _ := keeps_call _
  queryByUserId _ := keeps_call _
  queryNickName _ := keeps_call _
  aggregate _ _ := keeps_call _
  aggregateSized _ _ := keeps_call _
  aggregateCount _ _ := keeps_call _
  find _ _ := keeps_call _
  count_documents _ _ := keeps_call _
  distinct _ _ := keeps_call _

/-- The change is made by one of the four functions that print a statement. -/
def Mutation.Prints : Mutation → Bool
  | .insertUser | .updateProblemStatus | .insertStatusRecord | .updateProblem => true
  | _ => false

theorem Mutation.within_samePrinted (b : Backend S) {m : Mutation} (h : m.Prints = false) :
    m.Within b.printing SamePrinted := by
  cases m with
  | insertUser | updateProblemStatus | insertStatusRecord | updateProblem =>
      cases h
  | setex db =>
      exact fun _ _ _ => keeps_call _
  | del db | update_one coll | insert_one coll | delete_one coll | delete_many coll =>
      first | exact fun _ => keeps_call _ | exact fun _ _ => keeps_call _
  | nextid | judging =>
      exact keeps_affect _
  | makeProblemData | removeProblemData =>
      exact fun _ _ => rfl
  | writeProblemFile =>
      exact fun _ _ _ => keeps_affect _
  | setAuthority =>
      exact fun _ _ _ => rfl
  | nextProblemId | nextArticleId | nextCommentId =>
      exact fun _ => rfl
  | problemtags =>
      exact fun _ _ => rfl

theorem Handler.prints_eq_false {h : Handler} (hregister : h ≠ .doRegisterUser) (hpost : h ≠ .doPostCode) :
    ∀ m ∈ h.mutations, m.Prints = false := by
  cases h with
  | doRegisterUser =>
      exact absurd rfl hregister
  | doPostCode =>
      exact absurd rfl hpost
  | _ =>
      decide

theorem printed_of_ne (b : Backend S) {h : Handler} (hregister : h ≠ .doRegisterUser) (req : HttpRequest)
    (server : Server S) : printed b h req server = [] := by
  by_cases hpost : h = .doPostCode
  · rw [hpost, printed_doPostCode]
  · -- nothing on the list of the handler makes a statement
    have hmutations : ∀ m ∈ h.mutations, m.Within b.printing SamePrinted :=
      fun m hm => Mutation.within_samePrinted b (Handler.prints_eq_false hregister hpost m hm)
    exact run_within (R := SamePrinted) req h hmutations (server.watching [])

/-! ## The server -/

/-- `onRequest` returns, every JSON its handler ends with has a string as the result, and no statement runs
over its buffer. -/
def ComesBack (b : Backend S) (req : HttpRequest) (resp : HttpResponse) (server : Server S) : Prop :=
  ReturnsNormally b req resp server ∧
    ∀ handler, handlerOf req = some handler → ∀ st ∈ printed b handler req server, st.Fits

/-- The condition under which the server comes back from a handler: the handler responds, and the values of a
registration that gets as far as its statement leave room for the rest of it. -/
def Survives (b : Backend S) (req : HttpRequest) (server : Server S) (handler : Handler) : Prop :=
  Responds b req server handler ∧
    (handler = .doRegisterUser → ∀ user, newUser b req server = some user →
      (((UserModel.texts user).map cstr).map List.length).sum ≤ 907)

theorem printed_fit_iff (b : Backend S) (req : HttpRequest) (server : Server S) (handler : Handler) :
    (∀ st ∈ printed b handler req server, st.Fits) ↔
      (handler = .doRegisterUser → ∀ user, newUser b req server = some user →
        (((UserModel.texts user).map cstr).map List.length).sum ≤ 907) := by
  by_cases hregister : handler = .doRegisterUser
  · subst hregister
    rw [printed_doRegisterUser]
    simp only [List.forall_mem_map, Option.mem_toList, Statement.fits_iff, forall_const]
    exact Iff.rfl
  · rw [printed_of_ne b hregister]
    exact iff_of_true (fun _ hmem => absurd hmem List.not_mem_nil) fun heq => absurd heq hregister

/-- **The server comes back from a request exactly when the handler the request is routed to survives it.** -/
theorem comesBack_iff (b : Backend S) (req : HttpRequest) (resp : HttpResponse) (server : Server S) :
    ComesBack b req resp server ↔
      ∀ handler, handlerOf req = some handler → Survives b req server handler := by
  simp only [ComesBack, returnsNormally_iff, printed_fit_iff]
  constructor
  · rintro ⟨hresponds, hfit⟩ handler hroute
    exact ⟨hresponds handler hroute, hfit handler hroute⟩
  · intro hsurvives
    exact ⟨fun handler hroute => (hsurvives handler hroute).1,
      fun handler hroute => (hsurvives handler hroute).2⟩

/-- `POST /user/register` with an opening brace as the body. -/
def malformedRegister : HttpRequest :=
  { HttpRequest.new with
    method_ := .kPost
    path_ := bytes "/user/register"
    body_ := bytes "\x7b" }

/-- The body of a registration is parsed outside of every `try`. -/
theorem register_malformed_throws :
    ¬ ComesBack Backend.idle malformedRegister (.new false) emptyServer := by
  rintro ⟨⟨hreturns, -⟩, -⟩
  have hroute : handlerOf malformedRegister = some .doRegisterUser := by decide +kernel
  rcases (answers_run_iff _ _).1 ((returns_onRequest_iff hroute _ _).1 hreturns) with ⟨j, hj⟩
  cases hj

end Oj
end Myoj
