import Mathlib.Data.Finmap
import Mathlib.Data.List.DropRight
import Myoj.Lib.Bytes

/-!
# Request — `HttpRequest` and the request line

* `HttpRequest` with its setters, as the parser calls them; a pair of pointers into the input is the
  stretch of bytes between them.
* `processRequestLine` works on the request in place, so it also returns the request it leaves behind
  when it fails.
* `RequestLine` is the grammar of an accepted line, and `requestOfLine` the request such a line
  stands for; `processRequestLine_of_grammar` and `grammar_of_processRequestLine` connect the two.
-/

namespace Myoj
namespace Http

inductive Method
  | kInvalid
  | kGet
  | kPost
  | kHead
  | kPut
  | kDelete
  deriving DecidableEq, Repr

inductive Version
  | kUnknown
  | kHttp10
  | kHttp11
  deriving DecidableEq, Repr

/-- `std::unordered_map<std::string, std::string>`. -/
abbrev StringMap := Finmap (fun _ : Bytes => Bytes)

/-- Microseconds since the epoch. -/
abbrev Timestamp := Int

def kStringToHttpMethod : List (Bytes × Method) :=
  [(bytes "GET", .kGet), (bytes "POST", .kPost), (bytes "HEAD", .kHead), (bytes "PUT", .kPut),
    (bytes "DELETE", .kDelete)]

@[ext]
structure HttpRequest where
  method_ : Method
  version_ : Version
  path_ : Bytes
  query_ : Bytes
  receiveTime_ : Timestamp
  headers_ : StringMap
  params_ : StringMap
  body_ : Bytes
  deriving DecidableEq

namespace HttpRequest

/-- `HttpRequest()`. -/
def new : HttpRequest where
  method_ := .kInvalid
  version_ := .kUnknown
  path_ := []
  query_ := []
  receiveTime_ := 0
  headers_ := ∅
  params_ := ∅
  body_ := []

def setVersion (r : HttpRequest) (v : Version) : HttpRequest := { r with version_ := v }

/-- `setMethod(start, end)`: refused once a method is set, and for a name not in the table. -/
def setMethod (r : HttpRequest) (m : Bytes) : Bool × HttpRequest :=
  if r.method_ ≠ .kInvalid then (false, r)
  else
    match kStringToHttpMethod.lookup m with
    | some method => (true, { r with method_ := method })
    | none => (false, { r with method_ := .kInvalid })

def setPath (r : HttpRequest) (path : Bytes) : HttpRequest := { r with path_ := path }

/-- One round of the loop in `setQuery`: `getline(paramIss, key, '=')`, then the value up to a line
end.  A parameter with nothing after the key is not stored. -/
def storeParam (params : StringMap) (param : Bytes) : StringMap :=
  match getline 61 param with
  | none => params
  | some (key, rest) =>
      match getline 10 rest with
      | none => params
      | some (value, _) => params.insert key value

/-- The loop of `setQuery`. -/
def storeParams (query : Bytes) (params : StringMap) : StringMap :=
  (getlines 38 query).foldl storeParam params

/-- `setQuery(start, end)`.  The caller passes the bytes from the question mark on, so the mark
becomes part of `query_` and of the first key. -/
def setQuery (r : HttpRequest) (query : Bytes) : HttpRequest :=
  { r with query_ := query, params_ := storeParams query r.params_ }

def hasParam (r : HttpRequest) (field : Bytes) : Bool := (r.params_.lookup field).isSome

def getParam (r : HttpRequest) (field : Bytes) : Bytes := (r.params_.lookup field).getD []

def setReceiveTime (r : HttpRequest) (t : Timestamp) : HttpRequest := { r with receiveTime_ := t }

/-- `std::isspace` in the C locale. -/
def isspace (b : UInt8) : Bool := b == 32 || (9 ≤ b && b ≤ 13)

/-- What `addHeader` keeps of the bytes after the colon. -/
def headerValue (raw : Bytes) : Bytes :=
  (raw.dropWhile isspace).rdropWhile fun b => b == 32 || b == 9

/-- `addHeader(start, colon, end)` with the bytes before and after the colon. -/
def addHeader (r : HttpRequest) (field raw : Bytes) : HttpRequest :=
  { r with headers_ := r.headers_.insert field (headerValue raw) }

def getHeader (r : HttpRequest) (field : Bytes) : Bytes := (r.headers_.lookup field).getD []

def setBody (r : HttpRequest) (body : Bytes) : HttpRequest := { r with body_ := body }

/-- `swap(that)`, as the pair of requests it leaves in `*this` and `that`.  `params_` and `body_`
are not among the fields it exchanges. -/
def swap (r that : HttpRequest) : HttpRequest × HttpRequest :=
  ({ that with params_ := r.params_, body_ := r.body_ },
    { r with params_ := that.params_, body_ := that.body_ })

/-- The part of `processRequestLine` between the two spaces: path, and query if there is a question
mark. -/
def setTarget (r : HttpRequest) (target : Bytes) : HttpRequest :=
  match cutAt 63 target with
  | none => r.setPath target
  | some (path, query) => (r.setPath path).setQuery (63 :: query)

/-- The last part of `processRequestLine`: eight bytes, `HTTP/1.` and a known digit. -/
def setVersionBytes (r : HttpRequest) (v : Bytes) : Bool × HttpRequest :=
  if v.length = 8 ∧ v.take 7 = bytes "HTTP/1." then
    if v.drop 7 = bytes "1" then (true, r.setVersion .kHttp11)
    else if v.drop 7 = bytes "0" then (true, r.setVersion .kHttp10)
    else (false, r)
  else (false, r)

/-- `HttpContext::processRequestLine(begin, end)` on the request it fills in. -/
def processRequestLine (r : HttpRequest) (line : Bytes) : Bool × HttpRequest :=
  match cutAt 32 line with
  | none => (false, r)
  | some (m, start) =>
      match r.setMethod m with
      | (false, r) => (false, r)
      | (true, r) =>
          match cutAt 32 start with
          | none => (false, r)
          | some (target, version) =>
              -- path and query stay in the request even when the version is refused
              (r.setTarget target).setVersionBytes version

end HttpRequest

/-! ## The grammar of accepted request lines -/

/-- An accepted request line in its parts. -/
structure RequestLine where
  name : Bytes
  method : Method
  target : Bytes
  version : Version
  digit : UInt8
  known : (name, method) ∈ kStringToHttpMethod
  target_no_space : 32 ∉ target
  digit_version : (version, digit) ∈ [(Version.kHttp10, (48 : UInt8)), (.kHttp11, 49)]

theorem lookup_eq_some_iff {name : Bytes} {method : Method} :
    kStringToHttpMethod.lookup name = some method ↔ (name, method) ∈ kStringToHttpMethod := by
  constructor
  · intro h
    rcases List.lookup_eq_some_iff.1 h with ⟨l₁, l₂, htable, -⟩
    rw [htable]
    simp
  · intro h
    have hall : ∀ p ∈ kStringToHttpMethod, kStringToHttpMethod.lookup p.1 = some p.2 := by decide
    exact hall _ h

theorem no_space_of_known {name : Bytes} {method : Method}
    (h : (name, method) ∈ kStringToHttpMethod) : 32 ∉ name := by
  have hall : ∀ p ∈ kStringToHttpMethod, 32 ∉ p.1 := by decide
  exact hall _ h

namespace RequestLine

def text (l : RequestLine) : Bytes :=
  l.name ++ 32 :: (l.target ++ 32 :: (bytes "HTTP/1." ++ [l.digit]))

/-- What the line puts into a request whose method is not set yet. -/
def fill (l : RequestLine) (r : HttpRequest) : HttpRequest :=
  ({ r with method_ := l.method }.setTarget l.target).setVersion l.version

end RequestLine

namespace HttpRequest

theorem setVersionBytes_eq_true_iff {r r' : HttpRequest} {v : Bytes} :
    r.setVersionBytes v = (true, r') ↔
      ∃ p ∈ [(Version.kHttp10, (48 : UInt8)), (.kHttp11, 49)],
        v = bytes "HTTP/1." ++ [p.2] ∧ r' = r.setVersion p.1 := by
  constructor
  · intro h
    unfold setVersionBytes at h
    split at h
    · next hv =>
      have hsplit : v = bytes "HTTP/1." ++ v.drop 7 := by rw [← hv.2, List.take_append_drop]
      split at h
      · next hone =>
        rw [hone] at hsplit
        exact ⟨(.kHttp11, 49), by simp, hsplit, (Prod.mk.inj h).2.symm⟩
      · split at h
        · next hzero =>
          rw [hzero] at hsplit
          exact ⟨(.kHttp10, 48), by simp, hsplit, (Prod.mk.inj h).2.symm⟩
        · simp at h
    · simp at h
  · rintro ⟨p, hp, rfl, rfl⟩
    simp only [List.mem_cons, List.not_mem_nil, or_false] at hp
    rcases hp with rfl | rfl <;> rfl

/-- `setMethod` succeeds on a fresh method and a known name only. -/
theorem setMethod_eq_true_iff {r r' : HttpRequest} {m : Bytes} :
    r.setMethod m = (true, r') ↔
      r.method_ = .kInvalid ∧
        ∃ method, (m, method) ∈ kStringToHttpMethod ∧ r' = { r with method_ := method } := by
  unfold setMethod
  constructor
  · intro h
    split at h
    · simp at h
    · next hinvalid =>
      split at h
      · next method hlookup =>
        exact ⟨not_not.1 hinvalid, method, lookup_eq_some_iff.1 hlookup, (Prod.mk.inj h).2.symm⟩
      · simp at h
  · rintro ⟨hinvalid, method, hknown, rfl⟩
    simp [hinvalid, lookup_eq_some_iff.2 hknown]

theorem processRequestLine_text (l : RequestLine) {r : HttpRequest} (h : r.method_ = .kInvalid) :
    r.processRequestLine l.text = (true, l.fill r) := by
  have hname := no_space_of_known l.known
  have hmethod : r.setMethod l.name = (true, { r with method_ := l.method }) :=
    setMethod_eq_true_iff.2 ⟨h, l.method, l.known, rfl⟩
  simp only [processRequestLine, RequestLine.text, cutAt_append hname, hmethod,
    cutAt_append l.target_no_space]
  exact setVersionBytes_eq_true_iff.2 ⟨_, l.digit_version, rfl, rfl⟩

theorem exists_of_processRequestLine {r r' : HttpRequest} {line : Bytes}
    (h : r.processRequestLine line = (true, r')) :
    r.method_ = .kInvalid ∧ ∃ l : RequestLine, l.text = line ∧ r' = l.fill r := by
  unfold processRequestLine at h
  split at h
  · simp at h
  · next m start hm =>
    split at h
    · simp at h
    · next r₁ hmethod =>
      split at h
      · simp at h
      · next target version htarget =>
        rcases cutAt_eq_some_iff.1 hm with ⟨rfl, -⟩
        rcases cutAt_eq_some_iff.1 htarget with ⟨rfl, hspace⟩
        rcases setMethod_eq_true_iff.1 hmethod with ⟨hinvalid, method, hknown, rfl⟩
        rcases setVersionBytes_eq_true_iff.1 h with ⟨p, hp, rfl, rfl⟩
        exact ⟨hinvalid, ⟨m, method, target, p.1, p.2, hknown, hspace, hp⟩, rfl, rfl⟩

end HttpRequest

/-! ## What a request line does to the request it is read into -/

/-- The fields that `processRequestLine` sets, and its result. -/
structure LineEdit where
  ok : Bool
  method : Option Method
  target : Option Bytes
  version : Option Version

namespace LineEdit

def apply (e : LineEdit) (r : HttpRequest) : HttpRequest :=
  let r := e.method.elim r fun m => { r with method_ := m }
  let r := e.target.elim r r.setTarget
  e.version.elim r r.setVersion

end LineEdit

/-- The path of a request target. -/
def pathOf (target : Bytes) : Bytes := ((cutAt 63 target).map Prod.fst).getD target

/-- The query of a request target, from its question mark on. -/
def queryOf (target : Bytes) : Option Bytes := (cutAt 63 target).map fun p => 63 :: p.2

def versionOf (v : Bytes) : Option Version :=
  if v = bytes "HTTP/1.1" then some .kHttp11
  else if v = bytes "HTTP/1.0" then some .kHttp10
  else none

/-- The edit depends on the line and on whether the method is set already, on nothing else. -/
def lineEdit (method_ : Method) (line : Bytes) : LineEdit :=
  match cutAt 32 line with
  | none => ⟨false, none, none, none⟩
  | some (m, start) =>
      if method_ ≠ .kInvalid then ⟨false, none, none, none⟩
      else
        match kStringToHttpMethod.lookup m with
        | none => ⟨false, some .kInvalid, none, none⟩
        | some method =>
            match cutAt 32 start with
            | none => ⟨false, some method, none, none⟩
            | some (target, v) => ⟨(versionOf v).isSome, some method, some target, versionOf v⟩

namespace HttpRequest

theorem setVersionBytes_eq (r : HttpRequest) (v : Bytes) :
    r.setVersionBytes v = ((versionOf v).isSome, (versionOf v).elim r r.setVersion) := by
  by_cases hone : v = bytes "HTTP/1.1"
  · subst hone
    rfl
  · by_cases hzero : v = bytes "HTTP/1.0"
    · subst hzero
      rfl
    · have hnone : versionOf v = none := by simp [versionOf, hone, hzero]
      have hrefused : ∀ r', r.setVersionBytes v ≠ (true, r') := by
        intro r' h
        rcases setVersionBytes_eq_true_iff.1 h with ⟨p, hp, hv, -⟩
        simp only [List.mem_cons, List.not_mem_nil, or_false] at hp
        rcases hp with rfl | rfl
        · exact hzero hv
        · exact hone hv
      simp only [hnone, setVersionBytes] at hrefused ⊢
      split at hrefused
      · split at hrefused
        · exact absurd rfl (hrefused _)
        · split at hrefused
          · exact absurd rfl (hrefused _)
          · simp_all
      · simp_all

theorem processRequestLine_eq (r : HttpRequest) (line : Bytes) :
    r.processRequestLine line = ((lineEdit r.method_ line).ok, (lineEdit r.method_ line).apply r) := by
  unfold processRequestLine lineEdit
  cases hm : cutAt 32 line with
  | none =>
      rfl
  | some p =>
      by_cases hmethod : r.method_ = .kInvalid
      · cases hlookup : kStringToHttpMethod.lookup p.1 with
        | none =>
            simp [setMethod, hmethod, hlookup, LineEdit.apply]
        | some method =>
            cases htarget : cutAt 32 p.2 with
            | none =>
                simp [setMethod, hmethod, hlookup, htarget, LineEdit.apply]
            | some q =>
                simp [setMethod, hmethod, hlookup, htarget, LineEdit.apply, setVersionBytes_eq]
      · simp [setMethod, hmethod, LineEdit.apply]

theorem setTarget_eq (r : HttpRequest) (target : Bytes) :
    r.setTarget target =
      { r with
        path_ := pathOf target
        query_ := (queryOf target).getD r.query_
        params_ := (queryOf target).elim r.params_ fun q => storeParams q r.params_ } := by
  unfold setTarget pathOf queryOf
  cases cutAt 63 target <;> rfl

end HttpRequest

/-- The edit, field by field. -/
theorem LineEdit.apply_eq (e : LineEdit) (r : HttpRequest) :
    e.apply r =
      { r with
        method_ := e.method.getD r.method_
        version_ := e.version.getD r.version_
        path_ := (e.target.map pathOf).getD r.path_
        query_ := (e.target.bind queryOf).getD r.query_
        params_ := (e.target.bind queryOf).elim r.params_ fun q =>
          HttpRequest.storeParams q r.params_ } := by
  rcases e with ⟨ok, method, target, version⟩
  cases method <;> cases target <;> cases version <;>
    simp [LineEdit.apply, HttpRequest.setVersion, HttpRequest.setTarget_eq]

namespace HttpRequest

/-- The request line does not look at the clock. -/
theorem processRequestLine_setReceiveTime (r : HttpRequest) (t : Timestamp) (line : Bytes) :
    (r.setReceiveTime t).processRequestLine line =
      ((r.processRequestLine line).1, (r.processRequestLine line).2.setReceiveTime t) := by
  simp only [processRequestLine_eq, LineEdit.apply_eq]
  rfl

/-- A line that is refused is refused again, and then changes nothing more. -/
theorem processRequestLine_refused_again {r r' : HttpRequest} {line : Bytes}
    (h : r.processRequestLine line = (false, r')) : r'.processRequestLine line = (false, r') := by
  rw [processRequestLine_eq, Prod.mk.injEq] at h
  rcases h with ⟨hrefused, rfl⟩
  rw [processRequestLine_eq]
  have hset : ((lineEdit r.method_ line).apply r).method_ =
      (lineEdit r.method_ line).method.getD r.method_ := by
    rw [LineEdit.apply_eq]
  rw [hset]
  unfold lineEdit at hrefused ⊢
  cases hm : cutAt 32 line with
  | none =>
      simp [LineEdit.apply]
  | some p =>
      by_cases hmethod : r.method_ = .kInvalid
      · cases hlookup : kStringToHttpMethod.lookup p.1 with
        | none =>
            simp [hmethod, hlookup, LineEdit.apply]
        | some method =>
            -- the method is set now, and a method is never set twice
            have hset : method ≠ .kInvalid := by
              rintro rfl
              have hknown := lookup_eq_some_iff.1 hlookup
              simp [kStringToHttpMethod] at hknown
            cases htarget : cutAt 32 p.2 <;> simp [hmethod, hlookup, htarget, hset, LineEdit.apply]
      · simp [hmethod, LineEdit.apply]

end HttpRequest
end Http
end Myoj
