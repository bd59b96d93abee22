import Myoj.Http.KeepAlive
import Myoj.Http.Segments

/-!
# Refusal — what a refused line does to the rest of the connection

`onMessage` answers a refused request line with a 400 and leaves it where it is.  `Wedged` is a
connection whose buffer begins with such a line: whatever arrives later, the line is refused again, and
nothing is handed to `httpCallback_` any more.
-/

namespace Myoj
namespace Http

open Net HttpContext

namespace Reader

/-- The pending bytes begin with a line that the context refuses, and leaves the way it is. -/
structure Wedged (s : Reader) : Prop where
  running : s.status = .running
  state : s.context.state_ = .kExpectRequestLine
  refused : ∃ line tail, s.pending = line ++ 13 :: tail ∧ 13 ∉ line ∧
    s.context.request_.processRequestLine line = (false, s.context.request_)

/-- A delivery to a wedged connection is one more refusal. -/
theorem Wedged.deliver {s : Reader} (h : s.Wedged) (data : Bytes) :
    (s.deliver data).Wedged ∧ (s.deliver data).requests = s.requests := by
  obtain ⟨line, tail, hpending, hline, hrefused⟩ := h.refused
  have hparse : s.context.parse (s.pending ++ data) = .returned false s.context (s.pending ++ data) := by
    rw [hpending, List.append_assoc, List.cons_append, parse_requestLine h.state hline, hrefused]
  have hall : s.context.getAll = false := by simp [getAll, h.state]
  have hdeliver : s.deliver data = { s with pending := s.pending ++ data } := by
    simp [Reader.deliver, h.running, read, hparse, hall]
  rw [hdeliver]
  refine ⟨⟨h.running, h.state, line, tail ++ data, ?_, hline, hrefused⟩, rfl⟩
  simp [hpending]

/-- Nothing is handed out any more. -/
theorem Wedged.requests_foldl {s : Reader} (h : s.Wedged) (chunks : List Bytes) :
    (chunks.foldl Reader.deliver s).requests = s.requests := by
  induction chunks generalizing s with
  | nil =>
      rfl
  | cons data chunks ih =>
      obtain ⟨hwedged, hrequests⟩ := h.deliver data
      rw [List.foldl_cons, ih hwedged, hrequests]

end Reader

namespace Session

variable (httpCallback_ : HttpRequest → HttpResponse → HttpResponse)

/-- `parseRequest` returns false on the delivery. -/
def Refuses (s : Session) (chunk : Chunk) : Prop :=
  s.status = .running ∧ ∃ c buf,
    s.context.parseRequest (s.inputBuffer_.append chunk.data) chunk.receiveTime = .returned false c buf

/-- A well-formed request with a known method and version that is delivered now is handed to
`httpCallback_`. -/
def Dispatches (s : Session) : Prop :=
  ∀ (r : RawRequest) (method : Method) (version : Version), r.WellFormed → r.Accepted method version →
    ∀ t, (s.deliver httpCallback_ ⟨r.render, t⟩).requests.length = s.requests.length + 1

variable {httpCallback_} {s : Session} {chunk : Chunk}

variable (httpCallback_) in
/-- A refusal leaves the connection wedged, and does not shut it down. -/
theorem Refuses.deliver (h : s.Refuses chunk) :
    (s.deliver httpCallback_ chunk).reader.Wedged ∧
      (s.deliver httpCallback_ chunk).shutDown = s.shutDown := by
  obtain ⟨hrunning, c, buf, hparse⟩ := h
  have hview := parseRequest_view s.context (s.inputBuffer_.append chunk.data) chunk.receiveTime
  rw [hparse] at hview
  obtain ⟨hstate, line, tail, hrest, hline, hrefused⟩ := parse_refused hview.symm
  have hall : c.getAll = false := by
    have hc : c.state_ = .kExpectRequestLine := hstate
    simp [getAll, hc]
  have hdeliver : s.deliver httpCallback_ chunk =
      { s with context := c, inputBuffer_ := buf }.badRequest := by
    simp [Session.deliver, hrunning, onMessage, hparse, badRequest, hall]
  rw [hdeliver]
  exact ⟨⟨hrunning, hstate, line, tail, hrest, hline, hrefused⟩, rfl⟩

variable (httpCallback_) in
/-- From then on no delivery reaches the callback. -/
theorem Refuses.requests_foldl (h : s.Refuses chunk) (chunks : List Chunk) :
    (chunks.foldl (Session.deliver httpCallback_) (s.deliver httpCallback_ chunk)).requests.length =
      (s.deliver httpCallback_ chunk).requests.length := by
  have hreader := (h.deliver httpCallback_).1.requests_foldl (chunks.map Chunk.data)
  rw [← reader_foldl] at hreader
  simpa [reader] using congrArg List.length hreader

theorem Refuses.not_dispatches (h : s.Refuses chunk) :
    ¬ (s.deliver httpCallback_ chunk).Dispatches httpCallback_ := by
  intro hdispatches
  have hping := hdispatches ping .kGet .kHttp11 ping_wellFormed ⟨by decide, by decide⟩ 0
  have hnone := h.requests_foldl httpCallback_ [⟨ping.render, 0⟩]
  rw [List.foldl_cons, List.foldl_nil, hping] at hnone
  exact absurd hnone (Nat.succ_ne_self _)

/-- **A refused request.**  The connection is shut down or goes on to dispatch well-formed requests
precisely when it had been shut down before. -/
theorem recovers_iff (h : s.Refuses chunk) :
    ((s.deliver httpCallback_ chunk).shutDown = true ∨
        (s.deliver httpCallback_ chunk).Dispatches httpCallback_) ↔ s.shutDown = true := by
  rw [or_iff_left h.not_dispatches, (h.deliver httpCallback_).2]

/-- Whether `parseRequest` returns false on a delivery. -/
def refuses (s : Session) (chunk : Chunk) : Bool :=
  match s.context.parseRequest (s.inputBuffer_.append chunk.data) chunk.receiveTime with
  | .returned ok _ _ => !ok
  | _ => false

theorem refuses_of_running (hrunning : s.status = .running) (h : s.refuses chunk = true) :
    s.Refuses chunk := by
  unfold refuses at h
  split at h
  · next ok c buf hparse =>
    obtain rfl : ok = false := by simpa using h
    exact ⟨hrunning, c, buf, hparse⟩
  · cases h

/-- A connection that a response has shut down, and a line that is refused. -/
theorem recovers_iff_closed :
    let s := new.deliver (fun _ response => { response with closeConnection_ := true }) ⟨ping.render, 0⟩
    ((s.deliver (fun _ response => response) ⟨bytes "FOO\r\n", 0⟩).shutDown = true ∨
        (s.deliver (fun _ response => response) ⟨bytes "FOO\r\n", 0⟩).Dispatches
          fun _ response => response) ↔ s.shutDown = true := by
  intro s
  have hrunning : s.status = .running := by decide +kernel
  exact recovers_iff (refuses_of_running hrunning (by decide +kernel))

/-- On a new connection a method in lower case is enough: the next request is never dispatched. -/
theorem refused_line_wedges :
    let s := new.deliver (fun _ response => response) ⟨bytes "get / HTTP/1.1\r\n", 0⟩
    ¬ (s.shutDown = true ∨ s.Dispatches fun _ response => response) := by
  intro s
  have hrefuses : new.Refuses ⟨bytes "get / HTTP/1.1\r\n", 0⟩ :=
    refuses_of_running rfl (by decide +kernel)
  rintro (hdown | hdispatches)
  · rw [(hrefuses.deliver _).2] at hdown
    cases hdown
  · exact hrefuses.not_dispatches hdispatches

end Session

end Http
end Myoj
