import Myoj.Lib.Runs
import Myoj.Http.Context

/-!
# Server — `HttpServer` on one connection

`Session` is what the server holds for a connection: its `HttpContext`, its input `Buffer`, and what
has happened so far (the requests handed to `httpCallback_`, the payloads passed to `conn->send`).
`deliver` appends one chunk to the input buffer and calls `onMessage`.

`httpCallback_` is a parameter: any function that fills in a response.

`Reader` is the same session over byte strings, and `reader_deliver` the simulation between the two.
-/

namespace Myoj
namespace Http

open Net

/-! ## `HttpResponse` -/

structure HttpResponse where
  /-- In the order in which the map is iterated over. -/
  headers_ : List (Bytes × Bytes)
  statusCode_ : Int
  statusMessage_ : Bytes
  closeConnection_ : Bool
  body_ : Bytes

namespace HttpResponse

/-- `HttpResponse(bool close)`. -/
def new (close : Bool) : HttpResponse where
  headers_ := []
  statusCode_ := 0
  statusMessage_ := []
  closeConnection_ := close
  body_ := []

/-- `snprintf(buf, size, …)` keeps what fits before the terminating zero. -/
def snprintf (size : Nat) (text : Bytes) : Bytes := text.take (size - 1)

def decimal (n : Int) : Bytes := bytes (toString n)

/-- Texts reach the buffer through `c_str()`. -/
def appendToBuffer (r : HttpResponse) (output : Buffer) : Buffer :=
  let output := output.append
    (snprintf 32 (bytes "HTTP/1.1 " ++ decimal r.statusCode_ ++ bytes " "))
  let output := output.append (cstr r.statusMessage_)
  let output := output.append (bytes "\r\n")
  let output :=
    if r.closeConnection_ then output.append (bytes "Connection: close\r\n")
    else
      (output.append
        (snprintf 32 (bytes "Content-Length: " ++ decimal r.body_.length ++ bytes "\r\n"))).append
        (bytes "Connection: keep-Alive\r\n")
  let output := r.headers_.foldl
    (fun output h => output.append (cstr (h.1 ++ bytes ": " ++ h.2 ++ bytes "\r\n"))) output
  let output := output.append (bytes "\r\n")
  output.append (cstr r.body_)

end HttpResponse

/-! ## The session of a connection -/

inductive Status
  | running
  | aborted
  | spinning
  deriving DecidableEq, Repr

structure Session where
  context : HttpContext
  inputBuffer_ : Buffer
  /-- The requests handed to `httpCallback_`, in order. -/
  requests : List HttpRequest
  /-- The payloads passed to `conn->send`, in order. -/
  sent : List Bytes
  /-- Whether `conn->shutdown()` has been called. -/
  shutDown : Bool
  status : Status

namespace Session

/-- A connection that has just been established. -/
def new : Session where
  context := .new
  inputBuffer_ := .new kInitialSize
  requests := []
  sent := []
  shutDown := false
  status := .running

section server

variable (httpCallback_ : HttpRequest → HttpResponse → HttpResponse)

def onRequest (s : Session) (req : HttpRequest) : Session :=
  let connection := req.getHeader (bytes "Connection")
  let close := connection == bytes "close" ||
    (req.version_ == .kHttp10 && connection != bytes "Keep-Alive")
  let response := httpCallback_ req (.new close)
  let buf := response.appendToBuffer (.new kInitialSize)
  { s with
    requests := s.requests ++ [req]
    sent := s.sent ++ [buf.readable]
    shutDown := s.shutDown || response.closeConnection_ }

/-- `conn->send` of the refusal. -/
def badRequest (s : Session) : Session :=
  { s with sent := s.sent ++ [bytes "HTTP/1.1 400 BadRequest\r\n\r\n"] }

/-- `context->reset()`. -/
def resetContext (s : Session) : Session := { s with context := s.context.reset }

def onMessage (s : Session) (receiveTime : Timestamp) : Session :=
  match s.context.parseRequest s.inputBuffer_ receiveTime with
  | .fatal => { s with status := .aborted }
  | .spinning => { s with status := .spinning }
  | .returned ok context buf =>
      let s := { s with context := context, inputBuffer_ := buf }
      let s := if ok then s else s.badRequest
      if s.context.getAll then (s.onRequest httpCallback_ s.context.request_).resetContext
      else s

/-- A chunk of bytes and the time it is read at. -/
structure Chunk where
  data : Bytes
  receiveTime : Timestamp

/-- `handleRead` puts the chunk into the input buffer and calls the message callback. -/
def deliver (s : Session) (chunk : Chunk) : Session :=
  match s.status with
  | .running =>
      { s with inputBuffer_ := s.inputBuffer_.append chunk.data }.onMessage httpCallback_
        chunk.receiveTime
  | _ => s

end server

end Session

/-! ## The session over byte strings -/

/-- What of a session decides about requests: the parser's context without clock readings, the bytes
not consumed yet, the requests handed out, and whether the server still runs. -/
structure Reader where
  context : HttpContext
  pending : Bytes
  requests : List HttpRequest
  status : Status

namespace Reader

def new : Reader := ⟨.new, [], [], .running⟩

/-- Parse the pending bytes, and hand out the request if it is complete. -/
def read (s : Reader) : Reader :=
  match s.context.parse s.pending with
  | .fatal => { s with status := .aborted }
  | .spinning => { s with status := .spinning }
  | .returned _ context rest =>
      if context.getAll then
        { s with
          context := context.reset
          pending := rest
          requests := s.requests ++ [context.request_] }
      else { s with context := context, pending := rest }

def deliver (s : Reader) (data : Bytes) : Reader :=
  match s.status with
  | .running => { s with pending := s.pending ++ data }.read
  | _ => s

end Reader

namespace Session

def reader (s : Session) : Reader where
  context := s.context.untimed
  pending := s.inputBuffer_.readable
  requests := s.requests.map (·.setReceiveTime 0)
  status := s.status

theorem reader_new : new.reader = .new := by
  simp [reader, new, Reader.new]
  rfl

variable (httpCallback_ : HttpRequest → HttpResponse → HttpResponse)

theorem reader_dispatch (s : Session) :
    (s.onRequest httpCallback_ s.context.request_).resetContext.reader =
      { s.reader with
        context := s.reader.context.reset
        requests := s.reader.requests ++ [s.reader.context.request_] } := by
  simp only [reader, onRequest, resetContext, List.map_append, List.map_cons, List.map_nil]
  rfl

/-- `onMessage` reads the pending bytes. -/
theorem reader_onMessage (s : Session) (t : Timestamp) :
    (s.onMessage httpCallback_ t).reader = s.reader.read := by
  have hview := HttpContext.parseRequest_view s.context s.inputBuffer_ t
  have hparse : s.reader.context.parse s.reader.pending =
      HttpContext.view (s.context.parseRequest s.inputBuffer_ t) := hview.symm
  unfold onMessage Reader.read
  rw [hparse]
  cases s.context.parseRequest s.inputBuffer_ t with
  | fatal =>
      rfl
  | spinning =>
      rfl
  | returned ok context buf =>
      -- the reader does not see whether a refusal was sent
      have key : ∀ s' : Session, s'.context = context →
          s'.reader = { s.reader with context := context.untimed, pending := buf.readable } →
          (if s'.context.getAll then (s'.onRequest httpCallback_ s'.context.request_).resetContext
            else s').reader =
          if context.untimed.getAll then
            { s.reader with
              context := context.untimed.reset
              pending := buf.readable
              requests := s.reader.requests ++ [context.untimed.request_] }
          else { s.reader with context := context.untimed, pending := buf.readable } := by
        intro s' hcontext hreader
        have hall : context.untimed.getAll = s'.context.getAll := by rw [hcontext]; rfl
        rw [hall]
        split
        · rw [reader_dispatch, hreader]
        · exact hreader
      cases ok <;> exact key _ rfl rfl

theorem reader_deliver (s : Session) (chunk : Chunk) :
    (s.deliver httpCallback_ chunk).reader = s.reader.deliver chunk.data := by
  have hstatus : s.reader.status = s.status := rfl
  unfold deliver Reader.deliver
  rw [hstatus]
  cases s.status with
  | running =>
      refine (reader_onMessage httpCallback_ _ _).trans ?_
      simp [reader]
  | aborted =>
      rfl
  | spinning =>
      rfl

end Session
end Http
end Myoj
