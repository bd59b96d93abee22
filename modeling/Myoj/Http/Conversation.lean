import Myoj.Http.KeepAlive
import Myoj.Http.Segments
import Myoj.Http.Response

/-!
# Conversation — many requests on one connection

A client sends a request, reads the response, and sends the next request on the same connection.

* `Round` — a request, and the chunks it arrives in;
* `Reader.Resumed` — a reader between two rounds, or inside one: a fresh parser with what the earlier
  requests have left behind;
* `Session.Replied` — every request was answered, and nothing else was sent;
* `conversation` — what the callback is given over the rounds;
* `readMessages` — what the client reads of the answers; `conversation_read` says that it is what the
  callback has answered, as long as no response closes the connection.
-/

namespace Myoj
namespace Http

open Net

/-! ## Rounds -/

/-- A request that the server knows. -/
structure Asked where
  request : RawRequest
  method : Method
  version : Version
  well_formed : request.WellFormed
  accepted : request.Accepted method version

/-- The request as a new connection would have it. -/
def Asked.received (a : Asked) : HttpRequest := a.request.received a.method a.version a.request.body

/-- A request, and chunks that it may be cut into. -/
structure Round extends Asked where
  chunks : List Session.Chunk
  rendered : (chunks.map Session.Chunk.data).flatten = request.render
  undisturbed : Reader.Undisturbed request (chunks.map Session.Chunk.data)

theorem RawRequest.render_ne_nil (r : RawRequest) : r.render ≠ [] := by
  simp [render, head, requestLine]

theorem Round.chunks_ne_nil (r : Round) : r.chunks ≠ [] := by
  intro hnil
  have hrendered := r.rendered
  rw [hnil] at hrendered
  exact r.request.render_ne_nil hrendered.symm

/-- What the callback is given: the parameters of all earlier requests lie under those of the request. -/
def exchanged : StringMap → List Asked → List HttpRequest
  | _, [] => []
  | P, a :: as =>
      { a.received with params_ := a.received.params_ ∪ P } :: exchanged (a.received.params_ ∪ P) as

/-! ## The reader -/

namespace Reader

/-- A reader that has finished the requests `earlier` and has read `sofar` of the next one; `P` and `B`
are the parameters and the body that the last one has left behind. -/
structure Resumed (P : StringMap) (B : Bytes) (earlier : List HttpRequest) (s : Reader) (sofar : Bytes) :
    Prop where
  status : s.status = .running
  requests : s.requests = earlier
  parsed : ∃ c, HttpContext.new.parse sofar = .returned true c s.pending ∧ c.getAll = false ∧
    s.context = c.leak P B

variable {P : StringMap} {B : Bytes} {earlier : List HttpRequest} {s : Reader} {sofar : Bytes}

theorem resumed_between (P : StringMap) (B : Bytes) (earlier : List HttpRequest) :
    Resumed P B earlier ⟨HttpContext.new.leak P B, [], earlier, .running⟩ [] :=
  ⟨rfl, rfl, .new, HttpContext.parse_waiting (.inl rfl) (by simp), rfl, rfl⟩

/-- What was left behind does not disturb the parser. -/
theorem Resumed.parse (h : Resumed P B earlier s sofar) (data : Bytes) :
    s.context.parse (s.pending ++ data) =
      HttpContext.leaked P B (HttpContext.new.parse (sofar ++ data)) := by
  obtain ⟨c, hparse, hwaits, hcontext⟩ := h.parsed
  have hfatal : HttpContext.new.parse sofar ≠ .fatal := by simp [hparse]
  rw [hcontext, HttpContext.parse_leak, parse_append hfatal, hparse]
  simp [continued, hwaits]

/-- A chunk that leaves the parser waiting. -/
theorem Resumed.deliver (h : Resumed P B earlier s sofar) {data : Bytes} {c : HttpContext} {rest : Bytes}
    (hparse : HttpContext.new.parse (sofar ++ data) = .returned true c rest) (hwaits : c.getAll = false) :
    Resumed P B earlier (s.deliver data) (sofar ++ data) := by
  have hleak : (c.leak P B).getAll = false := hwaits
  have hdeliver : s.deliver data = { s with context := c.leak P B, pending := rest } := by
    simp [Reader.deliver, h.status, read, h.parse, hparse, HttpContext.leaked, hwaits, hleak]
  rw [hdeliver]
  exact ⟨h.status, h.requests, c, hparse, hwaits, rfl⟩

/-- The chunk that completes a request: it is handed out with what was left behind, and leaves as much
behind itself. -/
theorem Resumed.complete (h : Resumed P B earlier s sofar) {data : Bytes} {q : HttpRequest}
    (hparse : HttpContext.new.parse (sofar ++ data) = .returned true ⟨.kGotAll, q⟩ []) :
    s.deliver data = ⟨HttpContext.new.leak (q.params_ ∪ P) q.body_, [],
      earlier ++ [{ q with params_ := q.params_ ∪ P }], .running⟩ := by
  have hleaked := h.parse data
  rw [hparse] at hleaked
  have hreset : HttpContext.reset ⟨.kGotAll, q.leak P q.body_⟩ =
      HttpContext.new.leak (q.params_ ∪ P) q.body_ := HttpContext.reset_eq_leak _
  have hdone := deliver_of_complete h.status hleaked
  rw [h.requests] at hdone
  exact hdone.trans (by rw [← hreset]; rfl)

end Reader

/-! ## The answers -/

namespace Session

section replies

variable (httpCallback_ : HttpRequest → HttpResponse → HttpResponse)

/-- The response to a request. -/
def response (req : HttpRequest) : HttpResponse :=
  let connection := req.getHeader (bytes "Connection")
  httpCallback_ req (.new (connection == bytes "close" ||
    (req.version_ == .kHttp10 && connection != bytes "Keep-Alive")))

/-- The payload of `conn->send`. -/
def answer (req : HttpRequest) : Bytes :=
  ((response httpCallback_ req).appendToBuffer (.new kInitialSize)).readable

/-- Each request was answered, and nothing else was sent. -/
structure Replied (s : Session) : Prop where
  sent : s.sent = s.requests.map (answer httpCallback_)
  shutDown : s.shutDown = s.requests.any fun q => (response httpCallback_ q).closeConnection_

theorem replied_new : new.Replied httpCallback_ := ⟨rfl, rfl⟩

variable {httpCallback_}

/-- Unless a request line is refused, only answers are sent. -/
theorem Replied.onMessage {s : Session} (h : s.Replied httpCallback_) {t : Timestamp}
    (hok : ∀ c rest, s.reader.context.parse s.reader.pending ≠ .returned false c rest) :
    (s.onMessage httpCallback_ t).Replied httpCallback_ := by
  have hreader : s.reader.context.parse s.reader.pending =
      HttpContext.view (s.context.parseRequest s.inputBuffer_ t) :=
    (HttpContext.parseRequest_view s.context s.inputBuffer_ t).symm
  simp only [Session.onMessage]
  cases hparse : s.context.parseRequest s.inputBuffer_ t with
  | fatal =>
      exact ⟨h.sent, h.shutDown⟩
  | spinning =>
      exact ⟨h.sent, h.shutDown⟩
  | returned ok c buf =>
      cases ok with
      | false =>
          rw [hparse] at hreader
          exact absurd hreader (hok _ _)
      | true =>
          simp only [if_true]
          split
          · -- one more request, and one more answer
            constructor
            · simp [onRequest, resetContext, answer, response, h.sent]
            · simp [onRequest, resetContext, response, h.shutDown]
          · exact ⟨h.sent, h.shutDown⟩

theorem Replied.deliver {s : Session} (h : s.Replied httpCallback_) {chunk : Chunk}
    (hok : ∀ c rest, s.reader.context.parse (s.reader.pending ++ chunk.data) ≠ .returned false c rest) :
    (s.deliver httpCallback_ chunk).Replied httpCallback_ := by
  unfold Session.deliver
  cases s.status with
  | aborted | spinning =>
      exact h
  | running =>
      have happended : Replied httpCallback_
          { s with inputBuffer_ := s.inputBuffer_.append chunk.data, status := .running } :=
        ⟨h.sent, h.shutDown⟩
      refine happended.onMessage fun c rest hrefused => ?_
      have hpending := s.inputBuffer_.readable_append chunk.data
      simp only [reader, hpending] at hrefused
      exact hok c rest hrefused

end replies

/-! ## One round, and all of them -/

section rounds

variable {httpCallback_ : HttpRequest → HttpResponse → HttpResponse}
variable {P : StringMap} {B : Bytes} {earlier : List HttpRequest}

/-- The chunks of a round, from the middle of the header block on. -/
theorem chunks_of_resumed {r : RawRequest} {method : Method} {version : Version} (h : r.WellFormed)
    (haccepted : r.Accepted method version) {chunks : List Chunk} {s : Session} {sofar : Bytes}
    (hresumed : s.reader.Resumed P B earlier sofar) (hreplied : s.Replied httpCallback_)
    (hrender : sofar ++ (chunks.map Chunk.data).flatten = r.render) (hne : chunks ≠ [])
    (hcuts : ∀ k < (chunks.map Chunk.data).length, 0 < k →
      (sofar ++ ((chunks.map Chunk.data).take k).flatten).length < r.head.length ∧
        (sofar ++ ((chunks.map Chunk.data).take k).flatten).getLast? ≠ some 13) :
    let q := r.received method version r.body
    (chunks.foldl (deliver httpCallback_) s).reader =
        ⟨HttpContext.new.leak (q.params_ ∪ P) r.body, [],
          earlier ++ [{ q with params_ := q.params_ ∪ P }], .running⟩ ∧
      (chunks.foldl (deliver httpCallback_) s).Replied httpCallback_ := by
  intro q
  induction chunks generalizing s sofar with
  | nil =>
      exact absurd rfl hne
  | cons chunk chunks ih =>
      cases chunks with
      | nil =>
          -- the last chunk completes the request
          have hall : sofar ++ chunk.data = r.head ++ r.body := by simpa [RawRequest.render] using hrender
          have hparse : HttpContext.new.parse (sofar ++ chunk.data) = .returned true ⟨.kGotAll, q⟩ [] := by
            rw [hall]
            exact RawRequest.parse_head h haccepted r.body
          refine ⟨(reader_deliver httpCallback_ s chunk).trans (hresumed.complete hparse), ?_⟩
          refine hreplied.deliver fun c rest hrefused => ?_
          rw [hresumed.parse, hparse] at hrefused
          simp [HttpContext.leaked] at hrefused
      | cons chunk' chunks =>
          -- an earlier chunk ends inside the header block
          obtain ⟨hlen, hlast⟩ := hcuts 1 (by simp) Nat.one_pos
          simp only [List.map_cons, List.take_succ_cons, List.take_zero, List.flatten_cons,
            List.flatten_nil, List.append_nil] at hlen hlast
          have hinitial : sofar ++ chunk.data <+: r.head := by
            have hwhole : sofar ++ chunk.data <+: r.render :=
              ⟨((chunk' :: chunks).map Chunk.data).flatten, by rw [← hrender]; simp⟩
            exact List.prefix_of_prefix_length_le hwhole ⟨r.body, rfl⟩ hlen.le
          obtain ⟨more, hmore⟩ := hinitial
          have hmore_ne : more ≠ [] := by
            rintro rfl
            simp [← hmore] at hlen
          obtain ⟨c, rest, hparse, hwaits⟩ := RawRequest.parse_prefix_waits h haccepted hmore hmore_ne hlast
          have hnext : (s.deliver httpCallback_ chunk).reader.Resumed P B earlier (sofar ++ chunk.data) := by
            rw [reader_deliver]
            exact hresumed.deliver hparse hwaits
          have hanswered : (s.deliver httpCallback_ chunk).Replied httpCallback_ := by
            refine hreplied.deliver fun c' rest' hrefused => ?_
            rw [hresumed.parse, hparse] at hrefused
            simp [HttpContext.leaked] at hrefused
          refine ih hnext hanswered (by simpa using hrender) (by simp) fun k hk _ => ?_
          simpa using hcuts (k + 1) (by simpa using Nat.succ_lt_succ hk) k.succ_pos

/-- The round of a request, on a connection that waits for the next request. -/
theorem round_spec (r : Round) {s : Session}
    (hs : s.reader = ⟨HttpContext.new.leak P B, [], earlier, .running⟩)
    (hreplied : s.Replied httpCallback_) :
    (r.chunks.foldl (deliver httpCallback_) s).reader =
        ⟨HttpContext.new.leak (r.received.params_ ∪ P) r.request.body, [],
          earlier ++ [{ r.received with params_ := r.received.params_ ∪ P }], .running⟩ ∧
      (r.chunks.foldl (deliver httpCallback_) s).Replied httpCallback_ := by
  have hresumed : s.reader.Resumed P B earlier [] := hs ▸ Reader.resumed_between P B earlier
  refine chunks_of_resumed r.well_formed r.accepted hresumed hreplied ?_ r.chunks_ne_nil ?_
  · exact r.rendered
  · exact r.undisturbed

theorem rounds_spec (rounds : List Round) {s : Session}
    (hs : s.reader = ⟨HttpContext.new.leak P B, [], earlier, .running⟩)
    (hreplied : s.Replied httpCallback_) :
    ∃ P' B', ((rounds.flatMap Round.chunks).foldl (deliver httpCallback_) s).reader =
        ⟨HttpContext.new.leak P' B', [], earlier ++ exchanged P (rounds.map Round.toAsked), .running⟩ ∧
      ((rounds.flatMap Round.chunks).foldl (deliver httpCallback_) s).Replied httpCallback_ := by
  induction rounds generalizing s P B earlier with
  | nil =>
      exact ⟨P, B, by simpa [exchanged] using hs, hreplied⟩
  | cons r rounds ih =>
      obtain ⟨hreader, hanswered⟩ := round_spec r hs hreplied
      obtain ⟨P', B', hrest, hreplied'⟩ := ih hreader hanswered
      rw [List.append_assoc] at hrest
      rw [List.flatMap_cons, List.foldl_append]
      exact ⟨P', B', hrest, hreplied'⟩

/-- The server after the rounds, as far as the parser is concerned. -/
theorem reader_rounds (httpCallback_ : HttpRequest → HttpResponse → HttpResponse) (rounds : List Round) :
    ∃ P B, ((rounds.flatMap Round.chunks).foldl (deliver httpCallback_) new).reader =
        ⟨HttpContext.new.leak P B, [], exchanged ∅ (rounds.map Round.toAsked), .running⟩ ∧
      ((rounds.flatMap Round.chunks).foldl (deliver httpCallback_) new).Replied httpCallback_ := by
  have hnew : new.reader = ⟨HttpContext.new.leak ∅ [], [], [], .running⟩ := by
    rw [reader_new]
    simp [Reader.new, HttpContext.leak, HttpRequest.leak, HttpContext.new, HttpRequest.new]
  exact rounds_spec rounds hnew (replied_new httpCallback_)

/-- **A conversation.**  Over any number of rounds on one connection the callback is given the requests of
the rounds, each once and in order, with their own methods, paths, headers and bodies; only their
parameters have those of all earlier requests under them.  Each request is answered once, in order, and
nothing else is sent; the connection is left with an empty buffer, ready for the next request. -/
theorem conversation (httpCallback_ : HttpRequest → HttpResponse → HttpResponse) (rounds : List Round) :
    let s := (rounds.flatMap Round.chunks).foldl (deliver httpCallback_) new
    s.requests.map (·.setReceiveTime 0) = exchanged ∅ (rounds.map Round.toAsked) ∧ s.Replied httpCallback_ ∧
      s.inputBuffer_.readable = [] ∧ s.status = .running := by
  intro s
  obtain ⟨P, B, hreader, hreplied⟩ := reader_rounds httpCallback_ rounds
  exact ⟨congrArg Reader.requests hreader, hreplied, congrArg Reader.pending hreader,
    congrArg Reader.status hreader⟩

end rounds

end Session

/-! ## The client's side -/

/-- As many messages, one after the other. -/
def readMessages : Nat → Bytes → Option (List ResponseMessage × Bytes)
  | 0, input => some ([], input)
  | n + 1, input => do
      let (m, rest) ← readMessage input
      let (ms, rest) ← readMessages n rest
      return (m :: ms, rest)

namespace HttpResponse

/-- A response that a client can tell the end of. -/
structure Delimited (r : HttpResponse) : Prop where
  plain : r.Plain
  no_nul : 0 ∉ r.body_
  stays_open : r.closeConnection_ = false

/-- The message has what the response has. -/
structure Conveys (r : HttpResponse) (m : ResponseMessage) : Prop where
  code : (m.statusCode : Int) = r.statusCode_
  message : m.statusMessage = r.statusMessage_
  headers : given m.headers = r.headers_
  body : m.body = r.body_

/-- A delimited response is read whatever comes behind it. -/
theorem readMessage_text_append {r : HttpResponse} (h : r.Delimited) (rest : Bytes) :
    ∃ m, readMessage (r.text ++ rest) = some (m, rest) ∧ r.Conveys m ∧
      contentLength m.headers = some r.body_.length := by
  obtain ⟨code, hcode⟩ := Int.eq_ofNat_of_zero_le h.plain.code.1
  have hcrlf : bytes "\r\n" = [13, 10] := by decide
  have hhttp : 13 ∉ bytes "HTTP/1.1 " := by decide
  have hmessage : 13 ∉ r.statusMessage_ := fun hmem => h.plain.message _ hmem (by decide)
  have hall : (decimal code).all Numerals.isdigit = true := Numerals.isdigit_to_string code
  have hne : decimal code ≠ [] := Numerals.to_string_ne_nil code
  have hvalue : Numerals.value (decimal code) = code := Numerals.value_to_string code
  have hdigits : 13 ∉ decimal code := fun hmem => absurd (List.all_eq_true.1 hall _ hmem) (by decide)
  have hcstr : cstr r.body_ = r.body_ := cstr_of_not_mem h.no_nul
  have hsplit : r.text ++ rest = (bytes "HTTP/1.1 " ++ decimal code ++ 32 :: r.statusMessage_) ++ 13 :: 10 ::
      (fieldLines (r.framing ++ r.headers_) ++ bytes "\r\n" ++ (r.body_ ++ rest)) := by
    simp [text, hcode, hcrlf, hcstr]
  have hcr : 13 ∉ bytes "HTTP/1.1 " ++ decimal code ++ 32 :: r.statusMessage_ := by
    simp [hhttp, hdigits, hmessage]
  have hline := takeLine_append hcr
    (fieldLines (r.framing ++ r.headers_) ++ bytes "\r\n" ++ (r.body_ ++ rest))
  have hstatus : readStatusLine (bytes "HTTP/1.1 " ++ decimal code ++ 32 :: r.statusMessage_) =
      some (code, r.statusMessage_) := by
    rw [readStatusLine_of_code hne hall, hvalue]
  have hlength : contentLength (r.framing ++ r.headers_) = some r.body_.length := by
    rw [contentLength_headers h.plain, h.stays_open]
    rfl
  refine ⟨⟨code, r.statusMessage_, r.framing ++ r.headers_, r.body_⟩, ?_,
    ⟨hcode.symm, rfl, given_headers h.plain, rfl⟩, hlength⟩
  rw [hsplit, readMessage, hline]
  simp only [Option.bind_eq_bind, Option.bind_some, hstatus, readHeaders_fieldLines h.plain.fields, hlength]
  simp

theorem readMessages_texts {rs : List HttpResponse} (h : ∀ r ∈ rs, r.Delimited) :
    ∃ ms, readMessages rs.length (rs.flatMap text) = some (ms, []) ∧ List.Forall₂ Conveys rs ms := by
  induction rs with
  | nil =>
      exact ⟨[], rfl, .nil⟩
  | cons r rs ih =>
      obtain ⟨ms, hread, hms⟩ := ih fun r' hr' => h r' (List.mem_cons_of_mem _ hr')
      obtain ⟨m, hfirst, hm, -⟩ := readMessage_text_append (h r List.mem_cons_self) (rs.flatMap text)
      refine ⟨m :: ms, ?_, .cons hm hms⟩
      simp only [List.length_cons, List.flatMap_cons, readMessages, hfirst, hread, Option.bind_eq_bind,
        Option.bind_some]
      rfl

end HttpResponse

namespace Session

variable {httpCallback_ : HttpRequest → HttpResponse → HttpResponse}

theorem length_exchanged (P : StringMap) (asked : List Asked) :
    (exchanged P asked).length = asked.length := by
  induction asked generalizing P with
  | nil =>
      rfl
  | cons a asked ih =>
      simp [exchanged, ih]

/-- What was sent, when every response is delimited. -/
theorem Replied.flatten_sent {s : Session} (h : s.Replied httpCallback_)
    (hdelimited : ∀ q ∈ s.requests, (response httpCallback_ q).Delimited) :
    s.sent.flatten = (s.requests.map (response httpCallback_)).flatMap HttpResponse.text ∧
      s.shutDown = false := by
  constructor
  · rw [h.sent, List.flatMap_map, List.flatMap_def]
    congr 1
    refine List.map_congr_left fun q hq => ?_
    rw [answer, HttpResponse.readable_appendToBuffer (hdelimited q hq).plain, Buffer.readable_new]
    rfl
  · rw [h.shutDown, List.any_eq_false]
    intro q hq
    simp [(hdelimited q hq).stays_open]

/-- **What the client reads.**  When the responses of the callback can be told apart, the client reads as
many messages as it has sent requests: the answers to its requests, in order and nothing else; and the
server has not shut the connection down. -/
theorem conversation_read {rounds : List Round}
    (h : ∀ q ∈ ((rounds.flatMap Round.chunks).foldl (deliver httpCallback_) new).requests,
      (response httpCallback_ q).Delimited) :
    let s := (rounds.flatMap Round.chunks).foldl (deliver httpCallback_) new
    ∃ ms, readMessages rounds.length s.sent.flatten = some (ms, []) ∧
      List.Forall₂ (fun q m => (response httpCallback_ q).Conveys m) s.requests ms ∧
      s.shutDown = false := by
  intro s
  obtain ⟨P, B, hreader, hreplied⟩ := reader_rounds httpCallback_ rounds
  obtain ⟨hsent, hopen⟩ := hreplied.flatten_sent h
  have hrequests : s.requests.length = rounds.length := by
    have huntimed : s.requests.map (·.setReceiveTime 0) = exchanged ∅ (rounds.map Round.toAsked) :=
      congrArg Reader.requests hreader
    have hlength := congrArg List.length huntimed
    rwa [List.length_map, length_exchanged, List.length_map] at hlength
  have hall : ∀ r ∈ s.requests.map (response httpCallback_), r.Delimited := List.forall_mem_map.2 h
  obtain ⟨ms, hread, hms⟩ := HttpResponse.readMessages_texts hall
  rw [List.length_map, hrequests, ← hsent] at hread
  exact ⟨ms, hread, List.forall₂_map_left_iff.1 hms, hopen⟩

/-- A request without a body in one chunk, and one with a body that is cut in its request line. -/
def pingRound : Round where
  request := ping
  method := .kGet
  version := .kHttp11
  chunks := [⟨ping.render, 0⟩]
  well_formed := ping_wellFormed
  accepted := ⟨by decide, by decide⟩
  rendered := by simp
  undisturbed := by decide

def uploadRound : Round where
  request := upload
  method := .kPost
  version := .kHttp11
  chunks := [⟨bytes "POST / HT", 1⟩, ⟨upload.render.drop 9, 2⟩]
  well_formed := upload_wellFormed
  accepted := ⟨by decide, by decide⟩
  rendered := by decide
  undisturbed := by decide

/-- The same answer to everything. -/
def pong : HttpResponse where
  headers_ := [(bytes "Content-Type", bytes "text/plain")]
  statusCode_ := 200
  statusMessage_ := bytes "OK"
  closeConnection_ := false
  body_ := bytes "pong"

theorem delimited_pong : pong.Delimited where
  plain := ⟨by decide, by decide +kernel, by decide +kernel, by decide +kernel, by decide⟩
  no_nul := by decide
  stays_open := rfl

theorem conversation_read_pong :
    let rounds := [pingRound, uploadRound, pingRound]
    let s := (rounds.flatMap Round.chunks).foldl (deliver fun _ _ => pong) new
    ∃ ms, readMessages rounds.length s.sent.flatten = some (ms, []) ∧
      List.Forall₂ (fun q m => (response (fun _ _ => pong) q).Conveys m) s.requests ms ∧
      s.shutDown = false := by
  intro rounds s
  have h : ∀ q ∈ s.requests, (response (fun _ _ => pong) q).Delimited := fun _ _ => delimited_pong
  exact conversation_read h

end Session
end Http
end Myoj
