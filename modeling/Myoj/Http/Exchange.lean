import Myoj.Http.Conversation
import Myoj.Net.WriteInterest

/-!
# Exchange — a client and the server, down to the sockets

The conversation of two parties with everything between them.  The client writes a request once it has read
the answers to all earlier ones.  The server reads with `readFd` what has arrived, `onMessage` sends, and what
the kernel does not take at once waits in `outputBuffer_` for `handleWrite`.  All of this happens in any order
and in pieces of any size.

* `Session.handleRead` — the message callback behind `readFd`;
* `Exchange`, `Event`, `step` — the two parties, and the bytes under way in both directions;
* `Smooth` — no `readv` ends in the body or behind a CR, and the first `::write` of an answer succeeds;
* `Inv` — whose turn it is, and where the bytes of the answers are;
* `exchange_safe`, `exchange_completes` — what the client reads, and that it can always read it all;
* `exchange_hangs` — what comes of a first `::write` that fails.
-/

namespace Myoj
namespace Http

open Net

/-! ## Reading from the socket -/

namespace Session

variable (httpCallback_ : HttpRequest → HttpResponse → HttpResponse)

/-- `TcpConnection::handleRead`, when `readv` has delivered `data`. -/
def handleRead (s : Session) (data : Bytes) (receiveTime : Timestamp) : Session :=
  match s.status with
  | .running =>
      { s with inputBuffer_ := (s.inputBuffer_.readFd (.delivered data)).2 }.onMessage httpCallback_
        receiveTime
  | _ => s

variable {s : Session} {data : Bytes}

theorem reader_handleRead (hoffered : data.length ≤ s.inputBuffer_.offered) (t : Timestamp) :
    (s.handleRead httpCallback_ data t).reader = s.reader.deliver data := by
  have hstatus : s.reader.status = s.status := rfl
  unfold handleRead Reader.deliver
  rw [hstatus]
  cases s.status with
  | running =>
      refine (reader_onMessage httpCallback_ _ _).trans ?_
      simp [reader, Buffer.readable_readFd hoffered]
  | aborted =>
      rfl
  | spinning =>
      rfl

/-- Requests are handed out behind one another. -/
theorem requests_handleRead (s : Session) (data : Bytes) (t : Timestamp) :
    ∃ more, (s.handleRead httpCallback_ data t).requests = s.requests ++ more := by
  unfold handleRead
  cases s.status with
  | aborted | spinning =>
      exact ⟨[], by simp⟩
  | running =>
      simp only [onMessage]
      split
      · exact ⟨[], by simp⟩
      · exact ⟨[], by simp⟩
      · next ok c buf _ =>
        -- a refusal hands out nothing
        cases ok with
        | true =>
            simp only [if_true]
            split
            · exact ⟨_, rfl⟩
            · exact ⟨[], by simp⟩
        | false =>
            simp only [Bool.false_eq_true, if_false, badRequest]
            split
            · exact ⟨_, rfl⟩
            · exact ⟨[], by simp⟩

variable {httpCallback_}

theorem Replied.handleRead (h : s.Replied httpCallback_) (hoffered : data.length ≤ s.inputBuffer_.offered)
    {t : Timestamp}
    (hok : ∀ c rest, s.reader.context.parse (s.reader.pending ++ data) ≠ .returned false c rest) :
    (s.handleRead httpCallback_ data t).Replied httpCallback_ := by
  unfold Session.handleRead
  cases s.status with
  | aborted | spinning =>
      exact h
  | running =>
      have hread : Replied httpCallback_
          { s with inputBuffer_ := (s.inputBuffer_.readFd (.delivered data)).2, status := .running } :=
        ⟨h.sent, h.shutDown⟩
      refine hread.onMessage fun c rest hrefused => ?_
      have hpending := Buffer.readable_readFd hoffered
      simp only [reader, hpending] at hrefused
      exact hok c rest hrefused

section reads

variable {P : StringMap} {B : Bytes} {earlier : List HttpRequest} {sofar : Bytes} {a : Asked}

theorem sent_of_replied {s' : Session} (hs : s.Replied httpCallback_) (hs' : s'.Replied httpCallback_)
    {more : List HttpRequest} (hmore : s'.requests = s.requests ++ more) :
    s'.sent = s.sent ++ more.map (answer httpCallback_) := by
  rw [hs'.sent, hmore, List.map_append, hs.sent]

/-- Nothing is sent when the chunk ends inside the header block. -/
theorem read_part (hs : s.reader.Resumed P B earlier sofar) (hreplied : s.Replied httpCallback_)
    (hoffered : data.length ≤ s.inputBuffer_.offered) {more : Bytes}
    (hhead : sofar ++ data ++ more = a.request.head) (hmore : more ≠ [])
    (hlast : (sofar ++ data).getLast? ≠ some 13) (t : Timestamp) :
    (s.handleRead httpCallback_ data t).reader.Resumed P B earlier (sofar ++ data) ∧
      (s.handleRead httpCallback_ data t).Replied httpCallback_ ∧
      (s.handleRead httpCallback_ data t).sent = s.sent := by
  obtain ⟨c, rest, hparse, hwaits⟩ :=
    RawRequest.parse_prefix_waits a.well_formed a.accepted hhead hmore hlast
  have hnext : (s.handleRead httpCallback_ data t).reader.Resumed P B earlier (sofar ++ data) := by
    rw [reader_handleRead httpCallback_ hoffered]
    exact hs.deliver hparse hwaits
  have hanswered : (s.handleRead httpCallback_ data t).Replied httpCallback_ := by
    refine hreplied.handleRead hoffered fun c' rest' hrefused => ?_
    rw [hs.parse, hparse] at hrefused
    simp [HttpContext.leaked] at hrefused
  refine ⟨hnext, hanswered, ?_⟩
  obtain ⟨handed, hhanded⟩ := requests_handleRead httpCallback_ s data t
  have hnone : handed = [] := by
    have hbefore := hs.requests
    have hafter := hnext.requests
    simp only [reader, hhanded, List.map_append] at hbefore hafter
    rw [hbefore] at hafter
    simpa using hafter
  simpa [hnone] using sent_of_replied hreplied hanswered hhanded

/-- The rest of the request makes the server answer it. -/
theorem read_rest (hs : s.reader.Resumed P B earlier sofar) (hreplied : s.Replied httpCallback_)
    (hoffered : data.length ≤ s.inputBuffer_.offered) (hall : sofar ++ data = a.request.render)
    (t : Timestamp) :
    (s.handleRead httpCallback_ data t).reader =
        ⟨HttpContext.new.leak (a.received.params_ ∪ P) a.request.body, [],
          earlier ++ [{ a.received with params_ := a.received.params_ ∪ P }], .running⟩ ∧
      (s.handleRead httpCallback_ data t).Replied httpCallback_ ∧
      ∃ payload, (s.handleRead httpCallback_ data t).sent = s.sent ++ [payload] := by
  have hparse : HttpContext.new.parse (sofar ++ data) = .returned true ⟨.kGotAll, a.received⟩ [] := by
    rw [hall]
    exact RawRequest.parse_head a.well_formed a.accepted a.request.body
  have hdone := hs.complete hparse
  rw [← reader_handleRead httpCallback_ hoffered t] at hdone
  have hanswered : (s.handleRead httpCallback_ data t).Replied httpCallback_ := by
    refine hreplied.handleRead hoffered fun c rest hrefused => ?_
    rw [hs.parse, hparse] at hrefused
    simp [HttpContext.leaked] at hrefused
  refine ⟨hdone, hanswered, ?_⟩
  obtain ⟨handed, hhanded⟩ := requests_handleRead httpCallback_ s data t
  have hone : ∃ q, handed = [q] := by
    have hbefore := hs.requests
    have hafter := congrArg Reader.requests hdone
    simp only [reader, hhanded, List.map_append] at hbefore hafter
    rw [hbefore] at hafter
    refine List.length_eq_one_iff.1 ?_
    simpa using congrArg List.length (List.append_cancel_left hafter)
  obtain ⟨q, rfl⟩ := hone
  exact ⟨_, sent_of_replied hreplied hanswered hhanded⟩

end reads

end Session

/-! ## What is carried along -/

/-- The parameters that the requests leave behind. -/
def carried (P : StringMap) (asked : List Asked) : StringMap :=
  asked.foldl (fun P a => a.received.params_ ∪ P) P

theorem carried_append (P : StringMap) (asked : List Asked) (a : Asked) :
    carried P (asked ++ [a]) = a.received.params_ ∪ carried P asked := by
  simp [carried]

theorem exchanged_append (P : StringMap) (asked : List Asked) (a : Asked) :
    exchanged P (asked ++ [a]) =
      exchanged P asked ++ [{ a.received with params_ := a.received.params_ ∪ carried P asked }] := by
  induction asked generalizing P with
  | nil =>
      rfl
  | cons a' asked ih =>
      simp [exchanged, ih, carried]

theorem exchanged_prefix (P : StringMap) (asked more : List Asked) :
    exchanged P asked <+: exchanged P (asked ++ more) := by
  induction asked generalizing P with
  | nil =>
      exact List.nil_prefix
  | cons a asked ih =>
      simpa [exchanged] using ih _

/-! ## A client that waits for whole messages -/

theorem takeLine_more {input line rest : Bytes} (h : takeLine input = some (line, rest)) (more : Bytes) :
    takeLine (input ++ more) = some (line, rest ++ more) := by
  induction input generalizing line with
  | nil =>
      cases h
  | cons b input ih =>
      rw [takeLine] at h
      rw [List.cons_append, takeLine]
      split at h
      · next hend =>
        obtain ⟨hb, hhead⟩ := hend
        obtain ⟨tail, rfl⟩ := List.head?_eq_some_iff.1 hhead
        obtain ⟨rfl, rfl⟩ : line = [] ∧ rest = tail := by simpa [eq_comm] using h
        simp [hb]
      · next hend =>
        obtain ⟨⟨line', rest'⟩, hp, heq⟩ := Option.map_eq_some_iff.1 h
        obtain ⟨rfl, rfl⟩ := Prod.mk.inj heq
        have hne : input ≠ [] := by
          rintro rfl
          cases hp
        have hhead : (input ++ more).head? = input.head? := by
          cases input with
          | nil =>
              exact absurd rfl hne
          | cons c input =>
              rfl
        rw [hhead, if_neg hend, ih hp]
        rfl

theorem readHeaders_more {input rest : Bytes} {headers : List (Bytes × Bytes)}
    (h : readHeaders input = some (headers, rest)) (more : Bytes) :
    readHeaders (input ++ more) = some (headers, rest ++ more) := by
  fun_induction readHeaders input generalizing headers with
  | case1 input hline =>
      cases h
  | case2 input rest' hline =>
      obtain ⟨rfl, rfl⟩ : headers = [] ∧ rest = rest' := by simpa [eq_comm] using h
      rw [readHeaders]
      have hmore := takeLine_more hline more
      split
      · next hnone => cases hmore.symm.trans hnone
      · next hsome =>
        cases hmore.symm.trans hsome
        simp
  | case3 input line rest' hline hne hcut =>
      cases h
  | case4 input line rest' hline hne name value hcut ih =>
      obtain ⟨p, hp, heq⟩ := Option.map_eq_some_iff.1 h
      obtain ⟨rfl, rfl⟩ := Prod.mk.inj heq
      have hmore := takeLine_more hline more
      rw [readHeaders]
      split
      · next hnone => cases hmore.symm.trans hnone
      · next hsome =>
        cases hmore.symm.trans hsome
        rw [if_neg hne, hcut]
        simp [ih hp]

/-- A message with a length does not change when more comes behind it. -/
theorem readMessage_more {input rest : Bytes} {m : ResponseMessage} (h : readMessage input = some (m, rest))
    {more : Bytes} (hlength : ∀ m' rest', readMessage (input ++ more) = some (m', rest') →
      contentLength m'.headers ≠ none) :
    readMessage (input ++ more) = some (m, rest ++ more) := by
  simp only [readMessage, Option.bind_eq_bind, Option.bind_eq_some_iff, Prod.exists] at h
  obtain ⟨line, rest₁, hline, code, message, hstatus, headers, rest₂, hheaders, hbody⟩ := h
  have hline' := takeLine_more hline more
  have hheaders' := readHeaders_more hheaders more
  cases hcontent : contentLength headers with
  | none =>
      have hread : readMessage (input ++ more) = some (⟨code, message, headers, rest₂ ++ more⟩, []) := by
        simp only [readMessage, hline', hstatus, hheaders', hcontent, Option.bind_eq_bind, Option.bind_some]
        rfl
      exact absurd hcontent (hlength _ _ hread)
  | some n =>
      rw [hcontent] at hbody
      simp only at hbody
      split at hbody
      · next hlen =>
        have hm : m = ⟨code, message, headers, rest₂.take n⟩ ∧ rest = rest₂.drop n := by
          simpa [eq_comm] using hbody
        have hlen' : n ≤ (rest₂ ++ more).length := by
          rw [List.length_append]
          omega
        simp only [readMessage, hline', hstatus, hheaders', hcontent, Option.bind_eq_bind, Option.bind_some,
          if_pos hlen', List.take_append_of_le_length hlen, List.drop_append_of_le_length hlen, hm.1, hm.2]
        rfl
      · cases hbody

namespace HttpResponse

/-- A message that is read from the beginning of a delimited response is the whole of it. -/
theorem readMessage_of_prefix {r : HttpResponse} (h : r.Delimited) {p more tail rest : Bytes}
    {m : ResponseMessage} (hp : p ++ more = r.text ++ tail) (hread : readMessage p = some (m, rest)) :
    r.Conveys m ∧ rest ++ more = tail := by
  obtain ⟨m', hwhole, hconveys, hlength⟩ := readMessage_text_append h tail
  rw [← hp] at hwhole
  have hmore : readMessage (p ++ more) = some (m, rest ++ more) := by
    refine readMessage_more hread fun m'' rest'' hread'' => ?_
    cases hwhole.symm.trans hread''
    simp [hlength]
  cases hwhole.symm.trans hmore
  exact ⟨hconveys, rfl⟩

/-- Nor are as many messages read from less than all of as many responses. -/
theorem readMessages_of_prefix {rs : List HttpResponse} (h : ∀ r ∈ rs, r.Delimited) {p more rest : Bytes}
    {ms : List ResponseMessage} (hp : p ++ more = rs.flatMap text)
    (hread : readMessages rs.length p = some (ms, rest)) : rest = [] ∧ more = [] := by
  induction rs generalizing p ms with
  | nil =>
      obtain ⟨rfl, rfl⟩ : p = [] ∧ more = [] := by simpa using hp
      have hnothing : ms = [] ∧ rest = [] := by simpa [readMessages, eq_comm] using hread
      exact ⟨hnothing.2, rfl⟩
  | cons r rs ih =>
      simp only [List.length_cons, readMessages, Option.bind_eq_bind, Option.bind_eq_some_iff,
        Prod.exists] at hread
      obtain ⟨m, rest₁, hfirst, ms', rest₂, hothers, heq⟩ := hread
      obtain rfl : rest₂ = rest := by simpa using congrArg (Option.map Prod.snd) heq
      obtain ⟨-, hrest⟩ := readMessage_of_prefix (h r List.mem_cons_self) (by simpa using hp) hfirst
      exact ih (fun r' hr' => h r' (List.mem_cons_of_mem _ hr')) hrest hothers

/-- However many messages are read, they are the first responses. -/
theorem readMessages_conveys {rs : List HttpResponse} (h : ∀ r ∈ rs, r.Delimited) {n : Nat}
    {p more rest : Bytes} {ms : List ResponseMessage} (hp : p ++ more = rs.flatMap text)
    (hread : readMessages n p = some (ms, rest)) : n ≤ rs.length ∧ List.Forall₂ Conveys (rs.take n) ms := by
  induction n generalizing rs p ms with
  | zero =>
      obtain rfl : ms = [] := by simpa [readMessages, eq_comm] using congrArg (Option.map Prod.fst) hread
      exact ⟨Nat.zero_le _, .nil⟩
  | succ n ih =>
      simp only [readMessages, Option.bind_eq_bind, Option.bind_eq_some_iff, Prod.exists] at hread
      obtain ⟨m, rest₁, hfirst, ms', rest₂, hothers, heq⟩ := hread
      obtain ⟨rfl, rfl⟩ : m :: ms' = ms ∧ rest₂ = rest := by simpa using heq
      cases rs with
      | nil =>
          -- nothing has been sent, and a message is not empty
          obtain ⟨rfl, rfl⟩ : p = [] ∧ more = [] := by simpa using hp
          cases hfirst
      | cons r rs =>
          obtain ⟨hm, hrest⟩ := readMessage_of_prefix (h r List.mem_cons_self) (by simpa using hp) hfirst
          obtain ⟨hlength, hms⟩ := ih (fun r' hr' => h r' (List.mem_cons_of_mem _ hr')) hrest hothers
          exact ⟨Nat.succ_le_succ hlength, .cons hm hms⟩

end HttpResponse

/-! ## The two parties -/

/-- The requests still to be written and those written, the bytes on their way to the server, the two halves
of the server's end, and how much of what was written to the socket the client has read. -/
structure Exchange where
  unasked : List Asked
  asked : List Asked
  toServer : Bytes
  session : Session
  conn : TcpConnection
  arrived : Nat

namespace Exchange

/-- What happens next: the client writes a request; the server's socket is readable, up to `n` bytes are read
and `::write` answers what is sent; the server's socket is writable; the client reads up to `n` bytes. -/
inductive Event where
  | ask
  | handleRead (n : Nat) (receiveTime : Timestamp) (answers : Nat → WriteResult)
  | handleWrite (r : WriteResult)
  | receive (n : Nat)

section machine

variable (httpCallback_ : HttpRequest → HttpResponse → HttpResponse) (x : Exchange)

def start (callbacks : Callbacks) (highWaterMark : Nat) (requests : List Asked) : Exchange where
  unasked := requests
  asked := []
  toServer := []
  session := .new
  conn := (TcpConnection.new callbacks highWaterMark fun _ => []).connectEstablished
  arrived := 0

def received : Bytes := x.conn.written.take x.arrived

/-- As many messages as the client has written requests, if it has read that much. -/
def messages : Option (List ResponseMessage × Bytes) := readMessages x.asked.length x.received

def ask : Exchange :=
  match x.messages, x.unasked with
  | some _, a :: unasked =>
      { x with unasked, asked := x.asked ++ [a], toServer := x.toServer ++ a.request.render }
  | _, _ => x

/-- What one `readv` delivers. -/
def chunk (n : Nat) : Bytes := x.toServer.take (min n x.session.inputBuffer_.offered)

/-- The payloads that `onMessage` has sent go to the connection one by one; `shutdown` follows them. -/
def replies (session : Session) (answers : Nat → WriteResult) : TcpConnection :=
  let payloads := session.sent.drop x.session.sent.length
  let conn := payloads.zipIdx.foldl (fun conn p => conn.send p.1 (answers p.2)) x.conn
  if session.shutDown then conn.shutdown true else conn

def handleRead (n : Nat) (receiveTime : Timestamp) (answers : Nat → WriteResult) : Exchange :=
  let data := x.chunk n
  -- a socket without data is not readable
  if data = [] then x
  else
    let session := x.session.handleRead httpCallback_ data receiveTime
    { x with toServer := x.toServer.drop data.length, session, conn := x.replies session answers }

def step : Event → Exchange
  | .ask => x.ask
  | .handleRead n receiveTime answers => x.handleRead httpCallback_ n receiveTime answers
  | .handleWrite r => { x with conn := x.conn.handleWrite r }
  | .receive n => { x with arrived := min (x.arrived + n) x.conn.written.length }

/-- What is left of the request once the chunk has been read. -/
def left (n : Nat) : Nat := x.toServer.length - (x.chunk n).length

/-- A `readv` delivers the rest of the request, and then the first `::write` of the answer succeeds, or it
ends inside the header block and not behind a CR. -/
def Smooth : Event → Prop
  | .handleRead n _ answers =>
      ∀ a ∈ x.asked.getLast?, x.chunk n = [] ∨
        x.left n = 0 ∧ (∃ k, answers 0 = .accepted k) ∨
        a.request.body.length < x.left n ∧
          (a.request.render.take (a.request.render.length - x.left n)).getLast? ≠ some 13
  | _ => True

end machine

/-! ## Whose turn it is -/

/-- The server has answered everything and waits. -/
structure Between (x : Exchange) : Prop where
  arrived : x.toServer = []
  reader : ∃ B, x.session.reader =
    ⟨HttpContext.new.leak (carried ∅ x.asked) B, [], exchanged ∅ x.asked, .running⟩

/-- The request `a` is on its way, and the server has read `sofar` of it; all earlier answers are with the
kernel. -/
structure Under (x : Exchange) (earlier : List Asked) (a : Asked) (sofar : Bytes) : Prop where
  asked : x.asked = earlier ++ [a]
  rendered : sofar ++ x.toServer = a.request.render
  waits : x.toServer ≠ []
  resumed : ∃ B, x.session.reader.Resumed (carried ∅ earlier) B (exchanged ∅ earlier) sofar
  drained : x.conn.outbox.queued = []

structure Inv (httpCallback_ : HttpRequest → HttpResponse → HttpResponse) (requests : List Asked)
    (x : Exchange) : Prop where
  requests : x.asked ++ x.unasked = requests
  connected : x.conn.state_ = .kConnected
  tracks : x.conn.outbox.Tracks
  replied : x.session.Replied httpCallback_
  stream : x.conn.outbox.written ++ x.conn.outbox.queued = x.session.sent.flatten
  turn : x.Between ∨ ∃ earlier a sofar, x.Under earlier a sofar

section invariant

variable {httpCallback_ : HttpRequest → HttpResponse → HttpResponse} {requests : List Asked} {x : Exchange}

theorem inv_start (httpCallback_ : HttpRequest → HttpResponse → HttpResponse) (callbacks : Callbacks)
    (highWaterMark : Nat) (requests : List Asked) :
    (start callbacks highWaterMark requests).Inv httpCallback_ requests where
  requests := rfl
  connected := OutRun.connected_start callbacks highWaterMark fun _ => []
  tracks := by
    have hidle : (TcpConnection.new callbacks highWaterMark fun _ => []).connectEstablished.outbox.idle := by
      cases h : callbacks.connection <;>
        simp [TcpConnection.connectEstablished, TcpConnection.new, TcpConnection.setState,
          TcpConnection.enableReading, TcpConnection.perform, TcpConnection.outbox, Outbox.idle, h]
    exact .of_idle hidle
  replied := Session.replied_new httpCallback_
  stream := OutRun.intact_start callbacks highWaterMark fun _ => []
  turn := by
    refine .inl ⟨rfl, [], ?_⟩
    have hreader : (start callbacks highWaterMark requests).session.reader = .new := Session.reader_new
    rw [hreader]
    simp [Reader.new, HttpContext.leak, HttpRequest.leak, HttpContext.new, HttpRequest.new, start, exchanged,
      carried]

/-- The requests that have been answered. -/
theorem Inv.answered (h : x.Inv httpCallback_ requests) :
    ∃ done, x.session.requests.map (·.setReceiveTime 0) = exchanged ∅ done ∧ done <+: x.asked := by
  rcases h.turn with hbetween | ⟨earlier, a, sofar, hunder⟩
  · obtain ⟨B, hreader⟩ := hbetween.reader
    exact ⟨x.asked, congrArg Reader.requests hreader, List.prefix_rfl⟩
  · obtain ⟨B, hresumed⟩ := hunder.resumed
    exact ⟨earlier, hresumed.requests, hunder.asked ▸ List.prefix_append _ _⟩

theorem Inv.asked_prefix (h : x.Inv httpCallback_ requests) : x.asked <+: requests :=
  h.requests ▸ List.prefix_append _ _

theorem exchanged_mono {asked more : List Asked} (h : asked <+: more) :
    exchanged ∅ asked <+: exchanged ∅ more := by
  obtain ⟨rest, rfl⟩ := h
  exact exchanged_prefix ∅ asked rest

variable (hdelimited : ∀ q : HttpRequest, q.setReceiveTime 0 ∈ exchanged ∅ requests →
  (Session.response httpCallback_ q).Delimited)

include hdelimited

theorem delimited_of_asked {s : Session} {done : List Asked} (hdone : done <+: requests)
    (hs : s.requests.map (·.setReceiveTime 0) = exchanged ∅ done) :
    ∀ q ∈ s.requests, (Session.response httpCallback_ q).Delimited := by
  intro q hq
  refine hdelimited q ((exchanged_mono hdone).subset ?_)
  rw [← hs]
  exact List.mem_map_of_mem hq

/-- However far the client has read, what it has read and what is still to come are the texts of the
answers. -/
theorem Inv.texts (h : x.Inv httpCallback_ requests) (arrived : Nat) :
    x.conn.written.take arrived ++ (x.conn.written.drop arrived ++ x.conn.outbox.queued) =
        (x.session.requests.map (Session.response httpCallback_)).flatMap HttpResponse.text ∧
      ∀ r ∈ x.session.requests.map (Session.response httpCallback_), r.Delimited := by
  obtain ⟨done, hanswered, hdone⟩ := h.answered
  have hall := delimited_of_asked hdelimited (hdone.trans h.asked_prefix) hanswered
  refine ⟨?_, List.forall_mem_map.2 hall⟩
  rw [← (h.replied.flatten_sent hall).1, ← h.stream, ← List.append_assoc, List.take_append_drop]
  rfl

/-- As long as a request is under way, the client cannot have read its answer. -/
theorem Inv.waits (h : x.Inv httpCallback_ requests) {earlier : List Asked} {a : Asked} {sofar : Bytes}
    (hunder : x.Under earlier a sofar) (arrived : Nat) :
    readMessages x.asked.length (x.conn.written.take arrived) = none := by
  obtain ⟨htexts, hall⟩ := h.texts hdelimited arrived
  obtain ⟨B, hresumed⟩ := hunder.resumed
  have hlength : (x.session.requests.map (Session.response httpCallback_)).length + 1 = x.asked.length := by
    have hrequests := congrArg List.length hresumed.requests
    simpa [Session.reader, Session.length_exchanged, hunder.asked] using hrequests
  cases hread : readMessages x.asked.length (x.conn.written.take arrived) with
  | none =>
      rfl
  | some found =>
      have hfew := (HttpResponse.readMessages_conveys hall htexts hread).1
      omega

/-- The client asks when it is its turn, and when it asks nothing is under way. -/
theorem Inv.ask (h : x.Inv httpCallback_ requests) : x.ask.Inv httpCallback_ requests := by
  obtain ⟨htexts, hall⟩ := h.texts hdelimited x.arrived
  unfold Exchange.ask
  split
  · next found a unasked hmessages hunasked =>
    obtain ⟨ms, rest⟩ := found
    rcases h.turn with hbetween | ⟨earlier, a', sofar, hunder⟩
    · obtain ⟨B, hreader⟩ := hbetween.reader
      have hlength : (x.session.requests.map (Session.response httpCallback_)).length = x.asked.length := by
        have hrequests := congrArg List.length (congrArg Reader.requests hreader)
        simpa [Session.reader, Session.length_exchanged] using hrequests
      have hread := hmessages
      rw [messages, ← hlength] at hread
      obtain ⟨-, hnothing⟩ := HttpResponse.readMessages_of_prefix hall htexts hread
      refine ⟨?_, h.connected, h.tracks, h.replied, h.stream, .inr ⟨x.asked, a, [], ?_⟩⟩
      · rw [← h.requests, hunasked]
        simp
      · refine ⟨rfl, ?_, ?_, ⟨B, ?_⟩, (List.append_eq_nil_iff.1 hnothing).2⟩
        · simp [hbetween.arrived]
        · simp [hbetween.arrived, a.request.render_ne_nil]
        · rw [hreader]
          exact Reader.resumed_between _ B _
    · -- the answer to the last request cannot have been read yet
      cases hmessages.symm.trans (h.waits hdelimited hunder x.arrived)
  · exact h

omit hdelimited

theorem length_chunk_le (x : Exchange) (n : Nat) : (x.chunk n).length ≤ x.session.inputBuffer_.offered := by
  rw [chunk, List.length_take]
  omega

theorem chunk_append_drop (x : Exchange) (n : Nat) :
    x.chunk n ++ x.toServer.drop (x.chunk n).length = x.toServer := by
  have hlength : x.toServer.drop (x.chunk n).length =
      x.toServer.drop (min n x.session.inputBuffer_.offered) := by
    rw [chunk, List.length_take]
    rcases Nat.le_total (min n x.session.inputBuffer_.offered) x.toServer.length with hle | hle
    · rw [Nat.min_eq_left hle]
    · rw [Nat.min_eq_right hle, List.drop_length, List.drop_of_length_le hle]
  rw [hlength, chunk, List.take_append_drop]

theorem length_left (x : Exchange) (n : Nat) : (x.toServer.drop (x.chunk n).length).length = x.left n :=
  List.length_drop

theorem Inv.not_writing (h : x.Inv httpCallback_ requests) {earlier : List Asked} {a : Asked} {sofar : Bytes}
    (hunder : x.Under earlier a sofar) : x.conn.outbox.writing = false := by
  have htracks := h.tracks
  simpa [Outbox.Tracks, hunder.drained] using htracks

theorem replies_nil {session : Session} (hsent : session.sent = x.session.sent)
    (hopen : session.shutDown = false) (answers : Nat → WriteResult) :
    x.replies session answers = x.conn := by
  simp [replies, hsent, hopen]

theorem replies_one {session : Session} {payload : Bytes} (hsent : session.sent = x.session.sent ++ [payload])
    (hopen : session.shutDown = false) (answers : Nat → WriteResult) :
    x.replies session answers = x.conn.send payload (answers 0) := by
  simp [replies, hsent, hopen]

/-- The bytes of the request that have been read with the chunk. -/
theorem Under.read {earlier : List Asked} {a : Asked} {sofar : Bytes} (h : x.Under earlier a sofar) (n : Nat) :
    (sofar ++ x.chunk n) ++ x.toServer.drop (x.chunk n).length = a.request.render ∧
      a.request.render.take (a.request.render.length - x.left n) = sofar ++ x.chunk n := by
  have hrendered : (sofar ++ x.chunk n) ++ x.toServer.drop (x.chunk n).length = a.request.render := by
    rw [List.append_assoc, x.chunk_append_drop, h.rendered]
  have hlength := congrArg List.length hrendered
  rw [List.length_append, x.length_left] at hlength
  have hread : a.request.render.length - x.left n = (sofar ++ x.chunk n).length := by omega
  exact ⟨hrendered, by rw [hread, ← hrendered, List.take_left]⟩

/-- A chunk that ends inside the header block leaves more than the body. -/
theorem Under.head {earlier : List Asked} {a : Asked} {sofar : Bytes} (h : x.Under earlier a sofar) {n : Nat}
    (hleft : a.request.body.length < x.left n) :
    ∃ more, sofar ++ x.chunk n ++ more = a.request.head ∧ more ≠ [] := by
  obtain ⟨hrendered, -⟩ := h.read n
  have hlength := congrArg List.length hrendered
  rw [List.length_append, x.length_left] at hlength
  have hparts : a.request.render.length = a.request.head.length + a.request.body.length := by
    simp [RawRequest.render]
  obtain ⟨more, hmore⟩ : sofar ++ x.chunk n <+: a.request.head :=
    List.prefix_of_prefix_length_le ⟨_, hrendered⟩ ⟨a.request.body, rfl⟩ (by omega)
  refine ⟨more, hmore, ?_⟩
  rintro rfl
  rw [List.append_nil] at hmore
  rw [hmore] at hlength
  omega

include hdelimited

theorem Inv.read_part (h : x.Inv httpCallback_ requests) {earlier : List Asked} {a : Asked} {sofar : Bytes}
    (hunder : x.Under earlier a sofar) {n : Nat} (t : Timestamp) (answers : Nat → WriteResult)
    (hleft : a.request.body.length < x.left n)
    (hlast : (a.request.render.take (a.request.render.length - x.left n)).getLast? ≠ some 13) :
    ({ x with
        toServer := x.toServer.drop (x.chunk n).length
        session := x.session.handleRead httpCallback_ (x.chunk n) t
        conn := x.replies (x.session.handleRead httpCallback_ (x.chunk n) t) answers } :
      Exchange).Inv httpCallback_ requests := by
  obtain ⟨B, hresumed⟩ := hunder.resumed
  obtain ⟨hrendered, htaken⟩ := hunder.read n
  obtain ⟨more, hmore, hmore_ne⟩ := hunder.head hleft
  rw [htaken] at hlast
  obtain ⟨hnext, hreplied, hsent⟩ :=
    Session.read_part hresumed h.replied (x.length_chunk_le n) hmore hmore_ne hlast t
  have hopen : (x.session.handleRead httpCallback_ (x.chunk n) t).shutDown = false := by
    have hdone : earlier <+: requests := (hunder.asked ▸ List.prefix_append _ _).trans h.asked_prefix
    exact (hreplied.flatten_sent (delimited_of_asked hdelimited hdone hnext.requests)).2
  rw [replies_nil hsent hopen]
  refine ⟨h.requests, h.connected, h.tracks, hreplied, ?_, .inr ⟨earlier, a, sofar ++ x.chunk n, ?_⟩⟩
  · rw [hsent]
    exact h.stream
  · have hsome : x.toServer.drop (x.chunk n).length ≠ [] := by
      intro hnil
      have hlength := x.length_left n
      rw [hnil, List.length_nil] at hlength
      omega
    exact ⟨hunder.asked, hrendered, hsome, ⟨B, hnext⟩, hunder.drained⟩

/-- With the rest of the request the server has one more answer to send. -/
theorem Inv.rest (h : x.Inv httpCallback_ requests) {earlier : List Asked} {a : Asked} {sofar : Bytes}
    (hunder : x.Under earlier a sofar) {n : Nat} (t : Timestamp) (hleft : x.left n = 0) :
    x.toServer.drop (x.chunk n).length = [] ∧
      (x.session.handleRead httpCallback_ (x.chunk n) t).reader =
        ⟨HttpContext.new.leak (carried ∅ x.asked) a.request.body, [], exchanged ∅ x.asked, .running⟩ ∧
      (x.session.handleRead httpCallback_ (x.chunk n) t).Replied httpCallback_ ∧
      ∃ payload, ∀ answers, x.replies (x.session.handleRead httpCallback_ (x.chunk n) t) answers =
          x.conn.send payload (answers 0) ∧
        (x.session.handleRead httpCallback_ (x.chunk n) t).sent = x.session.sent ++ [payload] := by
  obtain ⟨B, hresumed⟩ := hunder.resumed
  have hnothing : x.toServer.drop (x.chunk n).length = [] :=
    List.length_eq_zero_iff.1 ((x.length_left n).trans hleft)
  have hall : sofar ++ x.chunk n = a.request.render := by
    rw [← (hunder.read n).1, hnothing, List.append_nil]
  obtain ⟨hreader, hreplied, payload, hsent⟩ :=
    Session.read_rest hresumed h.replied (x.length_chunk_le n) hall t
  rw [← exchanged_append, ← carried_append, ← hunder.asked] at hreader
  have hopen : (x.session.handleRead httpCallback_ (x.chunk n) t).shutDown = false :=
    (hreplied.flatten_sent
      (delimited_of_asked hdelimited h.asked_prefix (congrArg Reader.requests hreader))).2
  exact ⟨hnothing, hreader, hreplied, payload, fun answers => ⟨replies_one hsent hopen answers, hsent⟩⟩

/-- The answer goes to a connection with nothing to send, so none of it is lost. -/
theorem Inv.read_rest (h : x.Inv httpCallback_ requests) {earlier : List Asked} {a : Asked} {sofar : Bytes}
    (hunder : x.Under earlier a sofar) {n : Nat} (t : Timestamp) {answers : Nat → WriteResult} {k : Nat}
    (hleft : x.left n = 0) (htaken : answers 0 = .accepted k) :
    ({ x with
        toServer := x.toServer.drop (x.chunk n).length
        session := x.session.handleRead httpCallback_ (x.chunk n) t
        conn := x.replies (x.session.handleRead httpCallback_ (x.chunk n) t) answers } :
      Exchange).Inv httpCallback_ requests := by
  obtain ⟨hnothing, hreader, hreplied, payload, hpayload⟩ := h.rest hdelimited hunder t hleft
  obtain ⟨hconn, hsent⟩ := hpayload answers
  have hoffer : (x.conn.send payload (answers 0)).outbox = x.conn.outbox.offer payload (.accepted k) := by
    rw [TcpConnection.outbox_send _ _ _ h.connected, htaken]
  rw [hconn]
  refine ⟨h.requests, ?_, ?_, hreplied, ?_, .inl ⟨hnothing, a.request.body, hreader⟩⟩
  · simp [TcpConnection.send, h.connected]
  · rw [hoffer]
    exact h.tracks.offer _ _
  · have hkept := (OutRun.offer_stream_iff x.conn.outbox payload (some k)).2
      (.inr ⟨h.not_writing hunder, hunder.drained, by simp⟩)
    rw [hoffer, hsent, List.flatten_append, ← h.stream]
    exact hkept.trans (by simp)

theorem Inv.handleRead (h : x.Inv httpCallback_ requests) {n : Nat} {t : Timestamp}
    {answers : Nat → WriteResult} (hsmooth : x.Smooth (.handleRead n t answers)) :
    (x.handleRead httpCallback_ n t answers).Inv httpCallback_ requests := by
  unfold Exchange.handleRead
  by_cases hdata : x.chunk n = []
  · simpa [hdata] using h
  · simp only [hdata, if_false]
    rcases h.turn with hbetween | ⟨earlier, a, sofar, hunder⟩
    · exact absurd (by simp [chunk, hbetween.arrived]) hdata
    · have hlast : a ∈ x.asked.getLast? := by simp [hunder.asked]
      rcases hsmooth a hlast with hnone | ⟨hleft, k, htaken⟩ | ⟨hleft, hcr⟩
      · exact absurd hnone hdata
      · exact h.read_rest hdelimited hunder t hleft htaken
      · exact h.read_part hdelimited hunder t answers hleft hcr

omit hdelimited

theorem Inv.handleWrite (h : x.Inv httpCallback_ requests) (r : WriteResult) :
    ({ x with conn := x.conn.handleWrite r } : Exchange).Inv httpCallback_ requests := by
  have houtbox : (x.conn.handleWrite r).outbox = x.conn.outbox.drain r := TcpConnection.outbox_handleWrite _ r
  refine ⟨h.requests, ?_, ?_, h.replied, ?_, ?_⟩
  · rw [TcpConnection.handleWrite_state_]
    exact h.connected
  · rw [houtbox]
    exact h.tracks.drain r
  · rw [houtbox, OutRun.drain_stream]
    exact h.stream
  · rcases h.turn with hbetween | ⟨earlier, a, sofar, hunder⟩
    · exact .inl ⟨hbetween.arrived, hbetween.reader⟩
    · refine .inr ⟨earlier, a, sofar, hunder.asked, hunder.rendered, hunder.waits, hunder.resumed, ?_⟩
      -- an empty buffer stays empty
      have hqueued := hunder.drained
      rw [houtbox]
      cases r with
      | accepted n =>
          simp [Outbox.drain, hqueued]
      | failed errno =>
          exact hqueued

theorem Inv.receive (h : x.Inv httpCallback_ requests) (arrived : Nat) :
    ({ x with arrived } : Exchange).Inv httpCallback_ requests := by
  refine ⟨h.requests, h.connected, h.tracks, h.replied, h.stream, ?_⟩
  rcases h.turn with hbetween | ⟨earlier, a, sofar, hunder⟩
  · exact .inl ⟨hbetween.arrived, hbetween.reader⟩
  · exact .inr ⟨earlier, a, sofar, hunder.asked, hunder.rendered, hunder.waits, hunder.resumed, hunder.drained⟩

include hdelimited

/-- **Step lemma.** -/
theorem inv_step (x : Exchange) (e : Event) (h : x.Inv httpCallback_ requests) (hsmooth : x.Smooth e) :
    (x.step httpCallback_ e).Inv httpCallback_ requests := by
  cases e with
  | ask =>
      exact h.ask hdelimited
  | handleRead n t answers =>
      exact h.handleRead hdelimited hsmooth
  | handleWrite r =>
      exact h.handleWrite r
  | receive n =>
      exact h.receive _

theorem inv_run {callbacks : Callbacks} {highWaterMark : Nat} {es : List Event}
    (h : Runs.Guarded (step httpCallback_) Smooth (start callbacks highWaterMark requests) es) :
    (es.foldl (step httpCallback_) (start callbacks highWaterMark requests)).Inv httpCallback_ requests :=
  (h.throughout (I := Inv httpCallback_ requests) (inv_step hdelimited) (fun _ hx => hx)
    (inv_start httpCallback_ callbacks highWaterMark requests)).last

end invariant

/-! ## What the client reads -/

/-- The callback has been given requests of the client, in order; the socket and `outputBuffer_` hold their
answers and nothing else; however many messages the client takes what it has read for, they are the first
answers; output that waits is waited for; and when nothing is under way all answers have been read. -/
structure Safe (httpCallback_ : HttpRequest → HttpResponse → HttpResponse) (requests : List Asked)
    (x : Exchange) : Prop where
  handed : x.session.requests.map (·.setReceiveTime 0) <+: exchanged ∅ requests
  answers : x.conn.written ++ x.conn.outputBuffer_.readable =
    (x.session.requests.map (Session.answer httpCallback_)).flatten
  read : ∀ n ms rest, readMessages n x.received = some (ms, rest) →
    List.Forall₂ (fun q m => (Session.response httpCallback_ q).Conveys m) (x.session.requests.take n) ms
  writable : x.conn.outputBuffer_.readable ≠ [] → x.conn.channel_.isWriting = true
  complete : x.toServer = [] → x.conn.outputBuffer_.readable = [] → x.arrived = x.conn.written.length →
    x.session.requests.map (·.setReceiveTime 0) = exchanged ∅ x.asked ∧
      ∃ ms, readMessages x.asked.length x.received = some (ms, [])

section runs

variable {httpCallback_ : HttpRequest → HttpResponse → HttpResponse} {requests : List Asked} {x : Exchange}
  (hdelimited : ∀ q : HttpRequest, q.setReceiveTime 0 ∈ exchanged ∅ requests →
    (Session.response httpCallback_ q).Delimited)

include hdelimited

theorem Inv.safe (h : x.Inv httpCallback_ requests) : x.Safe httpCallback_ requests := by
  obtain ⟨htexts, hall⟩ := h.texts hdelimited x.arrived
  obtain ⟨done, hanswered, hdone⟩ := h.answered
  refine ⟨?_, ?_, ?_, ?_, ?_⟩
  · rw [hanswered]
    exact exchanged_mono (hdone.trans h.asked_prefix)
  · rw [← h.replied.sent]
    exact h.stream
  · intro n ms rest hread
    have hconveys := (HttpResponse.readMessages_conveys hall htexts hread).2
    rw [← List.map_take] at hconveys
    exact List.forall₂_map_left_iff.1 hconveys
  · exact h.tracks.2
  · intro harrived hqueued hread
    rcases h.turn with hbetween | ⟨earlier, a, sofar, hunder⟩
    · obtain ⟨B, hreader⟩ := hbetween.reader
      have hrequests : x.session.requests.map (·.setReceiveTime 0) = exchanged ∅ x.asked :=
        congrArg Reader.requests hreader
      refine ⟨hrequests, ?_⟩
      have hlength : (x.session.requests.map (Session.response httpCallback_)).length = x.asked.length := by
        simpa [Session.length_exchanged] using congrArg List.length hrequests
      have hreceived : x.received =
          (x.session.requests.map (Session.response httpCallback_)).flatMap HttpResponse.text := by
        have hnothing : x.conn.outbox.queued = [] := hqueued
        rw [← htexts, received, hread, hnothing]
        simp
      obtain ⟨ms, hms, -⟩ := HttpResponse.readMessages_texts hall
      exact ⟨ms, by rw [← hlength, hreceived, hms]⟩
    · exact absurd harrived hunder.waits

/-- **The exchange is safe.**  In every state of every smooth run, whatever the order of the steps and the
size of the pieces. -/
theorem exchange_safe (callbacks : Callbacks) (highWaterMark : Nat) {es : List Event}
    (h : Runs.Guarded (step httpCallback_) Smooth (start callbacks highWaterMark requests) es) :
    Runs.Throughout (step httpCallback_) (Safe httpCallback_ requests)
      (start callbacks highWaterMark requests) es :=
  h.throughout (I := Inv httpCallback_ requests) (inv_step hdelimited) (fun _ hx => hx.safe hdelimited)
    (inv_start httpCallback_ callbacks highWaterMark requests)

end runs

/-- The server reads the beginning of a request, then the rest of it; three bytes of the answer are written at
once and five later, and the client reads four. -/
def postRun : List Event :=
  [.ask, .handleRead 9 0 fun _ => .failed .EWOULDBLOCK, .handleRead 100 1 fun _ => .accepted 3,
    .handleWrite (.accepted 5), .receive 4]

def postAndPing : List Asked := [Session.uploadRound.toAsked, Session.pingRound.toAsked]

theorem smooth_postRun :
    Runs.Guarded (step fun _ _ => Session.pong) Smooth (start ⟨true, true, true⟩ 67108864 postAndPing)
      postRun := by
  refine ⟨trivial, ?_, ?_, trivial, trivial, trivial⟩
  · intro a ha
    -- nine bytes end inside the request line
    have hleft : ((start ⟨true, true, true⟩ 67108864 postAndPing).step (fun _ _ => Session.pong) .ask).left 9 =
        31 := by decide +kernel
    cases ha
    refine .inr (.inr ?_)
    rw [hleft]
    decide +kernel
  · intro a _
    exact .inr (.inl ⟨by decide +kernel, 3, rfl⟩)

theorem exchange_safe_postRun :
    Runs.Throughout (step fun _ _ => Session.pong) (Safe (fun _ _ => Session.pong) postAndPing)
      (start ⟨true, true, true⟩ 67108864 postAndPing) postRun := by
  have hpong : ∀ q : HttpRequest, q.setReceiveTime 0 ∈ exchanged ∅ postAndPing →
      (Session.response (fun _ _ => Session.pong) q).Delimited := fun _ _ => Session.delimited_pong
  exact exchange_safe hpong ⟨true, true, true⟩ 67108864 smooth_postRun

/-! ## The exchange can always be finished -/

/-- All requests are answered, and the client has read all answers. -/
structure Done (x : Exchange) : Prop where
  unasked : x.unasked = []
  arrived : x.toServer = []
  drained : x.conn.outbox.queued = []
  read : x.arrived = x.conn.written.length

/-- Some smooth continuation comes to the end. -/
def Finishes (httpCallback_ : HttpRequest → HttpResponse → HttpResponse) (x : Exchange) : Prop :=
  ∃ es, Runs.Guarded (step httpCallback_) Smooth x es ∧ (es.foldl (step httpCallback_) x).Done

section finishing

variable {httpCallback_ : HttpRequest → HttpResponse → HttpResponse} {requests : List Asked} {x : Exchange}

theorem Finishes.of_step {e : Event} (hsmooth : x.Smooth e)
    (h : Finishes httpCallback_ (x.step httpCallback_ e)) : Finishes httpCallback_ x := by
  obtain ⟨es, hguarded, hdone⟩ := h
  exact ⟨e :: es, ⟨hsmooth, hguarded⟩, hdone⟩

/-- Whatever is in the buffer, `readFd` offers the room of `extrabuf`. -/
theorem extrabufSize_le_offered (b : Buffer) : Buffer.extrabufSize ≤ b.offered := by
  simp only [Buffer.offered, Buffer.iovcnt]
  split
  · simp
  · split <;> omega

/-- A request that is no longer than that is read in one go. -/
theorem chunk_all (hsmall : x.toServer.length ≤ Buffer.extrabufSize) {n : Nat} (hn : x.toServer.length ≤ n) :
    x.chunk n = x.toServer := by
  have hroom := hsmall.trans (extrabufSize_le_offered x.session.inputBuffer_)
  rw [chunk, List.take_of_length_le (le_min hn hroom)]

theorem smooth_all (hsmall : x.toServer.length ≤ Buffer.extrabufSize) {n k : Nat}
    (hn : x.toServer.length ≤ n) (t : Timestamp) {answers : Nat → WriteResult}
    (htaken : answers 0 = .accepted k) : x.Smooth (.handleRead n t answers) := by
  intro a _
  refine .inr (.inl ⟨?_, k, htaken⟩)
  rw [left, chunk_all hsmall hn, Nat.sub_self]

/-- All that has arrived is read, and the kernel leaves the answer to `handleWrite`. -/
def readAll (x : Exchange) : Event := .handleRead x.toServer.length 0 fun _ => .accepted 0

theorem smooth_readAll (hsmall : x.toServer.length ≤ Buffer.extrabufSize) : x.Smooth x.readAll :=
  smooth_all hsmall le_rfl 0 rfl

theorem step_readAll (httpCallback_ : HttpRequest → HttpResponse → HttpResponse)
    (hsmall : x.toServer.length ≤ Buffer.extrabufSize) :
    (x.step httpCallback_ x.readAll).unasked = x.unasked ∧ (x.step httpCallback_ x.readAll).toServer = [] := by
  simp only [step, readAll, handleRead, chunk_all hsmall le_rfl]
  split
  · next hnone => exact ⟨rfl, hnone⟩
  · exact ⟨rfl, by simp⟩

/-- Waiting output is gone once the kernel takes all of it. -/
theorem queued_drain_all {o : Outbox} (h : o.Tracks) : (o.drain (.accepted o.queued.length)).queued = [] := by
  by_cases hqueued : o.queued = []
  · simp [Outbox.drain, hqueued]
  · have hwriting : o.writing = true := h.2 hqueued
    simp [Outbox.drain, hwriting, List.length_pos_iff.2 hqueued]

/-- The kernel takes all that waits, and the client reads it. -/
def settled (x : Exchange) : Exchange :=
  let conn := x.conn.handleWrite (.accepted x.conn.outbox.queued.length)
  { x with conn, arrived := conn.written.length }

theorem Finishes.of_settled (h : Finishes httpCallback_ x.settled) : Finishes httpCallback_ x := by
  refine .of_step (e := .handleWrite (.accepted x.conn.outbox.queued.length)) trivial ?_
  refine .of_step (e := .receive x.settled.conn.written.length) trivial ?_
  have hall : min (x.arrived + x.settled.conn.written.length) x.settled.conn.written.length =
      x.settled.conn.written.length := by omega
  simp only [step]
  rw [settled] at hall h ⊢
  rwa [hall]

theorem Inv.settled (h : x.Inv httpCallback_ requests) : x.settled.Inv httpCallback_ requests :=
  (h.handleWrite (.accepted x.conn.outbox.queued.length)).receive x.settled.conn.written.length

theorem Inv.settled_drained (h : x.Inv httpCallback_ requests) : x.settled.conn.outbox.queued = [] := by
  have houtbox : x.settled.conn.outbox = x.conn.outbox.drain (.accepted x.conn.outbox.queued.length) :=
    TcpConnection.outbox_handleWrite _ _
  rw [houtbox]
  exact queued_drain_all h.tracks

variable (hdelimited : ∀ q : HttpRequest, q.setReceiveTime 0 ∈ exchanged ∅ requests →
    (Session.response httpCallback_ q).Delimited)
  (hsmall : ∀ a ∈ requests, a.request.render.length ≤ Buffer.extrabufSize)

include hsmall

theorem Inv.small (h : x.Inv httpCallback_ requests) : x.toServer.length ≤ Buffer.extrabufSize := by
  rcases h.turn with hbetween | ⟨earlier, a, sofar, hunder⟩
  · simp [hbetween.arrived]
  · have hmem : a ∈ requests := h.asked_prefix.subset (by simp [hunder.asked])
    have hlength := congrArg List.length hunder.rendered
    rw [List.length_append] at hlength
    have hfits := hsmall a hmem
    omega

include hdelimited

/-- Between two requests: once the answer is drained and read, the next request, if there is one, is written
and read. -/
theorem Inv.finishes_between {unasked : List Asked} (h : x.Inv httpCallback_ requests)
    (hunasked : x.unasked = unasked) (harrived : x.toServer = []) : Finishes httpCallback_ x := by
  induction unasked generalizing x with
  | nil =>
      exact .of_settled ⟨[], trivial, hunasked, harrived, h.settled_drained, rfl⟩
  | cons a unasked ih =>
      refine .of_settled (.of_step (e := .ask) trivial ?_)
      have hsettled := h.settled
      obtain ⟨-, ms, hms⟩ := (hsettled.safe hdelimited).complete harrived h.settled_drained rfl
      have hunasked' : (x.settled.step httpCallback_ .ask).unasked = unasked := by
        have hmessages : x.settled.messages = some (ms, []) := hms
        have hnext : x.settled.unasked = a :: unasked := hunasked
        show x.settled.ask.unasked = unasked
        unfold Exchange.ask
        rw [hmessages, hnext]
      have hinv := inv_step hdelimited x.settled .ask hsettled trivial
      have hfits := hinv.small hsmall
      refine .of_step (smooth_readAll hfits) ?_
      obtain ⟨hrest, hread⟩ := step_readAll httpCallback_ hfits
      exact ih (inv_step hdelimited _ _ hinv (smooth_readAll hfits)) (hrest.trans hunasked') hread

theorem Inv.finishes (h : x.Inv httpCallback_ requests) : Finishes httpCallback_ x := by
  have hfits := h.small hsmall
  refine .of_step (smooth_readAll hfits) ?_
  exact (inv_step hdelimited _ _ h (smooth_readAll hfits)).finishes_between hdelimited hsmall rfl
    (step_readAll httpCallback_ hfits).2

/-- **The exchange comes to its end.**  When no request is longer than `extrabuf`, every smooth run can be
continued to a state in which the callback has been given all requests and the client has read all answers. -/
theorem exchange_completes (callbacks : Callbacks) (highWaterMark : Nat) {es : List Event}
    (h : Runs.Guarded (step httpCallback_) Smooth (start callbacks highWaterMark requests) es) :
    ∃ more, Runs.Guarded (step httpCallback_) Smooth (start callbacks highWaterMark requests) (es ++ more) ∧
      let x := (es ++ more).foldl (step httpCallback_) (start callbacks highWaterMark requests)
      x.session.requests.map (·.setReceiveTime 0) = exchanged ∅ requests ∧
        ∃ ms, readMessages requests.length x.received = some (ms, []) ∧
          List.Forall₂ (fun q m => (Session.response httpCallback_ q).Conveys m) x.session.requests ms := by
  obtain ⟨more, hmore, hdone⟩ := (inv_run hdelimited h).finishes hdelimited hsmall
  have hguarded := Runs.guarded_append.2 ⟨h, hmore⟩
  have hend := inv_run hdelimited hguarded
  rw [← List.foldl_append] at hdone
  refine ⟨more, hguarded, ?_⟩
  have hasked : ((es ++ more).foldl (step httpCallback_) (start callbacks highWaterMark requests)).asked =
      requests := by
    have hsplit := hend.requests
    rwa [hdone.unasked, List.append_nil] at hsplit
  have hsafe := hend.safe hdelimited
  obtain ⟨hrequests, ms, hms⟩ := hsafe.complete hdone.arrived hdone.drained hdone.read
  rw [hasked] at hrequests hms
  have hread := hsafe.read _ ms [] hms
  have hlength := congrArg List.length hrequests
  rw [List.length_map, Session.length_exchanged] at hlength
  rw [List.take_of_length_le hlength.le] at hread
  exact ⟨hrequests, ms, hms, hread⟩

end finishing

theorem exchange_completes_postRun :
    ∃ more, Runs.Guarded (step fun _ _ => Session.pong) Smooth
        (start ⟨true, true, true⟩ 67108864 postAndPing) (postRun ++ more) ∧
      let x := (postRun ++ more).foldl (step fun _ _ => Session.pong)
        (start ⟨true, true, true⟩ 67108864 postAndPing)
      x.session.requests.map (·.setReceiveTime 0) = exchanged ∅ postAndPing ∧
        ∃ ms, readMessages postAndPing.length x.received = some (ms, []) ∧
          List.Forall₂ (fun q m => (Session.response (fun _ _ => Session.pong) q).Conveys m)
            x.session.requests ms := by
  have hpong : ∀ q : HttpRequest, q.setReceiveTime 0 ∈ exchanged ∅ postAndPing →
      (Session.response (fun _ _ => Session.pong) q).Delimited := fun _ _ => Session.delimited_pong
  exact exchange_completes hpong (by decide) ⟨true, true, true⟩ 67108864 smooth_postRun

/-! ## An answer that is not written at once -/

/-- The answer to the last request of `x` is nowhere: nothing is under way, and the client waits for it. -/
structure Hung (x y : Exchange) : Prop where
  asked : y.asked = x.asked
  arrived : y.toServer = []
  conn : y.conn = x.conn
  waits : ∀ arrived, readMessages x.asked.length (x.conn.written.take arrived) = none

section hanging

variable {httpCallback_ : HttpRequest → HttpResponse → HttpResponse} {requests : List Asked} {x y : Exchange}

theorem Hung.messages_eq_none (h : Hung x y) : y.messages = none := by
  rw [messages, received, h.asked, h.conn]
  exact h.waits y.arrived

theorem Hung.step (h : Hung x y) (hoff : x.conn.channel_.isWriting = false) (e : Event) :
    Hung x (y.step httpCallback_ e) := by
  cases e with
  | ask =>
      have hsame : y.ask = y := by
        unfold Exchange.ask
        rw [h.messages_eq_none]
      show Hung x y.ask
      rwa [hsame]
  | handleRead n t answers =>
      have hsame : y.handleRead httpCallback_ n t answers = y := by
        simp [Exchange.handleRead, chunk, h.arrived]
      show Hung x (y.handleRead httpCallback_ n t answers)
      rwa [hsame]
  | handleWrite r =>
      refine ⟨h.asked, h.arrived, ?_, h.waits⟩
      -- without write interest the event does nothing
      show y.conn.handleWrite r = x.conn
      rw [h.conn]
      simp [TcpConnection.handleWrite, hoff]
  | receive n =>
      exact ⟨h.asked, h.arrived, h.conn, h.waits⟩

variable (hdelimited : ∀ q : HttpRequest, q.setReceiveTime 0 ∈ exchanged ∅ requests →
  (Session.response httpCallback_ q).Delimited)

include hdelimited

/-- A failing `::write` leaves the connection as it is, and the answer is gone. -/
theorem Inv.hung (h : x.Inv httpCallback_ requests) {n : Nat} (t : Timestamp) {answers : Nat → WriteResult}
    {errno : Errno} (hdata : x.chunk n ≠ []) (hleft : x.left n = 0) (hfail : answers 0 = .failed errno) :
    x.conn.channel_.isWriting = false ∧ Hung x (x.step httpCallback_ (.handleRead n t answers)) := by
  rcases h.turn with hbetween | ⟨earlier, a, sofar, hunder⟩
  · exact absurd (by simp [chunk, hbetween.arrived]) hdata
  · obtain ⟨hnothing, -, -, payload, hpayload⟩ := h.rest hdelimited hunder t hleft
    refine ⟨h.not_writing hunder, ?_⟩
    simp only [step, Exchange.handleRead, hdata, if_false]
    refine ⟨rfl, hnothing, ?_, h.waits hdelimited hunder⟩
    rw [(hpayload answers).1, TcpConnection.send, if_pos h.connected, hfail,
      TcpConnection.sendInLoop_failed]

/-- **A lost answer hangs the exchange.**  When the last piece of a request has been read and the first
`::write` of the answer fails, by `EWOULDBLOCK` or otherwise, then whatever happens afterwards nothing more is
written to the socket, and the client never reads the answer and never asks again. -/
theorem exchange_hangs (callbacks : Callbacks) (highWaterMark : Nat) {es : List Event}
    (h : Runs.Guarded (step httpCallback_) Smooth (start callbacks highWaterMark requests) es)
    {n : Nat} {t : Timestamp} {answers : Nat → WriteResult} {errno : Errno}
    (hdata : (es.foldl (step httpCallback_) (start callbacks highWaterMark requests)).chunk n ≠ [])
    (hleft : (es.foldl (step httpCallback_) (start callbacks highWaterMark requests)).left n = 0)
    (hfail : answers 0 = .failed errno) (later : List Event) :
    let x := es.foldl (step httpCallback_) (start callbacks highWaterMark requests)
    let y := later.foldl (step httpCallback_) (x.step httpCallback_ (.handleRead n t answers))
    y.conn.written = x.conn.written ∧ y.messages = none ∧ y.asked = x.asked := by
  intro x y
  obtain ⟨hoff, hhung⟩ := (inv_run hdelimited h).hung hdelimited t hdata hleft hfail
  have hend : Hung x y := Runs.invariant_run (fun z e hz => hz.step hoff e) hhung later
  exact ⟨by rw [hend.conn], hend.messages_eq_none, hend.asked⟩

end hanging

theorem exchange_hangs_postAndPing :
    let x := [Event.ask].foldl (step fun _ _ => Session.pong) (start ⟨true, true, true⟩ 67108864 postAndPing)
    let y := [Event.handleWrite (.accepted 100), .receive 100, .ask].foldl (step fun _ _ => Session.pong)
      (x.step (fun _ _ => Session.pong) (.handleRead 100 0 fun _ => .failed .EWOULDBLOCK))
    y.conn.written = x.conn.written ∧ y.messages = none ∧ y.asked = x.asked := by
  have hpong : ∀ q : HttpRequest, q.setReceiveTime 0 ∈ exchanged ∅ postAndPing →
      (Session.response (fun _ _ => Session.pong) q).Delimited := fun _ _ => Session.delimited_pong
  have hsmooth : Runs.Guarded (step fun _ _ => Session.pong) Smooth
      (start ⟨true, true, true⟩ 67108864 postAndPing) [.ask] := ⟨trivial, trivial⟩
  exact exchange_hangs hpong ⟨true, true, true⟩ 67108864 hsmooth (by decide +kernel) (by decide +kernel) rfl _

end Exchange

end Http
end Myoj
