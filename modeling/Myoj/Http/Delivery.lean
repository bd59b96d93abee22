import Myoj.Http.LineCut

/-!
# Delivery — the chunks of one request

* `RawRequest` is a request as a client sends it, `render` its bytes, `received` the `HttpRequest` the
  server makes of it when `body` is everything it sees behind the header block.
* `parse_append` says how parsing goes on when more bytes arrive behind those parsed.
* `Reader.Waiting` is a reader with part of a header block behind it; `requests_of_waiting` and
  `requests_of_unaccepted` follow the chunks of one request to the end.

Nothing in the parser reads `Content-Length`: the body is whatever is buffered when the header block
ends.
-/

namespace Myoj
namespace Http

open HttpContext

/-! ## Requests as a client sends them -/

structure RawRequest where
  method : Bytes
  target : Bytes
  minor : UInt8
  /-- Names, and the bytes between the colon and the end of the line. -/
  headers : List (Bytes × Bytes)
  body : Bytes

namespace RawRequest

def requestLine (r : RawRequest) : Bytes :=
  r.method ++ 32 :: (r.target ++ 32 :: (bytes "HTTP/1." ++ [r.minor]))

def crlf : Bytes := [13, 10]

def headerLines (headers : List (Bytes × Bytes)) : Bytes :=
  headers.flatMap fun h => h.1 ++ 58 :: h.2 ++ crlf

/-- Request line, header lines and the empty line. -/
def head (r : RawRequest) : Bytes := r.requestLine ++ crlf ++ headerLines r.headers ++ crlf

def render (r : RawRequest) : Bytes := r.head ++ r.body

/-- Visible method, target and header names, no line ends in header values, and a `Content-Length`
that gives the length of the body. -/
structure WellFormed (r : RawRequest) : Prop where
  method_visible : r.method ≠ [] ∧ ∀ b ∈ r.method, 33 ≤ b
  target_visible : r.target ≠ [] ∧ ∀ b ∈ r.target, 33 ≤ b
  minor_digit : 48 ≤ r.minor ∧ r.minor ≤ 57
  name_visible : ∀ h ∈ r.headers, h.1 ≠ [] ∧ ∀ b ∈ h.1, 33 ≤ b ∧ b ≠ 58
  value_one_line : ∀ h ∈ r.headers, 13 ∉ h.2 ∧ 10 ∉ h.2
  content_length : ∀ h ∈ r.headers, h.1 = bytes "Content-Length" →
    HttpRequest.headerValue h.2 = HttpResponse.decimal r.body.length
  body_announced : r.body ≠ [] → ∃ h ∈ r.headers, h.1 = bytes "Content-Length"

/-- The request handed to `httpCallback_` when `body` is all that follows the header block. -/
def received (r : RawRequest) (method : Method) (version : Version) (body : Bytes) :
    HttpRequest where
  method_ := method
  version_ := version
  path_ := pathOf r.target
  query_ := (queryOf r.target).getD []
  receiveTime_ := 0
  headers_ := r.headers.foldl (fun m h => m.insert h.1 (HttpRequest.headerValue h.2)) ∅
  params_ := (queryOf r.target).elim ∅ fun q => HttpRequest.storeParams q ∅
  body_ := body

end RawRequest

/-! ## More bytes behind those parsed -/

section append

variable {c : HttpContext} {input : Bytes}

/-- A waiting parser takes up the new bytes where it stopped, a refusal stays one, and a complete
request takes them into its body. -/
def continued (more : Bytes) : Parsed Bytes → Parsed Bytes
  | .returned true c rest =>
      if c.getAll then
        .returned true ⟨.kGotAll, c.request_.setBody (c.request_.body_ ++ more)⟩ []
      else c.parse (rest ++ more)
  | .returned false c rest => .returned false c (rest ++ more)
  | .fatal => .fatal
  | .spinning => .spinning

theorem parse_append (h : c.parse input ≠ .fatal) (more : Bytes) :
    c.parse (input ++ more) = continued more (c.parse input) := by
  fun_induction HttpContext.parse c input with
  | case1 c input hs _ =>
      simp [continued, getAll, hs]
  | case2 c input hs line rest hcut request hp =>
      rcases cutAt_eq_some_iff.1 hcut with ⟨rfl, hline⟩
      -- the refused line is still the first one
      rw [List.append_assoc, List.cons_append, parse_requestLine hs hline, hp]
      simp [continued]
  | case3 =>
      exact absurd rfl h
  | case4 c input hs line request hp b rest _ hcut ih =>
      rcases cutAt_eq_some_iff.1 hcut with ⟨rfl, hline⟩
      rw [List.append_assoc, List.cons_append, parse_requestLine hs hline, hp]
      exact ih h
  | case5 c input hs _ =>
      simp [continued, getAll, hs]
  | case6 =>
      exact absurd rfl h
  | case7 c input hs line b rest hcut ih =>
      rcases cutAt_eq_some_iff.1 hcut with ⟨rfl, hline⟩
      -- the line is consumed; the new bytes stand behind the rest
      rw [List.append_assoc, List.cons_append, parse_header hs hline]
      exact ih h
  | case8 c input hs =>
      rw [parse_body hs]
      simp [continued, getAll, HttpRequest.setBody]
  | case9 c input hs =>
      rw [HttpContext.parse, hs]
      rfl

end append

/-! ## The header block of a request -/

namespace RawRequest

variable {r : RawRequest}

theorem WellFormed.cr_not_mem_requestLine (h : r.WellFormed) : 13 ∉ r.requestLine := by
  have hvisible : ∀ {xs : Bytes}, (∀ b ∈ xs, 33 ≤ b) → 13 ∉ xs := by
    intro xs hxs hcr
    exact absurd (hxs 13 hcr) (by decide)
  have hmethod := hvisible h.method_visible.2
  have htarget := hvisible h.target_visible.2
  have hminor : 13 ≠ r.minor := by
    intro heq
    exact absurd (heq ▸ h.minor_digit.1) (by decide)
  have hhttp : 13 ∉ bytes "HTTP/1." := by decide
  simp [requestLine, hmethod, htarget, hminor, hhttp]

theorem WellFormed.header_clean (h : r.WellFormed) :
    ∀ x ∈ r.headers, 58 ∉ x.1 ∧ 13 ∉ x.1 ∧ 13 ∉ x.2 := by
  intro x hx
  have hname := (h.name_visible x hx).2
  refine ⟨fun hcolon => (hname 58 hcolon).2 rfl, fun hcr => ?_, (h.value_one_line x hx).1⟩
  exact absurd (hname 13 hcr).1 (by decide)

/-- Header lines, one after the other, and the empty line: all of them go into the request. -/
theorem parse_headerLines {headers : List (Bytes × Bytes)}
    (hclean : ∀ x ∈ headers, 58 ∉ x.1 ∧ 13 ∉ x.1 ∧ 13 ∉ x.2) (request : HttpRequest)
    (body : Bytes) :
    parse ⟨.kExpectHeaders, request⟩ (headerLines headers ++ crlf ++ body) =
      .returned true
        ⟨.kGotAll, (headers.foldl (fun q x => q.addHeader x.1 x.2) request).setBody body⟩ [] := by
  induction headers generalizing request with
  | nil =>
      -- the empty line has no colon and ends the headers
      have hempty : headerLines [] ++ crlf ++ body = [] ++ 13 :: 10 :: body := rfl
      rw [hempty, parse_header rfl (by simp)]
      exact parse_body rfl
  | cons x headers ih =>
      rcases hclean x (by simp) with ⟨hcolon, hcr₁, hcr₂⟩
      -- a header line goes into the request, the others are behind it
      have hline : 13 ∉ x.1 ++ 58 :: x.2 := by simp [hcr₁, hcr₂]
      have hsplit : headerLines (x :: headers) ++ crlf ++ body =
          (x.1 ++ 58 :: x.2) ++ 13 :: 10 :: (headerLines headers ++ crlf ++ body) := by
        simp [headerLines, crlf]
      have htake : takeHeader ⟨.kExpectHeaders, request⟩ (x.1 ++ 58 :: x.2) =
          ⟨.kExpectHeaders, request.addHeader x.1 x.2⟩ := by
        simp [takeHeader, cutAt_append hcolon]
      rw [hsplit, parse_header rfl hline, htake]
      exact ih (fun y hy => hclean y (by simp [hy])) _

theorem foldl_addHeader (headers : List (Bytes × Bytes)) (request : HttpRequest) :
    headers.foldl (fun q x => q.addHeader x.1 x.2) request =
      { request with
        headers_ := headers.foldl (fun m x => m.insert x.1 (HttpRequest.headerValue x.2))
          request.headers_ } := by
  induction headers generalizing request with
  | nil =>
      rfl
  | cons x headers ih =>
      exact ih _

/-- The server knows the method and the version. -/
structure Accepted (r : RawRequest) (method : Method) (version : Version) : Prop where
  known : (r.method, method) ∈ kStringToHttpMethod
  digit_version : (version, r.minor) ∈ [(Version.kHttp10, (48 : UInt8)), (.kHttp11, 49)]

theorem parse_head (h : r.WellFormed) {method : Method} {version : Version}
    (haccepted : r.Accepted method version) (body : Bytes) :
    HttpContext.new.parse (r.head ++ body) =
      .returned true ⟨.kGotAll, r.received method version body⟩ [] := by
  have hspace : 32 ∉ r.target := by
    intro hmem
    exact absurd (h.target_visible.2 32 hmem) (by decide)
  -- the request line in the parts the parser takes it apart into
  let l : RequestLine := ⟨r.method, method, r.target, version, r.minor, haccepted.known, hspace,
    haccepted.digit_version⟩
  have hsplit : r.head ++ body =
      r.requestLine ++ 13 :: 10 :: (headerLines r.headers ++ crlf ++ body) := by
    simp [head, crlf]
  have hline : HttpContext.new.request_.processRequestLine r.requestLine =
      (true, l.fill HttpContext.new.request_) := HttpRequest.processRequestLine_text l rfl
  rw [hsplit, parse_requestLine rfl h.cr_not_mem_requestLine, hline]
  refine (parse_headerLines h.header_clean _ body).trans ?_
  rw [foldl_addHeader]
  simp [RequestLine.fill, HttpRequest.setTarget_eq, HttpRequest.setVersion, HttpRequest.setBody,
    received, HttpContext.new, HttpRequest.new, l]

/-- An accepted line that spells the request line of `r` accepts its method and version. -/
theorem WellFormed.accepted_of_text (h : r.WellFormed) {l : RequestLine}
    (htext : l.text = r.requestLine) : r.Accepted l.method l.version := by
  have hspace : ∀ {xs : Bytes}, (∀ b ∈ xs, 33 ≤ b) → 32 ∉ xs := by
    intro xs hxs hmem
    exact absurd (hxs 32 hmem) (by decide)
  -- the two texts are cut at their spaces; what stands between is the same
  have hname : cutAt 32 l.text = some (l.name, _) := cutAt_append (no_space_of_known l.known)
  have hmethod : cutAt 32 r.requestLine = some (r.method, _) :=
    cutAt_append (hspace h.method_visible.2)
  rw [htext, hmethod, Option.some.injEq, Prod.mk.injEq] at hname
  rcases hname with ⟨hname, hrest⟩
  have htarget : cutAt 32 (l.target ++ 32 :: (bytes "HTTP/1." ++ [l.digit])) = some _ :=
    cutAt_append l.target_no_space
  rw [← hrest, cutAt_append (hspace h.target_visible.2), Option.some.injEq, Prod.mk.injEq] at htarget
  have hdigit : r.minor = l.digit := by simpa using htarget.2
  exact ⟨hname ▸ l.known, hdigit ▸ l.digit_version⟩

end RawRequest

/-! ## Deliveries of one request -/

theorem HeadersCut.getLast?_eq {input : Bytes} (h : HeadersCut input) :
    input.getLast? = some 13 := by
  induction h with
  | here _ =>
      simp
  | later _ _ _ ih =>
      simp [List.getLast?_append, List.getLast?_cons, ih]

theorem EndsInsideCRLF.getLast?_eq {c : HttpContext} {input : Bytes} (h : EndsInsideCRLF c input) :
    input.getLast? = some 13 := by
  unfold EndsInsideCRLF at h
  split at h
  · rcases h with ⟨-, l, -, rfl | ⟨b, rest, rfl, hrest⟩⟩
    · simp
    · simp [List.getLast?_append, List.getLast?_cons, hrest.getLast?_eq]
  · exact HeadersCut.getLast?_eq h
  · exact h.elim

namespace RawRequest

variable {r : RawRequest} {method : Method} {version : Version}

/-- Part of the header block, not cut behind a CR, leaves the parser waiting. -/
theorem parse_prefix_waits (h : r.WellFormed) (haccepted : r.Accepted method version)
    {sofar more : Bytes} (hhead : sofar ++ more = r.head) (hmore : more ≠ [])
    (hlast : sofar.getLast? ≠ some 13) :
    ∃ c rest, HttpContext.new.parse sofar = .returned true c rest ∧ c.getAll = false := by
  have hwhole : HttpContext.new.parse (sofar ++ more) =
      .returned true ⟨.kGotAll, r.received method version []⟩ [] := by
    rw [hhead, ← List.append_nil r.head]
    exact parse_head h haccepted []
  have hfatal : HttpContext.new.parse sofar ≠ .fatal :=
    fun hf => hlast (parse_fatal_iff.1 hf).getLast?_eq
  rw [parse_append hfatal] at hwhole
  cases hparse : HttpContext.new.parse sofar with
  | fatal =>
      exact absurd hparse hfatal
  | spinning =>
      exact absurd hparse (parse_settles sofar (by simp [HttpContext.new])).1
  | returned ok c rest =>
      rw [hparse] at hwhole
      cases ok with
      | false =>
          simp [continued] at hwhole
      | true =>
          refine ⟨c, rest, rfl, ?_⟩
          by_contra hall
          -- the parser would have to finish before the end of the header block
          simp only [Bool.not_eq_false] at hall
          simp only [continued, hall, if_true, Parsed.returned.injEq, HttpContext.mk.injEq] at hwhole
          have hbody := congrArg HttpRequest.body_ hwhole.2.1.2
          simp [HttpRequest.setBody, received, hmore] at hbody

end RawRequest

namespace Reader

variable {r : RawRequest} {method : Method} {version : Version}

/-- Inside the header block the request is cut between lines or inside a line, but not behind a CR;
and it is not cut at the end of the header block or later. -/
def Undisturbed (r : RawRequest) (chunks : List Bytes) : Prop :=
  ∀ k < chunks.length, 0 < k →
    (chunks.take k).flatten.length < r.head.length ∧ (chunks.take k).flatten.getLast? ≠ some 13

instance (r : RawRequest) (chunks : List Bytes) : Decidable (Undisturbed r chunks) :=
  inferInstanceAs (Decidable (∀ k < chunks.length, 0 < k → _ ∧ _))

/-- A reader that has parsed the bytes `sofar` and waits for more. -/
structure Waiting (s : Reader) (sofar : Bytes) : Prop where
  status : s.status = .running
  requests : s.requests = []
  parsed : HttpContext.new.parse sofar = .returned true s.context s.pending
  waits : s.context.getAll = false

theorem waiting_new : Waiting new [] :=
  ⟨rfl, rfl, parse_waiting (.inl rfl) (by simp), rfl⟩

theorem Waiting.parse_append {s : Reader} {sofar : Bytes} (h : s.Waiting sofar) (data : Bytes) :
    s.context.parse (s.pending ++ data) = HttpContext.new.parse (sofar ++ data) := by
  have hfatal : HttpContext.new.parse sofar ≠ .fatal := by simp [h.parsed]
  rw [Http.parse_append hfatal, h.parsed]
  simp [continued, h.waits]

theorem deliver_of_complete {s : Reader} {data rest : Bytes} {q : HttpRequest}
    (hs : s.status = .running)
    (hparse : s.context.parse (s.pending ++ data) = .returned true ⟨.kGotAll, q⟩ rest) :
    s.deliver data = ⟨HttpContext.reset ⟨.kGotAll, q⟩, rest, s.requests ++ [q], .running⟩ := by
  simp [deliver, hs, read, hparse, getAll]

theorem Waiting.deliver {s : Reader} {sofar data : Bytes} (h : s.Waiting sofar)
    {c : HttpContext} {rest : Bytes}
    (hparse : HttpContext.new.parse (sofar ++ data) = .returned true c rest)
    (hwaits : c.getAll = false) : (s.deliver data).Waiting (sofar ++ data) := by
  have hdeliver : s.deliver data = { s with context := c, pending := rest } := by
    simp [Reader.deliver, h.status, read, h.parse_append, hparse, hwaits]
  rw [hdeliver]
  exact ⟨h.status, h.requests, hparse, hwaits⟩

/-- The chunks of an accepted request: every one but the last leaves the parser waiting, and the last
one completes the request. -/
theorem requests_of_waiting (h : r.WellFormed) (haccepted : r.Accepted method version)
    {chunks : List Bytes} {s : Reader} {sofar : Bytes} (hwaiting : s.Waiting sofar)
    (hrender : sofar ++ chunks.flatten = r.render) (hne : chunks ≠ [])
    (hcuts : ∀ k < chunks.length, 0 < k →
      (sofar ++ (chunks.take k).flatten).length < r.head.length ∧
        (sofar ++ (chunks.take k).flatten).getLast? ≠ some 13) :
    (chunks.foldl Reader.deliver s).requests = [r.received method version r.body] := by
  induction chunks generalizing s sofar with
  | nil =>
      exact absurd rfl hne
  | cons data chunks ih =>
      cases chunks with
      | nil =>
          -- the last chunk completes the request
          have hall : sofar ++ data = r.head ++ r.body := by simpa [RawRequest.render] using hrender
          have hparse := hwaiting.parse_append data
          rw [hall, RawRequest.parse_head h haccepted] at hparse
          simp [deliver_of_complete hwaiting.status hparse, hwaiting.requests]
      | cons data' chunks =>
          -- an earlier chunk ends inside the header block
          rcases hcuts 1 (by simp) Nat.one_pos with ⟨hlen, hlast⟩
          simp only [List.take_succ_cons, List.take_zero, List.flatten_cons, List.flatten_nil,
            List.append_nil] at hlen hlast
          have hinitial : sofar ++ data <+: r.head := by
            refine List.prefix_of_prefix_length_le (show _ <+: r.render from ⟨(data' :: chunks).flatten, ?_⟩)
              ⟨r.body, rfl⟩ hlen.le
            rw [← hrender]
            simp
          rcases hinitial with ⟨more, hmore⟩
          have hmore_ne : more ≠ [] := by
            rintro rfl
            simp [← hmore] at hlen
          rcases RawRequest.parse_prefix_waits h haccepted hmore hmore_ne hlast with ⟨c, rest, hparse, hwaits⟩
          refine ih (hwaiting.deliver hparse hwaits) (by simpa using hrender) (by simp) ?_
          intro k hk _
          simpa using hcuts (k + 1) (Nat.succ_lt_succ hk) k.succ_pos

/-- A request the server does not know is never handed out, however it is cut. -/
theorem requests_of_unaccepted (h : r.WellFormed)
    (hnot : ∀ method version, ¬ r.Accepted method version) {chunks : List Bytes} {s : Reader}
    (hstatus : s.status = .running) (hstate : s.context.state_ = .kExpectRequestLine)
    (hnone : s.requests = []) (hrender : s.pending ++ chunks.flatten = r.render) :
    (chunks.foldl Reader.deliver s).requests = [] := by
  induction chunks generalizing s with
  | nil =>
      exact hnone
  | cons data chunks ih =>
      -- nothing is ever consumed: the first line, once complete, is refused each time
      have hstay : ∃ c, s.deliver data = { s with context := c, pending := s.pending ++ data } ∧
          c.state_ = .kExpectRequestLine := by
        have hread : ∀ ok c, s.context.parse (s.pending ++ data) =
            .returned ok c (s.pending ++ data) → c.state_ = .kExpectRequestLine →
            s.deliver data = { s with context := c, pending := s.pending ++ data } := by
          intro ok c hparse hc
          simp [deliver, hstatus, read, hparse, getAll, hc]
        cases hcut : cutAt 13 (s.pending ++ data) with
        | none =>
            have hparse := parse_waiting (.inl hstate) (cutAt_eq_none_iff.1 hcut)
            exact ⟨s.context, hread _ _ hparse hstate, hstate⟩
        | some p =>
            rcases p with ⟨line, rest⟩
            rcases cutAt_eq_some_iff.1 hcut with ⟨hsplit, hline⟩
            -- the line is the request line, because neither has a CR inside
            have hfirst : line = r.requestLine := by
              have hwhole : line ++ 13 :: (rest ++ chunks.flatten) = r.requestLine ++
                  13 :: 10 :: (RawRequest.headerLines r.headers ++ RawRequest.crlf ++ r.body) := by
                calc
                  line ++ 13 :: (rest ++ chunks.flatten)
                      = (s.pending ++ data) ++ chunks.flatten := by rw [hsplit]; simp
                  _ = r.render := by rw [← hrender]; simp
                  _ = _ := by simp [RawRequest.render, RawRequest.head, RawRequest.crlf]
              exact (eq_of_append_cr h.cr_not_mem_requestLine hline hwhole).1
            subst hfirst
            have hparse := @parse_requestLine s.context r.requestLine rest hstate hline
            cases hp : s.context.request_.processRequestLine r.requestLine with
            | mk ok request =>
                cases ok with
                | true =>
                    rcases HttpRequest.exists_of_processRequestLine hp with ⟨-, l, htext, -⟩
                    exact absurd (h.accepted_of_text htext) (hnot _ _)
                | false =>
                    rw [hp, ← hsplit] at hparse
                    exact ⟨_, hread _ _ hparse hstate, hstate⟩
      rcases hstay with ⟨c, hdeliver, hc⟩
      rw [List.foldl_cons, hdeliver]
      exact ih hstatus hc hnone (by simpa using hrender)

end Reader

end Http
end Myoj
