import Myoj.Http.Delivery

/-!
# KeepAlive — what one request leaves behind for the next

`reset` swaps the request with a new one, and `swap` leaves out `params_` and `body_`.  A parser that
is reset is therefore a fresh parser with a `leak`: the old parameters lie under the new ones, and the
old body waits to be overwritten.

`leak` commutes with everything the parser does (`parse_leak`), and the body is always overwritten
before a request is complete.  What remains is the parameters: the later request is the one a fresh
context would produce exactly when its own query sets every leaked key again (`feed_reset_iff`).
-/

namespace Myoj
namespace Http

open Net Session

namespace HttpRequest

/-- A request that carries on the parameters `P` and the body `B` of an earlier one. -/
def leak (P : StringMap) (B : Bytes) (r : HttpRequest) : HttpRequest :=
  { r with params_ := r.params_ ∪ P, body_ := B }

variable (P : StringMap) (B : Bytes)

theorem storeParam_union (m : StringMap) (param : Bytes) :
    storeParam (m ∪ P) param = storeParam m param ∪ P := by
  unfold storeParam
  split
  · rfl
  · split
    · rfl
    · exact Finmap.insert_union

theorem storeParams_union (query : Bytes) (m : StringMap) :
    storeParams query (m ∪ P) = storeParams query m ∪ P := by
  unfold storeParams
  induction getlines 38 query generalizing m with
  | nil =>
      rfl
  | cons param rest ih =>
      simp only [List.foldl_cons, storeParam_union, ih]

theorem processRequestLine_leak (r : HttpRequest) (line : Bytes) :
    (r.leak P B).processRequestLine line =
      ((r.processRequestLine line).1, (r.processRequestLine line).2.leak P B) := by
  have happly : ∀ e : LineEdit, e.apply (r.leak P B) = (e.apply r).leak P B := by
    intro e
    simp only [LineEdit.apply_eq, leak]
    cases e.target.bind queryOf <;> simp [storeParams_union]
  simp only [processRequestLine_eq]
  exact Prod.ext rfl (happly _)

end HttpRequest

namespace HttpContext

def leak (P : StringMap) (B : Bytes) (c : HttpContext) : HttpContext :=
  { c with request_ := c.request_.leak P B }

theorem reset_eq_leak (c : HttpContext) :
    c.reset = new.leak c.request_.params_ c.request_.body_ := by
  simp [reset, HttpRequest.swap, leak, HttpRequest.leak, new, HttpRequest.new]

/-- What becomes of a parser run when the context leaks: the request is complete only once its own
body has been stored. -/
def leaked (P : StringMap) (B : Bytes) : Parsed Bytes → Parsed Bytes
  | .returned ok c rest =>
      .returned ok (c.leak P (if c.getAll then c.request_.body_ else B)) rest
  | .fatal => .fatal
  | .spinning => .spinning

theorem parse_leak (P : StringMap) (B : Bytes) (c : HttpContext) (input : Bytes) :
    (c.leak P B).parse input = leaked P B (c.parse input) := by
  fun_induction HttpContext.parse c input with
  | case1 c input hs hcut =>
      -- what waits keeps the foreign body, since only `kExpectBody` writes one
      rw [parse_waiting (c := c.leak P B) (.inl hs) (cutAt_eq_none_iff.1 hcut)]
      simp [leaked, getAll, hs]
  | case2 c input hs line rest hcut request hp =>
      rcases cutAt_eq_some_iff.1 hcut with ⟨rfl, hline⟩
      rw [parse_requestLine (c := c.leak P B) hs hline, leak, HttpRequest.processRequestLine_leak, hp]
      simp [leaked, getAll, hs, leak]
  | case3 c input hs line request hp _ hcut =>
      rcases cutAt_eq_some_iff.1 hcut with ⟨rfl, hline⟩
      rw [parse_requestLine (c := c.leak P B) hs hline, leak, HttpRequest.processRequestLine_leak, hp]
      rfl
  | case4 c input hs line request hp b rest _ hcut ih =>
      rcases cutAt_eq_some_iff.1 hcut with ⟨rfl, hline⟩
      rw [parse_requestLine (c := c.leak P B) hs hline, leak, HttpRequest.processRequestLine_leak, hp]
      exact ih
  | case5 c input hs hcut =>
      rw [parse_waiting (c := c.leak P B) (.inr hs) (cutAt_eq_none_iff.1 hcut)]
      simp [leaked, getAll, hs]
  | case6 c input hs line hcut =>
      rcases cutAt_eq_some_iff.1 hcut with ⟨rfl, hline⟩
      rw [parse_header (c := c.leak P B) hs hline]
      rfl
  | case7 c input hs line b rest hcut ih =>
      rcases cutAt_eq_some_iff.1 hcut with ⟨rfl, hline⟩
      have htake : (c.leak P B).takeHeader line = (c.takeHeader line).leak P B := by
        unfold takeHeader
        split <;> rfl
      rw [parse_header (c := c.leak P B) hs hline, htake]
      exact ih
  | case8 c input hs =>
      -- the body of the request itself is written over the foreign one
      rw [parse_body (c := c.leak P B) hs]
      simp [leaked, getAll, leak, HttpRequest.leak, HttpRequest.setBody]
  | case9 c input hs =>
      rw [HttpContext.parse, leak, hs]
      rfl

/-! ## Feeding a parser until a request is complete -/

/-- Chunks arrive, and `parseRequest` is called after each, until it has a complete request. -/
def feed (c : HttpContext) (buf : Buffer) : List Chunk → Option HttpRequest
  | [] => none
  | chunk :: chunks =>
      match c.parseRequest (buf.append chunk.data) chunk.receiveTime with
      | .returned _ c buf => if c.getAll then some c.request_ else feed c buf chunks
      | _ => none

/-- `feed` over byte strings. -/
def feedBytes (c : HttpContext) (pending : Bytes) : List Bytes → Option HttpRequest
  | [] => none
  | data :: rest =>
      match c.parse (pending ++ data) with
      | .returned _ c pending => if c.getAll then some c.request_ else feedBytes c pending rest
      | _ => none

theorem feed_view (c : HttpContext) (buf : Buffer) (chunks : List Chunk) :
    (feed c buf chunks).map (·.setReceiveTime 0) =
      feedBytes c.untimed buf.readable (chunks.map Chunk.data) := by
  induction chunks generalizing c buf with
  | nil =>
      rfl
  | cons chunk chunks ih =>
      have hview := parseRequest_view c (buf.append chunk.data) chunk.receiveTime
      rw [Buffer.readable_append] at hview
      simp only [feed, List.map_cons, feedBytes, ← hview]
      cases c.parseRequest (buf.append chunk.data) chunk.receiveTime with
      | fatal =>
          rfl
      | spinning =>
          rfl
      | returned ok c' buf' =>
          have hall : c'.untimed.getAll = c'.getAll := rfl
          simp only [view, hall]
          split
          · rfl
          · exact ih c' buf'

/-- The leaked parameters stay under the new ones. -/
theorem feedBytes_leak (P : StringMap) (B : Bytes) (c : HttpContext) (pending : Bytes)
    (chunks : List Bytes) :
    feedBytes (c.leak P B) pending chunks =
      (feedBytes c pending chunks).map fun q => { q with params_ := q.params_ ∪ P } := by
  induction chunks generalizing c pending with
  | nil =>
      rfl
  | cons data chunks ih =>
      simp only [feedBytes, parse_leak]
      cases c.parse (pending ++ data) with
      | fatal =>
          rfl
      | spinning =>
          rfl
      | returned ok c' rest =>
          simp only [leaked]
          -- whether the request is complete does not depend on what leaked
          have hall : ∀ B', (c'.leak P B').getAll = c'.getAll := fun _ => rfl
          rw [hall]
          cases hc : c'.getAll with
          | true =>
              rfl
          | false =>
              exact ih c' rest

/-! ## Where the parameters of a complete request come from -/

/-- Behind the request line nothing is added to the parameters. -/
theorem parse_headers_params {c c' : HttpContext} {input rest : Bytes} {ok : Bool}
    (hs : c.state_ ≠ .kExpectRequestLine) (h : c.parse input = .returned ok c' rest) :
    c'.request_.params_ = c.request_.params_ := by
  fun_induction HttpContext.parse c input with
  | case1 c input hline _ | case2 c input hline _ _ _ _ _ | case3 c input hline _ _ _ _ _
  | case4 c input hline _ _ _ _ _ _ _ _ =>
      exact absurd hline hs
  | case5 c input _ _ =>
      cases h
      rfl
  | case6 =>
      cases h
  | case7 c input hs' line b tail hcut ih =>
      -- a header line writes `headers_` only
      have hparams : (c.takeHeader line).request_.params_ = c.request_.params_ := by
        unfold takeHeader
        split <;> rfl
      have hstate : (c.takeHeader line).state_ ≠ .kExpectRequestLine := by
        by_cases hcolon : 58 ∈ line
        · simp [takeHeader_state_of_colon hcolon, hs']
        · simp [takeHeader_of_no_colon hcolon]
      exact (ih hstate h).trans hparams
  | case8 c input _ =>
      cases h
      rfl
  | case9 =>
      cases h

/-- A complete request began with an accepted line, and the headers were parsed from behind it. -/
theorem exists_line_of_completed {input rest : Bytes} {c : HttpContext} {ok : Bool}
    (h : new.parse input = .returned ok c rest) (hall : c.getAll = true) :
    ∃ l : RequestLine, ∃ b tail, input = l.text ++ 13 :: b :: tail ∧ 13 ∉ l.text ∧
      parse ⟨.kExpectHeaders, l.fill .new⟩ tail = .returned ok c rest := by
  have hnot : ∀ {c' : HttpContext}, c'.state_ = .kExpectRequestLine → c'.getAll ≠ true := by
    intro c' hs
    simp [getAll, hs]
  cases hcut : cutAt 13 input with
  | none =>
      rw [parse_waiting (.inl rfl) (cutAt_eq_none_iff.1 hcut)] at h
      cases h
      exact absurd hall (hnot rfl)
  | some p =>
      rcases p with ⟨line, tail⟩
      rcases cutAt_eq_some_iff.1 hcut with ⟨rfl, hline⟩
      rw [parse_requestLine rfl hline] at h
      cases hp : HttpContext.new.request_.processRequestLine line with
      | mk accepted request =>
          rw [hp] at h
          cases accepted with
          | false =>
              cases h
              exact absurd hall (hnot rfl)
          | true =>
              rcases HttpRequest.exists_of_processRequestLine hp with ⟨-, l, rfl, rfl⟩
              cases tail with
              | nil =>
                  cases h
              | cons b tail =>
                  exact ⟨l, b, tail, rfl, hline, h⟩

/-- The parameters of a complete request are those of its line: nothing behind it adds any. -/
theorem parse_params {input rest : Bytes} {c : HttpContext} {ok : Bool}
    (h : new.parse input = .returned ok c rest) (hall : c.getAll = true) :
    ∃ l : RequestLine, ∃ tail, input = l.text ++ 13 :: tail ∧ 13 ∉ l.text ∧
      c.request_.params_ = (l.fill .new).params_ := by
  obtain ⟨l, b, tail, hinput, hline, hheaders⟩ := exists_line_of_completed h hall
  exact ⟨l, b :: tail, hinput, hline, parse_headers_params (by simp) hheaders⟩

/-- A refusal leaves everything in the buffer, and the parser at the line it has refused. -/
theorem parse_refused {c c' : HttpContext} {input rest : Bytes}
    (h : c.parse input = .returned false c' rest) :
    c'.state_ = .kExpectRequestLine ∧ ∃ line tail, rest = line ++ 13 :: tail ∧ 13 ∉ line ∧
      c'.request_.processRequestLine line = (false, c'.request_) := by
  fun_induction HttpContext.parse c input with
  | case1 | case3 | case5 | case6 | case8 | case9 =>
      cases h
  | case2 c input hs line tail hcut request hp =>
      cases h
      rcases cutAt_eq_some_iff.1 hcut with ⟨hinput, hline⟩
      exact ⟨hs, line, tail, hinput, hline, HttpRequest.processRequestLine_refused_again hp⟩
  | case4 _ _ _ _ _ _ _ _ _ _ ih | case7 _ _ _ _ _ _ _ ih =>
      exact ih h

/-- A parser that has refused a line never completes a request. -/
theorem feedBytes_of_refused {c : HttpContext} {line tail : Bytes}
    (hs : c.state_ = .kExpectRequestLine) (hline : 13 ∉ line)
    (hrefused : c.request_.processRequestLine line = (false, c.request_)) (chunks : List Bytes) :
    feedBytes c (line ++ 13 :: tail) chunks = none := by
  induction chunks generalizing tail with
  | nil =>
      rfl
  | cons data chunks ih =>
      have hall : c.getAll = false := by simp [getAll, hs]
      simp only [feedBytes, List.append_assoc, List.cons_append, parse_requestLine hs hline,
        hrefused, hall]
      exact ih

/-- The bytes up to the chunk that completes the request are parsed as if they had come at once. -/
theorem exists_parse_of_feedBytes {chunks : List Bytes} {c : HttpContext} {pending sofar : Bytes}
    {q : HttpRequest} (hparse : new.parse sofar = .returned true c pending)
    (hwaits : c.getAll = false) (h : feedBytes c pending chunks = some q) :
    ∃ used unused ok c' rest, sofar ++ chunks.flatten = used ++ unused ∧
      new.parse used = .returned ok c' rest ∧ c'.getAll = true ∧ c'.request_ = q := by
  induction chunks generalizing c pending sofar with
  | nil =>
      cases h
  | cons data chunks ih =>
      -- the parser is where it would be after all the bytes so far
      have hnext : new.parse (sofar ++ data) = c.parse (pending ++ data) := by
        rw [parse_append (by simp [hparse]), hparse]
        simp [continued, hwaits]
      rw [feedBytes, ← hnext] at h
      cases hresult : new.parse (sofar ++ data) with
      | fatal =>
          simp [hresult] at h
      | spinning =>
          simp [hresult] at h
      | returned ok c' rest =>
          simp only [hresult] at h
          cases hall : c'.getAll with
          | true =>
              rw [hall] at h
              exact ⟨sofar ++ data, chunks.flatten, ok, c', rest, by simp, hresult, hall,
                Option.some.inj h⟩
          | false =>
              rw [hall] at h
              cases ok with
              | true =>
                  simpa using ih hresult hall h
              | false =>
                  rcases parse_refused hresult with ⟨hs, line, tail, rfl, hline, hrefused⟩
                  have hnone := @feedBytes_of_refused c' line tail hs hline hrefused chunks
                  exact absurd (h.symm.trans hnone) (by simp)

end HttpContext

/-! ## The later request -/

/-- The request target in a request line. -/
def targetOf (line : Bytes) : Bytes := ((cutAt 32 line).bind fun p => cutAt 32 p.2).elim [] Prod.fst

/-- The parameters that the first line of some input sets. -/
def firstLineParams (input : Bytes) : StringMap :=
  ((cutAt 13 input).bind fun p => queryOf (targetOf p.1)).elim ∅ fun q => HttpRequest.storeParams q ∅

theorem targetOf_text (l : RequestLine) : targetOf l.text = l.target := by
  simp [targetOf, RequestLine.text, cutAt_append (no_space_of_known l.known),
    cutAt_append l.target_no_space]

theorem firstLineParams_eq (l : RequestLine) (hl : 13 ∉ l.text) (tail : Bytes) :
    firstLineParams (l.text ++ 13 :: tail) = (l.fill .new).params_ := by
  simp only [firstLineParams, cutAt_append hl, Option.bind_some, targetOf_text, RequestLine.fill,
    HttpRequest.setVersion, HttpRequest.setTarget_eq]
  rfl

/-- Laying a map under another one changes nothing when every key of it is taken. -/
theorem union_eq_left_iff (m P : StringMap) : m ∪ P = m ↔ ∀ k ∈ P, k ∈ m := by
  constructor
  · intro h k hk
    rw [← h]
    exact Finmap.mem_union.2 (.inr hk)
  · intro h
    refine Finmap.ext_lookup fun k => ?_
    by_cases hk : k ∈ m
    · exact Finmap.lookup_union_left hk
    · rw [Finmap.lookup_union_right hk, Finmap.lookup_eq_none.2 hk,
        Finmap.lookup_eq_none.2 fun hP => hk (h k hP)]

namespace HttpContext

theorem params_of_feedBytes {pending : Bytes} {chunks : List Bytes} {q : HttpRequest}
    (h : feedBytes new pending chunks = some q) :
    q.params_ = firstLineParams (pending ++ chunks.flatten) := by
  cases chunks with
  | nil =>
      cases h
  | cons data chunks =>
      -- nothing of the pending bytes has been parsed yet: they might as well come with the chunk
      have h' : feedBytes new [] ((pending ++ data) :: chunks) = some q := h
      have hstart : new.parse [] = .returned true new [] := parse_waiting (.inl rfl) (by simp)
      rcases exists_parse_of_feedBytes hstart rfl h' with
        ⟨used, unused, ok, c, rest, hsplit, hparse, hall, rfl⟩
      rcases parse_params hparse hall with ⟨l, tail, rfl, hl, hparams⟩
      have hwhole : pending ++ (data :: chunks).flatten = l.text ++ 13 :: (tail ++ unused) := by
        simpa using hsplit
      rw [hparams, hwhole, firstLineParams_eq l hl]

/-- **What leaks.** After `reset` the later input produces the request a new context would produce if
and only if it completes no request at all or its own query sets every parameter of the earlier
request again. -/
theorem feed_reset_iff (c : HttpContext) (buf : Buffer) (chunks : List Chunk) :
    (feed c.reset buf chunks).map (·.setReceiveTime 0) =
        (feed new buf chunks).map (·.setReceiveTime 0) ↔
      feed new buf chunks = none ∨
        ∀ k ∈ c.request_.params_,
          k ∈ firstLineParams (buf.readable ++ (chunks.map Chunk.data).flatten) := by
  have huntimed : c.reset.untimed = new.leak c.request_.params_ c.request_.body_ := by
    rw [reset_eq_leak]
    rfl
  have hnone : feed new buf chunks = none ↔
      feedBytes new buf.readable (chunks.map Chunk.data) = none := by
    rw [← Option.map_eq_none_iff (f := (·.setReceiveTime 0)), feed_view]
    rfl
  rw [feed_view, feed_view, huntimed, hnone, feedBytes_leak]
  change Option.map _ (feedBytes new buf.readable _) = feedBytes new buf.readable _ ↔ _
  cases hfeed : feedBytes new buf.readable (chunks.map Chunk.data) with
  | none =>
      simp
  | some q =>
      rw [← params_of_feedBytes hfeed, ← union_eq_left_iff]
      simp [HttpRequest.ext_iff]

/-- The context after a request with a parameter. -/
def afterQuery : HttpContext :=
  match new.parseRequest ((Buffer.new kInitialSize).append
      (bytes "GET /?x&a=1 HTTP/1.1\r\n\r\n")) 0 with
  | .returned _ c _ => c
  | _ => new

/-- The next request on the connection has no query, and yet the parameter `a`. -/
theorem param_leaks :
    let later : List Chunk := [⟨bytes "GET / HTTP/1.1\r\n\r\n", 0⟩]
    afterQuery.getAll = true ∧
      ((feed new (.new kInitialSize) later).map fun q => q.params_.lookup (bytes "a")) = some none ∧
      ((feed afterQuery.reset (.new kInitialSize) later).map fun q =>
        q.params_.lookup (bytes "a")) = some (some (bytes "1")) := by
  decide +kernel

end HttpContext
end Http
end Myoj
