import Mathlib.Tactic.Linarith
import Myoj.Net.Buffer
import Myoj.Http.Request

/-!
# Context — `HttpContext` and the request parser

`parseRequest` is the loop of the source: `turn` is one pass through its body, `parseLoop` repeats
it.  Every pass that goes on consumes bytes, except in state `kGotAll`, where the loop never ends;
`parseLoop` runs on a number of passes that suffices in every other state (`parseRequest_view`) and
answers `spinning` when they are used up.

`parse` is the parser over byte strings: it sees the readable bytes instead of the `Buffer` and
ignores the clock.  `parseRequest_view` says that `parseRequest` implements it, and every result
about requests is proved for `parse`.
-/

namespace Myoj
namespace Http

open Net

inductive HttpRequestParseState
  | kExpectRequestLine
  | kExpectHeaders
  | kExpectBody
  | kGotAll
  deriving DecidableEq, Repr

structure HttpContext where
  state_ : HttpRequestParseState
  request_ : HttpRequest
  deriving DecidableEq

/-- What a parser run over a source of bytes `β` comes to: it returns, `abort()` is called, or it
never ends. -/
inductive Parsed (β : Type)
  | returned (ok : Bool) (context : HttpContext) (rest : β)
  | fatal
  | spinning

namespace HttpContext

def new : HttpContext := ⟨.kExpectRequestLine, .new⟩

def getAll (c : HttpContext) : Bool := c.state_ == .kGotAll

/-- `request_.swap(dummy)` with a new request. -/
def reset (c : HttpContext) : HttpContext := ⟨.kExpectRequestLine, (c.request_.swap .new).1⟩

/-! ## The loop -/

/-- One pass through the body of the loop: it goes round again, leaves, or aborts. -/
inductive Turn
  | again (c : HttpContext) (buf : Buffer)
  | leave (ok : Bool) (c : HttpContext) (buf : Buffer)
  | fatal

/-- The header branch up to `retrieveUntil`. -/
def takeHeader (c : HttpContext) (line : Bytes) : HttpContext :=
  match cutAt 58 line with
  -- any line without a colon counts as the end of the headers, not only an empty one
  | none => { c with state_ := .kExpectBody }
  | some (field, value) => { c with request_ := c.request_.addHeader field value }

/-- `buf->retrieveUntil(crlf + 2)`, then round again. -/
def advance (c : HttpContext) (buf : Buffer) (crlf : Nat) : Turn :=
  match buf.retrieveUntil (crlf + 2) with
  | none => .fatal
  | some buf => .again c buf

def turn (c : HttpContext) (buf : Buffer) (receiveTime : Timestamp) : Turn :=
  match c.state_ with
  | .kExpectRequestLine =>
      match buf.findCRLF with
      | none => .leave true c buf
      | some crlf =>
          match c.request_.processRequestLine (buf.readable.take crlf) with
          | (false, request) => .leave false { c with request_ := request } buf
          | (true, request) =>
              advance ⟨.kExpectHeaders, request.setReceiveTime receiveTime⟩ buf crlf
  | .kExpectHeaders =>
      match buf.findCRLF with
      | none => .leave true c buf
      | some crlf => (c.takeHeader (buf.readable.take crlf)).advance buf crlf
  | .kExpectBody =>
      -- whatever is buffered now is the body
      .leave true ⟨.kGotAll, c.request_.setBody buf.readable⟩ buf.retrieveAll
  | .kGotAll => .again c buf

def parseLoop (receiveTime : Timestamp) : Nat → HttpContext → Buffer → Parsed Buffer
  | 0, _, _ => .spinning
  | passes + 1, c, buf =>
      match c.turn buf receiveTime with
      | .again c buf => parseLoop receiveTime passes c buf
      | .leave ok c buf => .returned ok c buf
      | .fatal => .fatal

def parseRequest (c : HttpContext) (buf : Buffer) (receiveTime : Timestamp) : Parsed Buffer :=
  parseLoop receiveTime (buf.readableBytes + 1) c buf

/-! ## The parser over byte strings -/

/-- The context with its clock reading forgotten. -/
def untimed (c : HttpContext) : HttpContext := { c with request_ := c.request_.setReceiveTime 0 }

/-- `parseRequest` on the readable bytes. -/
def parse (c : HttpContext) (input : Bytes) : Parsed Bytes :=
  match c.state_ with
  | .kExpectRequestLine =>
      match _h : cutAt 13 input with
      | none => .returned true c input
      | some (line, rest) =>
          match c.request_.processRequestLine line with
          | (false, request) => .returned false { c with request_ := request } input
          | (true, request) =>
              match rest with
              | [] => .fatal
              | _ :: rest => parse ⟨.kExpectHeaders, request⟩ rest
  | .kExpectHeaders =>
      match _h : cutAt 13 input with
      | none => .returned true c input
      | some (_, []) => .fatal
      | some (line, _ :: rest) => parse (c.takeHeader line) rest
  | .kExpectBody => .returned true ⟨.kGotAll, c.request_.setBody input⟩ []
  | .kGotAll => .spinning
termination_by input.length
decreasing_by
  all_goals
    have hlen := length_of_cutAt _h
    simp only [List.length_cons] at hlen
    omega

/-! ## One line at a time -/

/-- How the parser goes on behind the CR of a line: the byte after it is skipped, and there must be
one. -/
def afterLine (rest : Bytes) (next : Bytes → Parsed Bytes) : Parsed Bytes :=
  match rest with
  | [] => .fatal
  | _ :: rest => next rest

section parse

variable {c : HttpContext} {input line rest : Bytes}

theorem parse_requestLine (hs : c.state_ = .kExpectRequestLine) (hline : 13 ∉ line) :
    c.parse (line ++ 13 :: rest) =
      match c.request_.processRequestLine line with
      | (false, request) => .returned false { c with request_ := request } (line ++ 13 :: rest)
      | (true, request) => afterLine rest (parse ⟨.kExpectHeaders, request⟩) := by
  rw [parse, hs]
  dsimp only
  split
  · next h =>
    simp [cutAt_append hline] at h
  · next h =>
    rw [cutAt_append hline] at h
    rcases Prod.mk.inj (Option.some.inj h) with ⟨rfl, rfl⟩
    cases rest <;> rfl

theorem parse_header (hs : c.state_ = .kExpectHeaders) (hline : 13 ∉ line) :
    c.parse (line ++ 13 :: rest) = afterLine rest (c.takeHeader line).parse := by
  rw [parse, hs]
  dsimp only
  split <;> next h => simp_all [cutAt_append hline, afterLine]

/-- Without a CR the parser waits for more. -/
theorem parse_waiting (hs : c.state_ = .kExpectRequestLine ∨ c.state_ = .kExpectHeaders)
    (h : 13 ∉ input) : c.parse input = .returned true c input := by
  have hcut : cutAt 13 input = none := cutAt_of_not_mem h
  rcases hs with hs | hs <;> rw [parse, hs] <;> dsimp only <;> split <;>
    first | rfl | next h => simp [hcut] at h

theorem parse_body (hs : c.state_ = .kExpectBody) :
    c.parse input = .returned true ⟨.kGotAll, c.request_.setBody input⟩ [] := by
  rw [parse, hs]

end parse

/-! ## `parseRequest` implements `parse` -/

theorem takeHeader_untimed (c : HttpContext) (line : Bytes) :
    c.untimed.takeHeader line = (c.takeHeader line).untimed := by
  unfold takeHeader
  split <;> rfl

/-- A parser run seen through the readable bytes. -/
def view : Parsed Buffer → Parsed Bytes
  | .returned ok c buf => .returned ok c.untimed buf.readable
  | .fatal => .fatal
  | .spinning => .spinning

theorem returned_of_view {parsed : Parsed Buffer} {ok : Bool} {c : HttpContext} {rest : Bytes}
    (h : view parsed = .returned ok c rest) :
    ∃ c' buf, parsed = .returned ok c' buf ∧ c'.untimed = c ∧ buf.readable = rest := by
  cases parsed with
  | returned ok' c' buf =>
      simp only [view, Parsed.returned.injEq] at h
      obtain ⟨rfl, hc, hrest⟩ := h
      exact ⟨c', buf, rfl, hc, hrest⟩
  | fatal =>
      cases h
  | spinning =>
      cases h

/-- In `kGotAll` every pass leaves everything as it was. -/
theorem parseLoop_gotAll (t : Timestamp) (passes : Nat) {c : HttpContext} (buf : Buffer)
    (hs : c.state_ = .kGotAll) : parseLoop t passes c buf = .spinning := by
  induction passes with
  | zero =>
      rfl
  | succ passes ih =>
      simpa only [parseLoop, turn, hs] using ih

/-- Consuming a line of the buffer is consuming it in the byte string. -/
theorem advance_view (t : Timestamp) {passes : Nat} (c : HttpContext) {buf : Buffer}
    {line rest : Bytes} (hbuf : buf.readable = line ++ 13 :: rest)
    (ih : ∀ buf' : Buffer, buf'.readable.length < buf.readable.length →
      view (parseLoop t passes c buf') = c.untimed.parse buf'.readable) :
    view (match c.advance buf line.length with
      | .again c buf => parseLoop t passes c buf
      | .leave ok c buf => .returned ok c buf
      | .fatal => .fatal) =
    afterLine rest c.untimed.parse := by
  cases rest with
  | nil =>
      simp [advance, Buffer.retrieveUntil_line_end hbuf, view, afterLine]
  | cons x rest =>
      rcases Buffer.retrieveUntil_line hbuf with ⟨buf', hretrieve, rfl⟩
      simp only [advance, hretrieve, afterLine]
      refine ih buf' ?_
      simp only [hbuf, List.length_append, List.length_cons]
      omega

theorem parseLoop_view (t : Timestamp) {passes : Nat} {c : HttpContext} {buf : Buffer}
    (h : buf.readable.length < passes) :
    view (parseLoop t passes c buf) = c.untimed.parse buf.readable := by
  induction passes generalizing c buf with
  | zero =>
      omega
  | succ passes ih =>
      -- the induction is on the passes left, and every pass but the last consumes a line
      have hnext : ∀ (c : HttpContext) (buf' : Buffer), buf'.readable.length < buf.readable.length →
          view (parseLoop t passes c buf') = c.untimed.parse buf'.readable :=
        fun c buf' hlen => ih (by omega)
      have hline : ∀ line rest, cutAt 13 buf.readable = some (line, rest) →
          buf.readable = line ++ 13 :: rest ∧ 13 ∉ line ∧ buf.readable.take line.length = line := by
        intro line rest hcut
        rcases cutAt_eq_some_iff.1 hcut with ⟨hbuf, hno⟩
        exact ⟨hbuf, hno, by simp [hbuf]⟩
      cases hs : c.state_ with
      | kExpectRequestLine =>
          have hs' : c.untimed.state_ = .kExpectRequestLine := hs
          cases hcut : cutAt 13 buf.readable with
          | none =>
              rw [parse_waiting (.inl hs') (cutAt_eq_none_iff.1 hcut)]
              simp [parseLoop, turn, hs, buf.findCRLF_eq, hcut, view]
          | some p =>
              rcases hline p.1 p.2 hcut with ⟨hbuf, hno, htake⟩
              rw [hbuf, parse_requestLine hs' hno]
              simp only [parseLoop, turn, hs, buf.findCRLF_eq, hcut, Option.map_some, htake]
              cases hp : c.request_.processRequestLine p.1 with
              | mk ok request =>
                  -- the request line is read without a look at the clock
                  have hp' : c.untimed.request_.processRequestLine p.1 =
                      (ok, request.setReceiveTime 0) := by
                    rw [untimed, HttpRequest.processRequestLine_setReceiveTime, hp]
                  rw [hp']
                  cases ok with
                  | false =>
                      simp [view, untimed, hs, hbuf]
                  | true =>
                      exact advance_view t _ hbuf (hnext _)
      | kExpectHeaders =>
          have hs' : c.untimed.state_ = .kExpectHeaders := hs
          cases hcut : cutAt 13 buf.readable with
          | none =>
              rw [parse_waiting (.inr hs') (cutAt_eq_none_iff.1 hcut)]
              simp [parseLoop, turn, hs, buf.findCRLF_eq, hcut, view]
          | some p =>
              rcases hline p.1 p.2 hcut with ⟨hbuf, hno, htake⟩
              rw [hbuf, parse_header hs' hno, takeHeader_untimed]
              simp only [parseLoop, turn, hs, buf.findCRLF_eq, hcut, Option.map_some, htake]
              exact advance_view t _ hbuf (hnext _)
      | kExpectBody =>
          rw [parse_body (c := c.untimed) hs]
          simp only [parseLoop, turn, hs, view, Buffer.readable_retrieveAll]
          rfl
      | kGotAll =>
          rw [parseLoop_gotAll t _ buf hs, parse]
          simp only [untimed, hs, view]

theorem parseRequest_view (c : HttpContext) (buf : Buffer) (t : Timestamp) :
    view (c.parseRequest buf t) = c.untimed.parse buf.readable :=
  parseLoop_view t (by rw [buf.length_readable]; exact Nat.lt_succ_self _)

end HttpContext

end Http
end Myoj
