import Myoj.Http.KeepAlive

/-!
# HeaderBlock — where the parser takes the headers to end

* `Fed` — a new context whose `parseRequest` has been called after each of some chunks, up to the one
  that completes a request at the latest; `Fed.parse` says that it has parsed their bytes as if they had
  come at once;
* `Framed` — a request line, header lines and an empty line, each with CR LF behind it, and the body;
* `Stray` — a CR that has no LF behind it, or text in the line that ends the headers.

`framed_iff`: what completes a request is framed precisely when nothing in it is stray.
-/

namespace Myoj
namespace Http

open Net HttpContext
open Session (Chunk)

/-! ## Feeding a new context -/

/-- What the chunks leave in the context and in the buffer. -/
inductive Fed : List Chunk → HttpContext → Buffer → Prop
  | start (initialSize : Nat) : Fed [] .new (.new initialSize)
  | chunk {chunks : List Chunk} {chunk : Chunk} {c c' : HttpContext} {buf buf' : Buffer} {ok : Bool} :
      Fed chunks c buf → c.getAll = false →
      c.parseRequest (buf.append chunk.data) chunk.receiveTime = .returned ok c' buf' →
      Fed (chunks ++ [chunk]) c' buf'

/-- More bytes behind a refused line: the line is refused again. -/
theorem parse_append_of_refused {c c' : HttpContext} {input rest : Bytes}
    (h : c.parse input = .returned false c' rest) (more : Bytes) :
    c'.parse (rest ++ more) = .returned false c' (rest ++ more) := by
  obtain ⟨hs, line, tail, rfl, hline, hrefused⟩ := parse_refused h
  rw [List.append_assoc, List.cons_append, parse_requestLine hs hline, hrefused]

/-- The chunks are parsed as if they had come at once. -/
theorem Fed.parse {chunks : List Chunk} {c : HttpContext} {buf : Buffer} (h : Fed chunks c buf) :
    ∃ ok, HttpContext.new.parse (chunks.map Chunk.data).flatten = .returned ok c.untimed buf.readable := by
  induction h with
  | start initialSize =>
      refine ⟨true, ?_⟩
      rw [Buffer.readable_new]
      exact parse_waiting (.inl rfl) (List.not_mem_nil)
  | @chunk chunks chunk c c' buf buf' ok _ hwaits hparse ih =>
      obtain ⟨ok', hsofar⟩ := ih
      have hview := parseRequest_view c (buf.append chunk.data) chunk.receiveTime
      rw [hparse, Buffer.readable_append] at hview
      have hfatal : HttpContext.new.parse (chunks.map Chunk.data).flatten ≠ .fatal := by simp [hsofar]
      have hwaits' : c.untimed.getAll = false := hwaits
      have hflatten : ((chunks ++ [chunk]).map Chunk.data).flatten =
          (chunks.map Chunk.data).flatten ++ chunk.data := by
        simp
      rw [hflatten, parse_append hfatal, hsofar]
      cases ok' with
      | true =>
          refine ⟨ok, ?_⟩
          simp only [continued, hwaits', Bool.false_eq_true, if_false]
          exact hview.symm
      | false =>
          -- the chunk stands behind a refused line, and changes nothing
          have hagain := parse_append_of_refused hsofar chunk.data
          rw [hagain] at hview
          exact ⟨ok, hview.symm⟩

/-! ## Framed requests -/

/-- Header lines and an empty line, each with CR LF behind it, and the body. -/
def HeadersFramed (input body : Bytes) : Prop :=
  ∃ lines : List Bytes, (∀ line ∈ lines, 58 ∈ line ∧ 13 ∉ line) ∧
    input = lines.flatMap (· ++ bytes "\r\n") ++ bytes "\r\n" ++ body

/-- A request line, header lines and an empty line, each with CR LF behind it, and the body. -/
def Framed (input body : Bytes) : Prop :=
  ∃ l : RequestLine, 13 ∉ l.text ∧ ∃ rest, input = l.text ++ bytes "\r\n" ++ rest ∧ HeadersFramed rest body

/-- In the lines up to the first one without a colon something is stray: a line has a CR behind it that
is not the CR of a CR LF, or the one without a colon is not empty. -/
inductive HeadersStray : Bytes → Prop
  | ending {line rest : Bytes} {b : UInt8} :
      13 ∉ line → b ≠ 10 → HeadersStray (line ++ 13 :: b :: rest)
  | text {line rest : Bytes} {b : UInt8} :
      13 ∉ line → 58 ∉ line → line ≠ [] → HeadersStray (line ++ 13 :: b :: rest)
  | later {line rest : Bytes} {b : UInt8} :
      13 ∉ line → 58 ∈ line → HeadersStray rest → HeadersStray (line ++ 13 :: b :: rest)

/-- The same, of a request line and the lines behind it. -/
def Stray (input : Bytes) : Prop :=
  ∃ line b rest, input = line ++ 13 :: b :: rest ∧ 13 ∉ line ∧ (b ≠ 10 ∨ HeadersStray rest)

section lines

variable {line rest body : Bytes} {b : UInt8}

theorem headersStray_iff (hline : 13 ∉ line) :
    HeadersStray (line ++ 13 :: b :: rest) ↔
      b ≠ 10 ∨ (58 ∉ line ∧ line ≠ []) ∨ (58 ∈ line ∧ HeadersStray rest) := by
  constructor
  · intro h
    generalize htext : line ++ 13 :: b :: rest = text at h
    cases h with
    | ending hl hb =>
        obtain ⟨rfl, hrest⟩ := eq_of_append_cr hl hline htext
        cases hrest
        exact .inl hb
    | text hl hcolon hne =>
        obtain ⟨rfl, -⟩ := eq_of_append_cr hl hline htext
        exact .inr (.inl ⟨hcolon, hne⟩)
    | later hl hcolon hstray =>
        obtain ⟨rfl, hrest⟩ := eq_of_append_cr hl hline htext
        cases hrest
        exact .inr (.inr ⟨hcolon, hstray⟩)
  · rintro (hb | ⟨hcolon, hne⟩ | ⟨hcolon, hstray⟩)
    · exact .ending hline hb
    · exact .text hline hcolon hne
    · exact .later hline hcolon hstray

/-- A header line in front. -/
theorem headersFramed_header_iff (hline : 13 ∉ line) (hcolon : 58 ∈ line) :
    HeadersFramed (line ++ 13 :: b :: rest) body ↔ b = 10 ∧ HeadersFramed rest body := by
  have hcrlf : bytes "\r\n" = [13, 10] := by decide
  have hne : line ≠ [] := List.ne_nil_of_mem hcolon
  constructor
  · rintro ⟨lines, hlines, hsplit⟩
    cases lines with
    | nil =>
        -- a framed text without header lines begins with the empty line
        have hempty : line ++ 13 :: b :: rest = [] ++ 13 :: 10 :: body := by simpa [hcrlf] using hsplit
        exact absurd (eq_of_append_cr (List.not_mem_nil) hline hempty).1 hne
    | cons line' lines =>
        have hfirst := hlines line' (List.mem_cons_self)
        have hsplit' : line ++ 13 :: b :: rest = line' ++ 13 ::
            (10 :: (lines.flatMap (· ++ bytes "\r\n") ++ bytes "\r\n" ++ body)) := by
          rw [hsplit]
          simp [hcrlf]
        have hrest := (eq_of_append_cr hfirst.2 hline hsplit').2
        cases hrest
        exact ⟨rfl, lines, fun l hl => hlines l (List.mem_cons_of_mem _ hl), rfl⟩
  · rintro ⟨rfl, lines, hlines, rfl⟩
    refine ⟨line :: lines, ?_, by simp [hcrlf]⟩
    intro l hl
    rcases List.mem_cons.1 hl with rfl | hl
    · exact ⟨hcolon, hline⟩
    · exact hlines l hl

/-- A line without a colon in front. -/
theorem headersFramed_end_iff (hline : 13 ∉ line) (hcolon : 58 ∉ line) :
    HeadersFramed (line ++ 13 :: b :: rest) rest ↔ b = 10 ∧ line = [] := by
  have hcrlf : bytes "\r\n" = [13, 10] := by decide
  constructor
  · rintro ⟨lines, hlines, hsplit⟩
    cases lines with
    | nil =>
        have hempty : line ++ 13 :: b :: rest = [] ++ 13 :: 10 :: rest := by simpa [hcrlf] using hsplit
        obtain ⟨hnil, hrest⟩ := eq_of_append_cr (List.not_mem_nil) hline hempty
        cases hrest
        exact ⟨rfl, hnil⟩
    | cons line' lines =>
        obtain ⟨hcolon', hline'⟩ := hlines line' (List.mem_cons_self)
        have hsplit' : line ++ 13 :: b :: rest = line' ++ 13 ::
            (10 :: (lines.flatMap (· ++ bytes "\r\n") ++ bytes "\r\n" ++ rest)) := by
          rw [hsplit]
          simp [hcrlf]
        obtain ⟨rfl, -⟩ := eq_of_append_cr hline' hline hsplit'
        exact absurd hcolon' hcolon
  · rintro ⟨rfl, rfl⟩
    exact ⟨[], by simp, by simp [hcrlf]⟩

end lines

/-! ## What completes a request -/

/-- Behind the request line: a complete request takes everything, and its lines are framed unless
something is stray. -/
theorem parse_headers_framed {c c' : HttpContext} {input rest : Bytes} {ok : Bool}
    (hs : c.state_ = .kExpectHeaders) (h : c.parse input = .returned ok c' rest)
    (hall : c'.getAll = true) :
    rest = [] ∧ (HeadersFramed input c'.request_.body_ ↔ ¬ HeadersStray input) := by
  fun_induction HttpContext.parse c input with
  | case1 c input hstate _ | case2 c input hstate _ _ _ _ _ | case3 c input hstate _ _ _ _ _
  | case4 c input hstate _ _ _ _ _ _ _ _ | case8 c input hstate | case9 c input hstate =>
      rw [hstate] at hs
      cases hs
  | case5 c input hstate _ =>
      cases h
      simp [getAll, hstate] at hall
  | case6 =>
      cases h
  | case7 c input hstate line b tail hcut ih =>
      obtain ⟨rfl, hline⟩ := cutAt_eq_some_iff.1 hcut
      by_cases hcolon : 58 ∈ line
      · obtain ⟨hrest, hiff⟩ := ih ((takeHeader_state_of_colon hcolon).trans hs) h
        refine ⟨hrest, ?_⟩
        rw [headersFramed_header_iff hline hcolon, hiff, headersStray_iff hline]
        simp [hcolon]
      · -- the first line without a colon ends the headers, whatever is in it
        rw [takeHeader_of_no_colon hcolon, parse_body rfl] at h
        cases h
        refine ⟨rfl, ?_⟩
        change HeadersFramed (line ++ 13 :: b :: tail) tail ↔ _
        rw [headersFramed_end_iff hline hcolon, headersStray_iff hline]
        simp [hcolon]

theorem parse_framed {c : HttpContext} {input rest : Bytes} {ok : Bool}
    (h : HttpContext.new.parse input = .returned ok c rest) (hall : c.getAll = true) :
    rest = [] ∧ (Framed input c.request_.body_ ↔ ¬ Stray input) := by
  have hcrlf : bytes "\r\n" = [13, 10] := by decide
  obtain ⟨l, b, tail, rfl, hline, hheaders⟩ := exists_line_of_completed h hall
  obtain ⟨hrest, hiff⟩ := parse_headers_framed rfl hheaders hall
  refine ⟨hrest, ?_⟩
  -- the request line is the text up to the first CR
  have hframed : Framed (l.text ++ 13 :: b :: tail) c.request_.body_ ↔
      b = 10 ∧ HeadersFramed tail c.request_.body_ := by
    constructor
    · rintro ⟨l', hline', rest', hsplit, hrest'⟩
      have hsplit' : l.text ++ 13 :: b :: tail = l'.text ++ 13 :: 10 :: rest' := by
        rw [hsplit]
        simp [hcrlf]
      have htail := (eq_of_append_cr hline' hline hsplit').2
      cases htail
      exact ⟨rfl, hrest'⟩
    · rintro ⟨rfl, hheaders⟩
      exact ⟨l, hline, tail, by simp [hcrlf], hheaders⟩
  have hstray : Stray (l.text ++ 13 :: b :: tail) ↔ b ≠ 10 ∨ HeadersStray tail := by
    constructor
    · rintro ⟨line', b', rest', hsplit, hline', hor⟩
      have htail := (eq_of_append_cr hline' hline hsplit).2
      cases htail
      exact hor
    · exact fun hor => ⟨l.text, b, tail, rfl, hline, hor⟩
  rw [hframed, hiff, hstray, not_or, not_not]

/-- **The end of the headers.**  When the chunks complete a request, all their bytes are consumed; they
are a framed request with that body precisely when nothing in them is stray. -/
theorem framed_iff {chunks : List Chunk} {c : HttpContext} {buf : Buffer} (h : Fed chunks c buf)
    (hall : c.getAll = true) :
    buf.readable = [] ∧
      (Framed (chunks.map Chunk.data).flatten c.request_.body_ ↔
        ¬ Stray (chunks.map Chunk.data).flatten) := by
  obtain ⟨ok, hparse⟩ := h.parse
  exact parse_framed (c := c.untimed) hparse hall

/-- What a context makes of chunks, none of which comes behind a complete request. -/
def feeds (c : HttpContext) (buf : Buffer) : List Chunk → Option (HttpContext × Buffer)
  | [] => some (c, buf)
  | chunk :: chunks =>
      if c.getAll then none
      else
        match c.parseRequest (buf.append chunk.data) chunk.receiveTime with
        | .returned _ c' buf' => feeds c' buf' chunks
        | _ => none

theorem Fed.feeds {chunks : List Chunk} {c c' : HttpContext} {buf buf' : Buffer} (h : Fed chunks c buf)
    {more : List Chunk} (hmore : feeds c buf more = some (c', buf')) : Fed (chunks ++ more) c' buf' := by
  induction more generalizing chunks c buf with
  | nil =>
      cases hmore
      rwa [List.append_nil]
  | cons chunk more ih =>
      unfold Http.feeds at hmore
      split at hmore
      · cases hmore
      · next hwaits =>
        split at hmore
        · next ok c₁ buf₁ hparse =>
          have hrest := ih (h.chunk (Bool.eq_false_of_not_eq_true hwaits) hparse) hmore
          rwa [List.append_assoc] at hrest
        · cases hmore

/-- Whether the chunks complete a request, and its body. -/
def completed (chunks : List Chunk) : Option (Bool × Bytes) :=
  (feeds .new (.new kInitialSize) chunks).map fun (c, _) => (c.getAll, c.request_.body_)

theorem exists_fed_of_completed {chunks : List Chunk} {body : Bytes}
    (h : completed chunks = some (true, body)) :
    ∃ c buf, Fed chunks c buf ∧ c.getAll = true ∧ c.request_.body_ = body := by
  obtain ⟨⟨c, buf⟩, hfeeds, hcompleted⟩ := Option.map_eq_some_iff.1 h
  rw [Prod.mk.injEq] at hcompleted
  exact ⟨c, buf, (Fed.start kInitialSize).feeds hfeeds, hcompleted⟩

/-- A request that comes in two chunks, cut inside a header line. -/
def loginChunks : List Chunk :=
  [⟨bytes "POST /user/login HTTP/1.1\r\nHost: o", 1⟩, ⟨bytes "j\r\nAccept: */*\r\n\r\nname=tom", 2⟩]

theorem framed_iff_login :
    ∃ c buf, Fed loginChunks c buf ∧ c.getAll = true ∧ c.request_.body_ = bytes "name=tom" ∧
      buf.readable = [] ∧ ¬ Stray (loginChunks.map Chunk.data).flatten := by
  obtain ⟨c, buf, hfed, hall, hbody⟩ := exists_fed_of_completed
    (show completed loginChunks = some (true, bytes "name=tom") by decide +kernel)
  obtain ⟨hempty, hiff⟩ := framed_iff hfed hall
  let line : RequestLine :=
    ⟨bytes "POST", .kPost, bytes "/user/login", .kHttp11, 49, by decide, by decide, by decide⟩
  have hframed : Framed (loginChunks.map Chunk.data).flatten c.request_.body_ := by
    rw [hbody]
    refine ⟨line, by decide +kernel, bytes "Host: oj\r\nAccept: */*\r\n\r\nname=tom", by decide +kernel, ?_⟩
    exact ⟨[bytes "Host: oj", bytes "Accept: */*"], by decide +kernel, by decide +kernel⟩
  exact ⟨c, buf, hfed, hall, hbody, hempty, hiff.1 hframed⟩

/-- A header line without a colon ends the headers: the one behind it becomes part of the body. -/
theorem colonless_line_ends_headers :
    ∃ c buf, Fed [⟨bytes "GET / HTTP/1.1\r\nfoo\r\nA: b\r\n\r\n", 0⟩] c buf ∧ c.getAll = true ∧
      c.request_.body_ = bytes "A: b\r\n\r\n" ∧
      ¬ Framed (bytes "GET / HTTP/1.1\r\nfoo\r\nA: b\r\n\r\n") c.request_.body_ := by
  obtain ⟨c, buf, hfed, hall, hbody⟩ := exists_fed_of_completed
    (show completed [⟨bytes "GET / HTTP/1.1\r\nfoo\r\nA: b\r\n\r\n", 0⟩] =
      some (true, bytes "A: b\r\n\r\n") by decide +kernel)
  refine ⟨c, buf, hfed, hall, hbody, ?_⟩
  have hstray : Stray (bytes "GET / HTTP/1.1\r\nfoo\r\nA: b\r\n\r\n") := by
    refine ⟨bytes "GET / HTTP/1.1", 10, bytes "foo\r\nA: b\r\n\r\n", by decide, by decide, .inr ?_⟩
    have hsplit : bytes "foo\r\nA: b\r\n\r\n" = bytes "foo" ++ 13 :: 10 :: bytes "A: b\r\n\r\n" := by decide
    rw [hsplit]
    exact .text (by decide) (by decide) (by decide)
  obtain ⟨ok, hparse⟩ := hfed.parse
  rw [List.map_singleton, List.flatten_singleton] at hparse
  intro hframed
  exact (parse_framed (c := c.untimed) hparse hall).2.1 hframed hstray

end Http
end Myoj
