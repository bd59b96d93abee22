import Myoj.Http.Server

/-!
# LineCut — when client bytes abort the server

`findCRLF` stops at a CR whatever follows it, and `retrieveUntil(crlf + 2)` then steps over two
bytes.  When the CR is the last byte received so far, that is one byte too many: `LOG_FATAL`.

`EndsInsideCRLF` says for which pending bytes this happens, from the bytes and the parser's state
before the call; `never_aborts_iff` lifts the exact condition to whole runs of deliveries.
-/

namespace Myoj
namespace Http

open HttpContext

/-- Header lines whose last one is cut off right behind its CR. -/
inductive HeadersCut : Bytes → Prop
  | here {line : Bytes} : 13 ∉ line → HeadersCut (line ++ [13])
  | later {line rest : Bytes} {b : UInt8} :
      13 ∉ line → 58 ∈ line → HeadersCut rest → HeadersCut (line ++ 13 :: b :: rest)

/-- The pending bytes end right behind the CR of a request line or of a header line. -/
def EndsInsideCRLF (c : HttpContext) (pending : Bytes) : Prop :=
  match c.state_ with
  | .kExpectRequestLine =>
      c.request_.method_ = .kInvalid ∧ ∃ l : RequestLine, 13 ∉ l.text ∧
        (pending = l.text ++ [13] ∨
          ∃ b rest, pending = l.text ++ 13 :: b :: rest ∧ HeadersCut rest)
  | .kExpectHeaders => HeadersCut pending
  | _ => False

section parse

variable {c : HttpContext} {input line rest : Bytes}

theorem takeHeader_state_of_colon (h : 58 ∈ line) : (c.takeHeader line).state_ = c.state_ := by
  unfold takeHeader
  split
  · next hcut => exact absurd h (cutAt_eq_none_iff.1 hcut)
  · rfl

theorem takeHeader_of_no_colon (h : 58 ∉ line) :
    c.takeHeader line = { c with state_ := .kExpectBody } := by
  simp [takeHeader, cutAt_of_not_mem h]

theorem eq_of_append_cr {line' rest' : Bytes} (hline : 13 ∉ line) (hline' : 13 ∉ line')
    (h : line' ++ 13 :: rest' = line ++ 13 :: rest) : line' = line ∧ rest' = rest := by
  have hcut : cutAt 13 (line ++ 13 :: rest) = some (line', rest') := h ▸ cutAt_append hline'
  rw [cutAt_append hline] at hcut
  exact Prod.mk.inj (Option.some.inj hcut.symm)

theorem HeadersCut.cr_mem (h : HeadersCut input) : 13 ∈ input := by
  cases h <;> simp

theorem headersCut_iff (hline : 13 ∉ line) :
    HeadersCut (line ++ 13 :: rest) ↔
      rest = [] ∨ ∃ b tail, rest = b :: tail ∧ 58 ∈ line ∧ HeadersCut tail := by
  constructor
  · intro h
    -- a text is cut at its first CR in one way only
    generalize htext : line ++ 13 :: rest = text at h
    cases h with
    | here hl =>
        exact .inl (eq_of_append_cr hl hline htext).2
    | later hl hcolon htail =>
        rcases eq_of_append_cr hl hline htext with ⟨rfl, rfl⟩
        exact .inr ⟨_, _, rfl, hcolon, htail⟩
  · rintro (rfl | ⟨b, tail, rfl, hcolon, htail⟩)
    · exact .here hline
    · exact .later hline hcolon htail

/-- Reading headers aborts exactly on header lines cut off behind a CR. -/
theorem parse_headers_fatal_iff (hs : c.state_ = .kExpectHeaders) :
    c.parse input = .fatal ↔ HeadersCut input := by
  fun_induction HttpContext.parse c input with
  | case1 c input h _ | case2 c input h _ _ _ _ _ | case3 c input h _ _ _ _ _
  | case4 c input h _ _ _ _ _ _ _ _ | case8 c input h | case9 c input h =>
      rw [h] at hs
      cases hs
  | case5 c input _ hcut =>
      exact iff_of_false (by simp) fun h => cutAt_eq_none_iff.1 hcut h.cr_mem
  | case6 c input _ line hcut =>
      rcases cutAt_eq_some_iff.1 hcut with ⟨rfl, hline⟩
      exact iff_of_true rfl (.here hline)
  | case7 c input _ line b rest hcut ih =>
      rcases cutAt_eq_some_iff.1 hcut with ⟨rfl, hline⟩
      rw [headersCut_iff hline]
      -- a line with a colon leaves the parser among the headers, any other at the body
      by_cases hcolon : 58 ∈ line
      · rw [ih ((takeHeader_state_of_colon hcolon).trans hs)]
        simp [hcolon]
      · rw [takeHeader_of_no_colon hcolon, parse_body rfl]
        simp [hcolon]

theorem EndsInsideCRLF.cr_mem (h : EndsInsideCRLF c input) : 13 ∈ input := by
  unfold EndsInsideCRLF at h
  split at h
  · rcases h with ⟨-, l, -, rfl | ⟨b, rest, rfl, -⟩⟩ <;> simp
  · exact HeadersCut.cr_mem h
  · exact h.elim

theorem endsInsideCRLF_iff (hs : c.state_ = .kExpectRequestLine) (hline : 13 ∉ line) :
    EndsInsideCRLF c (line ++ 13 :: rest) ↔
      (c.request_.method_ = .kInvalid ∧ ∃ l : RequestLine, l.text = line) ∧
        (rest = [] ∨ ∃ b tail, rest = b :: tail ∧ HeadersCut tail) := by
  simp only [EndsInsideCRLF, hs]
  constructor
  · rintro ⟨hmethod, l, hl, hend | ⟨b, tail, hend, htail⟩⟩
    · rcases eq_of_append_cr hl hline hend with ⟨htext, hrest⟩
      exact ⟨⟨hmethod, l, htext.symm⟩, .inl hrest⟩
    · rcases eq_of_append_cr hl hline hend with ⟨htext, hrest⟩
      exact ⟨⟨hmethod, l, htext.symm⟩, .inr ⟨b, tail, hrest, htail⟩⟩
  · rintro ⟨⟨hmethod, l, rfl⟩, rfl | ⟨b, tail, rfl, htail⟩⟩
    · exact ⟨hmethod, l, hline, .inl rfl⟩
    · exact ⟨hmethod, l, hline, .inr ⟨b, tail, rfl, htail⟩⟩

/-- **The exact condition.** Parsing aborts if and only if the bytes end inside a CR LF. -/
theorem parse_fatal_iff : c.parse input = .fatal ↔ EndsInsideCRLF c input := by
  cases hs : c.state_ with
  | kExpectRequestLine =>
      cases hcut : cutAt 13 input with
      | none =>
          have hno := cutAt_eq_none_iff.1 hcut
          rw [parse_waiting (.inl hs) hno]
          exact iff_of_false (by simp) fun h => hno h.cr_mem
      | some p =>
          rcases p with ⟨line, rest⟩
          rcases cutAt_eq_some_iff.1 hcut with ⟨rfl, hline⟩
          rw [parse_requestLine hs hline, endsInsideCRLF_iff hs hline]
          cases hp : c.request_.processRequestLine line with
          | mk ok request =>
              cases ok with
              | false =>
                  -- a refused line is not consumed, so nothing is retrieved
                  refine iff_of_false (by simp) ?_
                  rintro ⟨⟨hmethod, l, rfl⟩, -⟩
                  simp [HttpRequest.processRequestLine_text l hmethod] at hp
              | true =>
                  rcases HttpRequest.exists_of_processRequestLine hp with ⟨hmethod, l, htext, -⟩
                  have haccepted : c.request_.method_ = .kInvalid ∧ ∃ l : RequestLine, l.text = line :=
                    ⟨hmethod, l, htext⟩
                  -- an accepted line is retrieved together with the byte behind it
                  cases rest with
                  | nil =>
                      simp [afterLine, haccepted]
                  | cons b tail =>
                      simp [afterLine, haccepted, parse_headers_fatal_iff]
  | kExpectHeaders =>
      simpa only [EndsInsideCRLF, hs] using parse_headers_fatal_iff hs
  | kExpectBody =>
      simp [EndsInsideCRLF, hs, parse_body hs]
  | kGotAll =>
      simp [EndsInsideCRLF, hs, HttpContext.parse]

/-- Short of `kGotAll`, the parser ends, and never between headers and body. -/
theorem parse_settles (input : Bytes) (hs : c.state_ ≠ .kGotAll) :
    c.parse input ≠ .spinning ∧
      ∀ ok c' rest, c.parse input = .returned ok c' rest → c'.state_ ≠ .kExpectBody := by
  fun_induction HttpContext.parse c input with
  | case1 c input h _ =>
      simp [h]
  | case2 c input h _ _ _ _ _ =>
      simp [h]
  | case3 c input h _ _ _ _ _ =>
      simp
  | case4 c input h _ _ _ _ _ _ _ ih =>
      exact ih (by simp)
  | case5 c input h _ =>
      simp [h]
  | case6 c input h _ _ =>
      simp
  | case7 c input h line b rest _ ih =>
      refine ih ?_
      by_cases hcolon : 58 ∈ line
      · simp [takeHeader_state_of_colon hcolon, h]
      · simp [takeHeader_of_no_colon hcolon]
  | case8 c input h =>
      simp
  | case9 c input h =>
      exact absurd h hs

end parse

/-! ## Runs -/

namespace Reader

/-- Between deliveries the parser expects a request line or a header, and no loop has been entered
for good. -/
structure Settled (s : Reader) : Prop where
  status : s.status ≠ .spinning
  state : s.context.state_ = .kExpectRequestLine ∨ s.context.state_ = .kExpectHeaders

theorem settled_new : Settled new := ⟨by simp [new], .inl rfl⟩

theorem settled_read {s : Reader} (h : s.Settled) : s.read.Settled := by
  have hgoing : s.context.state_ ≠ .kGotAll := by
    rcases h.state with hs | hs <;> simp [hs]
  rcases parse_settles s.pending hgoing with ⟨hends, hbody⟩
  -- after a complete request the context is reset, otherwise the parser waits for a line
  unfold read
  split
  · exact ⟨by simp, h.state⟩
  · next hspin => exact absurd hspin hends
  · next ok context rest hparse =>
    have hnobody := hbody ok context rest hparse
    split
    · exact ⟨h.status, .inl rfl⟩
    · next hall =>
      refine ⟨h.status, ?_⟩
      cases hc : context.state_ <;> simp_all [getAll]

theorem settled_deliver {s : Reader} (h : s.Settled) (data : Bytes) : (s.deliver data).Settled := by
  unfold deliver
  split
  · exact settled_read ⟨h.status, h.state⟩
  · exact h

theorem aborted_deliver_iff {s : Reader} (hs : s.status = .running) (data : Bytes) :
    (s.deliver data).status = .aborted ↔ EndsInsideCRLF s.context (s.pending ++ data) := by
  rw [← parse_fatal_iff]
  simp only [deliver, hs, read]
  split
  · next hfatal => simp [hfatal]
  · next hspin => simp [hspin]
  · next hparse => split <;> simp [hparse]

end Reader

namespace Session

variable (httpCallback_ : HttpRequest → HttpResponse → HttpResponse)

/-- The delivery does not leave the input buffer with a line cut between its CR and its LF. -/
def KeepsLinesWhole (s : Session) (chunk : Chunk) : Prop :=
  ¬ EndsInsideCRLF s.context (s.inputBuffer_.readable ++ chunk.data)

/-- No delivery of a run reaches the `LOG_FATAL` branch if and only if no delivery ends between the
CR and the LF of a line the parser would accept. -/
theorem never_aborts_iff (chunks : List Chunk) :
    Runs.Throughout (deliver httpCallback_) (fun s => s.status ≠ .aborted) new chunks ↔
      Runs.Guarded (deliver httpCallback_) KeepsLinesWhole new chunks := by
  refine (Runs.guarded_iff_throughout (I := fun s => s.reader.Settled) ?_ ?_ ?_ ?_).symm
  · intro s chunk h
    rw [reader_deliver]
    exact Reader.settled_deliver h chunk.data
  · intro s chunk h halive
    have hrunning : s.status = .running := by
      cases hst : s.status with
      | running =>
          rfl
      | aborted =>
          exact absurd hst halive
      | spinning =>
          exact absurd hst h.status
    have habort := Reader.aborted_deliver_iff (s := s.reader) hrunning chunk.data
    rw [← reader_deliver httpCallback_] at habort
    exact not_congr habort
  · rw [reader_new]
    exact Reader.settled_new
  · simp [new]

/-- A request line whose LF is still under way aborts the server. -/
theorem aborts_on_cut_line :
    (new.deliver (fun _ response => response) ⟨bytes "GET / HTTP/1.1\r", 0⟩).status = .aborted := by
  decide +kernel

end Session

end Http
end Myoj
