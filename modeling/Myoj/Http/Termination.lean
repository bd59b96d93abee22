import Myoj.Http.LineCut

/-!
# Termination — the loop of `parseRequest` ends

The loop of `parseRequest` has no branch for `kGotAll`: in that state it goes round for ever.  In every
other state a pass that goes round again consumes a line and does not lead to `kGotAll`, so that there
is at most one pass more than there are readable bytes.

* `turn_proceeds` — what one pass through the loop comes to;
* `Ends` — the loop comes to an end, and more passes than it needs change nothing;
* `parseLoop_ends` — it does, by induction on the readable bytes;
* `Waiting` — what `onMessage` finds at every delivery of a connection.
-/

namespace Myoj
namespace Http

open Net

namespace HttpContext

section loop

variable {c : HttpContext} {buf : Buffer} {t : Timestamp}

/-! ## One pass -/

/-- What a pass comes to, short of `kGotAll`: to go round again takes bytes, and the loop is not left
between headers and body. -/
def Turn.Proceeds (buf : Buffer) : Turn → Prop
  | .again c buf' => c.state_ ≠ .kGotAll ∧ buf'.readableBytes < buf.readableBytes
  | .leave _ c _ => c.state_ ≠ .kExpectBody
  | .fatal => True

/-- A line that is found is consumed, or it is cut behind its CR and `abort()` is called. -/
theorem advance_proceeds (c : HttpContext) (hs : c.state_ ≠ .kGotAll) {crlf : Nat}
    (hfound : buf.findCRLF = some crlf) : (c.advance buf crlf).Proceeds buf := by
  have hsome : buf.readable ≠ [] := by
    intro hnone
    simp [Buffer.findCRLF, (Buffer.empty_iff buf).2 hnone] at hfound
  have hpos : 0 < buf.readable.length := List.length_pos_iff.2 hsome
  unfold advance
  cases hretrieve : buf.retrieveUntil (crlf + 2) with
  | none =>
      trivial
  | some buf' =>
      refine ⟨hs, ?_⟩
      rw [← Buffer.length_readable, ← Buffer.length_readable,
        Buffer.readable_retrieveUntil hretrieve, List.length_drop]
      omega

/-- A header line leaves the parser among the headers or at the body. -/
theorem takeHeader_not_gotAll (line : Bytes) (hs : c.state_ ≠ .kGotAll) :
    (c.takeHeader line).state_ ≠ .kGotAll := by
  unfold takeHeader
  split
  · simp
  · exact hs

theorem turn_proceeds (buf : Buffer) (t : Timestamp) (hs : c.state_ ≠ .kGotAll) :
    (c.turn buf t).Proceeds buf := by
  cases hstate : c.state_ with
  | kExpectRequestLine =>
      simp only [turn, hstate]
      cases hfound : buf.findCRLF with
      | none =>
          simp [Turn.Proceeds, hstate]
      | some crlf =>
          dsimp only
          split
          · simp [Turn.Proceeds]
          · exact advance_proceeds _ (by simp) hfound
  | kExpectHeaders =>
      simp only [turn, hstate]
      cases hfound : buf.findCRLF with
      | none =>
          simp [Turn.Proceeds, hstate]
      | some crlf =>
          exact advance_proceeds _ (takeHeader_not_gotAll _ hs) hfound
  | kExpectBody =>
      simp [turn, hstate, Turn.Proceeds]
  | kGotAll =>
      exact absurd hstate hs

/-! ## The loop -/

/-- With `passes` passes, or any number beyond, the loop comes to `parsed`, which is an end. -/
structure Ends (t : Timestamp) (c : HttpContext) (buf : Buffer) (passes : Nat)
    (parsed : Parsed Buffer) : Prop where
  ended : parsed ≠ .spinning
  result : ∀ n, passes ≤ n → parseLoop t n c buf = parsed

theorem Ends.weaken {passes passes' : Nat} {parsed : Parsed Buffer} (h : Ends t c buf passes parsed)
    (hle : passes ≤ passes') : Ends t c buf passes' parsed :=
  ⟨h.ended, fun n hn => h.result n (hle.trans hn)⟩

/-- The pass that is left or aborts decides. -/
theorem ends_of_turn {parsed : Parsed Buffer} (hended : parsed ≠ .spinning)
    (hturn : ∀ n, parseLoop t (n + 1) c buf = parsed) : Ends t c buf 1 parsed where
  ended := hended
  result := by
    intro n hn
    obtain ⟨more, rfl⟩ := Nat.exists_eq_add_of_le' hn
    exact hturn more

theorem Ends.of_again {c' : HttpContext} {buf' : Buffer} {passes : Nat} {parsed : Parsed Buffer}
    (h : Ends t c' buf' passes parsed) (hturn : c.turn buf t = .again c' buf') :
    Ends t c buf (passes + 1) parsed where
  ended := h.ended
  result := by
    intro n hn
    obtain ⟨more, rfl⟩ := Nat.exists_eq_add_of_le' hn
    rw [← Nat.add_assoc, parseLoop, hturn]
    exact h.result (more + passes) (Nat.le_add_left _ _)

/-- A run of the parser is not left between headers and body. -/
def Settles : Parsed Buffer → Prop
  | .returned _ c _ => c.state_ ≠ .kExpectBody
  | .fatal => True
  | .spinning => True

/-- Short of `kGotAll` one pass more than there are readable bytes is enough. -/
theorem parseLoop_ends (t : Timestamp) (c : HttpContext) (buf : Buffer) (hs : c.state_ ≠ .kGotAll) :
    ∃ parsed, Ends t c buf (buf.readableBytes + 1) parsed ∧ Settles parsed := by
  induction hn : buf.readableBytes using Nat.strong_induction_on generalizing c buf with
  | _ n ih =>
      subst hn
      have hproceeds := turn_proceeds buf t hs
      cases hturn : c.turn buf t with
      | again c' buf' =>
          -- the rest of the loop has fewer bytes to go through
          rw [hturn] at hproceeds
          obtain ⟨hs', hless⟩ := hproceeds
          obtain ⟨parsed, hends, hsettles⟩ := ih _ hless c' buf' hs' rfl
          exact ⟨parsed, (hends.of_again hturn).weaken (Nat.succ_le_succ hless), hsettles⟩
      | leave ok c' buf' =>
          rw [hturn] at hproceeds
          have hends : Ends t c buf 1 (.returned ok c' buf') :=
            ends_of_turn (by simp) fun n => by rw [parseLoop, hturn]
          exact ⟨_, hends.weaken (Nat.le_add_left _ _), hproceeds⟩
      | fatal =>
          have hends : Ends t c buf 1 .fatal :=
            ends_of_turn (by simp) fun n => by rw [parseLoop, hturn]
          exact ⟨_, hends.weaken (Nat.le_add_left _ _), trivial⟩

theorem parseRequest_ends (t : Timestamp) (c : HttpContext) (buf : Buffer)
    (hs : c.state_ ≠ .kGotAll) :
    Ends t c buf (buf.readableBytes + 1) (c.parseRequest buf t) ∧ Settles (c.parseRequest buf t) := by
  obtain ⟨parsed, hends, hsettles⟩ := parseLoop_ends t c buf hs
  have hparsed : c.parseRequest buf t = parsed := hends.result _ (le_refl _)
  rw [hparsed]
  exact ⟨hends, hsettles⟩

end loop

end HttpContext

/-! ## Deliveries -/

namespace Session

open HttpContext

/-- The parser waits for a line, and no call of `parseRequest` has hung. -/
structure Waiting (s : Session) : Prop where
  state : s.context.state_ = .kExpectRequestLine ∨ s.context.state_ = .kExpectHeaders
  status : s.status ≠ .spinning

theorem waiting_run (httpCallback_ : HttpRequest → HttpResponse → HttpResponse)
    (chunks : List Chunk) : (chunks.foldl (deliver httpCallback_) new).Waiting := by
  -- the reader of the session sees the parser's state and the status
  have hsettled : (chunks.foldl (deliver httpCallback_) new).reader.Settled := by
    refine Runs.invariant_run (I := fun s : Session => s.reader.Settled) ?_ ?_ chunks
    · intro s chunk h
      rw [reader_deliver]
      exact Reader.settled_deliver h chunk.data
    · rw [reader_new]
      exact Reader.settled_new
  exact ⟨hsettled.state, hsettled.status⟩

/-- **`parseRequest` terminates in every run of the server.**  Outside `kGotAll` the loop ends, and
returns in one of three states; in `kGotAll` it would not, and `onMessage` never enters it there. -/
theorem parseRequest_terminates (httpCallback_ : HttpRequest → HttpResponse → HttpResponse) :
    (∀ (t : Timestamp) (c : HttpContext) (buf : Buffer), c.state_ ≠ .kGotAll →
      Ends t c buf (buf.readableBytes + 1) (c.parseRequest buf t) ∧
        ∀ ok c' buf', c.parseRequest buf t = .returned ok c' buf' →
          c'.state_ = .kExpectRequestLine ∨ c'.state_ = .kExpectHeaders ∨ c'.state_ = .kGotAll) ∧
    (∀ (t : Timestamp) (c : HttpContext) (buf : Buffer), c.state_ = .kGotAll →
      ∀ passes, parseLoop t passes c buf = .spinning) ∧
    ∀ chunks : List Chunk, (chunks.foldl (deliver httpCallback_) new).Waiting := by
  refine ⟨?_, ?_, waiting_run httpCallback_⟩
  · intro t c buf hs
    obtain ⟨hends, hsettles⟩ := parseRequest_ends t c buf hs
    refine ⟨hends, ?_⟩
    intro ok c' buf' hparsed
    rw [hparsed] at hsettles
    have hbody : c'.state_ ≠ .kExpectBody := hsettles
    cases hstate : c'.state_ with
    | kExpectRequestLine =>
        exact .inl rfl
    | kExpectHeaders =>
        exact .inr (.inl rfl)
    | kExpectBody =>
        exact absurd hstate hbody
    | kGotAll =>
        exact .inr (.inr rfl)
  · intro t c buf hs passes
    exact parseLoop_gotAll t passes buf hs

end Session
end Http
end Myoj
