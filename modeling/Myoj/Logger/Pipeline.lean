import Myoj.Logger.AsyncLogging
import Myoj.Logger.LogFile

/-!
# Pipeline — from the callers of the log to the files

The backend writes the buffers it has taken to a `LogFile`, one block a buffer.  A buffer holds whole
lines and a file holds whole blocks, so no line is torn between two files.

* `Journal` — the log as its lines: those in the files, block by block, and those on their way;
* `Pipeline`, `Pipeline.step` — the log together with the `LogFile` of `threadFunc`;
* `Shows` — a pipeline and the journal it stands for;
* `Shows.step` — every step keeps a journal, with the line that was appended at its end;
* `files_whole` — what the files hold in every state of every interleaving.
-/

namespace Myoj
namespace Logger

/-! ## Lines -/

/-- The bytes of lines. -/
def lineText (ls : List Line) : Bytes := ls.flatMap Line.text

@[simp] theorem lineText_nil : lineText [] = [] := rfl

@[simp] theorem lineText_append (ls ls' : List Line) : lineText (ls ++ ls') = lineText ls ++ lineText ls' :=
  List.flatMap_append

@[simp] theorem lineText_singleton (line : Line) : lineText [line] = line.text := by
  simp [lineText]

theorem lineText_flatten (blocks : List (List Line)) :
    lineText blocks.flatten = (blocks.map lineText).flatten := by
  induction blocks with
  | nil =>
      rfl
  | cons block blocks ih =>
      rw [List.flatten_cons, lineText_append, ih, List.map_cons, List.flatten_cons]

/-- The log as its lines. -/
structure Journal where
  /-- In the files, block by block. -/
  filed : List (List Line)
  /-- In the buffers the backend has taken and not yet written. -/
  taken : List (List Line)
  /-- In the buffers that are full. -/
  full : List (List Line)
  current : List Line

namespace Journal

def lines (j : Journal) : List Line := j.filed.flatten ++ j.taken.flatten ++ j.full.flatten ++ j.current

end Journal

/-- What an event appends. -/
def AsyncLogging.Event.lines : AsyncLogging.Event → List Line
  | .append line => [line]
  | _ => []

/-! ## The log and its files -/

structure Pipeline where
  log : AsyncLogging
  /-- The local `output` of `threadFunc`, once it has been constructed. -/
  output : Option LogFile

namespace Pipeline

open AsyncLogging

def start : Pipeline := ⟨.start, none⟩

/-- `LogFile output(basename_, rollSize_, false)`: the third argument is the interval. -/
def outputConfig (rollSize_ : Int) : LogFile.Config where
  rollSize_ := rollSize_
  flushInterval_ := 0
  checkEveryN_ := 1024

section step

variable (rollSize_ : Int) (clock : Clock)

/-- What a step of `threadFunc` does to its `output`. -/
def emit (p : Pipeline) : Option LogFile :=
  match p.log.pc with
  | .entering => some (.new clock)
  | .writing i =>
      match p.log.buffersToWrite[i]? with
      | some (some buffer) => p.output.map fun file => file.appendInLock (outputConfig rollSize_) clock buffer.data
      | _ => p.output
  | _ => p.output

def step (p : Pipeline) (e : Event) : Pipeline where
  log := p.log.step e
  output :=
    match e with
    | .threadFunc => p.emit rollSize_ clock
    | _ => p.output

end step

/-- The files that were opened, the first one first. -/
def objects (p : Pipeline) : List LogObject := (p.output.map LogFile.objects).getD []

/-- The buffers that the backend has yet to write. -/
def remaining (log : AsyncLogging) : List BufferPtr :=
  match log.pc with
  | .writing i => log.buffersToWrite.drop i
  | _ => []

/-- `threadFunc` has not constructed its locals. -/
def Early (log : AsyncLogging) : Prop := log.pc = .notStarted ∨ log.pc = .entering

/-- `output` is there from the first test of the loop on, and holds the blocks that were filed. -/
def Output (rollSize_ : Int) (clock : Clock) (p : Pipeline) (blocks : List Bytes) : Prop :=
  match p.output with
  | none => Early p.log ∧ blocks = []
  | some file =>
      ¬ Early p.log ∧ LogFile.Inv (outputConfig rollSize_) clock file blocks ∧
        (0 < clock.reading 0 → file.Alive)

/-- The pipeline holds the lines of the journal, each where the journal says. -/
structure Shows (rollSize_ : Int) (clock : Clock) (p : Pipeline) (j : Journal) : Prop where
  inv : p.log.Inv
  output : Output rollSize_ clock p (j.filed.map lineText)
  taken : (remaining p.log).map BufferPtr.text = j.taken.map lineText
  full : p.log.buffers_.map BufferPtr.text = j.full.map lineText
  current : p.log.currentBuffer_.text = lineText j.current

variable {rollSize_ : Int} {clock : Clock} {p : Pipeline} {j : Journal}

theorem shows_start : Shows rollSize_ clock start ⟨[], [], [], []⟩ where
  inv := inv_start
  output := ⟨.inl rfl, rfl⟩
  taken := rfl
  full := rfl
  current := rfl

/-! ## The producers -/

/-- A line goes into the current buffer, or that one is full and the line begins the next. -/
theorem Shows.append (h : Shows rollSize_ clock p j) (line : Line) :
    ∃ j', Shows rollSize_ clock (p.step rollSize_ clock (.append line)) j' ∧
      j'.lines = j.lines ++ [line] := by
  obtain ⟨currentBuffer, hcurrent⟩ := Option.isSome_iff_exists.1 h.inv.current
  have htext : currentBuffer.data = lineText j.current := by
    have hshown := h.current
    rwa [hcurrent] at hshown
  obtain ⟨log', happend, -⟩ := append_spec h.inv line
  have hstep : p.log.step (.append line) = log' := by
    simp only [AsyncLogging.step, AsyncLogging.perform, happend, Option.getD_some]
  simp only [AsyncLogging.append, hcurrent] at happend
  by_cases hfits : line.text.length < currentBuffer.avail
  · rw [if_pos hfits] at happend
    refine ⟨{ j with current := j.current ++ [line] }, ?_, ?_⟩
    · cases happend
      refine ⟨(inv_step h.inv _).1, ?_, ?_, ?_, ?_⟩ <;> simp only [Pipeline.step, hstep]
      · exact h.output
      · exact h.taken
      · exact h.full
      · simp [BufferPtr.text, FixedBuffer.data_append hfits, htext]
    · simp [Journal.lines]
  · rw [if_neg hfits] at happend
    have hfresh : (p.log.nextBuffer_.getD .new).data = [] := by
      have hempty := h.inv.next_empty
      cases hnext : p.log.nextBuffer_ with
      | none =>
          rfl
      | some b =>
          rw [hnext] at hempty
          exact hempty
    have hshort : line.text.length < (p.log.nextBuffer_.getD .new).avail := by
      rw [FixedBuffer.avail, hfresh]
      exact line.short
    refine ⟨{ j with full := j.full ++ [j.current], current := [line] }, ?_, ?_⟩
    · cases happend
      refine ⟨(inv_step h.inv _).1, ?_, ?_, ?_, ?_⟩ <;> simp only [Pipeline.step, hstep]
      · exact h.output
      · exact h.taken
      · simp [h.full, BufferPtr.text, htext]
      · simp [BufferPtr.text, FixedBuffer.data_append hshort, hfresh]
    · simp [Journal.lines]

/-! ## The backend -/

/-- Once the locals are there, so is the file. -/
theorem Shows.file (h : Shows rollSize_ clock p j) (hlate : ¬ Early p.log) :
    ∃ file, p.output = some file ∧
      LogFile.Inv (outputConfig rollSize_) clock file (j.filed.map lineText) ∧
        (0 < clock.reading 0 → file.Alive) := by
  have houtput := h.output
  unfold Output at houtput
  cases hfile : p.output with
  | none =>
      rw [hfile] at houtput
      exact absurd houtput.1 hlate
  | some file =>
      rw [hfile] at houtput
      exact ⟨file, rfl, houtput.2⟩

/-- A step that moves no buffer and leaves the file alone. -/
theorem Shows.idle (h : Shows rollSize_ clock p j) {log' : AsyncLogging} (hinv : log'.Inv)
    (hearly : Early log' ↔ Early p.log) (hremaining : remaining log' = remaining p.log)
    (hfull : log'.buffers_ = p.log.buffers_) (hcurrent : log'.currentBuffer_ = p.log.currentBuffer_) :
    Shows rollSize_ clock ⟨log', p.output⟩ j where
  inv := hinv
  output := by
    have houtput := h.output
    unfold Output at houtput ⊢
    cases hfile : p.output with
    | none =>
        rw [hfile] at houtput
        exact ⟨hearly.2 houtput.1, houtput.2⟩
    | some file =>
        rw [hfile] at houtput
        exact ⟨mt hearly.1 houtput.1, houtput.2⟩
  taken := hremaining ▸ h.taken
  full := hfull ▸ h.full
  current := hcurrent ▸ h.current

/-- All that the producers have filled is taken. -/
theorem Shows.swapBuffers (h : Shows rollSize_ clock p j)
    (hpc : p.log.pc = .locking ∨ p.log.pc = .waiting) :
    ∃ j', Shows rollSize_ clock ⟨p.log.swapBuffers, p.output⟩ j' ∧ j'.lines = j.lines := by
  have hnone : p.log.buffersToWrite = [] := (h.inv.stocked.locals hpc).1
  have hlate : ¬ Early p.log := by
    rcases hpc with hpc | hpc <;> simp [Early, hpc]
  -- nothing is left of what was taken before
  have htaken : j.taken = [] := by
    have hshown := h.taken
    rcases hpc with hpc | hpc <;> simpa [remaining, hpc] using hshown.symm
  obtain ⟨file, hfile, hfiled⟩ := h.file hlate
  refine ⟨{ j with taken := j.full ++ [j.current], full := [], current := [] }, ?_, ?_⟩
  · refine ⟨(swapBuffers_spec h.inv hpc).1, ?_, ?_, ?_, ?_⟩
    · simp only [Output, hfile]
      exact ⟨by simp [Early], hfiled⟩
    · simp [remaining, h.full, h.current]
    · simp [hnone]
    · simp [h.inv.spares_empty.1]
  · simp [Journal.lines, htaken]

/-- The next buffer becomes a block of the file. -/
theorem Shows.write (h : Shows rollSize_ clock p j) {i : Nat} (hpc : p.log.pc = .writing i) :
    ∃ j', Shows rollSize_ clock (p.step rollSize_ clock .threadFunc) j' ∧ j'.lines = j.lines := by
  have hinv := (inv_step h.inv .threadFunc).1
  have hshown := h.taken
  simp only [remaining, hpc] at hshown
  obtain ⟨file, hfile, hfiled, halive⟩ := h.file (by simp [Early, hpc])
  cases hbuffer : p.log.buffersToWrite[i]? with
  | none =>
      have hdone : p.log.buffersToWrite.drop i = [] :=
        List.drop_eq_nil_of_le (List.getElem?_eq_none_iff.1 hbuffer)
      have hlog : p.log.step .threadFunc = { p.log with pc := .recycling } := by
        simp [AsyncLogging.step, perform, AsyncLogging.threadFunc, hpc, AsyncLogging.write, hbuffer]
      have hstep : p.step rollSize_ clock .threadFunc = ⟨{ p.log with pc := .recycling }, p.output⟩ := by
        simp [Pipeline.step, emit, hlog, hpc, hbuffer]
      rw [hlog] at hinv
      rw [hstep]
      refine ⟨j, h.idle hinv ?_ ?_ rfl rfl, rfl⟩
      · simp [Early, hpc]
      · simp [remaining, hpc, hdone]
  | some q =>
      obtain ⟨hi, hq⟩ := List.getElem?_eq_some_iff.1 hbuffer
      have hlocals := h.inv.stocked.taken (.inl ⟨i, hpc⟩)
      obtain ⟨buffer, rfl⟩ := Option.isSome_iff_exists.1 (hlocals.1 q (hq ▸ List.getElem_mem hi))
      rw [List.drop_eq_getElem_cons hi, hq, List.map_cons] at hshown
      obtain ⟨block, rest, htaken, hblock, hrest⟩ := List.map_eq_cons_iff.1 hshown.symm
      have hlog : p.log.step .threadFunc =
          { p.log with output := p.log.output ++ buffer.data, pc := .writing (i + 1) } := by
        simp [AsyncLogging.step, perform, AsyncLogging.threadFunc, hpc, AsyncLogging.write, hbuffer]
      have hdata : buffer.data = lineText block := hblock.symm
      refine ⟨{ j with filed := j.filed ++ [block], taken := rest }, ⟨hinv, ?_, ?_, ?_, ?_⟩, ?_⟩ <;>
        try simp only [Pipeline.step, hlog]
      · simp only [Output, emit, hpc, hbuffer, hfile, Option.map_some, List.map_append, List.map_cons,
          List.map_nil, hdata]
        refine ⟨by simp [Early], hfiled.appendInLock _, fun hclock => (halive hclock).appendInLock _⟩
      · exact hrest.symm
      · exact h.full
      · exact h.current
      · simp [Journal.lines, htaken]

theorem Shows.threadFunc (h : Shows rollSize_ clock p j) :
    ∃ j', Shows rollSize_ clock (p.step rollSize_ clock .threadFunc) j' ∧ j'.lines = j.lines := by
  have hinv := (inv_step h.inv .threadFunc).1
  have hthread : p.log.step .threadFunc = p.log.threadFunc.getD p.log := rfl
  cases hpc : p.log.pc with
  | notStarted | left =>
      have hstep : p.step rollSize_ clock .threadFunc = p := by
        simp [Pipeline.step, emit, hthread, AsyncLogging.threadFunc, hpc]
      exact ⟨j, hstep.symm ▸ h, rfl⟩
  | entering =>
      -- the file is opened before the first line is looked at
      have hfiled : j.filed.map lineText = [] := by
        have houtput := h.output
        unfold Output at houtput
        cases hfile : p.output with
        | none =>
            rw [hfile] at houtput
            exact houtput.2
        | some file =>
            rw [hfile] at houtput
            exact absurd (.inr hpc) houtput.1
      refine ⟨j, ⟨hinv, ?_, ?_, ?_, ?_⟩, rfl⟩
      · simp only [Output, Pipeline.step, emit, hpc, hfiled]
        refine ⟨?_, LogFile.inv_new _ _, LogFile.alive_new⟩
        simp [Early, hthread, AsyncLogging.threadFunc, hpc]
      · have hshown := h.taken
        simpa [remaining, Pipeline.step, hthread, AsyncLogging.threadFunc, hpc] using hshown
      · simpa [Pipeline.step, hthread, AsyncLogging.threadFunc, hpc] using h.full
      · simpa [Pipeline.step, hthread, AsyncLogging.threadFunc, hpc] using h.current
  | testing =>
      have hstep : p.step rollSize_ clock .threadFunc = ⟨p.log.step .threadFunc, p.output⟩ := by
        simp [Pipeline.step, emit, hpc]
      rw [hstep]
      refine ⟨j, h.idle hinv ?_ ?_ ?_ ?_, rfl⟩ <;>
        cases hrunning : p.log.running_ <;>
        simp [Early, remaining, hthread, AsyncLogging.threadFunc, hpc, hrunning]
  | locking =>
      have hstep : p.step rollSize_ clock .threadFunc = ⟨p.log.step .threadFunc, p.output⟩ := by
        simp [Pipeline.step, emit, hpc]
      rw [hstep]
      cases hempty : p.log.buffers_.isEmpty with
      | true =>
          refine ⟨j, h.idle hinv ?_ ?_ ?_ ?_, rfl⟩ <;>
            simp [Early, remaining, hthread, AsyncLogging.threadFunc, hpc, hempty]
      | false =>
          have hswap : p.log.step .threadFunc = p.log.swapBuffers := by
            simp [hthread, AsyncLogging.threadFunc, hpc, hempty]
          rw [hswap]
          exact h.swapBuffers (.inl hpc)
  | waiting =>
      have hstep : p.step rollSize_ clock .threadFunc = ⟨p.log.swapBuffers, p.output⟩ := by
        simp [Pipeline.step, emit, hthread, AsyncLogging.threadFunc, hpc]
      rw [hstep]
      exact h.swapBuffers (.inr hpc)
  | writing i =>
      exact h.write hpc
  | recycling =>
      obtain ⟨newBuffer1, v, newBuffer2, w, h1, h2, -⟩ := h.inv.stocked.refills hpc
      have hstep : p.step rollSize_ clock .threadFunc = ⟨p.log.step .threadFunc, p.output⟩ := by
        simp [Pipeline.step, emit, hpc]
      rw [hstep]
      refine ⟨j, h.idle hinv ?_ ?_ ?_ ?_, rfl⟩ <;>
        simp [Early, remaining, hthread, AsyncLogging.threadFunc, hpc, recycle_eq h1 h2]

/-! ## Every interleaving -/

/-- A step keeps every line, and puts the one that is appended behind all others. -/
theorem Shows.step (h : Shows rollSize_ clock p j) (e : Event) :
    ∃ j', Shows rollSize_ clock (p.step rollSize_ clock e) j' ∧ j'.lines = j.lines ++ e.lines := by
  cases e with
  | append line =>
      exact h.append line
  | threadFunc =>
      obtain ⟨j', hshows, hlines⟩ := h.threadFunc
      exact ⟨j', hshows, by rw [hlines]; exact (List.append_nil _).symm⟩
  | start =>
      have hidle : Shows rollSize_ clock (p.step rollSize_ clock .start) j := by
        refine h.idle (inv_step h.inv .start).1 ?_ ?_ ?_ ?_ <;>
          by_cases hpc : p.log.pc = .notStarted <;>
          simp [AsyncLogging.step, perform, Early, remaining, hpc]
      exact ⟨j, hidle, (List.append_nil _).symm⟩
  | stop =>
      have hidle : Shows rollSize_ clock (p.step rollSize_ clock .stop) j := by
        refine h.idle (inv_step h.inv .stop).1 ?_ ?_ ?_ ?_ <;>
          cases hrunning : p.log.running_ <;>
          simp [AsyncLogging.step, perform, Early, remaining, hrunning]
      exact ⟨j, hidle, (List.append_nil _).symm⟩

theorem Shows.run (h : Shows rollSize_ clock p j) (es : List Event) :
    ∃ j', Shows rollSize_ clock (es.foldl (Pipeline.step rollSize_ clock) p) j' ∧
      j'.lines = j.lines ++ es.flatMap Event.lines := by
  induction es generalizing p j with
  | nil =>
      exact ⟨j, h, (List.append_nil _).symm⟩
  | cons e es ih =>
      obtain ⟨j₁, hshows₁, hlines₁⟩ := h.step e
      obtain ⟨j₂, hshows₂, hlines₂⟩ := ih hshows₁
      refine ⟨j₂, hshows₂, ?_⟩
      rw [hlines₂, hlines₁, List.flatMap_cons, List.append_assoc]

/-- What is cut into pieces after `g` was applied can be cut before. -/
theorem exists_pieces {α β : Type} {g : α → β} {pieces : List (List β)} {xs : List α}
    (h : pieces.flatten = xs.map g) :
    ∃ parts : List (List α), parts.flatten = xs ∧ parts.map (List.map g) = pieces := by
  induction pieces generalizing xs with
  | nil =>
      exact ⟨[], (List.map_eq_nil_iff.1 h.symm).symm, rfl⟩
  | cons piece pieces ih =>
      rw [List.flatten_cons] at h
      obtain ⟨first, rest, rfl, hfirst, hrest⟩ := List.append_eq_map_iff.1 h
      obtain ⟨parts, hparts, hpieces⟩ := ih hrest.symm
      exact ⟨first :: parts, by rw [List.flatten_cons, hparts], by rw [List.map_cons, hfirst, hpieces]⟩

/-- The files hold whole lines, in order, and the rest of the lines is on the way. -/
structure Whole (rollSize_ : Int) (p : Pipeline) (lines : List Line) : Prop where
  split : ∃ (files : List (List Line)) (waiting : List Line), files.flatten ++ waiting = lines ∧
    p.objects.map (·.file.contents) = files.map lineText ∧
    p.log.unwritten ++ p.log.pending = lineText waiting
  bounded : ∀ object ∈ p.objects, LogFile.Bounded (outputConfig rollSize_) object

theorem Shows.unwritten (h : Shows rollSize_ clock p j) :
    p.log.unwritten = lineText j.taken.flatten := by
  have htexts : p.log.unwritten = ((remaining p.log).map BufferPtr.text).flatten := by
    unfold AsyncLogging.unwritten remaining
    cases p.log.pc <;> simp [texts, List.flatMap_def]
  rw [htexts, h.taken, lineText_flatten]

theorem Shows.pending (h : Shows rollSize_ clock p j) :
    p.log.pending = lineText (j.full.flatten ++ j.current) := by
  have htexts : texts p.log.buffers_ = (p.log.buffers_.map BufferPtr.text).flatten := by
    simp [texts, List.flatMap_def]
  rw [AsyncLogging.pending, htexts, h.full, h.current, lineText_append, lineText_flatten]

theorem Shows.whole (h : Shows rollSize_ clock p j) (hclock : 0 < clock.reading 0) :
    Whole rollSize_ p j.lines := by
  have hwaiting : p.log.unwritten ++ p.log.pending =
      lineText (j.taken.flatten ++ (j.full.flatten ++ j.current)) := by
    simp only [h.unwritten, h.pending, lineText_append]
  have houtput := h.output
  unfold Output at houtput
  cases hfile : p.output with
  | none =>
      rw [hfile] at houtput
      have hobjects : p.objects = [] := by simp [objects, hfile]
      have hnone : j.filed = [] := List.map_eq_nil_iff.1 houtput.2
      refine ⟨⟨[], _, ?_, by rw [hobjects]; rfl, hwaiting⟩, by simp [hobjects]⟩
      simp [Journal.lines, hnone]
  | some file =>
      rw [hfile] at houtput
      obtain ⟨-, hinv, halive⟩ := houtput
      have hobjects : p.objects = file.objects := by simp [objects, hfile]
      -- the blocks of the files are those of the journal, so the files can be cut out of its lines
      have horder := hinv.in_order (halive hclock).2
      rw [List.flatMap_def] at horder
      obtain ⟨parts, hparts, hblocks⟩ := exists_pieces horder
      refine ⟨⟨parts.map List.flatten, _, ?_, ?_, hwaiting⟩, ?_⟩
      · have hflat : (parts.map List.flatten).flatten = j.filed.flatten := by
          rw [← hparts, List.flatten_flatten]
        rw [hflat]
        simp [Journal.lines, List.append_assoc]
      · have hcontents : file.objects.map (·.file.contents) =
            (file.objects.map LogObject.blocks).map List.flatten := by
          rw [List.map_map]
          exact List.map_congr_left fun object hobject => (hinv.counted object hobject).1
        rw [hobjects, hcontents, ← hblocks]
        simp [lineText_flatten, Function.comp_def]
      · rw [hobjects]
        exact hinv.bounded

/-- **Whole lines.**  In every state of every interleaving of producers, backend, `start` and `stop`, and
with any clock that starts above zero: the files hold the lines in the order in which they were appended, each file
whole lines only, the lines that are missing are the latest ones and wait in the buffers, and every file
respects the roll size as far as the clock lets it. -/
theorem files_whole (rollSize_ : Int) {clock : Clock} (hclock : 0 < clock.reading 0) (es : List Event) :
    Whole rollSize_ (es.foldl (Pipeline.step rollSize_ clock) start) (es.flatMap Event.lines) := by
  have hstart : Shows rollSize_ clock start ⟨[], [], [], []⟩ := shows_start
  obtain ⟨j, hshows, hlines⟩ := hstart.run es
  have hall : j.lines = es.flatMap Event.lines := hlines
  rw [← hall]
  exact hshows.whole hclock

/-- A line is appended before the backend starts and another one while it writes. -/
theorem files_whole_two :
    let started : Line := ⟨bytes "started\n", by decide⟩
    let served : Line := ⟨bytes "served\n", by decide⟩
    let es : List Event := [.append started, .start, .threadFunc, .threadFunc, .threadFunc, .threadFunc,
      .threadFunc, .append served]
    Whole 0 (es.foldl (Pipeline.step 0 ⟨fun _ => 1, fun _ => Int.le_refl 1⟩) start) [started, served] := by
  intro started served es
  exact files_whole 0 (by decide) es

end Pipeline
end Logger
end Myoj
