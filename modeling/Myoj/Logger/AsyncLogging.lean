import Myoj.Lib.Bytes
import Myoj.Lib.Runs

/-!
# AsyncLogging — the asynchronous log

Producers append their lines to `currentBuffer_` under the mutex; a full buffer goes to `buffers_`.  The
backend thread takes the buffers over, also under the mutex, gives fresh ones back, and writes and
recycles what it took outside it.

* `FixedBuffer` — a buffer that never holds more than its size;
* `Pc` — where the backend is in `threadFunc`;
* `append`, `swapBuffers`, `recycle` — what the threads do; `none` is undefined behaviour (a null pointer
  dereferenced, `back()` of an empty vector);
* `Event`, `step` — the interleavings;
* `Stocked` — the part of the invariant that is about pointers, whatever the lines are;
* `Inv` — the whole of it, with the bytes.

A `unique_ptr` that was moved from is `none`.  `output` collects what was passed to `LogFile::append`, and
`stopped` what had been appended when `stop()` was called.
-/

namespace Myoj
namespace Logger

def kLargeBuffer : Nat := 4000 * 1000

/-- `FixedBuffer<SIZE>`: the bytes from `data_` up to `cur_`. -/
structure FixedBuffer (SIZE : Nat) where
  data : Bytes
  fits : data.length ≤ SIZE

namespace FixedBuffer

variable {SIZE : Nat}

def new : FixedBuffer SIZE := ⟨[], Nat.zero_le _⟩

def avail (b : FixedBuffer SIZE) : Nat := SIZE - b.data.length

/-- A line is taken whole or not at all. -/
def append (b : FixedBuffer SIZE) (buf : Bytes) : FixedBuffer SIZE :=
  if h : buf.length < b.avail then
    { data := b.data ++ buf
      fits := by
        have hfits := b.fits
        simp only [avail] at h
        rw [List.length_append]
        omega }
  else b

/-- `cur_` goes back to the beginning. -/
def reset (_ : FixedBuffer SIZE) : FixedBuffer SIZE := new

@[simp] theorem data_new : (new : FixedBuffer SIZE).data = [] := rfl

@[simp] theorem data_reset (b : FixedBuffer SIZE) : b.reset.data = [] := rfl

theorem data_append {b : FixedBuffer SIZE} {buf : Bytes} (h : buf.length < b.avail) :
    (b.append buf).data = b.data ++ buf := by
  rw [append, dif_pos h]

end FixedBuffer

/-- `std::unique_ptr<Buffer>`. -/
abbrev BufferPtr := Option (FixedBuffer kLargeBuffer)

/-- The bytes behind a pointer. -/
def BufferPtr.text : BufferPtr → Bytes
  | some b => b.data
  | none => []

/-- The bytes behind the pointers of a vector. -/
def texts (v : List BufferPtr) : Bytes := v.flatMap BufferPtr.text

@[simp] theorem texts_nil : texts [] = [] := rfl

@[simp] theorem texts_append (v w : List BufferPtr) : texts (v ++ w) = texts v ++ texts w :=
  List.flatMap_append

@[simp] theorem texts_singleton (p : BufferPtr) : texts [p] = p.text := by
  simp [texts]

/-- A line that may be logged. -/
structure Line where
  text : Bytes
  short : text.length < kLargeBuffer

namespace AsyncLogging

/-- Where the backend thread is. -/
inductive Pc where
  | notStarted
  /-- It sets up its locals. -/
  | entering
  /-- `while(running_)` -/
  | testing
  /-- About to take the mutex. -/
  | locking
  /-- In `wait_for`, with the mutex released. -/
  | waiting
  /-- About to write the buffer with this index. -/
  | writing (i : Nat)
  | recycling
  /-- `threadFunc` has returned. -/
  | left
  deriving DecidableEq, Repr

end AsyncLogging

open AsyncLogging in
structure AsyncLogging where
  running_ : Bool
  currentBuffer_ : BufferPtr
  nextBuffer_ : BufferPtr
  buffers_ : List BufferPtr
  pc : Pc
  newBuffer1 : BufferPtr
  newBuffer2 : BufferPtr
  buffersToWrite : List BufferPtr
  output : Bytes
  appended : Bytes
  stopped : Option Bytes

namespace AsyncLogging

/-- The constructor. -/
def start : AsyncLogging where
  running_ := false
  currentBuffer_ := some .new
  nextBuffer_ := some .new
  buffers_ := []
  pc := .notStarted
  newBuffer1 := none
  newBuffer2 := none
  buffersToWrite := []
  output := []
  appended := []
  stopped := none

section operations

variable (log : AsyncLogging)

/-- `append(logLine, len)`, the whole of it under the mutex. -/
def append (line : Bytes) : Option AsyncLogging :=
  match log.currentBuffer_ with
  | none => none
  | some currentBuffer =>
      if line.length < currentBuffer.avail then
        some { log with
          currentBuffer_ := some (currentBuffer.append line)
          appended := log.appended ++ line }
      else
        let fresh := log.nextBuffer_.getD .new
        some { log with
          buffers_ := log.buffers_ ++ [some currentBuffer]
          nextBuffer_ := none
          currentBuffer_ := some (fresh.append line)
          appended := log.appended ++ line }

/-- The rest of the critical section of `threadFunc`, from the `push_back` on. -/
def swapBuffers : AsyncLogging :=
  let log := { log with
    buffers_ := log.buffers_ ++ [log.currentBuffer_]
    currentBuffer_ := log.newBuffer1
    newBuffer1 := none }
  let log := { log with buffers_ := log.buffersToWrite, buffersToWrite := log.buffers_ }
  let log :=
    if log.nextBuffer_.isNone then { log with nextBuffer_ := log.newBuffer2, newBuffer2 := none }
    else log
  { log with pc := .writing 0 }

/-- One round of the loop over `buffersToWrite`. -/
def write (i : Nat) : Option AsyncLogging :=
  match log.buffersToWrite[i]? with
  | none => some { log with pc := .recycling }
  | some none => none
  | some (some buffer) =>
      some { log with output := log.output ++ buffer.data, pc := .writing (i + 1) }

/-- Where `p` is null, take the last buffer of the vector and reset it. -/
def refill (p : BufferPtr) (v : List BufferPtr) : Option (BufferPtr × List BufferPtr) :=
  match p with
  | some _ => some (p, v)
  | none =>
      match v.getLast? with
      | some (some b) => some (some b.reset, v.dropLast)
      | some none => none
      | none => none

/-- What follows the writing: the spare buffers come back from the buffers that were written. -/
def recycle : Option AsyncLogging := do
  let buffersToWrite :=
    if 2 < log.buffersToWrite.length then log.buffersToWrite.take 2 else log.buffersToWrite
  let (newBuffer1, buffersToWrite) ← refill log.newBuffer1 buffersToWrite
  let (newBuffer2, _) ← refill log.newBuffer2 buffersToWrite
  return { log with newBuffer1, newBuffer2, buffersToWrite := [], pc := .testing }

/-- The next step of the backend. -/
def threadFunc : Option AsyncLogging :=
  match log.pc with
  | .notStarted => some log
  | .entering =>
      some { log with newBuffer1 := some .new, newBuffer2 := some .new, pc := .testing }
  | .testing => some { log with pc := if log.running_ then .locking else .left }
  | .locking => some (if log.buffers_.isEmpty then { log with pc := .waiting } else log.swapBuffers)
  -- notified, timed out or woken for no reason: `buffers_` is not looked at again
  | .waiting => some log.swapBuffers
  | .writing i => log.write i
  | .recycling => log.recycle
  | .left => some log

end operations

inductive Event where
  | append (line : Line)
  | start
  | threadFunc
  | stop

/-- `start()` and `stop()` are called once each, the second by the owner of a log that runs. -/
def perform (log : AsyncLogging) : Event → Option AsyncLogging
  | .append line => log.append line.text
  | .start =>
      some (if log.pc = .notStarted then { log with running_ := true, pc := .entering } else log)
  | .threadFunc => log.threadFunc
  | .stop =>
      some (if log.running_ then { log with running_ := false, stopped := some log.appended }
        else log)

def step (log : AsyncLogging) (e : Event) : AsyncLogging := (log.perform e).getD log

/-- What `buffersToWrite.resize(2)` leaves. -/
def resized (log : AsyncLogging) : List BufferPtr :=
  if 2 < log.buffersToWrite.length then log.buffersToWrite.take 2 else log.buffersToWrite

/-! ## Where the bytes are -/

section contents

variable (log : AsyncLogging)

/-- The part of `buffersToWrite` that is not written yet. -/
def unwritten : Bytes :=
  match log.pc with
  | .writing i => texts (log.buffersToWrite.drop i)
  | _ => []

/-- What the producers have filled since the last swap. -/
def pending : Bytes := texts log.buffers_ ++ log.currentBuffer_.text

/-- How many spare buffers the backend has to get back. -/
def missing : Nat :=
  (if log.newBuffer1.isNone then 1 else 0) + (if log.newBuffer2.isNone then 1 else 0)

/-- What holds of the locals of the backend, by its position. -/
def LocalsInv : Prop :=
  match log.pc with
  | .notStarted | .entering => log.buffersToWrite = []
  | .testing | .locking | .waiting => log.buffersToWrite = [] ∧ log.missing = 0
  | .writing _ | .recycling =>
      (∀ p ∈ log.buffersToWrite, p.isSome = true) ∧ log.missing ≤ log.buffersToWrite.length
  | .left => True

/-- The pointers that are needed next point somewhere. -/
structure Stocked : Prop where
  current : log.currentBuffer_.isSome = true
  filled : ∀ p ∈ log.buffers_, p.isSome = true
  /-- The spare of the producers is only used up together with a buffer. -/
  next_used : log.nextBuffer_ = none → log.buffers_ ≠ []
  locals_ok : log.LocalsInv

structure Inv : Prop where
  current : log.currentBuffer_.isSome = true
  filled : ∀ p ∈ log.buffers_, p.isSome = true
  next_empty : log.nextBuffer_.text = []
  spares_empty : log.newBuffer1.text = [] ∧ log.newBuffer2.text = []
  /-- The spare of the producers is only used up together with a buffer. -/
  next_used : log.nextBuffer_ = none → log.buffers_ ≠ []
  locals_ok : log.LocalsInv
  /-- Every byte is in one place, and the places are in order. -/
  conserved : log.output ++ log.unwritten ++ log.pending = log.appended

/-- What the backend has written, and is sure to write if it is not let into another round. -/
def deliverable : Bytes :=
  log.output ++ log.unwritten ++
    match log.pc with
    | .locking | .waiting => log.pending
    | _ => []

end contents

section stocked

variable {log : AsyncLogging}

theorem missing_eq_zero_iff :
    log.missing = 0 ↔ log.newBuffer1.isSome = true ∧ log.newBuffer2.isSome = true := by
  unfold missing
  cases log.newBuffer1 <;> cases log.newBuffer2 <;> simp

section swapBuffers

variable (log)

/-- What the swap does, with its branch on `nextBuffer_` in the two fields it decides. -/
theorem swapBuffers_eq : log.swapBuffers =
    { log with
      buffers_ := log.buffersToWrite
      currentBuffer_ := log.newBuffer1
      nextBuffer_ := if log.nextBuffer_.isNone then log.newBuffer2 else log.nextBuffer_
      newBuffer1 := none
      newBuffer2 := if log.nextBuffer_.isNone then none else log.newBuffer2
      buffersToWrite := log.buffers_ ++ [log.currentBuffer_]
      pc := .writing 0 } := by
  unfold swapBuffers
  dsimp only
  split <;> rfl

@[simp] theorem swapBuffers_pc : log.swapBuffers.pc = .writing 0 := rfl

@[simp] theorem swapBuffers_buffers_ : log.swapBuffers.buffers_ = log.buffersToWrite := by
  rw [swapBuffers_eq]

@[simp] theorem swapBuffers_currentBuffer_ : log.swapBuffers.currentBuffer_ = log.newBuffer1 := by
  rw [swapBuffers_eq]

@[simp] theorem swapBuffers_buffersToWrite :
    log.swapBuffers.buffersToWrite = log.buffers_ ++ [log.currentBuffer_] := by
  rw [swapBuffers_eq]

@[simp] theorem swapBuffers_output : log.swapBuffers.output = log.output := by
  rw [swapBuffers_eq]

@[simp] theorem swapBuffers_appended : log.swapBuffers.appended = log.appended := by
  rw [swapBuffers_eq]

@[simp] theorem swapBuffers_running_ : log.swapBuffers.running_ = log.running_ := by
  rw [swapBuffers_eq]

@[simp] theorem swapBuffers_stopped : log.swapBuffers.stopped = log.stopped := by
  rw [swapBuffers_eq]

end swapBuffers

theorem missing_le_two : log.missing ≤ 2 := by
  unfold missing
  split <;> split <;> omega

theorem isSome_of_mem_push {v : List BufferPtr} {p : BufferPtr} (hv : ∀ q ∈ v, q.isSome = true)
    (hp : p.isSome = true) : ∀ q ∈ v ++ [p], q.isSome = true := by
  intro q hq
  rcases List.mem_append.1 hq with hold | hnew
  · exact hv q hold
  · rwa [List.mem_singleton.1 hnew]

theorem stocked_start : start.Stocked where
  current := rfl
  filled := by simp [start]
  next_used := by simp [start]
  locals_ok := rfl

/-- A line of any length finds a current buffer, and leaves one. -/
theorem Stocked.append (h : log.Stocked) (line : Bytes) :
    ∃ log', log.append line = some log' ∧ log'.Stocked := by
  rcases Option.isSome_iff_exists.1 h.current with ⟨currentBuffer, hcurrent⟩
  simp only [AsyncLogging.append, hcurrent]
  split
  · exact ⟨_, rfl, rfl, h.filled, h.next_used, h.locals_ok⟩
  · -- a full buffer goes along with the spare
    exact ⟨_, rfl, rfl, isSome_of_mem_push h.filled rfl, by simp, h.locals_ok⟩

/-- Before the swap the locals are as the last round has left them. -/
theorem Stocked.locals (h : log.Stocked) (hpc : log.pc = .locking ∨ log.pc = .waiting) :
    log.buffersToWrite = [] ∧ log.missing = 0 := by
  have hlocals := h.locals_ok
  rcases hpc with hpc | hpc <;> simpa [LocalsInv, hpc] using hlocals

/-- The swap leaves the producers with both buffers, and the backend with as many as it has to get
back. -/
theorem Stocked.swapBuffers (h : log.Stocked) (hpc : log.pc = .locking ∨ log.pc = .waiting) :
    log.swapBuffers.Stocked ∧ log.swapBuffers.nextBuffer_.isSome = true := by
  have hlocals := h.locals hpc
  rcases missing_eq_zero_iff.1 hlocals.2 with ⟨hspare1, hspare2⟩
  have hcurrent : log.swapBuffers.currentBuffer_.isSome = true := by simpa using hspare1
  have hfilled : ∀ p ∈ log.swapBuffers.buffers_, p.isSome = true := by simp [hlocals.1]
  have htaken : ∀ p ∈ log.buffers_ ++ [log.currentBuffer_], p.isSome = true :=
    isSome_of_mem_push h.filled h.current
  have hspare : log.swapBuffers.nextBuffer_.isSome = true := by
    cases hnext : log.nextBuffer_ with
    | none =>
        simpa [AsyncLogging.swapBuffers, hnext] using hspare2
    | some b =>
        simp [AsyncLogging.swapBuffers, hnext]
  have henough : log.swapBuffers.missing ≤ log.buffers_.length + 1 := by
    cases hnext : log.nextBuffer_ with
    | none =>
        -- the producers' spare was used up, so at least one full buffer comes along
        have hone : 0 < log.buffers_.length := List.length_pos_iff.2 (h.next_used hnext)
        exact missing_le_two.trans (Nat.succ_le_succ hone)
    | some b =>
        rcases Option.isSome_iff_exists.1 hspare2 with ⟨b2, hb2⟩
        simp [missing, AsyncLogging.swapBuffers, hnext, hb2]
  have hlocals' : log.swapBuffers.LocalsInv := by
    simp only [LocalsInv, swapBuffers_pc, swapBuffers_buffersToWrite, List.length_append,
      List.length_singleton]
    exact ⟨htaken, henough⟩
  refine ⟨⟨hcurrent, hfilled, ?_, hlocals'⟩, hspare⟩
  intro hnone
  simp [hnone] at hspare

/-- After the swap the backend holds buffers enough. -/
theorem Stocked.taken (h : log.Stocked) (hpc : (∃ i, log.pc = .writing i) ∨ log.pc = .recycling) :
    (∀ p ∈ log.buffersToWrite, p.isSome = true) ∧ log.missing ≤ log.buffersToWrite.length := by
  have hlocals := h.locals_ok
  rcases hpc with ⟨i, hpc⟩ | hpc <;> simpa [LocalsInv, hpc] using hlocals

/-- Every buffer that is written is there. -/
theorem Stocked.write (h : log.Stocked) {i : Nat} (hpc : log.pc = .writing i) :
    ∃ log', log.write i = some log' ∧ log'.Stocked := by
  have hlocals := h.taken (Or.inl ⟨i, hpc⟩)
  unfold AsyncLogging.write
  cases hbuffer : log.buffersToWrite[i]? with
  | none =>
      exact ⟨_, rfl, h.current, h.filled, h.next_used, hlocals⟩
  | some p =>
      have hsome : p.isSome = true := hlocals.1 p (List.mem_of_getElem? hbuffer)
      rcases Option.isSome_iff_exists.1 hsome with ⟨buffer, rfl⟩
      exact ⟨_, rfl, h.current, h.filled, h.next_used, hlocals⟩

/-- `back()` finds a buffer where one is needed. -/
theorem refill_spec (p : BufferPtr) {v : List BufferPtr} (hv : ∀ q ∈ v, q.isSome = true)
    (hneeded : p = none → v ≠ []) :
    ∃ p' v', refill p v = some (p', v') ∧ p'.isSome = true ∧ (∀ q ∈ v', q.isSome = true) ∧
      v.length = v'.length + if p.isNone then 1 else 0 := by
  cases p with
  | some b =>
      exact ⟨some b, v, rfl, rfl, hv, rfl⟩
  | none =>
      have hne : v ≠ [] := hneeded rfl
      -- the last buffer is reset and taken
      have hlast : v.getLast? = some (v.getLast hne) := List.getLast?_eq_some_getLast hne
      have hsome : (v.getLast hne).isSome = true := hv _ (List.getLast_mem hne)
      rcases Option.isSome_iff_exists.1 hsome with ⟨b, hb⟩
      refine ⟨some b.reset, v.dropLast, ?_, rfl, fun q hq => hv q (List.dropLast_subset v hq), ?_⟩
      · simp only [refill, hlast, hb]
      · have hlen : 0 < v.length := List.length_pos_iff.2 hne
        simp only [List.length_dropLast, Option.isNone_none, if_true]
        omega

/-- There are buffers enough to recycle. -/
theorem Stocked.refills (h : log.Stocked) (hpc : log.pc = .recycling) :
    ∃ newBuffer1 v newBuffer2 w, refill log.newBuffer1 log.resized = some (newBuffer1, v) ∧
      refill log.newBuffer2 v = some (newBuffer2, w) ∧ newBuffer1.isSome = true ∧
      newBuffer2.isSome = true := by
  have hlocals := h.taken (Or.inr hpc)
  -- after the resize there are still as many buffers as spares are missing
  have hfilled : ∀ p ∈ log.resized, p.isSome = true := by
    intro p hp
    unfold resized at hp
    split at hp
    · exact hlocals.1 p (List.mem_of_mem_take hp)
    · exact hlocals.1 p hp
  have hlen : log.missing ≤ log.resized.length := by
    have htwo : log.missing ≤ 2 := missing_le_two
    unfold resized
    split
    · rw [List.length_take]
      omega
    · exact hlocals.2
  have hneeded1 : log.newBuffer1 = none → log.resized ≠ [] := by
    intro hnone hnil
    simp [missing, hnone, hnil] at hlen
  rcases refill_spec log.newBuffer1 hfilled hneeded1 with
    ⟨newBuffer1, v, hrefill1, hspare1, hfilled', hlen'⟩
  have hneeded2 : log.newBuffer2 = none → v ≠ [] := by
    intro hnone hnil
    simp only [missing, hnone, hlen', hnil, Option.isNone_none, if_true, List.length_nil] at hlen
    omega
  rcases refill_spec log.newBuffer2 hfilled' hneeded2 with ⟨newBuffer2, w, hrefill2, hspare2, -, -⟩
  exact ⟨newBuffer1, v, newBuffer2, w, hrefill1, hrefill2, hspare1, hspare2⟩

theorem recycle_eq {newBuffer1 newBuffer2 : BufferPtr} {v w : List BufferPtr}
    (h1 : refill log.newBuffer1 log.resized = some (newBuffer1, v))
    (h2 : refill log.newBuffer2 v = some (newBuffer2, w)) :
    log.recycle = some { log with newBuffer1, newBuffer2, buffersToWrite := [], pc := .testing } := by
  unfold resized at h1
  simp only [AsyncLogging.recycle, h1, h2, Option.bind_eq_bind, Option.bind_some]
  rfl

theorem Stocked.recycle (h : log.Stocked) (hpc : log.pc = .recycling) :
    ∃ log', log.recycle = some log' ∧ log'.Stocked := by
  rcases h.refills hpc with ⟨newBuffer1, v, newBuffer2, w, hrefill1, hrefill2, hspare1, hspare2⟩
  exact ⟨_, recycle_eq hrefill1 hrefill2, h.current, h.filled, h.next_used, rfl,
    missing_eq_zero_iff.2 ⟨hspare1, hspare2⟩⟩

/-- No step of the backend runs into undefined behaviour. -/
theorem Stocked.threadFunc (h : log.Stocked) :
    ∃ log', log.threadFunc = some log' ∧ log'.Stocked := by
  have hlocals := h.locals_ok
  cases hpc : log.pc with
  | notStarted | left =>
      simp only [AsyncLogging.threadFunc, hpc]
      exact ⟨log, rfl, h⟩
  | entering =>
      simp only [LocalsInv, hpc] at hlocals
      simp only [AsyncLogging.threadFunc, hpc]
      exact ⟨_, rfl, h.current, h.filled, h.next_used, hlocals, rfl⟩
  | testing =>
      simp only [LocalsInv, hpc] at hlocals
      simp only [AsyncLogging.threadFunc, hpc]
      cases log.running_ with
      | false =>
          exact ⟨_, rfl, h.current, h.filled, h.next_used, trivial⟩
      | true =>
          exact ⟨_, rfl, h.current, h.filled, h.next_used, hlocals⟩
  | locking =>
      simp only [LocalsInv, hpc] at hlocals
      simp only [AsyncLogging.threadFunc, hpc]
      split
      · exact ⟨_, rfl, h.current, h.filled, h.next_used, hlocals⟩
      · exact ⟨_, rfl, (h.swapBuffers (Or.inl hpc)).1⟩
  | waiting =>
      simp only [AsyncLogging.threadFunc, hpc]
      exact ⟨_, rfl, (h.swapBuffers (Or.inr hpc)).1⟩
  | writing i =>
      simp only [AsyncLogging.threadFunc, hpc]
      exact h.write hpc
  | recycling =>
      simp only [AsyncLogging.threadFunc, hpc]
      exact h.recycle hpc

end stocked

section invariant

variable {log : AsyncLogging}

theorem Inv.stocked (h : log.Inv) : log.Stocked :=
  ⟨h.current, h.filled, h.next_used, h.locals_ok⟩

theorem inv_start : start.Inv where
  current := rfl
  filled := by simp [start]
  next_empty := rfl
  spares_empty := ⟨rfl, rfl⟩
  next_used := by simp [start]
  locals_ok := rfl
  conserved := rfl

/-- A line goes in whole, behind everything else. -/
theorem append_spec (h : log.Inv) (line : Line) :
    ∃ log', log.append line.text = some log' ∧ log'.Inv ∧
      log'.appended = log.appended ++ line.text ∧ log'.pending = log.pending ++ line.text ∧
      log'.unwritten = log.unwritten ∧ log'.output = log.output ∧ log'.pc = log.pc ∧
      log'.running_ = log.running_ ∧ log'.stopped = log.stopped := by
  rcases Option.isSome_iff_exists.1 h.current with ⟨currentBuffer, hcurrent⟩
  have hpending : log.pending = texts log.buffers_ ++ currentBuffer.data := by
    rw [pending, hcurrent]
    rfl
  simp only [append, hcurrent]
  by_cases hfits : line.text.length < currentBuffer.avail
  · rw [if_pos hfits]
    refine ⟨_, rfl, ?_, rfl, ?_, rfl, rfl, rfl, rfl, rfl⟩
    · exact {
        current := rfl
        filled := h.filled
        next_empty := h.next_empty
        spares_empty := h.spares_empty
        next_used := h.next_used
        locals_ok := h.locals_ok
        conserved := by
          have hconserved := h.conserved
          rw [hpending] at hconserved
          simp only [pending, BufferPtr.text, FixedBuffer.data_append hfits]
          rw [← hconserved]
          simp [unwritten, List.append_assoc] }
    · rw [hpending]
      simp [pending, BufferPtr.text, FixedBuffer.data_append hfits, List.append_assoc]
  · rw [if_neg hfits]
    -- the buffer is full; the spare and a new one are both empty, so the line fits
    have hfresh : (log.nextBuffer_.getD .new).data = [] := by
      have hempty := h.next_empty
      cases hnext : log.nextBuffer_ with
      | none =>
          rfl
      | some b =>
          rw [hnext] at hempty
          exact hempty
    have hline : ((log.nextBuffer_.getD .new).append line.text).data = line.text := by
      have hshort : line.text.length < (log.nextBuffer_.getD .new).avail := by
        rw [FixedBuffer.avail, hfresh]
        exact line.short
      rw [FixedBuffer.data_append hshort, hfresh, List.nil_append]
    refine ⟨_, rfl, ?_, rfl, ?_, rfl, rfl, rfl, rfl, rfl⟩
    · exact {
        current := rfl
        filled := isSome_of_mem_push h.filled rfl
        next_empty := rfl
        spares_empty := h.spares_empty
        next_used := by simp
        locals_ok := h.locals_ok
        conserved := by
          have hconserved := h.conserved
          rw [hpending] at hconserved
          simp only [pending, BufferPtr.text, hline]
          rw [← hconserved]
          simp [unwritten, texts, BufferPtr.text, List.append_assoc] }
    · rw [hpending]
      simp [pending, texts, BufferPtr.text, hline, List.append_assoc]

/-- The swap hands all that is pending to the backend, which has both spares when it comes to it. -/
theorem swapBuffers_spec (h : log.Inv) (hpc : log.pc = .locking ∨ log.pc = .waiting) :
    log.swapBuffers.Inv ∧ log.swapBuffers.unwritten = log.pending ∧ log.swapBuffers.pending = [] ∧
      log.unwritten = [] := by
  have hnone : log.buffersToWrite = [] := (h.stocked.locals hpc).1
  have hunwritten : log.unwritten = [] := by
    rcases hpc with hpc | hpc <;> simp [unwritten, hpc]
  have hpending : log.swapBuffers.pending = [] := by
    simp [pending, hnone, h.spares_empty.1]
  have htaken : log.swapBuffers.unwritten = log.pending := by
    simp [unwritten, pending]
  have hconserved : log.swapBuffers.output ++ log.swapBuffers.unwritten ++ log.swapBuffers.pending =
      log.swapBuffers.appended := by
    have hbefore := h.conserved
    rw [hunwritten, List.append_nil] at hbefore
    rw [htaken, hpending, List.append_nil, swapBuffers_output, swapBuffers_appended]
    exact hbefore
  -- an empty buffer stays empty wherever the swap moves it
  have hempty : log.swapBuffers.nextBuffer_.text = [] ∧ log.swapBuffers.newBuffer1.text = [] ∧
      log.swapBuffers.newBuffer2.text = [] := by
    have hspare2 := h.spares_empty.2
    cases hnext : log.nextBuffer_ with
    | none =>
        simpa [swapBuffers, hnext, BufferPtr.text] using hspare2
    | some b =>
        have hspare : b.data = [] := by simpa [hnext, BufferPtr.text] using h.next_empty
        simpa [swapBuffers, hnext, BufferPtr.text, hspare] using hspare2
  refine ⟨?_, htaken, hpending, hunwritten⟩
  exact { (h.stocked.swapBuffers hpc).1 with
    next_empty := hempty.1
    spares_empty := hempty.2
    conserved := hconserved }

/-- Writing moves a buffer's bytes from the unwritten ones to the output. -/
theorem write_spec (h : log.Inv) {i : Nat} (hpc : log.pc = .writing i) :
    ∃ log', log.write i = some log' ∧ log'.Inv ∧
      log'.output ++ log'.unwritten = log.output ++ log.unwritten ∧
      (log'.pc = .recycling ∨ log'.pc = .writing (i + 1)) ∧ log'.appended = log.appended ∧
      log'.running_ = log.running_ ∧ log'.stopped = log.stopped := by
  have hlocals := h.stocked.taken (Or.inl ⟨i, hpc⟩)
  have hunwritten : log.unwritten = texts (log.buffersToWrite.drop i) := by simp [unwritten, hpc]
  have hconserved := h.conserved
  unfold write
  cases hbuffer : log.buffersToWrite[i]? with
  | none =>
      -- past the last buffer nothing is unwritten
      have hdone : log.buffersToWrite.drop i = [] :=
        List.drop_eq_nil_of_le (List.getElem?_eq_none_iff.1 hbuffer)
      rw [hunwritten, hdone] at hconserved
      refine ⟨_, rfl, ?_, ?_, Or.inl rfl, rfl, rfl, rfl⟩
      · exact { h with
          locals_ok := hlocals
          conserved := hconserved }
      · rw [hunwritten, hdone]
        rfl
  | some p =>
      rcases List.getElem?_eq_some_iff.1 hbuffer with ⟨hi, hp⟩
      have hsome : p.isSome = true := hlocals.1 p (hp ▸ List.getElem_mem hi)
      rcases Option.isSome_iff_exists.1 hsome with ⟨buffer, rfl⟩
      -- the first of the unwritten buffers goes to the output
      have hnext : texts (log.buffersToWrite.drop i) =
          buffer.data ++ texts (log.buffersToWrite.drop (i + 1)) := by
        rw [List.drop_eq_getElem_cons hi, hp]
        rfl
      rw [hunwritten, hnext] at hconserved
      refine ⟨_, rfl, ?_, ?_, Or.inr rfl, rfl, rfl, rfl⟩
      · exact { h with
          locals_ok := hlocals
          conserved := by
            rw [← hconserved]
            simp [unwritten, pending, List.append_assoc] }
      · rw [hunwritten, hnext]
        simp [unwritten, List.append_assoc]

/-- What comes back from the buffers that were written is reset. -/
theorem text_of_refill {p p' : BufferPtr} {v v' : List BufferPtr}
    (h : refill p v = some (p', v')) (hempty : p.text = []) : p'.text = [] := by
  unfold refill at h
  split at h
  · simp only [Option.some.injEq, Prod.mk.injEq] at h
    rwa [← h.1]
  · split at h
    · simp only [Option.some.injEq, Prod.mk.injEq] at h
      rw [← h.1]
      rfl
    · cases h
    · cases h

theorem recycle_spec (h : log.Inv) (hpc : log.pc = .recycling) :
    ∃ log', log.recycle = some log' ∧ log'.Inv ∧ log'.output = log.output ∧ log'.pc = .testing ∧
      log'.appended = log.appended ∧ log'.running_ = log.running_ ∧ log'.stopped = log.stopped := by
  have hunwritten : log.unwritten = [] := by simp [unwritten, hpc]
  rcases h.stocked.refills hpc with
    ⟨newBuffer1, v, newBuffer2, w, hrefill1, hrefill2, hspare1, hspare2⟩
  refine ⟨_, recycle_eq hrefill1 hrefill2, ?_, rfl, rfl, rfl, rfl, rfl⟩
  have hconserved := h.conserved
  rw [hunwritten] at hconserved
  exact { h with
    spares_empty := ⟨text_of_refill hrefill1 h.spares_empty.1, text_of_refill hrefill2 h.spares_empty.2⟩
    locals_ok := ⟨rfl, missing_eq_zero_iff.2 ⟨hspare1, hspare2⟩⟩
    conserved := hconserved }

/-- The backend never runs into undefined behaviour; it keeps every byte, and once it is told to stop it
delivers what it was sure to deliver. -/
theorem threadFunc_spec (h : log.Inv) :
    ∃ log', log.threadFunc = some log' ∧ log'.Inv ∧ log'.appended = log.appended ∧
      log'.running_ = log.running_ ∧ log'.stopped = log.stopped ∧
      (log'.pc = .notStarted ↔ log.pc = .notStarted) ∧
      (log.running_ = false → log'.deliverable = log.deliverable) := by
  have hlocals := h.locals_ok
  have hconserved := h.conserved
  cases hpc : log.pc with
  | notStarted =>
      simp only [threadFunc, hpc]
      exact ⟨log, rfl, h, rfl, rfl, rfl, by simp [hpc], fun _ => rfl⟩
  | entering =>
      simp only [LocalsInv, hpc] at hlocals
      simp only [unwritten, hpc] at hconserved
      simp only [threadFunc, hpc]
      refine ⟨_, rfl, ?_, rfl, rfl, rfl, by simp, fun _ => by simp [deliverable, unwritten, hpc]⟩
      exact { h with
        spares_empty := ⟨rfl, rfl⟩
        locals_ok := ⟨hlocals, rfl⟩
        conserved := hconserved }
  | testing =>
      simp only [LocalsInv, hpc] at hlocals
      simp only [unwritten, hpc] at hconserved
      simp only [threadFunc, hpc]
      cases hrunning : log.running_ with
      | false =>
          refine ⟨_, rfl, ?_, rfl, rfl, rfl, by simp, fun _ => by simp [deliverable, unwritten, hpc]⟩
          exact { h with
            locals_ok := trivial
            conserved := hconserved }
      | true =>
          refine ⟨_, rfl, ?_, rfl, rfl, rfl, by simp, fun hstop => by cases hstop⟩
          exact { h with
            locals_ok := hlocals
            conserved := hconserved }
  | locking =>
      simp only [LocalsInv, hpc] at hlocals
      simp only [unwritten, hpc] at hconserved
      simp only [threadFunc, hpc]
      -- with nothing in `buffers_` it waits, and `currentBuffer_` stays where it is
      rcases swapBuffers_spec h (Or.inl hpc) with ⟨hswapped, htaken, -, hnone⟩
      split
      · refine ⟨_, rfl, ?_, rfl, rfl, rfl, by simp, fun _ => by simp [deliverable, unwritten, hpc, pending]⟩
        exact { h with
          locals_ok := hlocals
          conserved := hconserved }
      · exact ⟨_, rfl, hswapped, by simp, by simp, by simp, by simp, fun _ => by
          simp [deliverable, hpc, htaken, hnone]⟩
  | waiting =>
      simp only [threadFunc, hpc]
      rcases swapBuffers_spec h (Or.inr hpc) with ⟨hswapped, htaken, -, hnone⟩
      exact ⟨_, rfl, hswapped, by simp, by simp, by simp, by simp, fun _ => by
        simp [deliverable, hpc, htaken, hnone]⟩
  | writing i =>
      simp only [threadFunc, hpc]
      rcases write_spec h hpc with ⟨log', hwrite, hinv, hmoved, hpc', hrest⟩
      refine ⟨log', hwrite, hinv, hrest.1, hrest.2.1, hrest.2.2, ?_, fun _ => ?_⟩
      · rcases hpc' with hpc' | hpc' <;> simp [hpc']
      · rcases hpc' with hpc' | hpc' <;> simp [deliverable, hpc, hpc', hmoved]
  | recycling =>
      simp only [threadFunc, hpc]
      rcases recycle_spec h hpc with ⟨log', hrecycle, hinv, houtput, hpc', hrest⟩
      refine ⟨log', hrecycle, hinv, hrest.1, hrest.2.1, hrest.2.2, by simp [hpc'], fun _ => ?_⟩
      simp [deliverable, unwritten, hpc, hpc', houtput]
  | left =>
      simp only [threadFunc, hpc]
      exact ⟨log, rfl, h, rfl, rfl, rfl, by simp [hpc], fun _ => rfl⟩

/-- What an event appends. -/
def Event.text : Event → Bytes
  | .append line => line.text
  | _ => []

/-- No event meets undefined behaviour, and the log it leaves has its bytes in order. -/
theorem perform_spec (h : log.Inv) (e : Event) :
    ∃ log', log.perform e = some log' ∧ log'.Inv ∧ log'.appended = log.appended ++ e.text := by
  cases e with
  | append line =>
      rcases append_spec h line with ⟨log', happend, hinv, hlog, -⟩
      exact ⟨log', happend, hinv, hlog⟩
  | start =>
      refine ⟨_, rfl, ?_, by split <;> simp [Event.text]⟩
      split
      · next hpc =>
        have hlocals := h.locals_ok
        have hconserved := h.conserved
        simp only [LocalsInv, hpc] at hlocals
        simp only [unwritten, hpc] at hconserved
        exact { h with
          locals_ok := hlocals
          conserved := hconserved }
      · exact h
  | threadFunc =>
      rcases threadFunc_spec h with ⟨log', hthread, hinv, happended, -⟩
      exact ⟨log', hthread, hinv, by simp [Event.text, happended]⟩
  | stop =>
      refine ⟨_, rfl, ?_, by split <;> simp [Event.text]⟩
      split
      · exact { h with }
      · exact h

theorem inv_step (h : log.Inv) (e : Event) :
    (step log e).Inv ∧ (step log e).appended = log.appended ++ e.text := by
  rcases perform_spec h e with ⟨log', hperform, hinv, happended⟩
  rw [step, hperform]
  exact ⟨hinv, happended⟩

end invariant

/-- A run keeps the invariant and appends the lines of its events. -/
theorem inv_run {log : AsyncLogging} (h : log.Inv) (es : List Event) :
    (es.foldl step log).Inv ∧
      (es.foldl step log).appended = log.appended ++ es.flatMap Event.text := by
  induction es generalizing log with
  | nil =>
      exact ⟨h, (List.append_nil _).symm⟩
  | cons e es ih =>
      rcases inv_step h e with ⟨hnext, happended⟩
      rcases ih hnext with ⟨hinv, hall⟩
      refine ⟨hinv, ?_⟩
      rw [List.foldl_cons, hall, happended, List.flatMap_cons, List.append_assoc]

/-- **No line is lost, duplicated, torn or reordered while the log runs.**  In every state of every
interleaving the bytes passed to `LogFile::append`, the buffers being written, those filled and the
current one are the lines in the order of their `append`; and nothing undefined can happen next. -/
theorem conservation (es : List Event) :
    (es.foldl step start).output ++ (es.foldl step start).unwritten ++
        texts (es.foldl step start).buffers_ ++ (es.foldl step start).currentBuffer_.text =
      es.flatMap Event.text ∧
    ∀ e, ((es.foldl step start).perform e).isSome = true := by
  have hrun := inv_run inv_start es
  have happended : (es.foldl step start).appended = es.flatMap Event.text := hrun.2
  refine ⟨?_, fun e => ?_⟩
  · rw [← happended, ← hrun.1.conserved, pending, List.append_assoc]
  · rcases perform_spec hrun.1 e with ⟨log', hperform, -⟩
    rw [hperform]
    rfl

end AsyncLogging
end Logger
end Myoj
