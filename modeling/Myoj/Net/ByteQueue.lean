import Mathlib.Logic.Function.Basic
import Myoj.Lib.Runs
import Myoj.Net.Buffer

/-!
# ByteQueue — buffers as queues of bytes

A program works on buffers named by `ι`.  `Buffers` runs its operations on the arrays, `Queues` runs
them on plain byte strings; `queues_step` says that the first refines the second, one operation at a
time, and `buffers_refine_queues` carries this through every run.

What `readv` delivers comes with the operation.  `Possible` says what the code relies on: no more bytes
than the `iovec`s hold, and no `retrieveAsString` beyond the readable bytes, which would abort.
-/

namespace Myoj
namespace Net

inductive BufferOp (ι : Type) where
  | append (i : ι) (data : Bytes)
  | retrieve (i : ι) (len : Nat)
  | retrieveAll (i : ι)
  | retrieveAsString (i : ι) (len : Nat)
  | ensureWriteableBytes (i : ι) (len : Nat)
  | swap (i j : ι)
  | readFd (i : ι) (r : Buffer.ReadvResult)

/-- The queues, with the strings that were taken out of them. -/
structure Queues (ι : Type) where
  queue : ι → Bytes
  returned : List Bytes

/-- The buffers, with the strings that `retrieveAsString` has returned. -/
structure Buffers (ι : Type) where
  buffer : ι → Buffer
  returned : List Bytes

variable {ι : Type} [DecidableEq ι]

namespace Queues

def empty : Queues ι := ⟨fun _ => [], []⟩

/-- Bytes go in at the back and are dropped at the front. -/
def step (q : Queues ι) : BufferOp ι → Queues ι
  | .append i data => { q with queue := Function.update q.queue i (q.queue i ++ data) }
  | .retrieve i len => { q with queue := Function.update q.queue i ((q.queue i).drop len) }
  | .retrieveAll i => { q with queue := Function.update q.queue i [] }
  | .retrieveAsString i len =>
      { queue := Function.update q.queue i ((q.queue i).drop len)
        returned := q.returned ++ [(q.queue i).take len] }
  | .ensureWriteableBytes _ _ => q
  | .swap i j =>
      { q with queue := Function.update (Function.update q.queue i (q.queue j)) j (q.queue i) }
  | .readFd i (.delivered data) =>
      { q with queue := Function.update q.queue i (q.queue i ++ data) }
  | .readFd _ (.failed _) => q

end Queues

namespace Buffers

def new (initialSize : ι → Nat) : Buffers ι := ⟨fun i => .new (initialSize i), []⟩

def set (w : Buffers ι) (i : ι) (b : Buffer) : Buffers ι :=
  { w with buffer := Function.update w.buffer i b }

def step (w : Buffers ι) : BufferOp ι → Buffers ι
  | .append i data => w.set i ((w.buffer i).append data)
  | .retrieve i len => w.set i ((w.buffer i).retrieve len)
  | .retrieveAll i => w.set i (w.buffer i).retrieveAll
  | .retrieveAsString i len =>
      match (w.buffer i).retrieveAsString len with
      | some (result, b) => { w.set i b with returned := w.returned ++ [result] }
      | none => w
  | .ensureWriteableBytes i len => w.set i ((w.buffer i).ensureWriteableBytes len)
  | .swap i j =>
      let (b, rhs) := (w.buffer i).swap (w.buffer j)
      (w.set i b).set j rhs
  | .readFd i r => w.set i ((w.buffer i).readFd r).2

/-- The operation keeps to what it may rely on. -/
def Possible (w : Buffers ι) : BufferOp ι → Prop
  | .retrieveAsString i len => len ≤ (w.buffer i).readableBytes
  | .readFd i (.delivered data) => data.length ≤ (w.buffer i).offered
  | _ => True

instance decidablePossible (w : Buffers ι) : ∀ op, Decidable (w.Possible op)
  | .retrieveAsString _ _ => inferInstanceAs (Decidable (_ ≤ _))
  | .readFd _ (.delivered _) => inferInstanceAs (Decidable (_ ≤ _))
  | .readFd _ (.failed _) => .isTrue trivial
  | .append _ _ => .isTrue trivial
  | .retrieve _ _ => .isTrue trivial
  | .retrieveAll _ => .isTrue trivial
  | .ensureWriteableBytes _ _ => .isTrue trivial
  | .swap _ _ => .isTrue trivial

/-- The abstract content. -/
def queues (w : Buffers ι) : Queues ι := ⟨fun i => (w.buffer i).readable, w.returned⟩

/-! ## Refinement -/

omit [DecidableEq ι] in
theorem queues_new (initialSize : ι → Nat) : (new initialSize).queues = Queues.empty := by
  simp [queues, new, Queues.empty]

/-- Replacing a buffer replaces its queue. -/
theorem queues_set (w : Buffers ι) (i : ι) (b : Buffer) :
    (w.set i b).queues =
      { w.queues with queue := Function.update w.queues.queue i b.readable } := by
  simp only [queues, set, Queues.mk.injEq, and_true]
  funext j
  by_cases hj : j = i
  · subst hj
    simp
  · simp [Function.update_of_ne hj]

/-- A buffer with the same content. -/
theorem queues_set_same {w : Buffers ι} {i : ι} {b : Buffer} (h : b.readable = (w.buffer i).readable) :
    (w.set i b).queues = w.queues := by
  rw [queues_set, h]
  exact congrArg (fun queue => (⟨queue, w.returned⟩ : Queues ι)) (Function.update_eq_self i _)

/-- Each operation on the arrays is the operation on the queues. -/
theorem queues_step {w : Buffers ι} {op : BufferOp ι} (h : w.Possible op) :
    (w.step op).queues = w.queues.step op := by
  cases op with
  | append i data =>
      rw [step, queues_set, Buffer.readable_append]
      rfl
  | retrieve i len =>
      rw [step, queues_set, Buffer.readable_retrieve]
      rfl
  | retrieveAll i =>
      rw [step, queues_set, Buffer.readable_retrieveAll]
      rfl
  | retrieveAsString i len =>
      simp only [step, Buffer.retrieveAsString_eq_some h]
      have hqueue := queues_set w i ((w.buffer i).retrieve len)
      rw [Buffer.readable_retrieve] at hqueue
      simp only [queues, Queues.mk.injEq] at hqueue ⊢
      simp only [Queues.step, hqueue.1]
  | ensureWriteableBytes i len =>
      -- sliding or growing, the content is the same
      rw [step, queues_set_same (Buffer.readable_ensureWriteableBytes _ len)]
      rfl
  | swap i j =>
      -- both buffers are replaced by what the other held before
      simp only [step, Buffer.swap, queues_set]
      rfl
  | readFd i r =>
      cases r with
      | failed errno =>
          -- only the error is passed on
          exact queues_set_same rfl
      | delivered data =>
          rw [step, queues_set, Buffer.readable_readFd h]
          rfl

/-- The inequalities a buffer is built with. -/
theorem valid (b : Buffer) :
    kCheapPrepend ≤ b.readerIndex_ ∧ b.readerIndex_ ≤ b.writerIndex_ ∧
      b.writerIndex_ ≤ b.buffer_.length :=
  ⟨b.prepend_le, b.reader_le, b.writer_le⟩

/-- **The buffers refine byte queues.**  After every run of operations the readable bytes and the strings
returned are those of the queues, the indices are in order, and room that was asked for is there. -/
theorem buffers_refine_queues (initialSize : ι → Nat) (ops : List (BufferOp ι))
    (h : Runs.Guarded step Possible (new initialSize) ops) :
    (ops.foldl step (new initialSize)).queues = ops.foldl Queues.step Queues.empty ∧
      ∀ i, let b := (ops.foldl step (new initialSize)).buffer i
        (kCheapPrepend ≤ b.readerIndex_ ∧ b.readerIndex_ ≤ b.writerIndex_ ∧
          b.writerIndex_ ≤ b.buffer_.length) ∧
        ∀ len, len ≤ (b.ensureWriteableBytes len).writableBytes := by
  have hsimulates : (ops.foldl step (new initialSize)).queues = ops.foldl Queues.step Queues.empty := by
    -- `queues` commutes with every possible operation
    rw [Runs.simulation (fun _ _ hop => queues_step hop) h, queues_new]
  exact ⟨hsimulates, fun i => ⟨valid _, Buffer.le_writableBytes_ensureWriteableBytes _⟩⟩

/-- Five bytes arrive in a buffer with room for four, two are taken out, the rest changes its buffer. -/
theorem buffers_refine_queues_overflow :
    ((([.readFd true (.delivered (bytes "abcde")), .retrieveAsString true 2, .swap true false] :
        List (BufferOp Bool)).foldl step (new fun _ => 4)).queues =
      ([.readFd true (.delivered (bytes "abcde")), .retrieveAsString true 2, .swap true false] :
        List (BufferOp Bool)).foldl Queues.step Queues.empty) :=
  (buffers_refine_queues (fun _ => 4)
    [.readFd true (.delivered (bytes "abcde")), .retrieveAsString true 2, .swap true false]
    ⟨by decide, by decide, trivial, trivial⟩).1

end Buffers
end Net
end Myoj
