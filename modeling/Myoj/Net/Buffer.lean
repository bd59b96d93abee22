import Mathlib.Tactic.Linarith
import Myoj.Lib.Bytes

/-!
# Buffer — the growable byte buffer under every connection

```
 +-------------------+------------------+------------------+
 | prependable bytes |  readable bytes  |  writable bytes  |
 +-------------------+------------------+------------------+
 0        <=    readerIndex_   <=  writerIndex_   <=   size()
```

`Buffer` carries the index invariant as fields, so every operation below keeps it by construction.
`Buffer.readable` is the abstract content; the `readable_*` lemmas say what each operation does to
it, and nothing above this module looks at the array again.

A pointer into the readable bytes is its offset from `peek()`.
-/

namespace Myoj
namespace Net

def kCheapPrepend : Nat := 8

def kInitialSize : Nat := 1024

/-- `Buffer::kCRLF`. -/
def kCRLF : Bytes := bytes "\r\n"

structure Buffer where
  buffer_ : Bytes
  readerIndex_ : Nat
  writerIndex_ : Nat
  prepend_le : kCheapPrepend ≤ readerIndex_
  reader_le : readerIndex_ ≤ writerIndex_
  writer_le : writerIndex_ ≤ buffer_.length

namespace Buffer

/-- `Buffer(size_t initialSize)`. -/
def new (initialSize : Nat) : Buffer where
  buffer_ := List.replicate (kCheapPrepend + initialSize) 0
  readerIndex_ := kCheapPrepend
  writerIndex_ := kCheapPrepend
  prepend_le := le_refl _
  reader_le := le_refl _
  writer_le := by simp

def readableBytes (b : Buffer) : Nat := b.writerIndex_ - b.readerIndex_

def writableBytes (b : Buffer) : Nat := b.buffer_.length - b.writerIndex_

def prependableBytes (b : Buffer) : Nat := b.readerIndex_

/-- The bytes from `peek()` up to `beginWrite()`. -/
def readable (b : Buffer) : Bytes := (b.buffer_.take b.writerIndex_).drop b.readerIndex_

def empty (b : Buffer) : Bool := b.readableBytes == 0

/-! ## Reading -/

def retrieveAll (b : Buffer) : Buffer where
  buffer_ := b.buffer_
  readerIndex_ := kCheapPrepend
  writerIndex_ := kCheapPrepend
  prepend_le := le_refl _
  reader_le := le_refl _
  writer_le := b.prepend_le.trans (b.reader_le.trans b.writer_le)

def retrieve (b : Buffer) (len : Nat) : Buffer :=
  if h : len < b.readableBytes then
    { b with
      readerIndex_ := b.readerIndex_ + len
      prepend_le := b.prepend_le.trans (Nat.le_add_right _ _)
      reader_le := by
        have := b.reader_le
        simp only [readableBytes] at h
        omega }
  else
    b.retrieveAll

/-- `retrieveUntil(peek() + end)`; `none` is the `LOG_FATAL` branch, which calls `abort()`. -/
def retrieveUntil (b : Buffer) (endOff : Nat) : Option Buffer :=
  if b.readableBytes < endOff then none else some (b.retrieve endOff)

/-- `findCRLF()`.  The pattern range is `[kCRLF, kCRLF + 1)`, one byte long. -/
def findCRLF (b : Buffer) : Option Nat :=
  if b.empty then none
  else
    let crlf := search (kCRLF.take 1) b.readable
    if crlf = b.readable.length then none else some crlf

/-! ## Writing -/

/-- The readable bytes are copied down over themselves, front first: as `kCheapPrepend` is not behind the
read index, no byte is overwritten before it was read. -/
theorem copyForward_eq_overwrite (b : Buffer) :
    copyForward b.buffer_ b.readerIndex_ kCheapPrepend b.readableBytes =
      overwrite b.buffer_ kCheapPrepend b.readable := by
  have h2 := b.reader_le
  have h3 := b.writer_le
  have hsrc : b.readerIndex_ + b.readableBytes ≤ b.buffer_.length := by
    simp only [readableBytes]
    omega
  have hslice : (b.buffer_.drop b.readerIndex_).take b.readableBytes = b.readable := by
    rw [readable, readableBytes, List.drop_take]
  rw [copyForward_eq b.prepend_le hsrc, hslice]

/-- `makeSpace(len)`: grow the array, or move the readable bytes to the front. -/
def makeSpace (b : Buffer) (len : Nat) : Buffer :=
  if b.writableBytes + b.prependableBytes < len + kCheapPrepend then
    { b with
      buffer_ := b.buffer_.take (b.writerIndex_ + len) ++
        List.replicate (b.writerIndex_ + len - b.buffer_.length) 0
      writer_le := by
        have := b.writer_le
        simp only [List.length_append, List.length_take, List.length_replicate]
        omega }
  else
    { buffer_ := copyForward b.buffer_ b.readerIndex_ kCheapPrepend b.readableBytes
      readerIndex_ := kCheapPrepend
      writerIndex_ := kCheapPrepend + b.readableBytes
      prepend_le := le_refl _
      reader_le := Nat.le_add_right _ _
      writer_le := by
        have h1 := b.prepend_le
        have h2 := b.reader_le
        have h3 := b.writer_le
        have hlen : b.readable.length = b.writerIndex_ - b.readerIndex_ := by
          simp [readable, h3]
        rw [copyForward_eq_overwrite, length_overwrite (by omega)]
        simp only [readableBytes]
        omega }

def ensureWriteableBytes (b : Buffer) (len : Nat) : Buffer :=
  if b.writableBytes < len then b.makeSpace len else b

theorem length_readable (b : Buffer) : b.readable.length = b.readableBytes := by
  have h := b.writer_le
  simp [readable, readableBytes, h]

theorem le_writableBytes_ensureWriteableBytes (b : Buffer) (len : Nat) :
    len ≤ (b.ensureWriteableBytes len).writableBytes := by
  have h1 := b.prepend_le
  have h2 := b.reader_le
  have h3 := b.writer_le
  have hlen := b.length_readable
  simp only [readableBytes] at hlen
  simp only [ensureWriteableBytes]
  split
  · simp only [makeSpace]
    split
    · simp only [writableBytes, List.length_append, List.length_take, List.length_replicate]
      omega
    · next hroom =>
      simp only [writableBytes, prependableBytes] at hroom
      simp only [writableBytes]
      rw [copyForward_eq_overwrite, length_overwrite (by omega)]
      simp only [readableBytes]
      omega
  · omega

/-- `append(data, len)`: make room, copy to `beginWrite()`, advance the write index. -/
def append (b : Buffer) (data : Bytes) : Buffer :=
  let b' := b.ensureWriteableBytes data.length
  have room : b'.writerIndex_ + data.length ≤ b'.buffer_.length := by
    have h1 : data.length ≤ b'.buffer_.length - b'.writerIndex_ :=
      le_writableBytes_ensureWriteableBytes b data.length
    have h2 := b'.writer_le
    omega
  { b' with
    buffer_ := overwrite b'.buffer_ b'.writerIndex_ data
    writerIndex_ := b'.writerIndex_ + data.length
    reader_le := b'.reader_le.trans (Nat.le_add_right _ _)
    writer_le := by rw [length_overwrite room]; exact room }

/-! ## What each operation does to the readable bytes -/

@[simp] theorem readable_new (n : Nat) : (new n).readable = [] := by
  simp [readable, new]

@[simp] theorem readable_retrieveAll (b : Buffer) : b.retrieveAll.readable = [] := by
  simp [readable, retrieveAll]

theorem readable_eq_nil_iff (b : Buffer) : b.readable = [] ↔ b.readableBytes = 0 := by
  rw [← b.length_readable, List.length_eq_zero_iff]

@[simp] theorem readable_retrieve (b : Buffer) (len : Nat) :
    (b.retrieve len).readable = b.readable.drop len := by
  unfold retrieve
  split
  · simp [readable, List.drop_drop]
  · next h =>
    rw [readable_retrieveAll, eq_comm, List.drop_eq_nil_iff, b.length_readable]
    omega

theorem readable_makeSpace (b : Buffer) (len : Nat) : (b.makeSpace len).readable = b.readable := by
  have h1 := b.prepend_le
  have h2 := b.reader_le
  have h3 := b.writer_le
  have hlen := b.length_readable
  simp only [readableBytes] at hlen
  unfold makeSpace
  split
  · have htake : (b.buffer_.take (b.writerIndex_ + len) ++
        List.replicate (b.writerIndex_ + len - b.buffer_.length) 0).take b.writerIndex_ =
          b.buffer_.take b.writerIndex_ := by
      rw [List.take_append_of_le_length (by simp [h3]), List.take_take]
      simp
    simp only [readable, htake]
  · have hroom : kCheapPrepend + b.readable.length ≤ b.buffer_.length := by omega
    have hfront : (b.buffer_.take kCheapPrepend).length = kCheapPrepend := by
      rw [List.length_take]
      omega
    calc
      ((copyForward b.buffer_ b.readerIndex_ kCheapPrepend b.readableBytes).take
          (kCheapPrepend + b.readableBytes)).drop kCheapPrepend
          = ((overwrite b.buffer_ kCheapPrepend b.readable).take
              (kCheapPrepend + b.readableBytes)).drop kCheapPrepend := by
            rw [copyForward_eq_overwrite]
      _ = (b.buffer_.take kCheapPrepend ++ b.readable).drop kCheapPrepend := by
            rw [← b.length_readable, take_overwrite hroom]
      _ = b.readable := List.drop_left' hfront

theorem readable_ensureWriteableBytes (b : Buffer) (len : Nat) :
    (b.ensureWriteableBytes len).readable = b.readable := by
  unfold ensureWriteableBytes
  split
  · exact readable_makeSpace b len
  · rfl

@[simp] theorem readable_append (b : Buffer) (data : Bytes) :
    (b.append data).readable = b.readable ++ data := by
  have key : ∀ c : Buffer, data.length ≤ c.writableBytes →
      ((overwrite c.buffer_ c.writerIndex_ data).take
        (c.writerIndex_ + data.length)).drop c.readerIndex_ = c.readable ++ data := by
    intro c hroom
    have h2 := c.reader_le
    have h3 := c.writer_le
    simp only [writableBytes] at hroom
    rw [take_overwrite (by omega), List.drop_append_of_le_length (by simp [h3, h2]), readable]
  calc
    (b.append data).readable = (b.ensureWriteableBytes data.length).readable ++ data :=
      key _ (le_writableBytes_ensureWriteableBytes b data.length)
    _ = b.readable ++ data := by rw [readable_ensureWriteableBytes]

theorem readable_retrieveUntil {b b' : Buffer} {n : Nat} (h : b.retrieveUntil n = some b') :
    b'.readable = b.readable.drop n := by
  unfold retrieveUntil at h
  split at h
  · cases h
  · cases h
    exact readable_retrieve b n

theorem retrieveUntil_eq_none_iff (b : Buffer) (n : Nat) :
    b.retrieveUntil n = none ↔ b.readable.length < n := by
  simp [retrieveUntil, b.length_readable]

/-! ## Strings, swapping, `readFd` -/

/-- `retrieveAsString(len)`; `none` is the `LOG_FATAL` branch. -/
def retrieveAsString (b : Buffer) (len : Nat) : Option (Bytes × Buffer) :=
  if b.readableBytes < len then none else some (b.readable.take len, b.retrieve len)

def retrieveAllAsString (b : Buffer) : Option (Bytes × Buffer) := b.retrieveAsString b.readableBytes

/-- `swap(rhs)`: the three members change places. -/
def swap (b rhs : Buffer) : Buffer × Buffer := (rhs, b)

/-- `sizeof extrabuf`. -/
def extrabufSize : Nat := 65536

/-- How many of the two `iovec`s `readFd` passes to `readv`. -/
def iovcnt (b : Buffer) : Nat := if b.writableBytes < extrabufSize then 2 else 1

/-- The total length of the `iovec`s passed. -/
def offered (b : Buffer) : Nat :=
  if b.iovcnt = 2 then b.writableBytes + extrabufSize else b.writableBytes

/-- What `readv` returns, with the bytes it has delivered. -/
inductive ReadvResult where
  | delivered (data : Bytes)
  | failed (errno : Int)

/-- The first `iovec` is the space behind the write index. -/
def scatter (b : Buffer) (data : Bytes) : Buffer where
  buffer_ := overwrite b.buffer_ b.writerIndex_ (data.take b.writableBytes)
  readerIndex_ := b.readerIndex_
  writerIndex_ := b.writerIndex_
  prepend_le := b.prepend_le
  reader_le := b.reader_le
  writer_le := by
    have h3 := b.writer_le
    rw [length_overwrite (by simp only [writableBytes, List.length_take]; omega)]
    exact h3

theorem writableBytes_scatter (b : Buffer) (data : Bytes) :
    (b.scatter data).writableBytes = b.writableBytes := by
  have h3 := b.writer_le
  have hlen : (b.scatter data).buffer_.length = b.buffer_.length :=
    length_overwrite (by simp only [writableBytes, List.length_take]; omega)
  rw [writableBytes, hlen]
  rfl

/-- `writerIndex_ += n`, for `n` bytes that are there. -/
def advance (b : Buffer) (n : Nat) (h : n ≤ b.writableBytes) : Buffer :=
  { b with
    writerIndex_ := b.writerIndex_ + n
    reader_le := b.reader_le.trans (Nat.le_add_right _ _)
    writer_le := by
      have h3 := b.writer_le
      simp only [writableBytes] at h
      omega }

/-- `readFd`: what did not fit into the buffer is appended from `extrabuf`.  The value is `readv`'s. -/
def readFd (b : Buffer) (r : ReadvResult) : Int × Buffer :=
  match r with
  | .failed _ => (-1, b)
  | .delivered data =>
      let n := data.length
      let writable := b.writableBytes
      let extrabuf := overwrite (List.replicate extrabufSize 0) 0 (data.drop writable)
      let b := b.scatter data
      if h : n ≤ b.writableBytes then (n, b.advance n h)
      else
        -- `writerIndex_ = buffer_.size()`
        let full := b.advance b.writableBytes (le_refl _)
        (n, full.append (extrabuf.take (n - writable)))

theorem retrieveAsString_eq_some {b : Buffer} {len : Nat} (h : len ≤ b.readableBytes) :
    b.retrieveAsString len = some (b.readable.take len, b.retrieve len) :=
  if_neg (Nat.not_lt.2 h)

/-- What `readv` has put behind the write index becomes readable when the index advances. -/
theorem readable_advance_scatter {b : Buffer} {data : Bytes} {n : Nat}
    (h : n ≤ (b.scatter data).writableBytes) (hn : n = (data.take b.writableBytes).length) :
    ((b.scatter data).advance n h).readable = b.readable ++ data.take b.writableBytes := by
  have h2 := b.reader_le
  have h3 := b.writer_le
  have hroom : b.writerIndex_ + (data.take b.writableBytes).length ≤ b.buffer_.length := by
    simp only [writableBytes, List.length_take]
    omega
  simp only [readable, advance, scatter, hn]
  rw [take_overwrite hroom, List.drop_append_of_le_length (by simp [h3, h2])]

/-- `readFd` appends what was delivered, in one piece. -/
theorem readable_readFd {b : Buffer} {data : Bytes} (h : data.length ≤ b.offered) :
    (b.readFd (.delivered data)).2.readable = b.readable ++ data := by
  have hwritable := b.writableBytes_scatter data
  simp only [readFd]
  split
  · next hfits =>
    have hall : data.take b.writableBytes = data := List.take_of_length_le (hwritable ▸ hfits)
    rw [readable_advance_scatter hfits (by rw [hall]), hall]
  · next hover =>
    rw [hwritable] at hover
    have hfull : b.writableBytes = (data.take b.writableBytes).length := by
      rw [List.length_take]
      omega
    -- the rest lies in `extrabuf`, which was offered because the buffer alone was too small
    have hextra : (data.drop b.writableBytes).length ≤ extrabufSize := by
      rw [List.length_drop]
      simp only [offered] at h
      split at h <;> omega
    have hrest : (overwrite (List.replicate extrabufSize 0) 0 (data.drop b.writableBytes)).take
        (data.length - b.writableBytes) = data.drop b.writableBytes := by
      have hstack : 0 + (data.drop b.writableBytes).length ≤
          (List.replicate extrabufSize (0 : UInt8)).length := by
        simpa using hextra
      simpa using take_overwrite hstack
    rw [readable_append, readable_advance_scatter (le_refl _) (hwritable.trans hfull), hrest,
      List.append_assoc, List.take_append_drop]

/-! ## `findCRLF` -/

theorem take_one_kCRLF : kCRLF.take 1 = [13] := by decide

theorem empty_iff (b : Buffer) : b.empty = true ↔ b.readable = [] := by
  rw [empty, beq_iff_eq, readable_eq_nil_iff]

/-- `findCRLF` stops at the first CR of the readable bytes, whatever follows it. -/
theorem findCRLF_eq (b : Buffer) :
    b.findCRLF = (cutAt 13 b.readable).map fun line => line.1.length := by
  unfold findCRLF
  rw [take_one_kCRLF, search_singleton]
  cases hcut : cutAt 13 b.readable with
  | none =>
      rw [takeWhile_ne_of_not_mem (cutAt_eq_none_iff.1 hcut)]
      simp
  | some p =>
      rcases cutAt_eq_some_iff.1 hcut with ⟨hb, hline⟩
      have hne : ¬ b.empty = true := by
        rw [empty_iff, hb]
        simp
      rw [if_neg hne, hb, takeWhile_ne_append hline]
      simp

/-- Consuming a line and the two bytes after it, when both are there. -/
theorem retrieveUntil_line {b : Buffer} {line rest : Bytes} {x : UInt8}
    (hb : b.readable = line ++ 13 :: x :: rest) :
    ∃ b', b.retrieveUntil (line.length + 2) = some b' ∧ b'.readable = rest := by
  cases h : b.retrieveUntil (line.length + 2) with
  | none =>
      rw [retrieveUntil_eq_none_iff, hb] at h
      simp only [List.length_append, List.length_cons] at h
      omega
  | some b' =>
      refine ⟨b', rfl, ?_⟩
      rw [readable_retrieveUntil h, hb, List.drop_append]
      simp

theorem retrieveUntil_line_end {b : Buffer} {line : Bytes} (hb : b.readable = line ++ [13]) :
    b.retrieveUntil (line.length + 2) = none := by
  rw [retrieveUntil_eq_none_iff, hb]
  simp

end Buffer
end Net
end Myoj
