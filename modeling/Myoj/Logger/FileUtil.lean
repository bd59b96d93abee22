import Myoj.Lib.Bytes

/-!
# FileUtil — writing a block to a log file

`FileUtil::append` calls `fwrite_unlocked` until the whole block is written.  A call that takes less than
it was given is followed by another one, also when the error flag is set: then a message is printed first.

* `Stream` — how the stream answers the calls;
* `write`, `appendLoop`, `append` — the loop, with fuel;
* `append_eq_some` — a loop that ends has written the whole block;
* `append_ends` — it ends when the stream takes enough;
* `writes_iff` — so writing a block terminates exactly then.
-/

namespace Myoj
namespace Logger

/-- `fp_`: what the calls of `fwrite_unlocked` will do.  A stream that has failed takes nothing more. -/
structure Stream where
  /-- How much the `k`-th call takes, if it is given as much. -/
  takes : Nat → Nat
  /-- `ferror` after the `k`-th call. -/
  error : Nat → Bool
  failed : ∀ {j k}, error j = true → j < k → takes k = 0 ∧ error k = true

/-- What `n` calls from the `k`-th on take together. -/
def Stream.room (stream : Stream) : Nat → Nat → Nat
  | _, 0 => 0
  | k, n + 1 => stream.takes k + stream.room (k + 1) n

structure FileUtil where
  /-- What the stream has accepted. -/
  contents : Bytes
  /-- How often `fwrite_unlocked` was called. -/
  calls : Nat
  writtenBytes_ : Nat
  /-- How many messages were printed on `stderr`. -/
  reported : Nat
  deriving DecidableEq, Repr

namespace FileUtil

def new : FileUtil where
  contents := []
  calls := 0
  writtenBytes_ := 0
  reported := 0

section operations

variable (stream : Stream)

def write (file : FileUtil) (data : Bytes) : Nat × FileUtil :=
  let n := min (stream.takes file.calls) data.length
  (n, { file with contents := file.contents ++ data.take n, calls := file.calls + 1 })

/-- `FileUtil::append() failed` -/
def report (file : FileUtil) : FileUtil := { file with reported := file.reported + 1 }

/-- The body of the loop. -/
def round (data : Bytes) (written : Nat) (file : FileUtil) : Nat × FileUtil :=
  let remain := data.length - written
  let (n, file') := file.write stream (data.drop written)
  (written + n, if n ≠ remain ∧ stream.error file.calls then file'.report else file')

def appendLoop (data : Bytes) : Nat → Nat → FileUtil → Option (Nat × FileUtil)
  | 0, _, _ => none
  | fuel + 1, written, file =>
      if written ≠ data.length then
        let (written, file) := round stream data written file
        appendLoop data fuel written file
      else some (written, file)

def append (fuel : Nat) (file : FileUtil) (data : Bytes) : Option FileUtil :=
  (appendLoop stream data fuel 0 file).map fun (written, file) =>
    { file with writtenBytes_ := file.writtenBytes_ + written }

/-- Writing the block terminates, and `writtenBytes_` grows by what the stream has accepted. -/
def Writes (file : FileUtil) (data : Bytes) : Prop :=
  ∃ fuel file', file.append stream fuel data = some file' ∧
    ∃ accepted, file'.contents = file.contents ++ accepted ∧
      file'.writtenBytes_ = file.writtenBytes_ + accepted.length

end operations

/-! ## The loop -/

variable {stream : Stream} {data : Bytes} {file file' : FileUtil}

section round

variable {written : Nat}

/-- As many bytes are accepted as the stream takes. -/
theorem round_written : (round stream data written file).1 =
    written + min (stream.takes file.calls) (data.length - written) := by
  simp [round, write]

theorem round_contents : (round stream data written file).2.contents =
    file.contents ++ (data.drop written).take (min (stream.takes file.calls) (data.length - written)) := by
  simp only [round, write, List.length_drop]
  split <;> rfl

theorem round_calls : (round stream data written file).2.calls = file.calls + 1 := by
  simp only [round, write, List.length_drop]
  split <;> rfl

theorem round_writtenBytes_ :
    (round stream data written file).2.writtenBytes_ = file.writtenBytes_ := by
  simp only [round, write, List.length_drop]
  split <;> rfl

theorem appendLoop_round (fuel : Nat) (h : written < data.length) :
    appendLoop stream data (fuel + 1) written file =
      appendLoop stream data fuel (round stream data written file).1
        (round stream data written file).2 := by
  rw [appendLoop, if_pos h.ne]

theorem appendLoop_done (fuel : Nat) :
    appendLoop stream data (fuel + 1) data.length file = some (data.length, file) := by
  rw [appendLoop, if_neg (by simp)]

end round

/-- When the loop ends the rest of the block is written, in so many calls. -/
theorem appendLoop_eq_some {fuel written written' : Nat} (hle : written ≤ data.length)
    (h : appendLoop stream data fuel written file = some (written', file')) :
    written' = data.length ∧ file'.contents = file.contents ++ data.drop written ∧
      file'.writtenBytes_ = file.writtenBytes_ ∧
      ∃ n, data.length - written ≤ stream.room file.calls n := by
  induction fuel generalizing written file with
  | zero =>
      cases h
  | succ fuel ih =>
      rcases hle.eq_or_lt with rfl | hlt
      · rw [appendLoop_done] at h
        cases h
        exact ⟨rfl, by simp, rfl, 0, by simp [Stream.room]⟩
      · rw [appendLoop_round fuel hlt] at h
        have hnext : (round stream data written file).1 ≤ data.length := by
          rw [round_written]
          omega
        obtain ⟨hdone, hcontents, hsame, n, hroom⟩ := ih hnext h
        rw [round_written] at hcontents hroom
        rw [round_calls] at hroom
        refine ⟨hdone, ?_, hsame.trans round_writtenBytes_, n + 1, ?_⟩
        · rw [hcontents, round_contents, List.append_assoc, ← List.drop_drop, List.take_append_drop]
        · simp only [Stream.room]
          omega

/-- The loop ends when the calls to come take what is left. -/
theorem appendLoop_ends {n written : Nat} (hle : written ≤ data.length)
    (h : data.length - written ≤ stream.room file.calls n) :
    ∃ fuel, (appendLoop stream data fuel written file).isSome := by
  induction n generalizing written file with
  | zero =>
      obtain rfl : written = data.length := by
        simp only [Stream.room] at h
        omega
      exact ⟨1, by rw [appendLoop_done]; rfl⟩
  | succ n ih =>
      rcases hle.eq_or_lt with rfl | hlt
      · exact ⟨1, by rw [appendLoop_done]; rfl⟩
      · simp only [Stream.room] at h
        have hnext : (round stream data written file).1 ≤ data.length := by
          rw [round_written]
          omega
        have hrest : data.length - (round stream data written file).1 ≤
            stream.room (round stream data written file).2.calls n := by
          rw [round_written, round_calls]
          omega
        obtain ⟨fuel, hfuel⟩ := ih hnext hrest
        exact ⟨fuel + 1, by rwa [appendLoop_round fuel hlt]⟩

/-! ## A block -/

/-- An append that returns has written the block. -/
theorem append_eq_some {fuel : Nat} (h : file.append stream fuel data = some file') :
    file'.contents = file.contents ++ data ∧
      file'.writtenBytes_ = file.writtenBytes_ + data.length ∧
      ∃ n, data.length ≤ stream.room file.calls n := by
  obtain ⟨⟨written, last⟩, hloop, rfl⟩ := Option.map_eq_some_iff.1 h
  obtain ⟨rfl, hcontents, hsame, hroom⟩ := appendLoop_eq_some (Nat.zero_le _) hloop
  exact ⟨hcontents, congrArg (· + data.length) hsame, hroom⟩

theorem append_ends {n : Nat} (h : data.length ≤ stream.room file.calls n) :
    ∃ fuel file', file.append stream fuel data = some file' := by
  obtain ⟨fuel, hfuel⟩ := appendLoop_ends (Nat.zero_le _) h
  obtain ⟨last, hlast⟩ := Option.isSome_iff_exists.1 hfuel
  exact ⟨fuel, _, by rw [append, hlast]; rfl⟩

/-- **Writing a block.**  It terminates, and counts what was accepted, just when the stream takes the
whole block in finitely many calls. -/
theorem writes_iff (stream : Stream) (file : FileUtil) (data : Bytes) :
    file.Writes stream data ↔ ∃ n, data.length ≤ stream.room file.calls n := by
  constructor
  · rintro ⟨fuel, file', happend, -⟩
    exact (append_eq_some happend).2.2
  · rintro ⟨n, hn⟩
    obtain ⟨fuel, file', happend⟩ := append_ends hn
    obtain ⟨hcontents, hwritten, -⟩ := append_eq_some happend
    exact ⟨fuel, file', happend, data, hcontents, hwritten⟩

/-- The disk is full. -/
def fullDisk : Stream where
  takes := fun _ => 0
  error := fun _ => true
  failed := fun _ _ => ⟨rfl, rfl⟩

/-- On a full disk a block of one byte keeps the logging thread for good. -/
theorem full_disk_never_returns :
    (∀ fuel, new.append fullDisk fuel [120] = none) ∧ ¬ new.Writes fullDisk [120] := by
  have hroom : ∀ k n, fullDisk.room k n = 0 := by
    intro k n
    induction n generalizing k with
    | zero =>
        rfl
    | succ n ih =>
        rw [Stream.room, ih]
        rfl
  have hnever : ∀ fuel, new.append fullDisk fuel [120] = none := by
    intro fuel
    cases happend : new.append fullDisk fuel [120] with
    | none =>
        rfl
    | some file' =>
        obtain ⟨-, -, n, hn⟩ := append_eq_some happend
        rw [hroom] at hn
        simp at hn
  refine ⟨hnever, ?_⟩
  rintro ⟨fuel, file', happend, -⟩
  rw [hnever] at happend
  cases happend

end FileUtil
end Logger
end Myoj
