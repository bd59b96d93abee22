import Mathlib.Data.Int.Order.Basic
import Mathlib.Order.Basic
import Myoj.Lib.Runs
import Myoj.Logger.FileUtil

/-!
# LogFile — rolling over to the next file

After each block `appendInLock` looks whether the file holds more than `rollSize_` bytes and then asks
`rollFile` for a new one.  The name of a file tells the second, and `rollFile` opens no second file within
one: until the clock moves on, the blocks go where they went before.

* `LogObject` — a `FileUtil` that was opened, with the blocks it got;
* `LogFile` — the members, and all files so far;
* `rollFile`, `appendInLock` — what they do with the readings of `time(nullptr)`;
* `Bounded` — a file exceeds the roll size by more than its last block within one second only;
* `rolls_run` — this holds of all files, and the blocks are in order.

Every call of `FileUtil::append` is one that returns; `FileUtil.appendAll` is what such calls leave.
-/

namespace Myoj
namespace Logger

/-- A block that is written whole. -/
def FileUtil.appended (file : FileUtil) (block : Bytes) : FileUtil :=
  { file with
    contents := file.contents ++ block
    writtenBytes_ := file.writtenBytes_ + block.length }

/-- Up to the calls it took, this is what an append that returns does. -/
theorem FileUtil.append_eq_appended {stream : Stream} {fuel : Nat} {file file' : FileUtil} {block : Bytes}
    (h : file.append stream fuel block = some file') :
    file'.contents = (file.appended block).contents ∧
      file'.writtenBytes_ = (file.appended block).writtenBytes_ := by
  obtain ⟨hcontents, hwritten, -⟩ := append_eq_some h
  exact ⟨hcontents, hwritten⟩

/-- One block after the other, if every call returns. -/
def FileUtil.appendAll (stream : Stream) (fuel : Nat) : FileUtil → List Bytes → Option FileUtil
  | file, [] => some file
  | file, block :: blocks => do (← file.append stream fuel block).appendAll stream fuel blocks

theorem FileUtil.appendAll_eq_some {stream : Stream} {fuel : Nat} {file file' : FileUtil}
    {blocks : List Bytes} (h : file.appendAll stream fuel blocks = some file') :
    file'.contents = file.contents ++ blocks.flatten ∧
      file'.writtenBytes_ = file.writtenBytes_ + blocks.flatten.length := by
  induction blocks generalizing file with
  | nil =>
      cases h
      simp
  | cons block blocks ih =>
      obtain ⟨file₁, hfirst, hrest⟩ := Option.bind_eq_some_iff.1 h
      obtain ⟨hcontents, hwritten⟩ := append_eq_appended hfirst
      obtain ⟨hcontents', hwritten'⟩ := ih hrest
      rw [hcontents', hwritten', hcontents, hwritten]
      simp [appended, Nat.add_assoc]

/-- A log file that was opened. -/
structure LogObject where
  file : FileUtil
  blocks : List Bytes
  /-- `lastRoll_` when it was opened. -/
  openedAt : Int
  /-- The last reading of the clock before the last block. -/
  readBefore : Int
  deriving DecidableEq, Repr

namespace LogObject

/-- A new file. -/
def opened (now : Int) : LogObject :=
  { file := .new, blocks := [], openedAt := now, readBefore := now }

/-- One more block, after the clock was read as `read`. -/
def push (object : LogObject) (block : Bytes) (read : Int) : LogObject :=
  { object with
    file := object.file.appended block
    blocks := object.blocks ++ [block]
    readBefore := read }

def lastLength (object : LogObject) : Nat := (object.blocks.getLast?.map List.length).getD 0

end LogObject

/-- The parameters of the constructor. -/
structure LogFile.Config where
  rollSize_ : Int
  flushInterval_ : Int
  checkEveryN_ : Int

structure LogFile where
  count_ : Int
  startOfPeriod_ : Int
  lastRoll_ : Int
  lastFlush_ : Int
  /-- What `file_` points to, if it is not null. -/
  file_ : Option LogObject
  /-- The files that were closed, the first one first. -/
  closed : List LogObject
  /-- How often `time(nullptr)` was called. -/
  readings : Nat
  /-- A block was appended through the null pointer. -/
  crashed : Bool

namespace LogFile

def kRollPerSeconds_ : Int := 60 * 60 * 24

section operations

variable (conf : Config) (clock : Clock)

/-- The next reading of the clock. -/
def time (log : LogFile) : Int × LogFile :=
  (clock.reading log.readings, { log with readings := log.readings + 1 })

def rollFile (log : LogFile) : LogFile :=
  let (now, log) := log.time clock
  let start := now.tdiv kRollPerSeconds_ * kRollPerSeconds_
  if log.lastRoll_ < now then
    { log with
      lastRoll_ := now
      lastFlush_ := now
      startOfPeriod_ := start
      closed := log.closed ++ log.file_.toList
      file_ := some (.opened now) }
  else log

/-- What follows a block that leaves the file below the roll size. -/
def countBlock (log : LogFile) : LogFile :=
  let log := { log with count_ := log.count_ + 1 }
  if conf.checkEveryN_ ≤ log.count_ then
    let (now, log) := { log with count_ := 0 }.time clock
    let thisPeriod := now.tdiv kRollPerSeconds_ * kRollPerSeconds_
    if thisPeriod ≠ log.startOfPeriod_ then log.rollFile clock
    else if conf.flushInterval_ < now - log.lastFlush_ then { log with lastFlush_ := now }
    else log
  else log

def appendInLock (log : LogFile) (block : Bytes) : LogFile :=
  match log.file_ with
  | none => { log with crashed := true }
  | some object =>
      let object := object.push block (clock.reading (log.readings - 1))
      let log := { log with file_ := some object }
      if conf.rollSize_ < object.file.writtenBytes_ then log.rollFile clock
      else log.countBlock conf clock

/-- The constructor. -/
def new : LogFile :=
  rollFile clock
    { count_ := 0
      startOfPeriod_ := 0
      lastRoll_ := 0
      lastFlush_ := 0
      file_ := none
      closed := []
      readings := 0
      crashed := false }

end operations

/-- All files that were opened. -/
def objects (log : LogFile) : List LogObject := log.closed ++ log.file_.toList

/-! ## What is to hold -/

/-- The file exceeds the roll size by its last block at most; or it was above it before, and the clock had
not left the second in which the file was opened. -/
def Bounded (conf : Config) (object : LogObject) : Prop :=
  (object.file.writtenBytes_ : Int) ≤ max conf.rollSize_ 0 + object.lastLength ∨
    conf.rollSize_ + object.lastLength < object.file.writtenBytes_ ∧
      object.readBefore = object.openedAt

/-- What the file holds is its blocks, and is counted. -/
def Counted (object : LogObject) : Prop :=
  object.file.contents = object.blocks.flatten ∧
    object.file.writtenBytes_ = object.file.contents.length

/-- The files respect the roll size, as far as the clock lets them, and hold the blocks in order. -/
structure Rolls (conf : Config) (log : LogFile) (blocks : List Bytes) : Prop where
  bounded : ∀ object ∈ log.objects, Bounded conf object
  counted : ∀ object ∈ log.objects, Counted object
  in_order : log.crashed = false → log.objects.flatMap LogObject.blocks = blocks

/-! ## What is kept -/

/-- Whatever the current file holds. -/
structure Held (conf : Config) (clock : Clock) (log : LogFile) (blocks : List Bytes) : Prop
    extends Rolls conf log blocks where
  current : ∀ object, log.file_ = some object →
    object.openedAt = log.lastRoll_ ∧ log.lastRoll_ ≤ clock.reading (log.readings - 1)

/-- Before a block: when the file is above the roll size the clock has not moved on. -/
structure Inv (conf : Config) (clock : Clock) (log : LogFile) (blocks : List Bytes) : Prop
    extends Held conf clock log blocks where
  refused : ∀ object, log.file_ = some object → conf.rollSize_ < object.file.writtenBytes_ →
    clock.reading (log.readings - 1) = log.lastRoll_

variable {conf : Config} {clock : Clock} {log log' : LogFile} {blocks : List Bytes}

/-- The counters of blocks and flushes and the clock may differ. -/
structure SameFiles (log log' : LogFile) : Prop where
  file_ : log'.file_ = log.file_
  closed : log'.closed = log.closed
  lastRoll_ : log'.lastRoll_ = log.lastRoll_
  crashed : log'.crashed = log.crashed
  readings : log.readings ≤ log'.readings

theorem SameFiles.objects (hsame : SameFiles log log') : log'.objects = log.objects := by
  simp [LogFile.objects, hsame.file_, hsame.closed]

theorem Held.of_same (h : Held conf clock log blocks) (hsame : SameFiles log log') :
    Held conf clock log' blocks where
  bounded := hsame.objects ▸ h.bounded
  counted := hsame.objects ▸ h.counted
  in_order := by
    rw [hsame.crashed, hsame.objects]
    exact h.in_order
  current := by
    intro object hobject
    obtain ⟨hopened, hread⟩ := h.current object (hsame.file_ ▸ hobject)
    have hreadings := hsame.readings
    rw [hsame.lastRoll_]
    exact ⟨hopened, hread.trans (clock.monotone (by omega))⟩

theorem rollFile_cases (clock : Clock) (log : LogFile) :
    (log.lastRoll_ < clock.reading log.readings ∧
      (log.rollFile clock).lastRoll_ = clock.reading log.readings ∧
      (log.rollFile clock).closed = log.objects ∧
      (log.rollFile clock).file_ = some (.opened (clock.reading log.readings)) ∧
      (log.rollFile clock).readings = log.readings + 1 ∧
      (log.rollFile clock).crashed = log.crashed) ∨
    (clock.reading log.readings ≤ log.lastRoll_ ∧
      log.rollFile clock = { log with readings := log.readings + 1 }) := by
  by_cases hnow : log.lastRoll_ < clock.reading log.readings
  · refine .inl ⟨hnow, ?_⟩
    simp [rollFile, time, hnow, objects]
  · refine .inr ⟨not_lt.1 hnow, ?_⟩
    simp [rollFile, time, hnow]

/-- Asked for a new file, `rollFile` opens one unless the second is still that of the last one. -/
theorem Held.rollFile (h : Held conf clock log blocks) : Inv conf clock (log.rollFile clock) blocks := by
  rcases rollFile_cases clock log with
    ⟨-, hroll, hclosed, hfile, hreadings, hcrashed⟩ | ⟨hnow, hrefused⟩
  · have hobjects : (log.rollFile clock).objects =
        log.objects ++ [LogObject.opened (clock.reading log.readings)] := by
      simp [objects, hfile, hclosed]
    have hlatest : clock.reading ((log.rollFile clock).readings - 1) = (log.rollFile clock).lastRoll_ := by
      rw [hreadings, hroll, Nat.add_sub_cancel]
    refine ⟨⟨⟨?_, ?_, ?_⟩, ?_⟩, fun _ _ _ => hlatest⟩
    · rw [hobjects, List.forall_mem_append, List.forall_mem_singleton]
      refine ⟨h.bounded, .inl ?_⟩
      have hempty : ((LogObject.opened (clock.reading log.readings)).file.writtenBytes_ : Int) = 0 := rfl
      rw [hempty]
      omega
    · rw [hobjects, List.forall_mem_append, List.forall_mem_singleton]
      exact ⟨h.counted, rfl, rfl⟩
    · rw [hcrashed, hobjects, List.flatMap_append]
      intro hlive
      rw [h.in_order hlive]
      simp [LogObject.opened]
    · intro object hobject
      rw [hfile] at hobject
      cases hobject
      exact ⟨hroll.symm, hlatest.ge⟩
  · rw [hrefused]
    refine ⟨h.of_same ⟨rfl, rfl, rfl, rfl, Nat.le_succ _⟩, fun object hobject _ => ?_⟩
    -- the clock has not gone back either
    have hback : log.lastRoll_ ≤ clock.reading log.readings :=
      (h.current object hobject).2.trans (clock.monotone (Nat.sub_le _ _))
    exact le_antisymm hnow hback

/-- Now and then the period is looked at, and a new file is asked for when it is over. -/
theorem countBlock_cases (conf : Config) (clock : Clock) (log : LogFile) :
    SameFiles log (log.countBlock conf clock) ∨
      ∃ log', SameFiles log log' ∧ log.countBlock conf clock = log'.rollFile clock := by
  by_cases hcount : conf.checkEveryN_ ≤ log.count_ + 1
  · by_cases hperiod : (clock.reading log.readings).tdiv kRollPerSeconds_ * kRollPerSeconds_ =
        log.startOfPeriod_
    · left
      by_cases hflush : conf.flushInterval_ < clock.reading log.readings - log.lastFlush_
      · constructor <;> simp [countBlock, time, hcount, hperiod, hflush]
      · constructor <;> simp [countBlock, time, hcount, hperiod, hflush]
    · right
      refine ⟨{ log with count_ := 0, readings := log.readings + 1 }, ?_, ?_⟩
      · exact ⟨rfl, rfl, rfl, rfl, Nat.le_succ _⟩
      · simp [countBlock, time, hcount, hperiod]
  · left
    constructor <;> simp [countBlock, hcount]

/-- A file that is not above the roll size need not be rolled. -/
theorem Held.countBlock (h : Held conf clock log blocks)
    (hsize : ∀ object, log.file_ = some object → (object.file.writtenBytes_ : Int) ≤ conf.rollSize_) :
    Inv conf clock (log.countBlock conf clock) blocks := by
  rcases countBlock_cases conf clock log with hsame | ⟨log', hsame, hrolled⟩
  · refine ⟨h.of_same hsame, fun object hobject hover => ?_⟩
    exact absurd (hsize object (hsame.file_ ▸ hobject)) (not_le.2 hover)
  · rw [hrolled]
    exact (h.of_same hsame).rollFile

/-- The block makes the file at most as much larger as it is long; unless it fits, the file was above the
roll size before. -/
theorem bounded_push {object : LogObject} {read : Int} (block : Bytes)
    (h : conf.rollSize_ < object.file.writtenBytes_ → read = object.openedAt) :
    Bounded conf (object.push block read) := by
  have hlast : (object.push block read).lastLength = block.length := by
    simp [LogObject.push, LogObject.lastLength]
  have hwritten : (object.push block read).file.writtenBytes_ =
      object.file.writtenBytes_ + block.length := rfl
  unfold Bounded
  rw [hlast, hwritten]
  by_cases hover : conf.rollSize_ < object.file.writtenBytes_
  · exact .inr ⟨by omega, h hover⟩
  · exact .inl (by omega)

theorem counted_push {object : LogObject} (h : Counted object) (block : Bytes) (read : Int) :
    Counted (object.push block read) := by
  obtain ⟨hcontents, hwritten⟩ := h
  constructor
  · simp [LogObject.push, FileUtil.appended, hcontents]
  · simp [LogObject.push, FileUtil.appended, hwritten]

/-- The current file takes the block. -/
theorem Inv.push {object : LogObject} (h : Inv conf clock log blocks) (hfile : log.file_ = some object)
    (block : Bytes) :
    Held conf clock
      { log with file_ := some (object.push block (clock.reading (log.readings - 1))) }
      (blocks ++ [block]) := by
  have hobjects : log.objects = log.closed ++ [object] := by simp [objects, hfile]
  have hbounded := h.bounded
  have hcounted := h.counted
  have horder := h.in_order
  obtain ⟨hopened, hread⟩ := h.current object hfile
  rw [hobjects, List.forall_mem_append, List.forall_mem_singleton] at hbounded hcounted
  rw [hobjects] at horder
  refine ⟨⟨?_, ?_, ?_⟩, ?_⟩
  · simp only [objects, Option.toList_some, List.forall_mem_append, List.forall_mem_singleton]
    refine ⟨hbounded.1, bounded_push block fun hover => ?_⟩
    exact (h.refused object hfile hover).trans hopened.symm
  · simp only [objects, Option.toList_some, List.forall_mem_append, List.forall_mem_singleton]
    exact ⟨hcounted.1, counted_push hcounted.2 block _⟩
  · intro hlive
    simp only [objects, Option.toList_some, List.flatMap_append, List.flatMap_singleton] at horder ⊢
    rw [← horder hlive, List.append_assoc]
    rfl
  · intro pushed hpushed
    cases hpushed
    exact ⟨hopened, hread⟩

theorem Inv.appendInLock (h : Inv conf clock log blocks) (block : Bytes) :
    Inv conf clock (log.appendInLock conf clock block) (blocks ++ [block]) := by
  unfold LogFile.appendInLock
  split
  · exact ⟨⟨⟨h.bounded, h.counted, nofun⟩, h.current⟩, h.refused⟩
  · next object hfile =>
    have hheld := h.push hfile block
    dsimp only
    by_cases hover : conf.rollSize_ <
        (object.push block (clock.reading (log.readings - 1))).file.writtenBytes_
    · rw [if_pos hover]
      exact hheld.rollFile
    · rw [if_neg hover]
      refine hheld.countBlock fun pushed hpushed => ?_
      cases hpushed
      exact not_lt.1 hover

theorem inv_new (conf : Config) (clock : Clock) : Inv conf clock (new clock) [] :=
  Held.rollFile ⟨⟨by simp [objects], by simp [objects], fun _ => rfl⟩, nofun⟩

theorem inv_run (h : Inv conf clock log blocks) (bs : List Bytes) :
    Inv conf clock (bs.foldl (appendInLock conf clock) log) (blocks ++ bs) := by
  induction bs generalizing log blocks with
  | nil =>
      rwa [List.append_nil]
  | cons block bs ih =>
      have hrest := ih (h.appendInLock block)
      rwa [List.append_assoc] at hrest

/-! ## The null pointer -/

/-- There is a file to append to. -/
def Alive (log : LogFile) : Prop := log.file_.isSome ∧ log.crashed = false

theorem Alive.rollFile (h : Alive log) : Alive (log.rollFile clock) := by
  rcases rollFile_cases clock log with ⟨-, -, -, hfile, -, hcrashed⟩ | ⟨-, hrefused⟩
  · exact ⟨by rw [hfile]; rfl, hcrashed.trans h.2⟩
  · rw [hrefused]
    exact h

theorem Alive.appendInLock (h : Alive log) (block : Bytes) :
    Alive (log.appendInLock conf clock block) := by
  obtain ⟨hfile, hcrashed⟩ := h
  unfold LogFile.appendInLock
  split
  · next hnone =>
    rw [hnone] at hfile
    cases hfile
  · dsimp only
    split
    · exact Alive.rollFile ⟨rfl, hcrashed⟩
    · rename_i object _ _
      let log₁ : LogFile := { log with file_ := some (object.push block (clock.reading (log.readings - 1))) }
      have halive : Alive log₁ := ⟨rfl, hcrashed⟩
      rcases countBlock_cases conf clock log₁ with hsame | ⟨log', hsame, hrolled⟩
      · exact ⟨hsame.file_ ▸ halive.1, hsame.crashed.trans halive.2⟩
      · have halive' : Alive log' := ⟨hsame.file_ ▸ halive.1, hsame.crashed.trans halive.2⟩
        exact hrolled ▸ halive'.rollFile

/-- The constructor opens a file if the clock is past zero. -/
theorem alive_new (h : 0 < clock.reading 0) : Alive (new clock) := by
  simp [Alive, new, LogFile.rollFile, time, h]

theorem alive_run (h : 0 < clock.reading 0) (bs : List Bytes) :
    Alive (bs.foldl (LogFile.appendInLock conf clock) (new clock)) :=
  Runs.invariant_run (fun _ block halive => halive.appendInLock block) (alive_new h) bs

/-- No file was opened. -/
structure Unopened (log : LogFile) : Prop where
  file_ : log.file_ = none
  closed : log.closed = []

/-- Otherwise it opens none. -/
theorem unopened_new (h : clock.reading 0 ≤ 0) : Unopened (new clock) := by
  constructor <;> simp [new, LogFile.rollFile, time, not_lt.2 h]

/-- The first block goes through the null pointer. -/
theorem Unopened.foldl (h : Unopened log) (bs : List Bytes) :
    bs.foldl (LogFile.appendInLock conf clock) log = { log with crashed := log.crashed || !bs.isEmpty } := by
  induction bs generalizing log with
  | nil =>
      simp
  | cons block bs ih =>
      have hfirst : log.appendInLock conf clock block = { log with crashed := true } := by
        simp only [LogFile.appendInLock, h.file_]
      have hstill : Unopened { log with crashed := true } := ⟨h.file_, h.closed⟩
      rw [List.foldl_cons, hfirst, ih hstill]
      simp

/-! ## Runs -/

/-- Calls of `append` that return leave in a file what is counted for it. -/
theorem Counted.of_appendAll {object : LogObject} (h : Counted object) {stream : Stream} {fuel : Nat}
    {file : FileUtil} (happend : FileUtil.new.appendAll stream fuel object.blocks = some file) :
    file.contents = object.file.contents ∧ file.writtenBytes_ = object.file.writtenBytes_ := by
  obtain ⟨hcontents, hwritten⟩ := FileUtil.appendAll_eq_some happend
  constructor
  · rw [hcontents, h.1]
    exact List.nil_append _
  · rw [hwritten, h.2, h.1]
    exact Nat.zero_add _

/-- **Rolling.**  Whatever is appended, every file respects the roll size but for its last block, unless it
had to wait for the next second; the blocks are there in order; and each file holds what the calls of
`FileUtil::append` leave.  A clock that starts at zero or below opens no file, and the first block crashes. -/
theorem rolls_run (conf : Config) (clock : Clock) (bs : List Bytes) :
    Rolls conf (bs.foldl (appendInLock conf clock) (new clock)) bs ∧
      (∀ object ∈ (bs.foldl (appendInLock conf clock) (new clock)).objects, ∀ stream fuel file,
        FileUtil.new.appendAll stream fuel object.blocks = some file →
          file.contents = object.file.contents ∧ file.writtenBytes_ = object.file.writtenBytes_) ∧
      (0 < clock.reading 0 → (bs.foldl (appendInLock conf clock) (new clock)).crashed = false) ∧
      (clock.reading 0 ≤ 0 → (bs.foldl (appendInLock conf clock) (new clock)).objects = [] ∧
        (bs.foldl (appendInLock conf clock) (new clock)).crashed = !bs.isEmpty) := by
  have hrolls := (inv_run (inv_new conf clock) bs).toRolls
  refine ⟨hrolls, ?_, fun h => (alive_run h bs).2, fun h => ?_⟩
  · intro object hobject stream fuel file happend
    exact (hrolls.counted object hobject).of_appendAll happend
  · have hnew := unopened_new h
    rw [hnew.foldl]
    refine ⟨by simp [objects, hnew.file_, hnew.closed], ?_⟩
    simp [new, LogFile.rollFile, time, not_lt.2 h]

/-- Three blocks within a second share a file, however small the roll size is; and a negative roll size
is exceeded by any block. -/
theorem burst_exceeds :
    (∃ object ∈ ([List.replicate 8 0, List.replicate 8 0, List.replicate 8 0].foldl
        (appendInLock { rollSize_ := 10, flushInterval_ := 0, checkEveryN_ := 1024 }
          ⟨fun _ => 1, fun _ => Int.le_refl 1⟩) (new ⟨fun _ => 1, fun _ => Int.le_refl 1⟩)).objects,
      (10 + object.lastLength : Int) < object.file.writtenBytes_) ∧
    ∃ object ∈ ([List.replicate 8 0].foldl
        (appendInLock { rollSize_ := -1, flushInterval_ := 0, checkEveryN_ := 1024 }
          ⟨fun _ => 1, fun _ => Int.le_refl 1⟩) (new ⟨fun _ => 1, fun _ => Int.le_refl 1⟩)).objects,
      (-1 + object.lastLength : Int) < object.file.writtenBytes_ := by
  decide

end LogFile
end Logger
end Myoj
