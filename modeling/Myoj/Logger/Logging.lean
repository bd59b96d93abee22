import Myoj.Logger.LogStream

/-!
# Logging — the record of a log statement, and how it is written out

A `Logger` puts the time and the level into its stream, takes the message, and in its destructor appends
the place in the source and a newline.  `defaultOutput` passes the record to `fwrite`: as `sizeof(data)`
members of the length of the record each, where `data` is a pointer.

* `Environment`, `Statement` — what the stream is given;
* `record` — the stream when `finish` has returned;
* `defaultOutput`, `requested` — the bytes that are to be written;
* `record_of_room` — a message that leaves room gives one whole line;
* `not_wholeLine` — whatever the statement, more than the record is asked for.
-/

namespace Myoj
namespace Logger

inductive LogLevel where
  | TRACE
  | DEBUG
  | INFO
  | WARN
  | ERROR
  | FATAL
  deriving DecidableEq, Repr

def LogLevel.getLevelName : LogLevel → String
  | .TRACE => "TRACE"
  | .DEBUG => "DEBUG"
  | .INFO => "INFO"
  | .WARN => "WARN"
  | .ERROR => "ERROR"
  | .FATAL => "FATAL"

/-- What a statement finds outside the program. -/
structure Environment where
  /-- The first bytes of `t_time`. -/
  t_time : { s : Bytes // s.length = 17 }
  microseconds : Fin 1000000
  /-- The byte behind the zero of a level's name. -/
  beyond : UInt8
  /-- `getErrnoMsg` -/
  errnoMsg : Int32 → Bytes

/-- A log statement: the arguments of the constructor, and what is inserted. -/
structure Statement where
  file : Bytes
  line : Int32
  level : LogLevel
  /-- `LOG_DEBUG` passes the name of the function. -/
  func : Option Bytes
  message : List Insertion

/-- `SourceFile`: what stands behind the last slash. -/
def basename (filename : Bytes) : Bytes := ((cstr filename).reverse.takeWhile (· ≠ 47)).reverse

namespace Environment

variable (env : Environment)

/-- The two templates of `formatTime`; `%06d` fills up with zeros. -/
def formatTime : List Insertion :=
  let digits := Numerals.to_string env.microseconds.val
  let buf := List.replicate (6 - digits.length) 48 ++ digits ++ [0]
  [.string env.t_time, .string (buf.take 7)]

/-- `Impl::Impl`.  Six bytes of the name are taken, one too many of the names of four letters. -/
def header (level : LogLevel) (savedErrno : Int32) : List Insertion :=
  let name := bytes level.getLevelName ++ [0, env.beyond]
  env.formatTime ++ [.string (name.take 6)] ++
    if savedErrno ≠ 0 then
      [.pointer (some (env.errnoMsg savedErrno)), .pointer (some (bytes "(errno=")), .int savedErrno,
        .pointer (some (bytes ")"))]
    else []

end Environment

namespace Statement

/-- `Impl::finish` -/
def finish (st : Statement) : List Insertion :=
  [.pointer (some (bytes " - ")), .string (basename st.file), .char 58, .int st.line, .char 10]

/-- All that is inserted, from the constructor to the destructor. -/
def insertions (env : Environment) (st : Statement) : List Insertion :=
  let func : List Insertion :=
    match st.func with
    | some func => [.pointer (some func), .char 32]
    | none => []
  env.header st.level 0 ++ func ++ st.message ++ st.finish

/-- The stream when `finish` has returned. -/
def record (env : Environment) (st : Statement) (data_ : { data : Bytes // data.length = kSmallBuffer }) :
    Option (CharArray kSmallBuffer) :=
  (st.insertions env).foldlM LogStream.insert (CharArray.new data_)

end Statement

/-- The arguments of `fwrite`. -/
structure FwriteCall where
  size : Nat
  nmemb : Nat
  deriving DecidableEq, Repr

/-- How many bytes, from `data` on, are to be written. -/
def FwriteCall.requested (call : FwriteCall) : Nat := call.size * call.nmemb

/-- `fwrite(data, len, sizeof(data), stdout)`, on a machine of 64 bits. -/
def defaultOutput (len : Nat) : FwriteCall := { size := len, nmemb := 8 }

/-- The statement emits its record, and this is a line. -/
def Statement.WholeLine (env : Environment) (st : Statement)
    (data_ : { data : Bytes // data.length = kSmallBuffer }) : Prop :=
  ∃ b, st.record env data_ = some b ∧ (defaultOutput b.cur_).requested = b.text.length ∧
    b.text.getLast? = some 10

/-! ## The record -/

namespace Statement

variable (env : Environment) (st : Statement) (data_ : { data : Bytes // data.length = kSmallBuffer })

theorem record_eq :
    ∃ b, st.record env data_ = some b ∧ b.cur_ = b.text.length ∧
      b.text = ((Insertion.fitting kSmallBuffer 0 (st.insertions env)).map Insertion.rendering).flatten := by
  obtain ⟨b, hrun, hcur, htext⟩ := LogStream.insertions_eq (b := CharArray.new data_)
    (show 0 < kSmallBuffer by decide) (by decide) (st.insertions env)
  refine ⟨b, hrun, (CharArray.length_text hcur.le).symm, ?_⟩
  simpa [CharArray.text, CharArray.new] using htext

/-- The time is there in any case. -/
theorem length_record_pos {b : CharArray kSmallBuffer} (h : st.record env data_ = some b) :
    0 < b.text.length ∧ b.cur_ = b.text.length := by
  obtain ⟨b', hrun, hcur, htext⟩ := st.record_eq env data_
  obtain rfl : b' = b := Option.some.inj (hrun.symm.trans h)
  refine ⟨?_, hcur⟩
  have hfirst : ∃ rest, st.insertions env = .string env.t_time :: rest := ⟨_, rfl⟩
  obtain ⟨rest, hrest⟩ := hfirst
  have hfits : (Insertion.string env.t_time).fits (kSmallBuffer - 0) = true := by
    simp only [Insertion.fits, Insertion.rendering, env.t_time.2]
    decide
  rw [htext, hrest, Insertion.fitting, if_pos hfits, List.map_cons, List.flatten_cons, List.length_append]
  have hlen : (Insertion.string env.t_time).rendering.length = 17 := env.t_time.2
  omega

end Statement

/-- With 48 bytes to spare everything fits. -/
theorem Insertion.fitting_of_room {SIZE used : Nat} {vs : List Insertion}
    (h : used + (vs.map Insertion.rendering).flatten.length + 48 ≤ SIZE) :
    Insertion.fitting SIZE used vs = vs := by
  induction vs generalizing used with
  | nil =>
      rfl
  | cons v vs ih =>
      rw [List.map_cons, List.flatten_cons, List.length_append] at h
      have hfits : v.fits (SIZE - used) = true := by
        cases v <;> simp only [Insertion.fits, decide_eq_true_eq] <;> omega
      rw [Insertion.fitting, if_pos hfits, ih (by omega)]

/-- A message that leaves 48 bytes gives one whole record, with the newline at its end. -/
theorem Statement.record_of_room (env : Environment) (st : Statement)
    (data_ : { data : Bytes // data.length = kSmallBuffer })
    (h : ((st.insertions env).map Insertion.rendering).flatten.length + 48 ≤ kSmallBuffer) :
    ∃ b, st.record env data_ = some b ∧
      b.text = ((st.insertions env).map Insertion.rendering).flatten ∧ b.text.getLast? = some 10 := by
  obtain ⟨b, hrun, -, htext⟩ := st.record_eq env data_
  rw [Insertion.fitting_of_room (by omega)] at htext
  refine ⟨b, hrun, htext, ?_⟩
  have hend : ((st.insertions env).map Insertion.rendering).flatten =
      (((st.insertions env).dropLast).map Insertion.rendering).flatten ++ [10] := by
    have hlast : st.insertions env = (st.insertions env).dropLast ++ [.char 10] := by
      simp [Statement.insertions, Statement.finish, List.dropLast_append_of_ne_nil]
    conv_lhs => rw [hlast]
    simp [Insertion.rendering]
  rw [htext, hend, List.getLast?_concat]

/-! ## What is written -/

/-- **The sink.**  No statement is emitted as it stands: `fwrite` is asked for eight times its length. -/
theorem Statement.not_wholeLine (env : Environment) (st : Statement)
    (data_ : { data : Bytes // data.length = kSmallBuffer }) : ¬ st.WholeLine env data_ := by
  rintro ⟨b, hrun, hrequested, -⟩
  obtain ⟨hpos, hcur⟩ := st.length_record_pos env data_ hrun
  simp only [FwriteCall.requested, defaultOutput] at hrequested
  omega

/-- `LOG_INFO << "started";` asks for 408 bytes of a record of 51. -/
theorem Statement.started_requests :
    let env : Environment :=
      { t_time := ⟨bytes "20220826 16:29:10", by decide⟩, microseconds := 773804, beyond := 0,
        errnoMsg := fun _ => [] }
    let st : Statement :=
      { file := bytes "/src/main.cc", line := 12, level := .INFO, func := none,
        message := [.pointer (some (bytes "started"))] }
    ∀ data_, (∃ b, st.record env data_ = some b ∧ b.text.length = 51 ∧
      (defaultOutput b.cur_).requested = 408) ∧ ¬ st.WholeLine env data_ := by
  intro env st data_
  obtain ⟨b, hrun, hcur, htext⟩ := st.record_eq env data_
  have hlen : b.text.length = 51 := by
    rw [htext]
    decide
  refine ⟨⟨b, hrun, hlen, ?_⟩, ?_⟩
  · rw [hcur, hlen]
    rfl
  · rintro ⟨b', hrun', hrequested, -⟩
    obtain rfl : b = b' := Option.some.inj (hrun.symm.trans hrun')
    rw [hcur, hlen] at hrequested
    cases hrequested

end Logger
end Myoj
