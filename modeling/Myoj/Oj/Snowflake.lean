import Myoj.Lib.BitFields
import Myoj.Lib.Runs
import Mathlib.Algebra.Group.Int.Defs

/-!
# Snowflake — the generator of ids

`snowflake<TWEPOCH>` puts the milliseconds since its epoch, the numbers of a datacenter and a worker, and
a sequence number into one `int64_t`.  When the sequence numbers of a millisecond are used up, it reads
the clock until the next one.

* `init`, `millsecond`, `wait_next_millis`, `nextid` — the functions; the steady clock is a `Clock`, and
  `fuel` bounds the readings of the loop;
* `Call`, `run` — calls in any order, one after another, as the lock has it;
* `Earlier` — a time and a sequence number before another;
* `nextid_spec` — what one call hands out and leaves behind;
* `run_earlier` — the ids of a run, each earlier than the next.
-/

namespace Myoj
namespace Oj

/-- The members, and how often the steady clock has been read. -/
structure Snowflake where
  start_millsecond_ : Int64
  last_timestamp_ : Int64
  workerid_ : Int64
  datacenterid_ : Int64
  sequence_ : Int64
  reads : Nat
  deriving DecidableEq, Repr

namespace Snowflake

/-! ## The constants -/

def TWEPOCH : Int64 := 1534832906275

def MAX_WORKER_ID : Int64 := 31

def MAX_DATACENTER_ID : Int64 := 31

def WORKER_ID_SHIFT : Int64 := 12

def DATACENTER_ID_SHIFT : Int64 := 17

def TIMESTAMP_LEFT_SHIFT : Int64 := 22

def SEQUENCE_MASK : Int64 := 4095

/-! ## The functions -/

/-- A new generator; the argument is what the system clock shows. -/
def new (start_millsecond : Int64) : Snowflake where
  start_millsecond_ := start_millsecond
  last_timestamp_ := -1
  workerid_ := 0
  datacenterid_ := 0
  sequence_ := 0
  reads := 0

def init (workerid datacenterid : Int64) (g : Snowflake) : Except String Snowflake :=
  if workerid > MAX_WORKER_ID ∨ workerid < 0 then
    .error "worker Id can't be greater than 31 or less than 0"
  else if datacenterid > MAX_DATACENTER_ID ∨ datacenterid < 0 then
    .error "datacenter Id can't be greater than 31 or less than 0"
  else .ok { g with workerid_ := workerid, datacenterid_ := datacenterid }

variable (clock : Clock)

/-- The system clock at the start, and the milliseconds the steady clock has counted since. -/
def millsecond (g : Snowflake) : Int64 × Snowflake :=
  (g.start_millsecond_ + Int64.ofInt (clock.reading g.reads), { g with reads := g.reads + 1 })

/-- Reads until the clock is past `last`; none when it is not after `fuel` readings. -/
def wait_next_millis (last : Int64) : Nat → Snowflake → Option (Int64 × Snowflake)
  | 0, _ => none
  | fuel + 1, g =>
      let (timestamp, g) := g.millsecond clock
      if timestamp ≤ last then wait_next_millis last fuel g else some (timestamp, g)

/-- The last two lines of `nextid`. -/
def compose (timestamp : Int64) (g : Snowflake) : Int64 × Snowflake :=
  ((timestamp - TWEPOCH) <<< TIMESTAMP_LEFT_SHIFT ||| g.datacenterid_ <<< DATACENTER_ID_SHIFT |||
      g.workerid_ <<< WORKER_ID_SHIFT ||| g.sequence_,
    { g with last_timestamp_ := timestamp })

def nextid (fuel : Nat) (g : Snowflake) : Option (Int64 × Snowflake) :=
  let (timestamp, g) := g.millsecond clock
  if g.last_timestamp_ = timestamp then
    let g := { g with sequence_ := (g.sequence_ + 1) &&& SEQUENCE_MASK }
    if g.sequence_ = 0 then
      match wait_next_millis clock g.last_timestamp_ fuel g with
      | none => none
      | some (timestamp, g) => some (g.compose timestamp)
    else some (g.compose timestamp)
  else some ({ g with sequence_ := 0 }.compose timestamp)

/-! ## Runs -/

inductive Call where
  | init (workerid datacenterid : Int64)
  | nextid
  deriving DecidableEq, Repr

/-- The ids that calls hand out, and the generator behind them; what `init` throws leaves the generator
as it was. -/
def run (fuel : Nat) : Snowflake → List Call → Option (List Int64 × Snowflake)
  | g, [] => some ([], g)
  | g, .init workerid datacenterid :: calls =>
      match g.init workerid datacenterid with
      | .ok g => run fuel g calls
      | .error _ => run fuel g calls
  | g, .nextid :: calls =>
      match g.nextid clock fuel with
      | none => none
      | some (id, g) =>
          match run fuel g calls with
          | none => none
          | some (ids, g) => some (id :: ids, g)

/-! ## What an id says -/

/-- Within the 2 ^ 41 milliseconds that the first field has room for. -/
def InEpoch (time : Int) : Prop := TWEPOCH.toInt ≤ time ∧ time < TWEPOCH.toInt + 2 ^ 41

instance : DecidablePred InEpoch := fun _ => inferInstanceAs (Decidable (_ ∧ _))

/-- A time and the sequence number within it. -/
structure Stamp where
  time : Int
  sequence : Int
  deriving DecidableEq, Repr

def Earlier (a b : Stamp) : Prop := a.time < b.time ∨ (a.time = b.time ∧ a.sequence < b.sequence)

instance : DecidableRel Earlier := fun _ _ => inferInstanceAs (Decidable (_ ∨ _))

theorem Earlier.trans {a b c : Stamp} (hab : Earlier a b) (hbc : Earlier b c) : Earlier a c := by
  unfold Earlier at *
  omega

/-- What an id was made from. -/
def stampOf (id : Int64) : Stamp := ⟨id.toInt / 2 ^ 22 + TWEPOCH.toInt, id.toInt % 2 ^ 12⟩

def datacenterOf (id : Int64) : Int := id.toInt / 2 ^ 17 % 2 ^ 5

def workerOf (id : Int64) : Int := id.toInt / 2 ^ 12 % 2 ^ 5

/-- The stamp of the last id. -/
def stamp (g : Snowflake) : Stamp := ⟨g.last_timestamp_.toInt, g.sequence_.toInt⟩

/-- What the `n`-th reading of the clock makes `millsecond` return. -/
def instant (g : Snowflake) (n : Nat) : Int := g.start_millsecond_.toInt + clock.reading n

/-- The fields have room. -/
structure Fields (g : Snowflake) : Prop where
  datacenterid : 0 ≤ g.datacenterid_.toInt ∧ g.datacenterid_.toInt < 2 ^ 5
  workerid : 0 ≤ g.workerid_.toInt ∧ g.workerid_.toInt < 2 ^ 5
  sequence : 0 ≤ g.sequence_.toInt ∧ g.sequence_.toInt < 2 ^ 12

/-- The clock has not gone behind the last id. -/
structure Inv (g : Snowflake) : Prop where
  fields : Fields g
  behind : g.last_timestamp_.toInt ≤ g.instant clock g.reads

theorem toInt_TWEPOCH : TWEPOCH.toInt = 1534832906275 := by decide

theorem toBitVec_shiftLeft {x k : Int64} {n : Nat} (h : (k.toBitVec.smod 64).toNat = n) :
    (x <<< k).toBitVec = x.toBitVec <<< n := by
  rw [Int64.toBitVec_shiftLeft, BitVec.shiftLeft_eq', h]

theorem toBitVec_compose (g : Snowflake) (timestamp : Int64) :
    (g.compose timestamp).1.toBitVec =
      (timestamp - TWEPOCH).toBitVec <<< 22 ||| (g.datacenterid_.toBitVec <<< 17 |||
        (g.workerid_.toBitVec <<< 12 ||| g.sequence_.toBitVec)) := by
  simp only [compose, Int64.toBitVec_or]
  rw [toBitVec_shiftLeft (k := TIMESTAMP_LEFT_SHIFT) (n := 22) (by decide),
    toBitVec_shiftLeft (k := DATACENTER_ID_SHIFT) (n := 17) (by decide),
    toBitVec_shiftLeft (k := WORKER_ID_SHIFT) (n := 12) (by decide), BitVec.or_assoc, BitVec.or_assoc]

/-- The id as a number. -/
theorem toInt_compose {g : Snowflake} {timestamp : Int64} (hfields : Fields g)
    (hepoch : InEpoch timestamp.toInt) :
    (g.compose timestamp).1.toInt = (timestamp.toInt - TWEPOCH.toInt) * 2 ^ 22 +
      (g.datacenterid_.toInt * 2 ^ 17 + (g.workerid_.toInt * 2 ^ 12 + g.sequence_.toInt)) := by
  obtain ⟨⟨hd, hd'⟩, ⟨hw, hw'⟩, ⟨hs, hs'⟩⟩ := hfields
  unfold InEpoch at hepoch
  have hage : (timestamp - TWEPOCH).toInt = timestamp.toInt - TWEPOCH.toInt := by
    rw [toInt_TWEPOCH] at hepoch
    rw [Int64.toInt_sub, toInt_TWEPOCH, Int.bmod_eq_of_le] <;> omega
  have htime := BitFields.toNat_of_nonneg (x := (timestamp - TWEPOCH).toBitVec)
  have hdatacenter := BitFields.toNat_of_nonneg (x := g.datacenterid_.toBitVec) hd
  have hworker := BitFields.toNat_of_nonneg (x := g.workerid_.toBitVec) hw
  have hsequence := BitFields.toNat_of_nonneg (x := g.sequence_.toBitVec) hs
  simp only [Int64.toInt_toBitVec] at htime hdatacenter hworker hsequence
  specialize htime (by omega)
  -- from the lowest field up, each one above a rest that is known by then
  have hlow : (g.workerid_.toBitVec <<< 12 ||| g.sequence_.toBitVec).toNat = _ :=
    BitFields.toNat_shiftLeft_or 12 (by omega) (by omega)
  have hmiddle : (g.datacenterid_.toBitVec <<< 17 |||
      (g.workerid_.toBitVec <<< 12 ||| g.sequence_.toBitVec)).toNat = _ :=
    BitFields.toNat_shiftLeft_or 17 (by omega) (by omega)
  have hword : (g.compose timestamp).1.toBitVec.toNat = _ :=
    (congrArg BitVec.toNat (toBitVec_compose g timestamp)).trans
      (BitFields.toNat_shiftLeft_or 22 (by omega) (by omega))
  rw [← Int64.toInt_toBitVec, BitVec.toInt_eq_toNat_of_lt (by omega)]
  omega

/-- What went into an id can be read from it. -/
theorem compose_fields {g : Snowflake} {timestamp : Int64} (hfields : Fields g)
    (hepoch : InEpoch timestamp.toInt) :
    stampOf (g.compose timestamp).1 = (g.compose timestamp).2.stamp ∧
      datacenterOf (g.compose timestamp).1 = g.datacenterid_.toInt ∧
      workerOf (g.compose timestamp).1 = g.workerid_.toInt ∧ 0 ≤ (g.compose timestamp).1.toInt := by
  have hid := toInt_compose hfields hepoch
  obtain ⟨⟨hd, hd'⟩, ⟨hw, hw'⟩, ⟨hs, hs'⟩⟩ := hfields
  unfold InEpoch at hepoch
  rw [stampOf, datacenterOf, workerOf, hid]
  refine ⟨?_, by omega, by omega, by omega⟩
  have htime : (g.compose timestamp).2.stamp = ⟨timestamp.toInt, g.sequence_.toInt⟩ := rfl
  rw [htime, Stamp.mk.injEq]
  omega

/-- Ids of one node compare as their stamps do. -/
theorem lt_of_earlier {id id' : Int64} (hd : datacenterOf id = datacenterOf id')
    (hw : workerOf id = workerOf id') (h : Earlier (stampOf id) (stampOf id')) : id < id' := by
  rw [Int64.lt_iff_toInt_lt]
  simp only [datacenterOf, workerOf, Earlier, stampOf] at hd hw h
  omega

/-! ## One call -/

variable {clock} {fuel : Nat} {g g' : Snowflake} {id : Int64}

/-- The generator once the clock was read the `n`-th time, with its next sequence number. -/
def readTo (g : Snowflake) (n : Nat) (sequence : Int64) : Snowflake :=
  { g with reads := n + 1, sequence_ := sequence }

variable (clock) in
/-- What `millsecond` returns at the `n`-th reading. -/
def millsecondAt (g : Snowflake) (n : Nat) : Int64 :=
  g.start_millsecond_ + Int64.ofInt (clock.reading n)

theorem toInt_millsecondAt {n : Nat} (h : InEpoch (g.instant clock n)) :
    (g.millsecondAt clock n).toInt = g.instant clock n := by
  unfold InEpoch instant at h
  rw [toInt_TWEPOCH] at h
  have hsize : Int64.size = 2 ^ 64 := rfl
  rw [millsecondAt, instant, Int64.toInt_add, Int64.toInt_ofInt, hsize, Int.add_bmod_bmod,
    Int.bmod_eq_of_le] <;> omega

/-- The loop ends at the first reading past `last`. -/
theorem wait_next_millis_eq_some {last timestamp : Int64}
    (h : wait_next_millis clock last fuel g = some (timestamp, g')) :
    ∃ n, g.reads ≤ n ∧ g' = g.readTo n g.sequence_ ∧ timestamp = g.millsecondAt clock n ∧ last < timestamp := by
  induction fuel generalizing g with
  | zero =>
      cases h
  | succ fuel ih =>
      by_cases hlast : g.millsecondAt clock g.reads ≤ last
      · obtain ⟨n, hn, rfl, ht, hpast⟩ := ih ((if_pos hlast).symm.trans h)
        exact ⟨n, Nat.le_of_succ_le hn, rfl, ht, hpast⟩
      · cases (if_neg hlast).symm.trans h
        exact ⟨g.reads, Nat.le_refl _, rfl, rfl, Int64.not_le.1 hlast⟩

/-- What a call reads, and the sequence number it takes: the next one in the same millisecond, or 0 in
another. -/
theorem nextid_cases (h : g.nextid clock fuel = some (id, g')) :
    ∃ n sequence, g.reads ≤ n ∧
      (id, g') = (g.readTo n sequence).compose (g.millsecondAt clock n) ∧
        ((g.last_timestamp_ = g.millsecondAt clock n ∧ sequence = (g.sequence_ + 1) &&& SEQUENCE_MASK ∧
            sequence ≠ 0) ∨
          (sequence = 0 ∧ g.last_timestamp_ ≠ g.millsecondAt clock n ∧
            (n = g.reads ∨ g.last_timestamp_ < g.millsecondAt clock n))) := by
  by_cases hlast : g.last_timestamp_ = g.millsecondAt clock g.reads
  · have hsame := (if_pos hlast).symm.trans h
    by_cases hzero : (g.sequence_ + 1) &&& SEQUENCE_MASK = 0
    · have hwaits := (if_pos hzero).symm.trans hsame
      split at hwaits
      · cases hwaits
      · rename_i hwait
        obtain ⟨n, hn, rfl, rfl, hpast⟩ := wait_next_millis_eq_some hwait
        refine ⟨n, 0, Nat.le_of_succ_le hn, ?_, .inr ⟨rfl, Int64.ne_of_lt hpast, .inr hpast⟩⟩
        rw [← Option.some.inj hwaits, hzero]
        rfl
    · have hnext := (if_neg hzero).symm.trans hsame
      exact ⟨g.reads, _, Nat.le_refl _, (Option.some.inj hnext).symm, .inl ⟨hlast, rfl, hzero⟩⟩
  · have hother := (if_neg hlast).symm.trans h
    exact ⟨g.reads, 0, Nat.le_refl _, (Option.some.inj hother).symm, .inr ⟨rfl, hlast, .inl rfl⟩⟩

/-- A call reads the clock, and leaves its start alone. -/
theorem reads_nextid (h : g.nextid clock fuel = some (id, g')) :
    g.reads < g'.reads ∧ g'.start_millsecond_ = g.start_millsecond_ := by
  obtain ⟨n, sequence, hn, heq, -⟩ := nextid_cases h
  obtain ⟨-, rfl⟩ := Prod.mk.inj heq
  exact ⟨Nat.lt_succ_of_le hn, rfl⟩

/-- The mask lets the sequence number wrap to 0. -/
theorem toInt_next_sequence {sequence : Int64} (h : 0 ≤ sequence.toInt ∧ sequence.toInt < 2 ^ 12)
    (hzero : (sequence + 1) &&& SEQUENCE_MASK ≠ 0) :
    ((sequence + 1) &&& SEQUENCE_MASK).toInt = sequence.toInt + 1 ∧ sequence.toInt + 1 < 2 ^ 12 := by
  have hnext : (sequence + 1).toInt = sequence.toInt + 1 := by
    have hone : (1 : Int64).toInt = 1 := by decide
    rw [Int64.toInt_add, hone, Int.bmod_eq_of_le] <;> omega
  have hnat := BitFields.toNat_of_nonneg (x := (sequence + 1).toBitVec)
  rw [Int64.toInt_toBitVec] at hnat
  specialize hnat (by omega)
  have hmask : SEQUENCE_MASK.toBitVec.toNat = 2 ^ 12 - 1 := by decide
  have hand : ((sequence + 1) &&& SEQUENCE_MASK).toBitVec.toNat = (sequence + 1).toBitVec.toNat % 2 ^ 12 := by
    rw [Int64.toBitVec_and, BitVec.toNat_and, hmask, Nat.and_two_pow_sub_one_eq_mod]
  have hint : ((sequence + 1) &&& SEQUENCE_MASK).toInt = (sequence.toInt + 1) % 2 ^ 12 := by
    rw [← Int64.toInt_toBitVec, BitVec.toInt_eq_toNat_of_lt (by omega)]
    omega
  have hne : ((sequence + 1) &&& SEQUENCE_MASK).toInt ≠ 0 := fun h0 =>
    hzero (Int64.toInt_inj.1 h0)
  omega

/-- **One call.**  The id says when and where it was made, and it is earlier than nothing before it. -/
theorem nextid_spec (hinv : Inv clock g) (h : g.nextid clock fuel = some (id, g'))
    (hepoch : ∀ n < g'.reads, InEpoch (g.instant clock n)) :
    Inv clock g' ∧ Earlier g.stamp g'.stamp ∧ stampOf id = g'.stamp ∧
      datacenterOf id = g.datacenterid_.toInt ∧ workerOf id = g.workerid_.toInt ∧ 0 ≤ id.toInt ∧
      g'.datacenterid_ = g.datacenterid_ ∧ g'.workerid_ = g.workerid_ := by
  obtain ⟨n, sequence, hn, heq, hcase⟩ := nextid_cases h
  obtain ⟨rfl, rfl⟩ := Prod.mk.inj heq
  have hinstant : InEpoch (g.instant clock n) := hepoch n (Nat.lt_succ_self n)
  have htime := toInt_millsecondAt hinstant
  have hbehind : g.last_timestamp_.toInt ≤ g.instant clock n := by
    have hmono := clock.monotone hn
    have hlast := hinv.behind
    unfold instant at *
    omega
  have hsequence : (0 ≤ sequence.toInt ∧ sequence.toInt < 2 ^ 12) ∧
      Earlier g.stamp ⟨g.instant clock n, sequence.toInt⟩ := by
    rcases hcase with ⟨hsame, rfl, hzero⟩ | ⟨rfl, hother, -⟩
    · have hnext := toInt_next_sequence hinv.fields.sequence hzero
      have hseq := hinv.fields.sequence
      rw [← hsame] at htime
      exact ⟨by omega, .inr ⟨htime, by simp only [stamp]; omega⟩⟩
    · have hne : g.last_timestamp_.toInt ≠ g.instant clock n := fun heq =>
        hother (Int64.toInt_inj.1 (heq.trans htime.symm))
      exact ⟨by decide, .inl (by simp only [stamp]; omega)⟩
  have hfields : Fields (g.readTo n sequence) :=
    ⟨hinv.fields.datacenterid, hinv.fields.workerid, hsequence.1⟩
  obtain ⟨hstamp, hd, hw, hpos⟩ := compose_fields hfields (by rw [htime]; exact hinstant)
  refine ⟨⟨⟨hfields.datacenterid, hfields.workerid, hfields.sequence⟩, ?_⟩, ?_, hstamp, hd, hw, hpos,
    rfl, rfl⟩
  · have hlater := clock.monotone (Nat.le_add_right n 1)
    change (g.millsecondAt clock n).toInt ≤ g.instant clock (n + 1)
    rw [htime]
    unfold instant
    omega
  · change Earlier g.stamp ⟨(g.millsecondAt clock n).toInt, sequence.toInt⟩
    rw [htime]
    exact hsequence.2

/-! ## Runs of calls -/

variable {calls : List Call} {ids : List Int64} {workerid datacenterid : Int64}

/-- `init` takes numbers that have room, and changes nothing else. -/
theorem init_eq_ok (h : g.init workerid datacenterid = .ok g') :
    (0 ≤ workerid.toInt ∧ workerid.toInt < 2 ^ 5) ∧
      (0 ≤ datacenterid.toInt ∧ datacenterid.toInt < 2 ^ 5) ∧
      g' = { g with workerid_ := workerid, datacenterid_ := datacenterid } := by
  have hmaxWorker : MAX_WORKER_ID.toInt = 31 := by decide
  have hmaxDatacenter : MAX_DATACENTER_ID.toInt = 31 := by decide
  have hzero : (0 : Int64).toInt = 0 := by decide
  unfold init at h
  split at h
  · cases h
  · rename_i hworker
    split at h
    · cases h
    · rename_i hdatacenter
      rw [gt_iff_lt, Int64.lt_iff_toInt_lt, Int64.lt_iff_toInt_lt] at hworker hdatacenter
      cases h
      exact ⟨by omega, by omega, rfl⟩

/-- `init` keeps the invariant and the stamp. -/
theorem inv_init (hinv : Inv clock g) (h : g.init workerid datacenterid = .ok g') :
    Inv clock g' ∧ g'.stamp = g.stamp ∧ g'.start_millsecond_ = g.start_millsecond_ ∧ g'.reads = g.reads := by
  obtain ⟨hw, hd, rfl⟩ := init_eq_ok h
  exact ⟨⟨⟨hd, hw, hinv.fields.sequence⟩, hinv.behind⟩, rfl, rfl, rfl⟩

theorem inv_new {start_millsecond : Int64} (hepoch : InEpoch ((new start_millsecond).instant clock 0)) :
    Inv clock (new start_millsecond) := by
  refine ⟨⟨by simp [new], by simp [new], by simp [new]⟩, ?_⟩
  have hlast : (-1 : Int64).toInt = -1 := by decide
  unfold InEpoch at hepoch
  rw [toInt_TWEPOCH] at hepoch
  change (-1 : Int64).toInt ≤ (new start_millsecond).instant clock 0
  omega

/-- The clock is read at least once for every id. -/
theorem reads_run (h : run clock fuel g calls = some (ids, g')) :
    g.reads + ids.length ≤ g'.reads ∧ g'.start_millsecond_ = g.start_millsecond_ := by
  induction calls generalizing g ids with
  | nil =>
      cases h
      exact ⟨Nat.le_refl _, rfl⟩
  | cons call calls ih =>
      cases call with
      | init workerid datacenterid =>
          simp only [run] at h
          split at h
          · rename_i g₁ hinit
            obtain ⟨hreads, hstart⟩ := ih h
            obtain ⟨-, -, rfl⟩ := init_eq_ok hinit
            exact ⟨hreads, hstart⟩
          · exact ih h
      | nextid =>
          simp only [run] at h
          split at h
          · cases h
          · rename_i hnext
            split at h
            · cases h
            · rename_i hrest
              cases h
              obtain ⟨hread, hstart₁⟩ := reads_nextid hnext
              obtain ⟨hreads, hstart⟩ := ih hrest
              rw [List.length_cons]
              exact ⟨by omega, hstart.trans hstart₁⟩

/-- **A run.**  Every id is earlier than those after it, and later than what the generator handed out
before. -/
theorem run_earlier (hinv : Inv clock g) (h : run clock fuel g calls = some (ids, g'))
    (hepoch : ∀ n < g'.reads, InEpoch (g.instant clock n)) :
    (∀ id ∈ ids, Earlier g.stamp (stampOf id) ∧ 0 ≤ id.toInt) ∧
      ids.Pairwise fun a b => Earlier (stampOf a) (stampOf b) := by
  induction calls generalizing g ids with
  | nil =>
      cases h
      exact ⟨fun _ hmem => absurd hmem List.not_mem_nil, .nil⟩
  | cons call calls ih =>
      cases call with
      | init workerid datacenterid =>
          simp only [run] at h
          split at h
          · rename_i g₁ hinit
            obtain ⟨hinv₁, hstamp, hstart, -⟩ := inv_init hinv hinit
            have hrest := ih hinv₁ h (by simpa only [instant, hstart] using hepoch)
            rwa [hstamp] at hrest
          · exact ih hinv h hepoch
      | nextid =>
          simp only [run] at h
          split at h
          · cases h
          · rename_i id g₁ hnext
            split at h
            · cases h
            · rename_i ids₁ g₂ hrest
              cases h
              obtain ⟨hreads, -⟩ := reads_run hrest
              obtain ⟨-, hstart⟩ := reads_nextid hnext
              obtain ⟨hinv₁, hearlier, hstamp, -, -, hpos, -⟩ :=
                nextid_spec hinv hnext fun n hn => hepoch n (by omega)
              obtain ⟨hlater, hpairwise⟩ := ih hinv₁ hrest (by simpa only [instant, hstart] using hepoch)
              rw [← hstamp] at hearlier hlater
              refine ⟨?_, hpairwise.cons fun id' hid' => (hlater id' hid').1⟩
              rintro id' (_ | ⟨_, hid'⟩)
              · exact ⟨hearlier, hpos⟩
              · exact ⟨hearlier.trans (hlater id' hid').1, (hlater id' hid').2⟩

/-- The only node that is set is this one. -/
def SameNode (workerid datacenterid : Int64) (calls : List Call) : Prop :=
  ∀ call ∈ calls, call = .nextid ∨ call = .init workerid datacenterid

instance : Decidable (SameNode workerid datacenterid calls) :=
  inferInstanceAs (Decidable (∀ call ∈ calls, _))

/-- Every id carries the node of its generator. -/
theorem run_node (hinv : Inv clock g) (hnode : g.workerid_ = workerid ∧ g.datacenterid_ = datacenterid)
    (hsame : SameNode workerid datacenterid calls) (h : run clock fuel g calls = some (ids, g'))
    (hepoch : ∀ n < g'.reads, InEpoch (g.instant clock n)) :
    ∀ id ∈ ids, workerOf id = workerid.toInt ∧ datacenterOf id = datacenterid.toInt := by
  induction calls generalizing g ids with
  | nil =>
      cases h
      exact fun _ hmem => absurd hmem List.not_mem_nil
  | cons call calls ih =>
      obtain ⟨hcall, hcalls⟩ := List.forall_mem_cons.1 hsame
      rcases hcall with rfl | rfl
      · simp only [run] at h
        split at h
        · cases h
        · rename_i id g₁ hnext
          split at h
          · cases h
          · rename_i ids₁ g₂ hrest
            cases h
            obtain ⟨hreads, -⟩ := reads_run hrest
            obtain ⟨-, hstart⟩ := reads_nextid hnext
            obtain ⟨hinv₁, -, -, hd, hw, -, hd₁, hw₁⟩ :=
              nextid_spec hinv hnext fun n hn => hepoch n (by omega)
            have hlater := ih hinv₁ ⟨hw₁.trans hnode.1, hd₁.trans hnode.2⟩ hcalls hrest
              (by simpa only [instant, hstart] using hepoch)
            rintro id' (_ | ⟨_, hid'⟩)
            · exact ⟨hw.trans (congrArg Int64.toInt hnode.1), hd.trans (congrArg Int64.toInt hnode.2)⟩
            · exact hlater id' hid'
      · simp only [run] at h
        split at h
        · rename_i g₁ hinit
          obtain ⟨hinv₁, -, hstart, -⟩ := inv_init hinv hinit
          have hnode₁ : g₁.workerid_ = workerid ∧ g₁.datacenterid_ = datacenterid := by
            obtain ⟨-, -, rfl⟩ := init_eq_ok hinit
            exact ⟨rfl, rfl⟩
          exact ih hinv₁ hnode₁ hcalls h (by simpa only [instant, hstart] using hepoch)
        · exact ih hinv hnode hcalls h hepoch

/-- A run that hands out nothing, or a clock that was in the epoch when it was read first. -/
theorem inv_new_or_nil {start_millsecond : Int64} (hfirst : g.reads = 0)
    (h : run clock fuel g calls = some (ids, g'))
    (hepoch : ∀ n < g'.reads, InEpoch ((new start_millsecond).instant clock n)) :
    ids = [] ∨ Inv clock (new start_millsecond) := by
  obtain ⟨hreads, -⟩ := reads_run h
  cases ids with
  | nil =>
      exact .inl rfl
  | cons id ids =>
      rw [List.length_cons] at hreads
      exact .inr (inv_new (hepoch 0 (by omega)))

/-- The ids of a generator that was given a node. -/
theorem run_init_node {start_millsecond : Int64}
    (hinit : (new start_millsecond).init workerid datacenterid = .ok g)
    (hsame : SameNode workerid datacenterid calls) (h : run clock fuel g calls = some (ids, g'))
    (hepoch : ∀ n < g'.reads, InEpoch ((new start_millsecond).instant clock n)) :
    ∀ id ∈ ids, workerOf id = workerid.toInt ∧ datacenterOf id = datacenterid.toInt := by
  obtain ⟨-, -, hg⟩ := init_eq_ok hinit
  have hnode : g.workerid_ = workerid ∧ g.datacenterid_ = datacenterid := by
    rw [hg]
    exact ⟨rfl, rfl⟩
  rcases inv_new_or_nil (by rw [hg]; rfl) h hepoch with rfl | hnew
  · exact fun _ hmem => absurd hmem List.not_mem_nil
  · obtain ⟨hinv, -, hstart, -⟩ := inv_init hnew hinit
    exact run_node hinv hnode hsame h (by simpa only [instant, hstart] using hepoch)

/-- **Ids.**  Over a clock that does not go back and stays within the epoch, calls in any order hand out
each id once, and stamps that increase; on one node the ids themselves increase, and name the node. -/
theorem ids_increase (clock : Clock) (start_millsecond : Int64) (fuel : Nat) (calls : List Call)
    (ids : List Int64) (g : Snowflake)
    (hrun : run clock fuel (new start_millsecond) calls = some (ids, g))
    (hepoch : ∀ n < g.reads, InEpoch ((new start_millsecond).instant clock n)) :
    ids.Nodup ∧ (ids.Pairwise fun a b => Earlier (stampOf a) (stampOf b)) ∧
      ∀ workerid datacenterid g₀ rest, calls = .init workerid datacenterid :: rest →
        (new start_millsecond).init workerid datacenterid = .ok g₀ → SameNode workerid datacenterid rest →
          ids.Pairwise (· < ·) ∧
            ∀ id ∈ ids, workerOf id = workerid.toInt ∧ datacenterOf id = datacenterid.toInt := by
  have hearlier : ids.Pairwise fun a b => Earlier (stampOf a) (stampOf b) := by
    rcases inv_new_or_nil rfl hrun hepoch with rfl | hinv
    · exact .nil
    · exact (run_earlier hinv hrun hepoch).2
  refine ⟨hearlier.imp fun {a b} h heq => ?_, hearlier, ?_⟩
  · rw [heq] at h
    unfold Earlier at h
    omega
  · rintro workerid datacenterid g₀ rest rfl hinit hsame
    simp only [run, hinit] at hrun
    have hnodes := run_init_node hinit hsame hrun hepoch
    refine ⟨hearlier.imp_of_mem fun {a b} ha hb h => ?_, hnodes⟩
    obtain ⟨hwa, hda⟩ := hnodes a ha
    obtain ⟨hwb, hdb⟩ := hnodes b hb
    exact lt_of_earlier (hda.trans hdb.symm) (hwa.trans hwb.symm) h

/-- A clock that gains a millisecond with every second reading. -/
def slowClock : Clock where
  reading := fun n => (n / 2 : Nat)
  monotone := fun h => Int.ofNat_le.2 (Nat.div_le_div_right h)

/-- Three ids in two milliseconds. -/
theorem ids_increase_three :
    run slowClock 0 (new 1534832906276) [.init 1 1, .nextid, .nextid, .nextid] =
        some ([4329472, 4329473, 8523776], ⟨1534832906276, 1534832906277, 1, 1, 0, 3⟩) ∧
      [(4329472 : Int64), 4329473, 8523776].Nodup := by
  have hrun : run slowClock 0 (new 1534832906276) [.init 1 1, .nextid, .nextid, .nextid] =
      some ([4329472, 4329473, 8523776], ⟨1534832906276, 1534832906277, 1, 1, 0, 3⟩) := by
    decide +kernel
  exact ⟨hrun, (ids_increase slowClock 1534832906276 0 _ _ _ hrun (by decide +kernel)).1⟩

/-- **Nodes.**  Generators on different nodes share no id, whatever their clocks show within the epoch. -/
theorem ids_disjoint (clock clock' : Clock) (fuel fuel' : Nat) (start start' : Int64)
    (node node' : Int64 × Int64) (g₀ g₀' g g' : Snowflake) (calls calls' : List Call)
    (ids ids' : List Int64) (hnodes : node ≠ node')
    (hinit : (new start).init node.1 node.2 = .ok g₀)
    (hinit' : (new start').init node'.1 node'.2 = .ok g₀')
    (hsame : SameNode node.1 node.2 calls) (hsame' : SameNode node'.1 node'.2 calls')
    (hrun : run clock fuel g₀ calls = some (ids, g))
    (hrun' : run clock' fuel' g₀' calls' = some (ids', g'))
    (hepoch : ∀ n < g.reads, InEpoch ((new start).instant clock n))
    (hepoch' : ∀ n < g'.reads, InEpoch ((new start').instant clock' n)) : ids.Disjoint ids' := by
  intro id hid hid'
  obtain ⟨hw, hd⟩ := run_init_node hinit hsame hrun hepoch id hid
  obtain ⟨hw', hd'⟩ := run_init_node hinit' hsame' hrun' hepoch' id hid'
  apply hnodes
  rw [Prod.ext_iff]
  exact ⟨Int64.toInt_inj.1 (hw.symm.trans hw'), Int64.toInt_inj.1 (hd.symm.trans hd')⟩

/-- Two generators in the same millisecond. -/
theorem ids_disjoint_same_millisecond :
    [(4329472 : Int64), 4329473].Disjoint [4333568, 4333569] :=
  ids_disjoint slowClock slowClock 0 0 1534832906276 1534832906276 (1, 1) (2, 1) _ _ _ _
    [.nextid, .nextid] [.nextid, .nextid] _ _ (by decide) rfl rfl (by decide) (by decide)
    (by decide +kernel : run slowClock 0 ⟨1534832906276, -1, 1, 1, 0, 0⟩ [.nextid, .nextid] =
      some ([4329472, 4329473], ⟨1534832906276, 1534832906276, 1, 1, 1, 2⟩))
    (by decide +kernel : run slowClock 0 ⟨1534832906276, -1, 2, 1, 0, 0⟩ [.nextid, .nextid] =
      some ([4333568, 4333569], ⟨1534832906276, 1534832906276, 2, 1, 1, 2⟩))
    (by decide +kernel) (by decide +kernel)

/-! ## Waiting -/

/-- The loop ends when the clock gets past `last`, and how much fuel was left does not matter. -/
theorem wait_next_millis_of_past {last : Int64} {n : Nat} (hn : g.reads ≤ n)
    (hlast : last < g.millsecondAt clock n) :
    ∃ enough r, ∀ fuel, enough ≤ fuel → wait_next_millis clock last fuel g = some r := by
  obtain ⟨k, rfl⟩ := Nat.exists_eq_add_of_le hn
  clear hn
  induction k generalizing g with
  | zero =>
      refine ⟨1, (g.millsecondAt clock g.reads, g.readTo g.reads g.sequence_), fun fuel hfuel => ?_⟩
      obtain ⟨fuel, rfl⟩ := Nat.exists_eq_add_of_le' hfuel
      exact if_neg (Int64.not_le.2 hlast)
  | succ k ih =>
      by_cases hfirst : g.millsecondAt clock g.reads ≤ last
      · have hlater : last < (g.readTo g.reads g.sequence_).millsecondAt clock
            ((g.readTo g.reads g.sequence_).reads + k) := by
          rw [show (g.readTo g.reads g.sequence_).reads + k = g.reads + (k + 1) by
            simp only [readTo]; omega]
          exact hlast
        obtain ⟨enough, r, hr⟩ := ih hlater
        refine ⟨enough + 1, r, fun fuel hfuel => ?_⟩
        obtain ⟨fuel, rfl⟩ := Nat.exists_eq_add_of_le' (Nat.le_trans (Nat.le_add_left 1 enough) hfuel)
        exact (if_pos hfirst).trans (hr fuel (by omega))
      · refine ⟨1, (g.millsecondAt clock g.reads, g.readTo g.reads g.sequence_), fun fuel hfuel => ?_⟩
        obtain ⟨fuel, rfl⟩ := Nat.exists_eq_add_of_le' hfuel
        exact if_neg hfirst

variable (clock g) in
/-- The numbers of the millisecond are used up. -/
def Exhausted : Prop :=
  g.last_timestamp_ = g.millsecondAt clock g.reads ∧ (g.sequence_ + 1) &&& SEQUENCE_MASK = 0

/-- **Waiting.**  A call comes back, with one and the same id however much fuel there is beyond what it
needs, unless the numbers of its millisecond are used up and the clock never shows a later one. -/
theorem nextid_returns_iff (clock : Clock) (g : Snowflake) :
    (∃ enough r, ∀ fuel, enough ≤ fuel → g.nextid clock fuel = some r) ↔
      ¬ Exhausted clock g ∨ ∃ n, g.reads < n ∧ g.last_timestamp_ < g.millsecondAt clock n := by
  constructor
  · rintro ⟨enough, r, hr⟩
    by_contra hnot
    rw [not_or, not_not] at hnot
    obtain ⟨⟨hlast, hzero⟩, hnever⟩ := hnot
    have h := hr enough (Nat.le_refl _)
    have hwaits := (if_pos hzero).symm.trans ((if_pos hlast).symm.trans h)
    split at hwaits
    · cases hwaits
    · rename_i hwait
      obtain ⟨n, hn, -, rfl, hpast⟩ := wait_next_millis_eq_some hwait
      exact hnever ⟨n, hn, hpast⟩
  · intro h
    by_cases hlast : g.last_timestamp_ = g.millsecondAt clock g.reads
    · by_cases hzero : (g.sequence_ + 1) &&& SEQUENCE_MASK = 0
      · obtain ⟨n, hn, hpast⟩ := h.resolve_left (not_not.2 ⟨hlast, hzero⟩)
        obtain ⟨enough, r, hr⟩ := wait_next_millis_of_past
          (g := g.readTo g.reads ((g.sequence_ + 1) &&& SEQUENCE_MASK)) hn hpast
        refine ⟨enough, r.2.compose r.1, fun fuel hfuel => (if_pos hlast).trans ((if_pos hzero).trans ?_)⟩
        have hwait := hr fuel hfuel
        simp only [readTo] at hwait
        simp only [hwait]
      · exact ⟨0, _, fun fuel _ => (if_pos hlast).trans (if_neg hzero)⟩
    · exact ⟨0, _, fun fuel _ => if_neg hlast⟩

end Snowflake
end Oj
end Myoj
