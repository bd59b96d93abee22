import Myoj.Net.Buffer

/-!
# LineSearch — what `findCRLF` finds

The HTTP parser cuts the readable bytes into lines where `findCRLF` tells it to.  The pattern range it
passes to `std::search` is `[kCRLF, kCRLF + 1)`: the CR alone.

* `CRLFAt`, `FirstCRLF` — the pairs in the readable bytes;
* `FirstCR` — what is found;
* `FindsLine` — the position of the first pair is returned, and `nullptr` when there is none;
* `findsLine_iff` — the contents for which it is.

Bytes that were read before or lie beyond the write index belong to no pair.
-/

namespace Myoj
namespace Net
namespace Buffer

/-- At this offset from `peek()` a CR is followed by an LF, both readable. -/
def CRLFAt (b : Buffer) (p : Nat) : Prop := b.readable[p]? = some 13 ∧ b.readable[p + 1]? = some 10

def FirstCRLF (b : Buffer) (p : Nat) : Prop := b.CRLFAt p ∧ ∀ q < p, ¬ b.CRLFAt q

def FirstCR (b : Buffer) (p : Nat) : Prop :=
  b.readable[p]? = some 13 ∧ ∀ q < p, b.readable[q]? ≠ some 13

/-- The line search is exact. -/
structure FindsLine (b : Buffer) : Prop where
  found : ∀ p, b.findCRLF = some p ↔ b.FirstCRLF p
  missed : b.findCRLF = none ↔ ∀ p, ¬ b.CRLFAt p

variable {b : Buffer} {p : Nat}

theorem findCRLF_eq_some_iff : b.findCRLF = some p ↔ b.FirstCR p := by
  rw [findCRLF_eq, Option.map_eq_some_iff]
  constructor
  · rintro ⟨⟨line, rest⟩, hcut, rfl⟩
    obtain ⟨hreadable, hline⟩ := cutAt_eq_some_iff.1 hcut
    constructor
    · simp [hreadable]
    · intro q hq hcr
      rw [hreadable, List.getElem?_append_left hq] at hcr
      exact hline (List.mem_of_getElem? hcr)
  · rintro ⟨hcr, hfirst⟩
    obtain ⟨hp, hget⟩ := List.getElem?_eq_some_iff.1 hcr
    -- the line is what stands before the CR
    have hreadable : b.readable = b.readable.take p ++ 13 :: b.readable.drop (p + 1) := by
      rw [← hget, ← List.drop_eq_getElem_cons hp, List.take_append_drop]
    have hline : 13 ∉ b.readable.take p := by
      intro hmem
      obtain ⟨q, hq, hget⟩ := List.mem_take_iff_getElem.1 hmem
      exact hfirst q (by omega) (by rw [List.getElem?_eq_getElem (by omega), hget])
    refine ⟨(b.readable.take p, b.readable.drop (p + 1)), cutAt_eq_some_iff.2 ⟨hreadable, hline⟩, ?_⟩
    rw [List.length_take]
    omega

theorem findCRLF_eq_none_iff : b.findCRLF = none ↔ 13 ∉ b.readable := by
  rw [findCRLF_eq, Option.map_eq_none_iff, cutAt_eq_none_iff]

theorem not_CRLFAt_of_not_mem (h : 13 ∉ b.readable) (p : Nat) : ¬ b.CRLFAt p :=
  fun hpair => h (List.mem_of_getElem? hpair.1)

/-- No pair starts before the first CR. -/
theorem FirstCR.le_of_CRLFAt {q : Nat} (h : b.FirstCR p) (hq : b.CRLFAt q) : p ≤ q :=
  Nat.le_of_not_lt fun hlt => h.2 q hlt hq.1

/-- **Line search.**  It is exact for the contents whose first CR, if there is one, has an LF behind it. -/
theorem findsLine_iff (b : Buffer) :
    b.FindsLine ↔ ∀ p, b.FirstCR p → b.readable[p + 1]? = some 10 := by
  constructor
  · intro h p hp
    have hpair : b.FirstCRLF p := (h.found p).1 (findCRLF_eq_some_iff.2 hp)
    exact hpair.1.2
  · intro hfollowed
    cases hfind : b.findCRLF with
    | none =>
        have hnone := not_CRLFAt_of_not_mem (findCRLF_eq_none_iff.1 hfind)
        constructor
        · intro p
          rw [hfind]
          exact iff_of_false (by simp) fun hp => hnone p hp.1
        · rw [hfind]
          exact iff_of_true rfl hnone
    | some p =>
        have hp : b.FirstCR p := findCRLF_eq_some_iff.1 hfind
        have hpair : b.CRLFAt p := ⟨hp.1, hfollowed p hp⟩
        have hfirst : ∀ q < p, ¬ b.CRLFAt q := fun q hlt hq => absurd (hp.le_of_CRLFAt hq) (by omega)
        constructor
        · intro q
          rw [hfind, Option.some.injEq]
          constructor
          · rintro rfl
            exact ⟨hpair, hfirst⟩
          · rintro ⟨hq, hleast⟩
            have hle : p ≤ q := hp.le_of_CRLFAt hq
            have hge : q ≤ p := Nat.le_of_not_lt fun hlt => hleast p hlt hpair
            exact Nat.le_antisymm hle hge
        · rw [hfind]
          exact iff_of_false (by simp) fun hnone => hnone p hpair

/-- A CR in the middle of a line is taken for its end. -/
theorem lone_cr_found :
    ((Buffer.new 8).append (bytes "a\rb\r\n")).findCRLF = some 1 ∧
      ((Buffer.new 8).append (bytes "a\rb\r\n")).FirstCRLF 3 ∧
      ¬ ((Buffer.new 8).append (bytes "a\rb\r\n")).FindsLine := by
  have hreadable : ((Buffer.new 8).append (bytes "a\rb\r\n")).readable = bytes "a\rb\r\n" := by
    rw [readable_append]
    rfl
  have hfind : ((Buffer.new 8).append (bytes "a\rb\r\n")).findCRLF = some 1 := by
    rw [findCRLF_eq, hreadable]
    decide
  have hpair : ((Buffer.new 8).append (bytes "a\rb\r\n")).FirstCRLF 3 := by
    simp only [FirstCRLF, CRLFAt, hreadable]
    decide
  refine ⟨hfind, hpair, fun h => ?_⟩
  have hwrong := (h.found 3).2 hpair
  rw [hfind] at hwrong
  cases hwrong

end Buffer
end Net
end Myoj
