import Myoj.Oj.Backend

/-!
# Utf8 — what `dump()` accepts

`dump()` throws on a string that is not UTF-8.  The texts of the program are (`validUtf8_bytes`), and
values put together from dumpable parts are dumpable.
-/

namespace Myoj
namespace Oj
namespace Json

/-! ## The decoder on encoded characters -/

theorem utf8Lead_ofNat {v : Nat} (h : v < 256) :
    utf8Lead (UInt8.ofNat v) =
      if v < 0x80 then some (0, 0x80, 0xBF)
      else if v < 0xC2 then none
      else if v < 0xE0 then some (1, 0x80, 0xBF)
      else if v = 0xE0 then some (2, 0xA0, 0xBF)
      else if v = 0xED then some (2, 0x80, 0x9F)
      else if v < 0xF0 then some (2, 0x80, 0xBF)
      else if v = 0xF0 then some (3, 0x90, 0xBF)
      else if v < 0xF4 then some (3, 0x80, 0xBF)
      else if v = 0xF4 then some (3, 0x80, 0x8F)
      else none := by
  have hval : (UInt8.ofNat v).toNat = v := UInt8.toNat_ofNat_of_lt' (by simpa using h)
  have hlt : ∀ w : UInt8, UInt8.ofNat v < w ↔ v < w.toNat := by
    intro w
    rw [UInt8.lt_iff_toNat_lt, hval]
  have heq : ∀ w : UInt8, UInt8.ofNat v = w ↔ v = w.toNat := by
    intro w
    rw [← UInt8.toNat_inj, hval]
  simp only [utf8Lead, hlt, heq, UInt8.toNat_ofNat]

theorem utf8Lead_three {v : Nat} (h : 0xE0 ≤ v) (h' : v < 0xF0) :
    ∃ lo hi, utf8Lead (UInt8.ofNat v) = some (2, lo, hi) ∧
      lo.toNat = (if v = 0xE0 then 0xA0 else 0x80) ∧ hi.toNat = if v = 0xED then 0x9F else 0xBF := by
  rw [utf8Lead_ofNat (by omega), if_neg (by omega), if_neg (by omega), if_neg (by omega)]
  by_cases hE0 : v = 0xE0
  · exact ⟨_, _, if_pos hE0, by simp [hE0], by simp [hE0]⟩
  · by_cases hED : v = 0xED
    · exact ⟨0x80, 0x9F, by simp [hED], by simp [hED], by simp [hED]⟩
    · exact ⟨0x80, 0xBF, by simp [hE0, hED, h'], by simp [hE0], by simp [hED]⟩

theorem utf8Lead_four {v : Nat} (h : 0xF0 ≤ v) (h' : v ≤ 0xF4) :
    ∃ lo hi, utf8Lead (UInt8.ofNat v) = some (3, lo, hi) ∧
      lo.toNat = (if v = 0xF0 then 0x90 else 0x80) ∧ hi.toNat = if v = 0xF4 then 0x8F else 0xBF := by
  rw [utf8Lead_ofNat (by omega), if_neg (by omega), if_neg (by omega), if_neg (by omega),
    if_neg (by omega), if_neg (by omega), if_neg (by omega)]
  by_cases hF0 : v = 0xF0
  · exact ⟨_, _, if_pos hF0, by simp [hF0], by simp [hF0]⟩
  · by_cases hF4 : v = 0xF4
    · exact ⟨0x80, 0x8F, by simp [hF4], by simp [hF4], by simp [hF4]⟩
    · have hlt : v < 0xF4 := by omega
      exact ⟨0x80, 0xBF, by simp [hF0, hlt], by simp [hF0], by simp [hF4]⟩

theorem utf8From_lead {n : Nat} {lo hi b : UInt8} (h : utf8Lead b = some (n, lo, hi)) (bs : Bytes) :
    utf8From 0 0x80 0xBF (b :: bs) = utf8From n lo hi bs := by
  simp only [utf8From, h]

/-- One continuation byte inside its bounds. -/
theorem utf8From_next {v : Nat} {lo hi : UInt8} {n : Nat} {bs : Bytes} (hv : v < 256)
    (hlo : lo.toNat ≤ v) (hhi : v ≤ hi.toNat) :
    utf8From (n + 1) lo hi (UInt8.ofNat v :: bs) = utf8From n 0x80 0xBF bs := by
  have hval : (UInt8.ofNat v).toNat = v := UInt8.toNat_ofNat_of_lt' (by simpa using hv)
  have h₁ : lo ≤ UInt8.ofNat v := by
    rw [UInt8.le_iff_toNat_le, hval]
    exact hlo
  have h₂ : UInt8.ofNat v ≤ hi := by
    rw [UInt8.le_iff_toNat_le, hval]
    exact hhi
  simp [utf8From, h₁, h₂]

/-- A continuation byte after the first. -/
theorem utf8From_tail {n v : Nat} {bs : Bytes} :
    utf8From (n + 1) 0x80 0xBF (UInt8.ofNat (v % 64 + 128) :: bs) = utf8From n 0x80 0xBF bs := by
  have hmod : v % 64 < 64 := Nat.mod_lt _ (by decide)
  exact utf8From_next (by omega) (by simp) (by simp only [UInt8.reduceToNat]; omega)

/-- The decoder passes over an encoded character. -/
theorem utf8From_utf8EncodeChar (c : Char) (bs : Bytes) :
    utf8From 0 0x80 0xBF (String.utf8EncodeChar c ++ bs) = utf8From 0 0x80 0xBF bs := by
  have hvalid : c.val.toNat.isValidChar := c.valid
  simp only [String.utf8EncodeChar]
  generalize c.val.toNat = v at hvalid
  simp only [Nat.isValidChar] at hvalid
  split_ifs with h₁ h₂ h₃
  · rw [List.singleton_append, utf8From, utf8Lead_ofNat (by omega), if_pos (by omega)]
  · simp only [List.cons_append, List.nil_append]
    rw [utf8From, utf8Lead_ofNat (by omega), if_neg (by omega), if_neg (by omega), if_pos (by omega)]
    exact utf8From_tail
  · -- surrogates are not characters, which is what the tighter bound after `0xED` asks for
    rcases utf8Lead_three (v := v / 4096 % 16 + 224) (by omega) (by omega) with
      ⟨lo, hi, hlead, hlo, hhi⟩
    simp only [List.cons_append, List.nil_append]
    rw [utf8From_lead hlead, utf8From_next (by omega) (by split_ifs at hlo <;> omega) (by split_ifs at hhi <;> omega)]
    exact utf8From_tail
  · rcases utf8Lead_four (v := v / 262144 % 8 + 240) (by omega) (by omega) with
      ⟨lo, hi, hlead, hlo, hhi⟩
    simp only [List.cons_append, List.nil_append]
    rw [utf8From_lead hlead, utf8From_next (by omega) (by split_ifs at hlo <;> omega) (by split_ifs at hhi <;> omega)]
    exact utf8From_tail.trans utf8From_tail

theorem validUtf8_flatMap (cs : List Char) :
    validUtf8 (cs.flatMap String.utf8EncodeChar) = true := by
  unfold validUtf8
  induction cs with
  | nil =>
      rfl
  | cons c cs ih =>
      rw [List.flatMap_cons, utf8From_utf8EncodeChar, ih]

/-- The texts of the program are UTF-8. -/
theorem validUtf8_bytes (s : String) : validUtf8 (bytes s) = true := by
  rcases s.isValidUTF8 with ⟨cs, hcs⟩
  have hbytes : bytes s = cs.flatMap String.utf8EncodeChar := by
    simp [bytes, hcs, List.utf8Encode]
  rw [hbytes, validUtf8_flatMap]

/-! ## Values -/

@[simp] theorem dumpable_str (s : String) : (str s).dumpable = true := by
  rw [str, dumpable, validUtf8_bytes]

@[simp] theorem validUtf8_to_string (n : Int) : validUtf8 (Numerals.to_string n) = true :=
  validUtf8_bytes _

@[simp] theorem dumpable_ofInt (n : Int) : (ofInt n).dumpable = true := rfl

theorem dumpableMembers_iff {ms : List (String × Json)} :
    dumpableMembers ms = true ↔ ∀ m ∈ ms, m.2.dumpable = true := by
  induction ms with
  | nil =>
      simp [dumpableMembers]
  | cons m ms ih =>
      rcases m with ⟨k, v⟩
      simp [dumpableMembers, ih]

theorem dumpableAll_iff {js : List Json} :
    dumpableAll js = true ↔ ∀ j ∈ js, j.dumpable = true := by
  induction js with
  | nil =>
      simp [dumpableAll]
  | cons j js ih =>
      simp [dumpableAll, ih]

theorem mem_assign {k : String} {v : Json} {ms : List (String × Json)} {m : String × Json}
    (h : m ∈ assign k v ms) : m = (k, v) ∨ m ∈ ms := by
  induction ms with
  | nil =>
      exact Or.inl (by simpa [assign] using h)
  | cons m' ms ih =>
      rcases m' with ⟨k', v'⟩
      by_cases hk : k' = k
      · simp only [assign, hk, if_true, List.mem_cons] at h
        exact h.imp id (List.mem_cons_of_mem _)
      · simp only [assign, hk, if_false, List.mem_cons] at h
        rcases h with rfl | h
        · exact Or.inr (by simp)
        · exact (ih h).imp id (List.mem_cons_of_mem _)

theorem dumpable_put {j : Json} {k : String} {v : Json} (hj : j.dumpable = true)
    (hv : v.dumpable = true) : (j.put k v).dumpable = true := by
  cases j with
  | object ms =>
      simp only [put, dumpable, dumpableMembers_iff] at hj ⊢
      intro m hm
      rcases mem_assign hm with rfl | hm
      · exact hv
      · exact hj m hm
  | _ =>
      simp [put, dumpable, dumpableMembers, hv]

end Json

theorem Doc.dumpable_toJson (fields : List String) (id : Int64) (doc : Doc) :
    (doc.toJson fields id).dumpable = true := by
  simp only [Doc.toJson, Json.dumpable, Json.dumpableMembers, Bool.true_and]
  refine Json.dumpableMembers_iff.2 fun m hm => ?_
  exact Json.dumpableMembers_iff.1 doc.utf8 m (List.mem_filter.1 hm).1

end Oj
end Myoj
