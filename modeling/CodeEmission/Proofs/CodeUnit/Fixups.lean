import CodeEmission.Proofs.CodeUnit.WellFormed

/-!
# Symbol Fields Inside Machine Code

An instruction may say where in its machine code the 32-bit field for a symbol starts. The checks
ask that the field ends inside the machine code, but they compute its end as a 64-bit word. From an
offset of `2 ^ 63 - 4` on that sum is negative, and then it passes for an end inside any machine
code.

* `Inst.FieldInside` and `Inst.FieldWraps`: where the field lies and whether its end is a word, both
  as exact numbers.
* `fixupFits_iff_inside_or_wraps`: what the test for a field decides.
* `field_inside_unless_wraps`: in a unit that passes the checks, a field lies inside its
  machine code exactly when its end does not wrap.

A field at the largest offset passes and lies far outside (`wrapped_field_passes`).
-/

namespace CodeEmission

namespace Inst

/-- The symbol field starts behind the first byte of `length` bytes and ends among them. -/
def FieldInside (length : Nat) (inst : Inst) : Prop :=
  0 < inst.fixupOffset.toInt ∧ inst.fixupOffset.toInt + 4 ≤ length

/-- The end of the symbol field is more than the largest word. -/
def FieldWraps (inst : Inst) : Prop :=
  Int64.maxValue.toInt < inst.fixupOffset.toInt + 4

theorem fieldWraps_iff {inst : Inst} :
    inst.FieldWraps ↔ 9223372036854775807 < inst.fixupOffset.toInt + 4 :=
  Iff.rfl

/-- Whether a field lies inside some bytes can be computed. -/
instance (length : Nat) (inst : Inst) : Decidable (inst.FieldInside length) :=
  inferInstanceAs (Decidable (_ ∧ _))

/-- Whether the end of a field is a word can be computed. -/
instance (inst : Inst) : Decidable inst.FieldWraps :=
  inferInstanceAs (Decidable (_ < _))

end Inst

variable {inst : Inst} {length : Nat}

/-! ## The test for a field -/

/-- A length counts for no more than it is when it is taken as a word. -/
theorem toInt_ofNat_le (n : Nat) : (Int64.ofNat n).toInt ≤ n := by
  have hsize : Int64.size = 2 ^ 64 := rfl
  rw [Int64.toInt_ofNat', Int.bmod_def, hsize]
  -- the remainder is no more than the length, and a large one stands for a negative number
  split <;> omega

/-- The end of a field that does not wrap is computed exactly. -/
theorem Inst.toInt_fieldEnd (h : ¬ inst.FieldWraps) :
    (inst.fixupOffset + 4).toInt = inst.fixupOffset.toInt + 4 := by
  have hlow := inst.fixupOffset.le_toInt
  have hfour : (4 : Int64).toInt = 4 := rfl
  rw [fieldWraps_iff] at h
  rw [Int64.toInt_add, hfour, Int.bmod_eq_of_le (by omega) (by omega)]

/-- The end of a field that wraps is computed as a negative number. -/
theorem Inst.FieldWraps.toInt_fieldEnd_neg (h : inst.FieldWraps) :
    (inst.fixupOffset + 4).toInt < 0 := by
  have hhigh := inst.fixupOffset.toInt_lt
  have hfour : (4 : Int64).toInt = 4 := rfl
  rw [fieldWraps_iff] at h
  rw [Int64.toInt_add, hfour, Int.bmod_def, if_neg (by omega)]
  omega

/-- A field that passes the test starts behind the first byte, and if its end does not wrap it ends
inside. -/
theorem fieldInside_of_fixupFits (h : fixupFits inst.fixupOffset length = true)
    (hfixup : inst.fixupOffset ≠ 0) (hend : ¬ inst.FieldWraps) : inst.FieldInside length := by
  simp only [fixupFits, Bool.or_eq_true, Bool.and_eq_true, decide_eq_true_eq, hfixup, false_or,
    Int64.le_iff_toInt_le, Int64.toInt_zero, Inst.toInt_fieldEnd hend] at h
  -- the test lets the first byte pass, where there is no field
  have hne : inst.fixupOffset.toInt ≠ 0 :=
    fun hzero => hfixup (Int64.toInt.inj (hzero.trans Int64.toInt_zero.symm))
  have hlength := toInt_ofNat_le length
  exact ⟨by omega, by omega⟩

/-- The test passes no field, the fields inside, and those whose end wraps. -/
theorem fixupFits_iff_inside_or_wraps (hlength : length < 2 ^ 63) :
    fixupFits inst.fixupOffset length = true ↔
      inst.fixupOffset = 0 ∨ inst.FieldInside length ∨ inst.FieldWraps := by
  have hword : (Int64.ofNat length).toInt = length := Int64.toInt_ofNat_of_lt hlength
  constructor
  · intro h
    by_cases hfixup : inst.fixupOffset = 0
    · exact .inl hfixup
    · by_cases hend : inst.FieldWraps
      · exact .inr (.inr hend)
      · exact .inr (.inl (fieldInside_of_fixupFits h hfixup hend))
  · simp only [fixupFits, Bool.or_eq_true, Bool.and_eq_true, decide_eq_true_eq,
      Int64.le_iff_toInt_le, Int64.toInt_zero, hword]
    rintro (hfixup | hinside | hend)
    · exact .inl hfixup
    · -- the end is at most a length, so it is a word
      obtain ⟨hstart, hstop⟩ := hinside
      have hend : ¬ inst.FieldWraps := by
        rw [Inst.fieldWraps_iff]
        omega
      rw [Inst.toInt_fieldEnd hend]
      exact .inr ⟨by omega, hstop⟩
    · -- any length is more than a negative end
      have hneg := hend.toInt_fieldEnd_neg
      rw [Inst.fieldWraps_iff] at hend
      exact .inr ⟨by omega, by omega⟩

/-! ## Units that pass -/

/-- In a unit that passes the checks, machine code can be read, and a field that is said to lie in
it lies inside it, unless the end of the field wraps. Where the machine code is shorter than the
largest word, no field whose end wraps lies inside. -/
theorem field_inside_unless_wraps {u : CodeUnit} (h : verify (some u) = .ok ()) {f : Func}
    (hf : f ∈ u.funcs) (hinst : inst ∈ f.insts) (hencoding : inst.encoding ≠ "")
    (hfixup : inst.fixupOffset ≠ 0) :
    ∃ bytes, decodeEncoding inst.encoding = .ok bytes ∧
      (¬ inst.FieldWraps → inst.FieldInside bytes.length) ∧
      (bytes.length < 2 ^ 63 → inst.FieldInside bytes.length → ¬ inst.FieldWraps) := by
  have hwell := Func.faults_eq_nil_iff.mp (func_faults_of_verify h hf)
  obtain ⟨bytes, hbytes, hfits⟩ := (hwell.insts inst hinst).encoding hencoding
  refine ⟨bytes, hbytes, fieldInside_of_fixupFits hfits hfixup, fun hlength hinside hend => ?_⟩
  obtain ⟨-, hstop⟩ := hinside
  rw [Inst.fieldWraps_iff] at hend
  omega

/-- A unit of one function, which calls a helper and tells where the symbol field of the call is. -/
def fieldAt (fixupOffset : Int64) : CodeUnit :=
  { name := "fields"
    funcs := [
      { name := "main", linkage := .global
        insts := [
          { op := "call", encoding := "e8 00 00 00 00", fixupOffset
            operands := [{ kind := .sym, sym := "helper" }] }] }] }

/-- A field behind the first of five bytes passes and fills the others. -/
theorem call_field_inside :
    verify (some (fieldAt 1)) = .ok () ∧
      ∃ f ∈ (fieldAt 1).funcs, ∃ inst ∈ f.insts, inst.fixupOffset = 1 ∧ ¬ inst.FieldWraps ∧
        ∃ bytes, decodeEncoding inst.encoding = .ok bytes ∧ inst.FieldInside bytes.length := by
  have hverify : verify (some (fieldAt 1)) = .ok () := by decide +kernel
  refine ⟨hverify, _, List.mem_singleton_self _, _, List.mem_singleton_self _, rfl, by decide, ?_⟩
  obtain ⟨bytes, hbytes, hinside, -⟩ := field_inside_unless_wraps hverify
    (List.mem_singleton_self _) (List.mem_singleton_self _) (by decide) (by decide)
  exact ⟨bytes, hbytes, hinside (by decide)⟩

/-- A field at the largest offset of five bytes passes, since its end wraps. -/
theorem wrapped_field_passes :
    verify (some (fieldAt Int64.maxValue)) = .ok () ∧
      ∃ f ∈ (fieldAt Int64.maxValue).funcs, ∃ inst ∈ f.insts, inst.encoding ≠ "" ∧
        inst.fixupOffset ≠ 0 ∧ inst.FieldWraps ∧
        decodeEncoding inst.encoding = .ok [0xe8, 0, 0, 0, 0] ∧ ¬ inst.FieldInside 5 := by
  refine ⟨by decide +kernel, _, List.mem_singleton_self _, _, List.mem_singleton_self _, ?_⟩
  exact ⟨by decide, by decide, by decide, rfl, by decide⟩

end CodeEmission
