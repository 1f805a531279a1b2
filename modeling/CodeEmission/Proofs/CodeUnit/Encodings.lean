import CodeEmission.CodeUnit.Encoding
import CodeEmission.Text.Hex

/-!
# Encodings Are Read Exactly

An encoding is read by dropping the blanks and taking the digits in pairs. This module says for
which texts that gives which bytes, against the digits that the bytes are written with.

* `Text.hexValue?_eq_some_iff`: the value of a digit, against the digit of the value.
* `Text.ofHexDigits?_eq_some_iff`: digits are read as the bytes that they are written for, in either
  case.
* `decodeEncoding_exact`: which texts are encodings of which bytes, and what is wrong with the
  others.
-/

namespace CodeEmission

namespace Text

/-- A hexadecimal digit in either case. -/
def IsHexDigit (c : Char) : Prop :=
  '0' ≤ c ∧ c ≤ '9' ∨ 'a' ≤ c ∧ c ≤ 'f' ∨ 'A' ≤ c ∧ c ≤ 'F'

instance (c : Char) : Decidable (IsHexDigit c) := by
  unfold IsHexDigit
  infer_instance

variable {c : Char} {n : Nat}

/-! ## One digit -/

theorem isHexDigit_iff : IsHexDigit c ↔ (hexValue? c).isSome = true := by
  unfold IsHexDigit hexValue?
  by_cases hdecimal : '0' ≤ c ∧ c ≤ '9'
  · simp [hdecimal]
  · by_cases hlower : 'a' ≤ c ∧ c ≤ 'f'
    · simp [hdecimal, hlower]
    · by_cases hupper : 'A' ≤ c ∧ c ≤ 'F' <;> simp [hdecimal, hlower, hupper]

/-- There are twenty-two digits, in three runs of code points. -/
theorem IsHexDigit.mem_runs (h : IsHexDigit c) :
    c ∈ (List.range' 48 10 ++ List.range' 97 6 ++ List.range' 65 6).map Char.ofNat := by
  refine List.mem_map.mpr ⟨c.toNat, ?_, Char.ofNat_toNat c⟩
  simp only [IsHexDigit, Char.le_def, UInt32.le_iff_toNat_le] at h
  simp only [List.mem_append, List.mem_range'_1, Char.toNat]
  simpa [Nat.lt_succ_iff, or_assoc] using h

theorem IsHexDigit.exists_value (h : IsHexDigit c) :
    ∃ n < 16, hexValue? c = some n ∧ c.toLower = hexDigit n := by
  have hall : ∀ code ∈ List.range' 48 10 ++ List.range' 97 6 ++ List.range' 65 6,
      ∃ n < 16, hexValue? (.ofNat code) = some n ∧ (Char.ofNat code).toLower = hexDigit n := by
    decide
  obtain ⟨code, hcode, rfl⟩ := List.mem_map.mp h.mem_runs
  exact hall code hcode

theorem isHexDigit_hexDigit (hn : n < 16) : IsHexDigit (hexDigit n) := by
  have hall : ∀ n < 16, IsHexDigit (hexDigit n) := by decide
  exact hall n hn

theorem hexDigit_inj {m : Nat} (hn : n < 16) (hm : m < 16) (h : hexDigit n = hexDigit m) :
    n = m := by
  have hall : ∀ n < 16, ∀ m < 16, hexDigit n = hexDigit m → n = m := by decide
  exact hall n hn m hm h

/-- Only digits become digits in lower case. -/
theorem isHexDigit_of_toLower (h : IsHexDigit c.toLower) : IsHexDigit c := by
  unfold Char.toLower at h
  split at h
  next hupper =>
    -- a letter that is moved up to a digit stood among the upper-case digits
    obtain ⟨hA, hZ⟩ := hupper
    simp only [IsHexDigit, Char.le_def, UInt32.le_iff_toNat_le] at h hA hZ ⊢
    simp at h hA hZ ⊢
    omega
  next => exact h

/-- A character has a value just if it is the digit of that value, up to its case. -/
theorem hexValue?_eq_some_iff : hexValue? c = some n ↔ n < 16 ∧ c.toLower = hexDigit n := by
  constructor
  · intro h
    have hdigit : IsHexDigit c := isHexDigit_iff.mpr (by simp [h])
    obtain ⟨m, hm, hvalue, hlower⟩ := hdigit.exists_value
    cases h.symm.trans hvalue
    exact ⟨hm, hlower⟩
  · rintro ⟨hn, hlower⟩
    have hdigit : IsHexDigit c := isHexDigit_of_toLower (hlower ▸ isHexDigit_hexDigit hn)
    obtain ⟨m, hm, hvalue, hlower'⟩ := hdigit.exists_value
    rw [hvalue, hexDigit_inj hm hn (hlower'.symm.trans hlower)]

/-! ## Several digits -/

theorem hexByte_eq (b : UInt8) :
    hexByte b = [hexDigit (b.toNat / 16), hexDigit (b.toNat % 16)] := by
  have hhigh : b.toNat / 16 % 16 = b.toNat / 16 := by
    have hlt := b.toNat_lt
    omega
  simp [hexByte, hexFixed, hhigh]

theorem length_hexBytes (bytes : List UInt8) :
    (hexBytes bytes).toList.length = 2 * bytes.length := by
  rw [hexBytes, String.toList_ofList]
  induction bytes with
  | nil => rfl
  | cons b rest ih =>
    rw [List.flatMap_cons, List.length_append, ih, hexByte_eq, List.length_cons]
    simp only [List.length_cons, List.length_nil]
    omega

/-- Two digits in front are the halves of the first byte. -/
theorem ofHexDigits?_pair_eq_some_iff {a b : Char} {rest : List Char} {byte : UInt8}
    {bytes : List UInt8} :
    ofHexDigits? (a :: b :: rest) = some (byte :: bytes) ↔
      hexValue? a = some (byte.toNat / 16) ∧ hexValue? b = some (byte.toNat % 16) ∧
        ofHexDigits? rest = some bytes := by
  have hread : ofHexDigits? (a :: b :: rest) = some (byte :: bytes) ↔
      ∃ high, hexValue? a = some high ∧ ∃ low, hexValue? b = some low ∧
        ofHexDigits? rest = some bytes ∧ UInt8.ofNat (high * 16 + low) = byte := by
    simp [ofHexDigits?, Option.bind_eq_some_iff]
  rw [hread]
  constructor
  · rintro ⟨high, hhigh, low, hlow, hrest, hbyte⟩
    have hhigh16 := (hexValue?_eq_some_iff.mp hhigh).1
    have hlow16 := (hexValue?_eq_some_iff.mp hlow).1
    have htoNat : byte.toNat = high * 16 + low := by
      rw [← hbyte, UInt8.toNat_ofNat_of_lt']
      simp only [UInt8.size]
      omega
    have hdiv : byte.toNat / 16 = high := by omega
    have hmod : byte.toNat % 16 = low := by omega
    rw [hdiv, hmod]
    exact ⟨hhigh, hlow, hrest⟩
  · rintro ⟨hhigh, hlow, hrest⟩
    refine ⟨_, hhigh, _, hlow, hrest, ?_⟩
    rw [Nat.mul_comm, Nat.div_add_mod, UInt8.ofNat_toNat]

/-- Digits are read as some bytes just if these are written with them, up to the case. -/
theorem ofHexDigits?_eq_some_iff {digits : List Char} {bytes : List UInt8} :
    ofHexDigits? digits = some bytes ↔ digits.map Char.toLower = (hexBytes bytes).toList := by
  rw [hexBytes, String.toList_ofList]
  induction digits using ofHexDigits?.induct generalizing bytes with
  | case1 => cases bytes <;> simp [ofHexDigits?, hexByte_eq]
  | case2 => cases bytes <;> simp [ofHexDigits?, hexByte_eq]
  | case3 a b rest ih =>
    cases bytes with
    | nil => simp [ofHexDigits?, Option.bind_eq_some_iff]
    | cons byte bytes =>
      have hlt := byte.toNat_lt
      have hhigh : byte.toNat / 16 < 16 := by omega
      have hlow : byte.toNat % 16 < 16 := Nat.mod_lt _ (by decide)
      rw [ofHexDigits?_pair_eq_some_iff, hexValue?_eq_some_iff, hexValue?_eq_some_iff, ih]
      simp [hexByte_eq, hhigh, hlow]

/-- Digits are read as no bytes just if there is an odd one. -/
theorem ofHexDigits?_eq_none_iff {digits : List Char} (h : ∀ c ∈ digits, IsHexDigit c) :
    ofHexDigits? digits = none ↔ digits.length % 2 = 1 := by
  induction digits using ofHexDigits?.induct with
  | case1 => simp [ofHexDigits?]
  | case2 => simp [ofHexDigits?]
  | case3 a b rest ih =>
    obtain ⟨ha, hb, hrest⟩ : IsHexDigit a ∧ IsHexDigit b ∧ ∀ c ∈ rest, IsHexDigit c := by
      simpa using h
    obtain ⟨high, -, hhigh, -⟩ := ha.exists_value
    obtain ⟨low, -, hlow, -⟩ := hb.exists_value
    have hnone : ofHexDigits? (a :: b :: rest) = none ↔ ofHexDigits? rest = none := by
      cases hread : ofHexDigits? rest <;> simp [ofHexDigits?, hhigh, hlow, hread]
    rw [hnone, ih hrest]
    simp only [List.length_cons]
    omega

end Text

/-! ## Encodings -/

theorem isStray_eq_false_iff {c : Char} : isStray c = false ↔ Text.IsHexDigit c := by
  rw [Text.isHexDigit_iff, isStray]
  cases Text.hexValue? c <;> simp

theorem find?_isStray_eq_none_iff {digits : List Char} :
    digits.find? isStray = none ↔ ∀ c ∈ digits, Text.IsHexDigit c := by
  simp [List.find?_eq_none, isStray_eq_false_iff]

theorem find?_isStray_eq_some_iff {digits : List Char} {c : Char} :
    digits.find? isStray = some c ↔ ∃ before after, digits = before ++ c :: after ∧
      (∀ d ∈ before, Text.IsHexDigit d) ∧ ¬Text.IsHexDigit c := by
  rw [List.find?_eq_some_iff_append, ← isStray_eq_false_iff, Bool.not_eq_false]
  simp only [Bool.not_eq_true', isStray_eq_false_iff]
  constructor
  · rintro ⟨hc, before, after, hsplit, hbefore⟩
    exact ⟨before, after, hsplit, hbefore, hc⟩
  · rintro ⟨before, after, hsplit, hbefore, hc⟩
    exact ⟨hc, before, after, hsplit, hbefore⟩

theorem decodeEncoding_eq_ok_iff {text : String} {bytes : List UInt8} :
    decodeEncoding text = .ok bytes ↔ (Text.dropBlanks text).find? isStray = none ∧
      Text.ofHexDigits? (Text.dropBlanks text) = some bytes := by
  cases hstray : (Text.dropBlanks text).find? isStray with
  | some c => simp [decodeEncoding, hstray]
  | none =>
    cases hread : Text.ofHexDigits? (Text.dropBlanks text) <;>
      simp [decodeEncoding, hstray, hread]

theorem decodeEncoding_eq_error_iff {text : String} {e : EncodingError} :
    decodeEncoding text = .error e ↔
      (∃ c, (Text.dropBlanks text).find? isStray = some c ∧
        e = .invalidByte text (leadByte c)) ∨
      (Text.dropBlanks text).find? isStray = none ∧
        Text.ofHexDigits? (Text.dropBlanks text) = none ∧ e = .oddLength text := by
  cases hstray : (Text.dropBlanks text).find? isStray with
  | some c => simp [decodeEncoding, hstray, eq_comm]
  | none =>
    cases hread : Text.ofHexDigits? (Text.dropBlanks text) <;>
      simp [decodeEncoding, hstray, hread, eq_comm]

/-- Reading machine code is exact. It succeeds just if the text without its blanks, which may stand
anywhere, also within a byte, consists of two digits for each byte, in either case, that spell the
bytes. Otherwise the first character that is no digit is reported, and an odd number of digits only
if there is no such character. -/
theorem decodeEncoding_exact (text : String) :
    (∀ bytes, decodeEncoding text = .ok bytes ↔
      (Text.dropBlanks text).length = 2 * bytes.length ∧
        (∀ c ∈ Text.dropBlanks text, Text.IsHexDigit c) ∧
        (Text.dropBlanks text).map Char.toLower = (Text.hexBytes bytes).toList) ∧
    ∀ e, decodeEncoding text = .error e ↔
      (∃ before c after, Text.dropBlanks text = before ++ c :: after ∧
        (∀ d ∈ before, Text.IsHexDigit d) ∧ ¬Text.IsHexDigit c ∧
        e = .invalidByte text (leadByte c)) ∨
      (∀ c ∈ Text.dropBlanks text, Text.IsHexDigit c) ∧
        (Text.dropBlanks text).length % 2 = 1 ∧ e = .oddLength text := by
  refine ⟨fun bytes => ?_, fun e => ?_⟩
  · rw [decodeEncoding_eq_ok_iff, find?_isStray_eq_none_iff, Text.ofHexDigits?_eq_some_iff]
    constructor
    · rintro ⟨hdigits, hspelled⟩
      refine ⟨?_, hdigits, hspelled⟩
      rw [← Text.length_hexBytes, ← hspelled, List.length_map]
    · rintro ⟨-, hdigits, hspelled⟩
      exact ⟨hdigits, hspelled⟩
  · rw [decodeEncoding_eq_error_iff]
    refine or_congr ?_ ?_
    · constructor
      · rintro ⟨c, hstray, he⟩
        obtain ⟨before, after, hsplit, hbefore, hc⟩ := find?_isStray_eq_some_iff.mp hstray
        exact ⟨before, c, after, hsplit, hbefore, hc, he⟩
      · rintro ⟨before, c, after, hsplit, hbefore, hc, he⟩
        exact ⟨c, find?_isStray_eq_some_iff.mpr ⟨before, after, hsplit, hbefore, hc⟩, he⟩
    · rw [find?_isStray_eq_none_iff]
      refine and_congr_right fun hdigits => ?_
      rw [Text.ofHexDigits?_eq_none_iff hdigits]

/-- A no-break space between the two digits of a byte, and digits in both cases. -/
example : decodeEncoding "4\u00a08 89\tC3" = .ok [0x48, 0x89, 0xc3] := by cbv

/-- Both causes at once: five characters, of which the last is no digit. -/
example : decodeEncoding "48 8g 9" = .error (.invalidByte "48 8g 9" 0x67) := by cbv

end CodeEmission
