set_option autoImplicit false

namespace Terminfo

abbrev Bytes := List UInt8

namespace Bytes

def ofText (s : String) : Bytes := s.toUTF8.data.toList

def text? (b : Bytes) : Option String := String.fromUTF8? ⟨b.toArray⟩

theorem text?_ofText (s : String) : text? (ofText s) = some s := by
  simp only [text?, ofText, String.fromUTF8?, Array.toArray_toList, String.toUTF8_eq_toByteArray]
  exact dif_pos s.isValidUTF8

theorem ofText_of_text? {b : Bytes} {s : String} (h : text? b = some s) : b = ofText s := by
  simp only [text?, String.fromUTF8?] at h
  split at h
  · obtain rfl := Option.some.inj h
    rfl
  · cases h

theorem ofText_eq_flatMap (s : String) : ofText s = s.toList.flatMap String.utf8EncodeChar := by
  have h : s.toUTF8 = s.toList.utf8Encode := by
    rw [String.toUTF8_eq_toByteArray, ← String.toByteArray_ofList, String.ofList_toList]
  rw [ofText, h, List.utf8Encode, List.data_toByteArray]

def letter (b : UInt8) : Char := Char.ofNat b.toNat

def ofLetter (c : Char) : UInt8 := c.toUInt8

def isDigit (b : UInt8) : Bool := 48 ≤ b && b ≤ 57

def digit (b : UInt8) : Nat := b.toNat - 48

/-- The provider hands out byte strings that end at their first zero byte. -/
def upToZero (b : Bytes) : Bytes := b.takeWhile (· != 0)

theorem zero_notMem_upToZero (b : Bytes) : 0 ∉ upToZero b := by
  intro h
  simpa using List.all_eq_true.1 List.all_takeWhile 0 h

theorem upToZero_eq_self {b : Bytes} (h : 0 ∉ b) : upToZero b = b := by
  induction b with
  | nil => rfl
  | cons x b ih =>
    obtain ⟨hx, hb⟩ : x ≠ 0 ∧ 0 ∉ b := by
      simpa [eq_comm] using h
    simpa [upToZero, List.takeWhile_cons, hx] using ih hb

end Bytes

end Terminfo
