import Ebml.Payload
import Ebml.Utf8

/-!
# Strings read back from their octets

A string is written as the UTF-8 octets of its characters and read back by the validating
decoder, after trailing zero octets are trimmed. Each character's octets pass the decoder's
checks: the first octet announces the width, the second lies in the range the first allows
(no overlong form, surrogate or code point past `U+10FFFF` is ever written), and the marker
bits removed give the code point back. Trimming only touches a string that ends in the
character zero.
-/

namespace Ebml.Payload

/-- A string's octets are the UTF-8 octets of its characters, one after another. -/
theorem utf8_eq_flatMap (s : String) : utf8 s = s.toList.flatMap String.utf8EncodeChar := by
  simp only [utf8, String.toUTF8_eq_toByteArray, ← String.utf8Encode_toList, List.utf8Encode,
    List.data_toByteArray, List.toList_toArray]

/-- A character repeated takes its octets that many times. -/
theorem length_utf8_replicate (n : Nat) (c : Char) :
    (utf8 (String.ofList (List.replicate n c))).length = n * c.utf8Size := by
  simp [utf8_eq_flatMap]

end Ebml.Payload

namespace Ebml.Utf8

private theorem octet_toNat {n : Nat} (h : n < 256) : (UInt8.ofNat n).toNat = n := by
  rw [UInt8.toNat_ofNat']
  exact Nat.mod_eq_of_lt h

private theorem isContinuation_iff {b : UInt8} :
    isContinuation b = true ↔ 0x80 ≤ b.toNat ∧ b.toNat ≤ 0xBF := by
  simp [isContinuation, UInt8.le_iff_toNat_le]

private theorem continuation_one (first : UInt8) (rest : Bytes) :
    continuation first 1 rest = .ok [] := by
  simp [continuation]

private theorem continuation_two {first b1 : UInt8} (h1 : secondFits first b1 = true)
    (rest : Bytes) : continuation first 2 (b1 :: rest) = .ok [b1] := by
  simp [continuation, List.range, List.range.loop, h1]

private theorem continuation_three {first b1 b2 : UInt8} (h1 : secondFits first b1 = true)
    (h2 : isContinuation b2 = true) (rest : Bytes) :
    continuation first 3 (b1 :: b2 :: rest) = .ok [b1, b2] := by
  simp [continuation, List.range, List.range.loop, h1, h2]

private theorem continuation_four {first b1 b2 b3 : UInt8} (h1 : secondFits first b1 = true)
    (h2 : isContinuation b2 = true) (h3 : isContinuation b3 = true) (rest : Bytes) :
    continuation first 4 (b1 :: b2 :: b3 :: rest) = .ok [b1, b2, b3] := by
  simp [continuation, List.range, List.range.loop, h1, h2, h3]

private theorem secondFits_iff {first b : UInt8} :
    secondFits first b = true ↔
      (if first.toNat = 0xE0 then 0xA0 ≤ b.toNat ∧ b.toNat ≤ 0xBF
      else if first.toNat = 0xED then 0x80 ≤ b.toNat ∧ b.toNat ≤ 0x9F
      else if first.toNat = 0xF0 then 0x90 ≤ b.toNat ∧ b.toNat ≤ 0xBF
      else if first.toNat = 0xF4 then 0x80 ≤ b.toNat ∧ b.toNat ≤ 0x8F
      else 0x80 ≤ b.toNat ∧ b.toNat ≤ 0xBF) := by
  simp only [secondFits, secondRange, ← UInt8.toNat_inj, UInt8.reduceToNat]
  repeat' split
  all_goals simp [UInt8.le_iff_toNat_le]

private theorem width_eq {b : UInt8} :
    width b = if b.toNat < 0x80 then 1 else if b.toNat < 0xC2 then 0 else if b.toNat < 0xE0 then 2
      else if b.toNat < 0xF0 then 3 else if b.toNat < 0xF5 then 4 else 0 := by
  simp [width, UInt8.lt_iff_toNat_lt]

/-- How one character is read back: its first octet announces its width, the octets after it
continue it, and together they give its code point. -/
private theorem encodeChar_reads (c : Char) : ∃ first tail,
    String.utf8EncodeChar c = first :: tail ∧ width first = tail.length + 1 ∧
    (∀ rest, continuation first (tail.length + 1) (tail ++ rest) = .ok tail) ∧
    codePoint first tail = c.toNat := by
  have hvalid : c.toNat < 0xD800 ∨ (0xDFFF < c.toNat ∧ c.toNat < 0x110000) := c.valid
  unfold String.utf8EncodeChar
  unfold Char.toNat at hvalid ⊢
  generalize c.val.toNat = v at *
  dsimp only
  split
  · -- one octet
    refine ⟨_, [], rfl, ?_, fun rest => continuation_one _ rest, ?_⟩
    · simp [width_eq, octet_toNat (show v < 256 by omega)]
      omega
    · simp [codePoint, octet_toNat (show v < 256 by omega)]
  split
  · -- two octets
    have h0 := octet_toNat (show v / 64 % 32 + 0xC0 < 256 by omega)
    have h1 := octet_toNat (show v % 64 + 0x80 < 256 by omega)
    refine ⟨_, [_], rfl, ?_, fun rest => continuation_two ?_ rest, ?_⟩
    · simp only [width_eq, h0, List.length_cons, List.length_nil]
      repeat' split
      all_goals omega
    · rw [secondFits_iff, h0, h1]
      repeat' split
      all_goals omega
    · simp only [codePoint, List.length_cons, List.length_nil, List.foldl_cons, List.foldl_nil, h0, h1]
      omega
  split
  · -- three octets
    have h0 := octet_toNat (show v / 4096 % 16 + 0xE0 < 256 by omega)
    have h1 := octet_toNat (show v / 64 % 64 + 0x80 < 256 by omega)
    have h2 := octet_toNat (show v % 64 + 0x80 < 256 by omega)
    refine ⟨_, [_, _], rfl, ?_, fun rest => continuation_three ?_ ?_ rest, ?_⟩
    · simp only [width_eq, h0, List.length_cons, List.length_nil]
      repeat' split
      all_goals omega
    · rw [secondFits_iff, h0, h1]
      repeat' split
      all_goals omega
    · rw [isContinuation_iff, h2]
      omega
    · simp only [codePoint, List.length_cons, List.length_nil, List.foldl_cons, List.foldl_nil, h0, h1,
        h2]
      omega
  · -- four octets
    have h0 := octet_toNat (show v / 262144 % 8 + 0xF0 < 256 by omega)
    have h1 := octet_toNat (show v / 4096 % 64 + 0x80 < 256 by omega)
    have h2 := octet_toNat (show v / 64 % 64 + 0x80 < 256 by omega)
    have h3 := octet_toNat (show v % 64 + 0x80 < 256 by omega)
    refine ⟨_, [_, _, _], rfl, ?_, fun rest => continuation_four ?_ ?_ ?_ rest, ?_⟩
    · simp only [width_eq, h0, List.length_cons, List.length_nil]
      repeat' split
      all_goals omega
    · rw [secondFits_iff, h0, h1]
      repeat' split
      all_goals omega
    · rw [isContinuation_iff, h2]
      omega
    · rw [isContinuation_iff, h3]
      omega
    · simp only [codePoint, List.length_cons, List.length_nil, List.foldl_cons, List.foldl_nil, h0, h1,
        h2, h3]
      omega

/-- Decoding the octets of a list of characters gives the characters back. -/
theorem decodeFrom_flatMap_encodeChar (offset : Nat) (cs : List Char) :
    decodeFrom offset (cs.flatMap String.utf8EncodeChar) = .ok cs := by
  induction cs generalizing offset with
  | nil => simp [decodeFrom]
  | cons c cs ih =>
    obtain ⟨first, tail, henc, hwidth, hcont, hcode⟩ := encodeChar_reads c
    rw [List.flatMap_cons, henc, List.cons_append, decodeFrom]
    simp only [hwidth, Nat.add_one_ne_zero, if_false, hcont, Nat.add_sub_cancel,
      List.drop_left, ih, hcode, Char.ofNat_toNat]

/-- A string's octets decode to the string. -/
theorem decode_utf8 (s : String) : decode (Payload.utf8 s) = .ok s := by
  rw [decode, Payload.utf8_eq_flatMap, decodeFrom_flatMap_encodeChar]
  simp only [Except.map, String.ofList_toList]

end Ebml.Utf8

namespace Ebml.Payload

/-- Octets that do not end in a zero octet lose nothing to trimming. -/
theorem trimZeros_of_getLast {bs : Bytes} (h : bs.getLast? ≠ some 0) : trimZeros bs = bs := by
  unfold trimZeros
  cases hr : bs.reverse with
  | nil => simp_all
  | cons b rest =>
    have hb : b ≠ 0 := by
      rw [← List.head?_reverse, hr] at h
      simpa using h
    rw [List.dropWhile_cons, if_neg (by simpa using hb), ← hr, List.reverse_reverse]

/-- Only the character zero ends in a zero octet. -/
private theorem encodeChar_getLast {c : Char} (hc : c ≠ Char.ofNat 0) :
    (String.utf8EncodeChar c).getLast? ≠ some 0 := by
  have hv : c.val.toNat ≠ 0 := by
    intro h0
    apply hc
    rw [← Char.ofNat_toNat c]
    exact congrArg Char.ofNat h0
  unfold String.utf8EncodeChar
  generalize c.val.toNat = v at *
  dsimp only
  have hlow : (UInt8.ofNat (v % 64 + 128)).toNat = v % 64 + 128 := by
    rw [UInt8.toNat_ofNat']
    exact Nat.mod_eq_of_lt (by omega)
  repeat' split
  all_goals simp only [List.getLast?_cons_cons, List.getLast?_singleton, ne_eq, Option.some.injEq,
    ← UInt8.toNat_inj, UInt8.toNat_ofNat', UInt8.toNat_zero, hlow]
  all_goals omega

/-- A string that does not end in the character zero keeps all its octets when trailing zero
octets are trimmed. -/
theorem trimZeros_utf8 {s : String} (h : s.toList.getLast? ≠ some (Char.ofNat 0)) :
    trimZeros (utf8 s) = utf8 s := by
  apply trimZeros_of_getLast
  rw [utf8_eq_flatMap, List.getLast?_flatMap]
  cases hr : s.toList.reverse with
  | nil => simp
  | cons c rest =>
    have hc : c ≠ Char.ofNat 0 := by
      rw [← List.head?_reverse, hr] at h
      simpa using h
    obtain ⟨x, hx⟩ : ∃ x, (String.utf8EncodeChar c).getLast? = some x := by
      cases he : (String.utf8EncodeChar c).getLast? with
      | none => simp at he
      | some x => exact ⟨x, rfl⟩
    have hlast := encodeChar_getLast hc
    rw [hx] at hlast
    rw [List.findSome?_cons, hx]
    exact hlast

/-- A string that does not end in the character zero is read back from its octets. -/
theorem decode_trimZeros_utf8 {s : String} (h : s.toList.getLast? ≠ some (Char.ofNat 0)) :
    Utf8.decode (trimZeros (utf8 s)) = .ok s := by
  rw [trimZeros_utf8 h, Utf8.decode_utf8]

end Ebml.Payload
