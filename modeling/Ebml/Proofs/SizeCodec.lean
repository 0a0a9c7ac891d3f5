import Ebml.Proofs.Vint

/-!
# The size codec, both ways

A size is written at the wider of the width its value needs and the requested least width, and
writing succeeds exactly when that width fits the allowed one and eight octets; it reads back as
the value and the width, and the unknown size as unknown. The other way round, every known size
the reader takes is written back at its width as the very octets it was read from.
-/

namespace Ebml.Vint

/-! ## What a successful read took -/

/-- A size read took a first octet announcing its width, and the rest of that width. -/
theorem readUnsigned_ok {maxLen : Nat} {s s' : Source} {r : Option Nat} {L : Nat}
    (h : (readUnsigned maxLen).run s = (.ok (r, L), s')) :
    ∃ first tail, s.ahead = first :: tail ++ s'.ahead ∧ checkLength first maxLen = .ok L ∧
      tail.length = L - 1 ∧ unsignedValue first tail = r := by
  obtain ⟨first, s₁, hfirst, h₁⟩ := ReadM.run_bind_ok h
  obtain ⟨L', s₂, hcheck, h₂⟩ := ReadM.run_bind_ok h₁
  obtain ⟨tail, s₃, htail, h₃⟩ := ReadM.run_bind_ok h₂
  clear h h₁ h₂
  rw [ReadM.run_ofExcept] at hcheck
  simp only [ReadM.run_pure, Prod.mk.injEq, Except.ok.injEq] at hcheck h₃
  obtain ⟨hcheck, rfl⟩ := hcheck
  obtain ⟨⟨rfl, rfl⟩, rfl⟩ := h₃
  obtain ⟨hlen, hs₂⟩ := ReadM.exact_ok htail
  refine ⟨first, tail, ?_, hcheck, hlen, rfl⟩
  rw [ReadM.byte_ok hfirst, hs₂, List.cons_append]

theorem checkLength_ok {first : UInt8} {maxLen L : Nat} (h : checkLength first maxLen = .ok L) :
    first ≠ 0 ∧ L = markerLength first ∧ L ≤ maxLen := by
  simp only [checkLength] at h
  split at h
  · cases h
  · split at h
    · cases h
    · rename_i h0 hmax
      simp only [Except.ok.injEq] at h
      exact ⟨h0, h.symm, by omega⟩

/-- A first octet that is not zero announces a width of one to eight octets: its top set bit is
the marker. -/
theorem markerLength_bounds {first : UInt8} (h : first ≠ 0) :
    1 ≤ markerLength first ∧ markerLength first ≤ 8 ∧
      Nat.pow 2 (8 - markerLength first) ≤ first.toNat ∧
      first.toNat < 2 * Nat.pow 2 (8 - markerLength first) := by
  have h0 : first.toNat ≠ 0 := fun h' => h (UInt8.toNat_inj.mp (by simpa using h'))
  have hlt := first.toNat_lt
  have hlog : first.toNat.log2 < 8 := (Nat.log2_lt h0).mpr hlt
  have hlo := Nat.log2_self_le h0
  have hhi := @Nat.lt_log2_self first.toNat
  simp only [markerLength, Nat.pow_eq, show 8 - (8 - first.toNat.log2) = first.toNat.log2 by omega]
  rw [Nat.pow_succ] at hhi
  omega

/-- Octets a reader takes as a known size are that size marked at the width they announce, and
the size lies below the all-ones value of that width. -/
theorem withMarker_of_unsignedValue {first : UInt8} {tail : Bytes} {v : Nat} (h0 : first ≠ 0)
    (hlen : tail.length + 1 = markerLength first) (hv : unsignedValue first tail = some v) :
    v < allOnes (markerLength first) ∧ withMarker (markerLength first) v = first :: tail := by
  obtain ⟨h1, h8, hlo, hhi⟩ := markerLength_bounds h0
  generalize hL : markerLength first = L at *
  have hlog : first.toNat.log2 = 8 - L := by
    rw [← hL, markerLength]
    have := (Nat.log2_lt (fun h' => h0 (UInt8.toNat_inj.mp (by simpa using h')))).mpr
      first.toNat_lt
    omega
  have hsplit : Nat.pow 2 (7 * L) = Nat.pow 2 (8 - L) * Nat.pow 256 (L - 1) := by
    rw [pow_seven_split h1 h8]
    simp only [Nat.pow_eq, Nat.pow_mul]
  have htail := Octets.toNat_lt tail
  -- the first octet less its marker holds the top bits of the value
  have hq : (first.toNat - Nat.pow 2 (8 - L)).toUInt8.toNat = first.toNat - Nat.pow 2 (8 - L) := by
    simp only [Nat.toUInt8_eq, UInt8.toNat_ofNat']
    exact Nat.mod_eq_of_lt (by have := first.toNat_lt; omega)
  simp only [unsignedValue, hlog, Nat.pow_eq] at hv
  rw [← Nat.pow_eq, Octets.toNat_cons, hq] at hv
  split at hv
  · cases hv
  · rename_i hne
    simp only [Option.some.injEq] at hv
    subst hv
    rw [hlen] at hne
    have hm : tail.length = L - 1 := by omega
    rw [hm] at htail hne ⊢
    have hmarked : (first.toNat - Nat.pow 2 (8 - L)) * Nat.pow 256 (L - 1) + Octets.toNat tail +
        Nat.pow 2 (7 * L) = Octets.toNat (first :: tail) := by
      obtain ⟨a, ha⟩ : ∃ a, first.toNat = Nat.pow 2 (8 - L) + a :=
        ⟨_, (Nat.add_sub_cancel' hlo).symm⟩
      rw [Octets.toNat_cons, hm, hsplit, ha, Nat.add_sub_cancel_left, Nat.add_mul]
      omega
    have hbelow : (first.toNat - Nat.pow 2 (8 - L)) * Nat.pow 256 (L - 1) + Octets.toNat tail <
        Nat.pow 2 (7 * L) := by
      have hstep : (first.toNat - Nat.pow 2 (8 - L) + 1) * Nat.pow 256 (L - 1) ≤
          Nat.pow 2 (8 - L) * Nat.pow 256 (L - 1) := Nat.mul_le_mul_right _ (by omega)
      rw [Nat.add_mul, Nat.one_mul] at hstep
      omega
    refine ⟨by simp only [allOnes] at hne ⊢; omega, ?_⟩
    have hlen' : (first :: tail).length = L := by simp only [List.length_cons]; omega
    rw [withMarker, hmarked, ← hlen', Octets.ofNat_toNat]

/-! ## Writing -/

/-- The all-ones value grows with the width. -/
theorem allOnes_le {L L' : Nat} (h : L ≤ L') : allOnes L ≤ allOnes L' := by
  have := Nat.pow_le_pow_right (show 2 > 0 by omega) (show 7 * L ≤ 7 * L' by omega)
  simp only [allOnes, Nat.pow_eq]
  omega

/-- The all-ones value of a width is a value that width holds. -/
theorem allOnes_lt (L : Nat) : allOnes L < Nat.pow 2 (7 * L) := by
  have := Nat.two_pow_pos (7 * L)
  simp only [allOnes, Nat.pow_eq] at this ⊢
  omega

/-- Writing a size up to the largest succeeds exactly when the wider of its own width and the
requested least width fits the allowed width and eight octets. -/
theorem encode_some_isOk_iff {v : Nat} (hv : v ≤ maxUnsigned) (minLen : Option Nat)
    (maxLen : Nat) :
    (∃ bs, encode (some v) minLen maxLen = .ok bs) ↔
      max (octetLength v) (minLen.getD 0) ≤ min maxLen 8 := by
  simp only [encode, Nat.not_lt.mpr hv, if_false]
  constructor
  · rintro ⟨bs, h⟩
    split at h
    · cases h
    · omega
  · intro h
    exact ⟨_, if_neg (by omega)⟩

/-- The unknown size written at a width of one to eight octets has every data bit set. -/
theorem encode_none_some {k maxLen : Nat} (h1 : 1 ≤ k) (h8 : k ≤ 8) (hmax : k ≤ maxLen) :
    encode none (some k) maxLen = .ok (withMarker k (allOnes k)) := by
  simp only [encode, Option.getD_some, Nat.max_eq_left h1]
  exact if_neg (by omega)

/-- Every known size a reader takes is written back, at the width it was read with, as the
octets it was read from. -/
theorem encode_of_readUnsigned {maxLen : Nat} {s s' : Source} {v L : Nat}
    (h : (readUnsigned maxLen).run s = (.ok (some v, L), s')) :
    encode (some v) (some L) 8 = .ok (s.ahead.take L) := by
  obtain ⟨first, tail, hs, hcheck, hlen, hv⟩ := readUnsigned_ok h
  obtain ⟨h0, rfl, -⟩ := checkLength_ok hcheck
  obtain ⟨h1, h8, -, -⟩ := markerLength_bounds h0
  obtain ⟨hlt, hmark⟩ := withMarker_of_unsignedValue h0 (by omega) hv
  have hmax : v ≤ maxUnsigned := by
    have hall : allOnes 8 = maxUnsigned + 1 := rfl
    have := allOnes_le h8
    omega
  have hwidth : max (octetLength v) ((some (markerLength first)).getD 0) = markerLength first := by
    have := octetLength_le h1 hlt
    simp only [Option.getD_some]
    omega
  have htake : s.ahead.take (markerLength first) = first :: tail := by
    rw [hs, List.take_left' (by simp only [List.length_cons]; omega)]
  simp only [encode, Nat.not_lt.mpr hmax, if_false, hwidth, htake, ← hmark]
  exact if_neg (by omega)

/-! ## The codec -/

/-- The size codec. A size up to the largest is written, with least width `minLen` and largest
width `maxLen`, exactly when the wider `L` of its own width and `minLen` fits both `maxLen` and
eight octets; it then takes `L` octets with a value below the all-ones pattern of `L`, and a
reader allowing `L` octets or more reads back the size and `L`. A size's own width is the least
whose all-ones value lies above it. The unknown size written at a width of one to eight octets
reads back as unknown at that width. And each known size a reader takes, written back at the
width it was read with, gives the octets it was read from. -/
theorem size_codec :
    (∀ (v : Nat) (minLen : Option Nat) (maxLen : Nat), v ≤ maxUnsigned →
      ((∃ bs, encode (some v) minLen maxLen = .ok bs) ↔
        max (octetLength v) (minLen.getD 0) ≤ min maxLen 8) ∧
      ∀ bs, encode (some v) minLen maxLen = .ok bs →
        bs.length = max (octetLength v) (minLen.getD 0) ∧
        v < allOnes (max (octetLength v) (minLen.getD 0)) ∧
        ∀ (readMax : Nat) (s : Source) (rest : Bytes),
          max (octetLength v) (minLen.getD 0) ≤ readMax → s.ahead = bs ++ rest →
          (readUnsigned readMax).run s =
            (.ok (some v, max (octetLength v) (minLen.getD 0)),
              { s with ahead := rest,
                       position := s.position + max (octetLength v) (minLen.getD 0) })) ∧
    (∀ v : Nat, v ≤ maxUnsigned →
      1 ≤ octetLength v ∧ octetLength v ≤ 8 ∧ v < allOnes (octetLength v) ∧
      ∀ L, 1 ≤ L → v < allOnes L → octetLength v ≤ L) ∧
    (∀ k maxLen : Nat, 1 ≤ k → k ≤ 8 → k ≤ maxLen →
      ∃ bs, encode none (some k) maxLen = .ok bs ∧ bs.length = k ∧
        ∀ (readMax : Nat) (s : Source) (rest : Bytes), k ≤ readMax → s.ahead = bs ++ rest →
          (readUnsigned readMax).run s =
            (.ok (none, k), { s with ahead := rest, position := s.position + k })) ∧
    (∀ (readMax : Nat) (s s' : Source) (v L : Nat),
      (readUnsigned readMax).run s = (.ok (some v, L), s') →
      encode (some v) (some L) 8 = .ok (s.ahead.take L)) := by
  refine ⟨?written, ?width, ?unknown, fun _ _ _ _ _ h => encode_of_readUnsigned h⟩
  case written =>
    intro v minLen maxLen hv
    refine ⟨encode_some_isOk_iff hv minLen maxLen, fun bs h => ?_⟩
    obtain ⟨rfl, -, -, h8⟩ := encode_some_ok h
    obtain ⟨h1, -, hlt⟩ := octetLength_spec hv
    have hlt' : v < allOnes (max (octetLength v) (minLen.getD 0)) :=
      Nat.lt_of_lt_of_le hlt (allOnes_le (Nat.le_max_left _ _))
    refine ⟨Octets.length_ofNat _ _, hlt', fun readMax s rest hread hs => ?_⟩
    exact readUnsigned_withMarker (by omega) h8 hread hlt' hs
  case width =>
    intro v hv
    obtain ⟨h1, h8, hlt⟩ := octetLength_spec hv
    exact ⟨h1, h8, hlt, fun L hL hvL => octetLength_le hL hvL⟩
  case unknown =>
    intro k maxLen h1 h8 hmax
    refine ⟨_, encode_none_some h1 h8 hmax, Octets.length_ofNat _ _, ?_⟩
    intro readMax s rest hread hs
    have hall : allOnes k < Nat.pow 2 (7 * k) := by
      have := Nat.two_pow_pos (7 * k)
      simp only [allOnes, Nat.pow_eq] at this ⊢
      omega
    rw [readUnsigned_marked h1 h8 hread hall hs, if_pos rfl]

/-- The size codec at `127`, which needs two octets because one octet of all ones is the unknown
size: written at its own width it takes two octets and reads back. -/
theorem size_codec_127 : (127 : Nat) ≤ maxUnsigned ∧
    encode (some 127) none 8 = .ok [0x40, 0x7F] ∧
    (readUnsigned 8).run (Source.ofBytes [0x40, 0x7F]) =
      (.ok (some 127, 2), { Source.ofBytes [0x40, 0x7F] with ahead := [], position := 2 }) := by
  have hv : (127 : Nat) ≤ maxUnsigned := by decide
  have henc : encode (some 127) none 8 = .ok [0x40, 0x7F] := rfl
  obtain ⟨-, hread⟩ := size_codec.1 127 none 8 hv
  obtain ⟨hlen, -, hback⟩ := hread _ henc
  have hwidth : max (octetLength 127) ((none : Option Nat).getD 0) = 2 := by
    rw [← hlen]
    rfl
  refine ⟨hv, henc, ?_⟩
  have := hback 8 (Source.ofBytes [0x40, 0x7F]) [] (by omega) rfl
  rw [hwidth] at this
  exact this

/-! ## Shortest forms

The writer puts a size in the fewest octets its value allows, and a lace difference in the fewest
octets whose bias covers it. A reader accepts longer forms too; these are the forms it reads that
the writer gives back unchanged. -/

/-- Octets holding a size in the fewest octets its value allows. -/
def Shortest (bs : Bytes) : Prop :=
  ∃ n, n ≤ maxUnsigned ∧ bs = withMarker (octetLength n) n

/-- Octets holding a lace difference in the fewest octets whose bias covers it. -/
def ShortestSigned (bs : Bytes) : Prop :=
  ∃ d : Int, d.natAbs ≤ maxSigned ∧
    bs = withMarker (signedOctetLength d) (d + bias (signedOctetLength d)).toNat

/-- Writing a size with no least width succeeds exactly up to the largest size. -/
theorem encode_isOk_iff (n : Nat) :
    (∃ bs, encode (some n) none 8 = .ok bs) ↔ n ≤ maxUnsigned := by
  constructor
  · rintro ⟨bs, h⟩
    exact (encode_some_ok h).2.1
  · intro hn
    have h8 := (octetLength_spec hn).2.1
    exact (encode_some_isOk_iff hn none 8).mpr (by simp only [Option.getD_none]; omega)

/-- The shortest form of a size is what the writer gives for it. -/
theorem encode_of_shortest {bs : Bytes} (h : Shortest bs) :
    ∃ n, encode (some n) none 8 = .ok bs := by
  obtain ⟨n, hn, rfl⟩ := h
  obtain ⟨bs', hbs'⟩ := (encode_isOk_iff n).mpr hn
  obtain ⟨rfl, -⟩ := encode_some_ok hbs'
  exact ⟨n, by simpa using hbs'⟩

/-- Writing a lace difference succeeds exactly within the signed range. -/
theorem encodeSigned_isOk_iff (d : Int) :
    (∃ bs, encodeSigned d 8 = .ok bs) ↔ d.natAbs ≤ maxSigned := by
  constructor
  · rintro ⟨bs, h⟩
    simp only [encodeSigned, checkSigned] at h
    split at h
    · assumption
    · cases h
  · intro hd
    obtain ⟨h1, h8, hb⟩ := signedOctetLength_spec hd
    have hraw := biased_lt_allOnes h1 hb
    have hwidth := octetLength_le h1 hraw
    have hmax : (d + bias (signedOctetLength d)).toNat ≤ maxUnsigned := by
      have hall : allOnes 8 = maxUnsigned + 1 := rfl
      have := allOnes_le h8
      omega
    simp only [encodeSigned, checkSigned, hd, if_true, bind, Except.bind]
    exact (encode_some_isOk_iff hmax _ 8).mpr (by simp only [Option.getD_some]; omega)

/-- The shortest form of a lace difference is what the writer gives for it. -/
theorem encodeSigned_of_shortestSigned {bs : Bytes} (h : ShortestSigned bs) :
    ∃ d, encodeSigned d 8 = .ok bs := by
  obtain ⟨d, hd, rfl⟩ := h
  obtain ⟨bs', hbs'⟩ := (encodeSigned_isOk_iff d).mpr hd
  refine ⟨d, ?_⟩
  have hwritten := hbs'
  simp only [encodeSigned, checkSigned, hd, if_true, bind, Except.bind] at hwritten
  obtain ⟨rfl, -, -, -⟩ := encode_some_ok hwritten
  obtain ⟨h1, -, hb⟩ := signedOctetLength_spec hd
  have hwidth := octetLength_le h1 (biased_lt_allOnes h1 hb)
  rw [hbs', Option.getD_some, Nat.max_eq_right hwidth]

end Ebml.Vint
