import Ebml.Float

/-!
# Singles survive the trip through doubles

A single is written as a double widened from it and narrowed back when four octets are asked
for. Widening is exact and narrowing rounds to the nearest single, so every single that is not a
NaN comes back bit for bit: a normal single as a normal double whose mantissa rounds without
loss, a subnormal single as a normal double shifted back down to units of `2 ^ -149`, zeros and
infinities as themselves. A NaN becomes quiet on the way, which is why it is excluded.
-/

namespace Ebml.FloatBits

/-- Whether a single is a NaN: all exponent bits set and a nonzero mantissa. -/
def isNaN32 (b : UInt32) : Bool :=
  b.toNat / Nat.pow 2 23 % Nat.pow 2 8 = 0xFF && b.toNat % Nat.pow 2 23 != 0

/-- Shifting out bits that are all zero rounds nothing. -/
theorem shiftRound_exact (q k : Nat) : shiftRound (q * Nat.pow 2 k) k = q := by
  have hpos : 0 < Nat.pow 2 k := Nat.two_pow_pos k
  unfold shiftRound
  split
  · subst_vars
    simp
  · have hhalf : 0 < Nat.pow 2 (k - 1) := Nat.two_pow_pos (k - 1)
    simp only [Nat.mul_div_cancel _ hpos, Nat.mul_mod_left]
    rw [if_neg (by omega)]

/-- The nearest single to a double with a full 53-bit mantissa `M` and exponent `ex`, when it
is a normal single: the mantissa rounded to 24 bits. -/
private theorem nearestSingle_of_normal {M : Nat} {ex : Int} (hlog : M.log2 = 52)
    (hlow : -126 ≤ ex + 52) (hhigh : ex + 52 ≤ 127) (hr : shiftRound M 29 ≠ Nat.pow 2 24) :
    nearestSingle M ex = (ex + 52 + 127).toNat * Nat.pow 2 23 + (shiftRound M 29 - Nat.pow 2 23) := by
  unfold nearestSingle
  rw [hlog, if_neg (by omega), if_pos (show 52 + 1 > 24 by decide),
    show 52 + 1 - 24 = 29 from rfl, if_neg hr]
  dsimp only
  rw [if_neg (by omega)]
  congr 3
  omega

/-- The nearest single to a double with a full 53-bit mantissa `M` and exponent `ex`, when it
is subnormal: the mantissa shifted down to units of `2 ^ -149`. -/
private theorem nearestSingle_of_subnormal {M : Nat} {ex : Int} (hlog : M.log2 = 52)
    (hlow : ex + 52 < -126) :
    nearestSingle M ex = shiftRound M (-(ex + 149)).toNat := by
  unfold nearestSingle
  rw [hlog, if_pos (by omega)]
  dsimp only
  rw [if_neg (by omega)]

/-- A normal single, widened, is the nearest single to itself. -/
private theorem nearestSingle_normal {e m : Nat} (he1 : 1 ≤ e) (he : e ≤ 254)
    (hm : m < Nat.pow 2 23) :
    nearestSingle (m * Nat.pow 2 29 + Nat.pow 2 52) (((e + 896 : Nat) : Int) - 1075) =
      e * Nat.pow 2 23 + m := by
  have p23 : Nat.pow 2 23 = 8388608 := by decide
  have p24 : Nat.pow 2 24 = 16777216 := by decide
  have p29 : Nat.pow 2 29 = 536870912 := by decide
  have p52 : Nat.pow 2 52 = 4503599627370496 := by decide
  have hsplit : m * Nat.pow 2 29 + Nat.pow 2 52 = (m + Nat.pow 2 23) * Nat.pow 2 29 := by
    rw [p23, p29, p52]
    omega
  have hlog : (m * Nat.pow 2 29 + Nat.pow 2 52).log2 = 52 := by
    rw [Nat.log2_eq_iff (by omega), Nat.pow_eq, Nat.pow_eq]
    have : (2 : Nat) ^ (52 + 1) = 9007199254740992 := by decide
    have : (2 : Nat) ^ 52 = 4503599627370496 := by decide
    omega
  have hround : shiftRound (m * Nat.pow 2 29 + Nat.pow 2 52) 29 = m + Nat.pow 2 23 := by
    rw [hsplit, shiftRound_exact]
  have htop : ((((e + 896 : Nat) : Int) - 1075 + 52 + 127)).toNat = e := by omega
  rw [nearestSingle_of_normal hlog (by omega) (by omega) (by rw [hround, p23, p24]; omega), hround,
    htop, Nat.add_sub_cancel]

/-- Narrowing reads a double's sign, exponent and mantissa fields. -/
private theorem narrow_fields {s E F : Nat} (hs : s < 2) (hE : E < 2048) (hF : F < Nat.pow 2 52) :
    narrow (s * Nat.pow 2 63 + (E * Nat.pow 2 52 + F)).toUInt64 =
      (s * Nat.pow 2 31 +
        if E = 0x7FF then (if F = 0 then 0x7F800000 else 0x7FC00000 + F / Nat.pow 2 29 % Nat.pow 2 22)
        else if E = 0 then (if F = 0 then 0 else nearestSingle F (-1074))
        else nearestSingle (F + Nat.pow 2 52) ((E : Int) - 1075)).toUInt32 := by
  have p63 : Nat.pow 2 63 = 9223372036854775808 := by decide
  have p52 : Nat.pow 2 52 = 4503599627370496 := by decide
  have p11 : Nat.pow 2 11 = 2048 := by decide
  have hF' : F < 4503599627370496 := p52 ▸ hF
  have hbits : (s * Nat.pow 2 63 + (E * Nat.pow 2 52 + F)).toUInt64.toNat =
      s * Nat.pow 2 63 + (E * Nat.pow 2 52 + F) := by
    rw [Nat.toUInt64_eq, UInt64.toNat_ofNat', p63, p52]
    exact Nat.mod_eq_of_lt (by simp only [Nat.reducePow]; omega)
  have hsign : (s * Nat.pow 2 63 + (E * Nat.pow 2 52 + F)) / Nat.pow 2 63 = s := by
    rw [p63, p52]
    omega
  have hexp : (s * Nat.pow 2 63 + (E * Nat.pow 2 52 + F)) / Nat.pow 2 52 % Nat.pow 2 11 = E := by
    rw [p63, p52, p11]
    omega
  have hmant : (s * Nat.pow 2 63 + (E * Nat.pow 2 52 + F)) % Nat.pow 2 52 = F := by
    rw [p63, p52]
    omega
  unfold narrow
  simp only [hbits]
  rw [hsign, hexp, hmant]

/-- A subnormal single's mantissa, moved up to the top of 53 bits. -/
private theorem subnormal_mantissa {m : Nat} (hm0 : m ≠ 0) (hm : m < Nat.pow 2 23) :
    Nat.pow 2 52 ≤ m * Nat.pow 2 (53 - (m.log2 + 1)) ∧
      m * Nat.pow 2 (53 - (m.log2 + 1)) < Nat.pow 2 53 := by
  have hn : m.log2 < 23 := (Nat.log2_lt hm0).mpr hm
  have hlo : 2 ^ m.log2 ≤ m := Nat.log2_self_le hm0
  have hhi : m < 2 ^ (m.log2 + 1) := Nat.lt_log2_self
  constructor
  · have h := Nat.mul_le_mul_right (2 ^ (53 - (m.log2 + 1))) hlo
    rw [← Nat.pow_add, show m.log2 + (53 - (m.log2 + 1)) = 52 by omega] at h
    simpa only [Nat.pow_eq] using h
  · have h := Nat.mul_lt_mul_of_pos_right hhi (Nat.two_pow_pos (53 - (m.log2 + 1)))
    rw [← Nat.pow_add, show m.log2 + 1 + (53 - (m.log2 + 1)) = 53 by omega] at h
    simpa only [Nat.pow_eq] using h

/-- A subnormal single, widened to a normal double, is the nearest single to itself. -/
private theorem nearestSingle_subnormal {m : Nat} (hm0 : m ≠ 0) (hm : m < Nat.pow 2 23) :
    nearestSingle (m * Nat.pow 2 (53 - (m.log2 + 1)) - Nat.pow 2 52 + Nat.pow 2 52)
      (((m.log2 + 1 + 873 : Nat) : Int) - 1075) = m := by
  have hn : m.log2 < 23 := (Nat.log2_lt hm0).mpr hm
  obtain ⟨hlow, hhigh⟩ := subnormal_mantissa hm0 hm
  have hlog : (m * Nat.pow 2 (53 - (m.log2 + 1))).log2 = 52 := by
    rw [Nat.log2_eq_iff (Nat.pos_iff_ne_zero.mp (Nat.lt_of_lt_of_le (Nat.two_pow_pos 52) hlow))]
    exact ⟨hlow, hhigh⟩
  rw [Nat.sub_add_cancel hlow, nearestSingle_of_subnormal hlog (by omega),
    show (-(((m.log2 + 1 + 873 : Nat) : Int) - 1075 + 149)).toNat = 53 - (m.log2 + 1) by omega,
    shiftRound_exact]

/-- The exponent and mantissa fields of a single stay below its sign bit. -/
private theorem fields_lt {e m : Nat} (he : e < 256) (hm : m < Nat.pow 2 23) :
    e * Nat.pow 2 23 + m < Nat.pow 2 31 := by
  have p23 : Nat.pow 2 23 = 8388608 := by decide
  have p31 : Nat.pow 2 31 = 2147483648 := by decide
  rw [p23] at hm
  rw [p23, p31]
  omega

/-- Widening then narrowing gives back every single that is not a NaN. -/
theorem narrow_widen {b : UInt32} (hnan : isNaN32 b = false) : narrow (widen b) = b := by
  have p31 : Nat.pow 2 31 = 2147483648 := by decide
  have p23 : Nat.pow 2 23 = 8388608 := by decide
  have p8 : Nat.pow 2 8 = 256 := by decide
  have hlt : b.toNat < 4294967296 := b.toNat_lt
  unfold widen
  dsimp only
  simp only [isNaN32, Bool.and_eq_false_iff, decide_eq_false_iff_not, bne_eq_false_iff_eq] at hnan
  generalize hs : b.toNat / Nat.pow 2 31 = s
  generalize he : b.toNat / Nat.pow 2 23 % Nat.pow 2 8 = e at hnan
  generalize hm : b.toNat % Nat.pow 2 23 = m at hnan
  have hb : b.toNat = s * Nat.pow 2 31 + (e * Nat.pow 2 23 + m) := by
    rw [p31, p23, p8] at *
    omega
  have hs2 : s < 2 := by rw [p31] at hs; omega
  have he8 : e < 256 := by rw [p23, p8] at he; omega
  have hm23 : m < Nat.pow 2 23 := by rw [p23] at hm ⊢; omega
  have hfinal : ∀ x, x < Nat.pow 2 31 → (s * Nat.pow 2 31 + x).toUInt32.toNat = s * Nat.pow 2 31 + x := by
    intro x hx
    rw [Nat.toUInt32_eq, UInt32.toNat_ofNat']
    exact Nat.mod_eq_of_lt (by rw [p31] at hx ⊢; simp only [Nat.reducePow]; omega)
  apply UInt32.toNat_inj.mp
  by_cases hinf : e = 0xFF
  · -- an infinity: no NaN has a zero mantissa
    have hm0 : m = 0 := by omega
    have h := @narrow_fields s 0x7FF 0 hs2 (by decide) (Nat.two_pow_pos 52)
    rw [if_pos rfl, if_pos rfl, show 0x7FF * Nat.pow 2 52 + 0 = 0x7FF0000000000000 by decide] at h
    rw [if_pos hinf, if_pos hm0, h, hfinal 0x7F800000 (by decide), hb, hinf, hm0, p23]
  rw [if_neg hinf]
  by_cases hzero : e = 0
  · rw [if_pos hzero]
    by_cases hm0 : m = 0
    · -- a zero
      have h := @narrow_fields s 0 0 hs2 (by decide) (Nat.two_pow_pos 52)
      simp only [Nat.zero_mul, Nat.add_zero, if_pos, show (0 : Nat) ≠ 0x7FF by decide, if_false] at h
      rw [if_pos hm0, Nat.add_zero, h, Nat.toUInt32_eq, UInt32.toNat_ofNat', hb, hzero, hm0, p31]
      simp only [Nat.reducePow]
      omega
    · -- a subnormal single becomes a normal double
      rw [if_neg hm0]
      have hE : m.log2 + 1 + 873 < 2047 := by
        have := (Nat.log2_lt hm0).mpr hm23
        omega
      have hF : m * Nat.pow 2 (53 - (m.log2 + 1)) - Nat.pow 2 52 < Nat.pow 2 52 := by
        have h53 : Nat.pow 2 53 = 2 * Nat.pow 2 52 := by decide
        have := (subnormal_mantissa hm0 hm23).2
        omega
      rw [@narrow_fields s _ _ hs2 (by omega) hF, if_neg (by omega), if_neg (by omega),
        nearestSingle_subnormal hm0 hm23, hfinal m (Nat.lt_of_lt_of_le hm23 (by decide)), hb, hzero]
      simp
  · -- a normal single
    rw [if_neg hzero]
    have hF : m * Nat.pow 2 29 < Nat.pow 2 52 := by
      rw [show Nat.pow 2 52 = Nat.pow 2 23 * Nat.pow 2 29 by decide]
      exact Nat.mul_lt_mul_of_pos_right hm23 (Nat.two_pow_pos 29)
    rw [@narrow_fields s (e + 896) _ hs2 (by omega) hF, if_neg (by omega), if_neg (by omega),
      nearestSingle_normal (by omega) (by omega) hm23,
      hfinal (e * Nat.pow 2 23 + m) (fields_lt he8 hm23), hb]

end Ebml.FloatBits
