import Ebml.Proofs.SizeCodec

/-!
# The signed codec, both ways

A lace difference `v` is written as `v + bias L` at the least width `L` whose bias bounds `|v|`,
below the all-ones pattern, and reads back as `v`. The other way round, every signed value a
reader takes lies within the bias of its width, so it is a value the writer accepts.
-/

namespace Ebml.Vint

/-! ## Widths -/

/-- No width whose bias bounds a signed value is narrower than the one the writer picks. -/
theorem signedOctetLength_le {v : Int} {L : Nat} (h1 : 1 ≤ L) (hv : v.natAbs ≤ bias L) :
    signedOctetLength v ≤ L :=
  firstWidth_le h1 (decide_eq_true hv)

/-- The bias grows with the width. -/
theorem bias_le {L L' : Nat} (h : L ≤ L') : bias L ≤ bias L' := by
  have := Nat.pow_le_pow_right (show 2 > 0 by omega) (show 7 * L - 1 ≤ 7 * L' - 1 by omega)
  simp only [bias, Nat.pow_eq]
  omega

/-- The bias of eight octets is the largest signed magnitude. -/
theorem bias_eight : bias 8 = maxSigned := rfl

/-- The bias of a width and the all-ones pattern of that width: the all-ones value is twice the
bias plus one. -/
theorem allOnes_eq_bias {L : Nat} (h1 : 1 ≤ L) : allOnes L = 2 * bias L + 1 := by
  have hsplit : Nat.pow 2 (7 * L) = 2 * Nat.pow 2 (7 * L - 1) := by
    simp only [Nat.pow_eq]
    rw [← Nat.pow_succ']
    congr 1
    omega
  have hpos : 0 < Nat.pow 2 (7 * L - 1) := Nat.two_pow_pos _
  simp only [allOnes, bias]
  omega

/-- A known size of width `L`, less the bias of `L`, has a magnitude within that bias: the
sizes below the all-ones pattern are exactly the biased values of magnitude at most the bias. -/
theorem natAbs_sub_bias_le {raw L : Nat} (h1 : 1 ≤ L) (hraw : raw < allOnes L) :
    ((raw : Int) - bias L).natAbs ≤ bias L := by
  rw [allOnes_eq_bias h1] at hraw
  omega

/-! ## Writing -/

/-- A written lace difference is within the signed range, and is its biased value marked at
the signed width, which the allowed width admits. -/
theorem encodeSigned_ok {v : Int} {maxLen : Nat} {bs : Bytes}
    (h : encodeSigned v maxLen = .ok bs) :
    v.natAbs ≤ maxSigned ∧ signedOctetLength v ≤ maxLen ∧
      bs = withMarker (signedOctetLength v) (v + bias (signedOctetLength v)).toNat := by
  have hv : v.natAbs ≤ maxSigned := by
    simp only [encodeSigned, checkSigned] at h
    split at h
    · assumption
    · cases h
  simp only [encodeSigned, checkSigned, hv, if_true, bind, Except.bind] at h
  obtain ⟨rfl, -, hmax, -⟩ := encode_some_ok h
  obtain ⟨h1, -, hb⟩ := signedOctetLength_spec hv
  have hwidth := octetLength_le h1 (biased_lt_allOnes h1 hb)
  rw [Option.getD_some, Nat.max_eq_right hwidth] at hmax ⊢
  exact ⟨hv, hmax, rfl⟩

/-- Reading a written lace difference, with any width allowed that admits the one written,
gives the difference back with the number of octets written. -/
theorem readSigned_encodeSigned_of_le {v : Int} {maxLen readMax : Nat} {bs : Bytes}
    (h : encodeSigned v maxLen = .ok bs) (hread : signedOctetLength v ≤ readMax)
    {s : Source} {rest : Bytes} (hs : s.ahead = bs ++ rest) :
    (readSigned readMax).run s =
      (.ok (v, signedOctetLength v),
        { s with ahead := rest, position := s.position + signedOctetLength v }) := by
  obtain ⟨hv, -, rfl⟩ := encodeSigned_ok h
  obtain ⟨h1, h8, hb⟩ := signedOctetLength_spec hv
  simp only [readSigned, ReadM.run_bind,
    readUnsigned_withMarker h1 h8 hread (biased_lt_allOnes h1 hb) hs, ReadM.run_pure]
  congr 3
  omega

/-! ## Reading -/

/-- A signed value a reader takes is a known size of the width it read, less that width's bias. -/
theorem readSigned_ok {maxLen : Nat} {s s' : Source} {v : Int} {L : Nat}
    (h : (readSigned maxLen).run s = (.ok (v, L), s')) :
    ∃ raw : Nat, (readUnsigned maxLen).run s = (.ok (some raw, L), s') ∧ v = raw - bias L := by
  obtain ⟨⟨r, L'⟩, s₁, hr, h₁⟩ := ReadM.run_bind_ok h
  cases r with
  | none => simp at h₁
  | some raw =>
    simp only [ReadM.run_pure, Prod.mk.injEq, Except.ok.injEq] at h₁
    obtain ⟨⟨rfl, rfl⟩, rfl⟩ := h₁
    exact ⟨raw, hr, rfl⟩

/-- What a signed read takes: a width of one to eight octets that the reader allows, holding a
known size below its all-ones pattern, whose bias bounds the value read. -/
theorem readSigned_bounds {maxLen : Nat} {s s' : Source} {v : Int} {L : Nat}
    (h : (readSigned maxLen).run s = (.ok (v, L), s')) :
    1 ≤ L ∧ L ≤ 8 ∧ L ≤ maxLen ∧ v.natAbs ≤ bias L ∧ 0 ≤ v + bias L ∧
      v + bias L < allOnes L := by
  obtain ⟨raw, hraw, rfl⟩ := readSigned_ok h
  obtain ⟨first, tail, -, hcheck, hlen, hvalue⟩ := readUnsigned_ok hraw
  obtain ⟨h0, rfl, hmax⟩ := checkLength_ok hcheck
  obtain ⟨h1, h8, -, -⟩ := markerLength_bounds h0
  obtain ⟨hlt, -⟩ := withMarker_of_unsignedValue h0 (by omega) hvalue
  refine ⟨h1, h8, hmax, natAbs_sub_bias_le h1 hlt, by omega, by omega⟩

/-! ## The codec -/

/-- The signed codec. A value of magnitude at most `2 ^ 55 - 1` passes the range check; the
writer gives it the least width `L` of one to eight octets whose bias `2 ^ (7 L - 1) - 1` bounds
its magnitude, writes it in exactly `L` octets, and a reader allowing `L` octets or more reads
back the value and `L`. Conversely every signed read yields a width `L` of one to eight octets
and a value whose magnitude is within the bias of `L`, so the value passes the range check, and
the value plus the bias lies between zero and the all-ones pattern of `L`, below `2 ^ 56`. -/
theorem signed_codec :
    (∀ v : Int, v.natAbs ≤ maxSigned →
      checkSigned v = .ok v ∧
      (1 ≤ signedOctetLength v ∧ signedOctetLength v ≤ 8 ∧
        v.natAbs ≤ bias (signedOctetLength v) ∧
        ∀ L, 1 ≤ L → v.natAbs ≤ bias L → signedOctetLength v ≤ L) ∧
      ∃ bs, encodeSigned v 8 = .ok bs ∧ bs.length = signedOctetLength v ∧
        ∀ (readMax : Nat) (s : Source) (rest : Bytes),
          signedOctetLength v ≤ readMax → s.ahead = bs ++ rest →
          (readSigned readMax).run s =
            (.ok (v, signedOctetLength v),
              { s with ahead := rest, position := s.position + signedOctetLength v })) ∧
    (∀ (readMax : Nat) (s s' : Source) (v : Int) (L : Nat),
      (readSigned readMax).run s = (.ok (v, L), s') →
      1 ≤ L ∧ L ≤ 8 ∧ L ≤ readMax ∧ v.natAbs ≤ bias L ∧ checkSigned v = .ok v ∧
        0 ≤ v + bias L ∧ v + bias L < allOnes L) := by
  refine ⟨fun v hv => ?written, fun readMax s s' v L h => ?read⟩
  case written =>
    obtain ⟨h1, h8, hb⟩ := signedOctetLength_spec hv
    obtain ⟨bs, hbs⟩ := (encodeSigned_isOk_iff v).mpr hv
    have hlen : bs.length = signedOctetLength v := by
      rw [(encodeSigned_ok hbs).2.2, withMarker, Octets.length_ofNat]
    refine ⟨if_pos hv, ⟨h1, h8, hb, fun L hL hvL => signedOctetLength_le hL hvL⟩, bs, hbs, hlen,
      fun readMax s rest hread hs => readSigned_encodeSigned_of_le hbs hread hs⟩
  case read =>
    obtain ⟨h1, h8, hmax, hb, hlo, hhi⟩ := readSigned_bounds h
    -- no width's bias exceeds the largest signed magnitude
    have hsigned : v.natAbs ≤ maxSigned := by
      rw [← bias_eight]
      exact Nat.le_trans hb (bias_le h8)
    exact ⟨h1, h8, hmax, hb, if_pos hsigned, hlo, hhi⟩

/-- The signed codec at `-64`, the first negative value that needs two octets: it is written
as `0x5F 0xBF` and reads back from them. -/
theorem signed_codec_minus_64 : (-64 : Int).natAbs ≤ maxSigned ∧
    encodeSigned (-64) 8 = .ok [0x5F, 0xBF] ∧
    (readSigned 8).run (Source.ofBytes [0x5F, 0xBF]) =
      (.ok (-64, 2), { Source.ofBytes [0x5F, 0xBF] with ahead := [], position := 2 }) := by
  have hv : (-64 : Int).natAbs ≤ maxSigned := by decide
  have henc : encodeSigned (-64) 8 = .ok [0x5F, 0xBF] := rfl
  obtain ⟨-, -, bs, hbs, -, hback⟩ := signed_codec.1 (-64) hv
  rw [henc, Except.ok.injEq] at hbs
  subst hbs
  have hwidth : signedOctetLength (-64) = 2 := rfl
  have := hback 8 (Source.ofBytes [0x5F, 0xBF]) [] (by omega) rfl
  rw [hwidth] at this
  exact ⟨hv, henc, this⟩

end Ebml.Vint
