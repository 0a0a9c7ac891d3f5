import Ebml.Proofs.Reading
import Ebml.Header

/-!
# Reading back what was written

Variable-width integers carry their width in the marker bit of their first octet. Marking a value
and reading it back gives the value and the width it was written at, for sizes, for signed lace
deltas and for whole element headers. Widths are at most eight octets, identifiers at most four,
and a reader that admits at least the writer's widths reads every header the writer produces.
-/

namespace Ebml.Octets

theorem ofNat_succ_cons (w n : Nat) :
    ofNat (w + 1) n = (n / Nat.pow 256 w).toUInt8 :: ofNat w n := by
  induction w generalizing n with
  | zero =>
    simp only [ofNat, List.nil_append, List.cons.injEq, and_true]
    apply UInt8.toNat_inj.mp
    simp [Nat.toUInt8]
  | succ w ih =>
    rw [ofNat, ih, ofNat, List.cons_append, Nat.div_div_eq_div_mul, Nat.mul_comm]
    rfl

private theorem foldl_acc (bs : Bytes) (acc : Nat) :
    bs.foldl (fun acc b => acc * 256 + b.toNat) acc = acc * Nat.pow 256 bs.length + toNat bs := by
  induction bs generalizing acc with
  | nil => simp [toNat]
  | cons b bs ih =>
    simp only [List.foldl_cons, toNat, List.length_cons] at *
    rw [ih, ih (0 * 256 + b.toNat)]
    simp only [Nat.pow_eq, Nat.pow_succ, Nat.zero_mul, Nat.zero_add, Nat.add_mul, Nat.mul_assoc,
      Nat.mul_comm 256]
    omega

theorem toNat_cons (b : UInt8) (bs : Bytes) :
    toNat (b :: bs) = b.toNat * Nat.pow 256 bs.length + toNat bs := by
  simp only [toNat, List.foldl_cons, Nat.zero_mul, Nat.zero_add]
  exact foldl_acc bs b.toNat

/-- Octets read as a number and written back at their own width are the same octets. -/
theorem ofNat_toNat (bs : Bytes) : ofNat bs.length (toNat bs) = bs := by
  -- octets are written last first, so the induction adds an octet at the end
  obtain ⟨rs, rfl⟩ : ∃ rs, bs = List.reverse rs := ⟨bs.reverse, (List.reverse_reverse bs).symm⟩
  induction rs with
  | nil => rfl
  | cons b rs ih =>
    have hb := b.toNat_lt
    rw [List.reverse_cons, toNat_append_single, List.length_append, List.length_singleton, ofNat,
      show (toNat rs.reverse * 256 + b.toNat) / 256 = toNat rs.reverse by omega,
      show (toNat rs.reverse * 256 + b.toNat) % 256 = b.toNat by omega, ih]
    simp

theorem toNat_lt (bs : Bytes) : toNat bs < Nat.pow 256 bs.length := by
  have h := toNat_ofNat bs.length (toNat bs)
  rw [ofNat_toNat] at h
  rw [h]
  exact Nat.mod_lt _ (Nat.pow_pos (by omega))

end Ebml.Octets

namespace Ebml.Vint

/-- Seven data bits per octet: the top octet of a width-`L` value keeps `8 - L` of them. -/
theorem pow_seven_split {L : Nat} (h1 : 1 ≤ L) (h8 : L ≤ 8) :
    Nat.pow 2 (7 * L) = Nat.pow 2 (8 - L) * Nat.pow 2 (8 * (L - 1)) := by
  simp only [Nat.pow_eq]
  rw [← Nat.pow_add]
  congr 1
  omega

/-- The data bits a first octet keeps. -/
private theorem first_bounds {L v : Nat} (h1 : 1 ≤ L) (h8 : L ≤ 8) (hv : v < Nat.pow 2 (7 * L)) :
    v / Nat.pow 2 (8 * (L - 1)) < Nat.pow 2 (8 - L) := by
  have hsplit := pow_seven_split h1 h8
  simp only [Nat.pow_eq] at *
  rw [Nat.div_lt_iff_lt_mul (Nat.two_pow_pos _), ← hsplit]
  exact hv

/-- A marked value is its first octet (the marker bit over the value's top bits) and the low
octets of the value. -/
theorem withMarker_cons {L v : Nat} (h1 : 1 ≤ L) (h8 : L ≤ 8) :
    withMarker L v = (Nat.pow 2 (8 - L) + v / Nat.pow 2 (8 * (L - 1))).toUInt8 ::
      Octets.ofNat (L - 1) (v + Nat.pow 2 (7 * L)) := by
  obtain ⟨k, rfl⟩ : ∃ k, L = k + 1 := ⟨L - 1, by omega⟩
  have hsplit := pow_seven_split h1 h8
  rw [withMarker, Octets.ofNat_succ_cons]
  simp only [Nat.pow_eq, Nat.add_sub_cancel] at *
  congr 2
  have h256 : (256 : Nat) ^ k = 2 ^ (8 * k) := by rw [Nat.pow_mul]
  rw [h256, hsplit, Nat.add_mul_div_right _ _ (Nat.two_pow_pos _), Nat.add_comm]

/-- The first octet of a marked value is an octet. -/
private theorem first_toNat {L q : Nat} (h1 : 1 ≤ L) (hq : q < Nat.pow 2 (8 - L)) :
    (Nat.pow 2 (8 - L) + q).toUInt8.toNat = Nat.pow 2 (8 - L) + q := by
  simp only [Nat.pow_eq] at *
  have hpow : 2 ^ (8 - L) * 2 ≤ 256 := by
    rw [← Nat.pow_succ]
    exact Nat.pow_le_pow_right (show 2 > 0 by omega) (show 8 - L + 1 ≤ 8 by omega)
  have h8 : (2 : Nat) ^ 8 = 256 := by decide
  simp only [Nat.toUInt8_eq, UInt8.toNat_ofNat', h8]
  exact Nat.mod_eq_of_lt (by omega)

private theorem log2_first {L q : Nat} (hq : q < Nat.pow 2 (8 - L)) :
    (Nat.pow 2 (8 - L) + q).log2 = 8 - L := by
  simp only [Nat.pow_eq] at *
  have hpos := Nat.two_pow_pos (8 - L)
  rw [Nat.log2_eq_iff (by omega), Nat.pow_succ]
  omega

/-- The marker of a first octet gives its width back. -/
theorem markerLength_first {L q : Nat} (h1 : 1 ≤ L) (h8 : L ≤ 8) (hq : q < Nat.pow 2 (8 - L)) :
    markerLength (Nat.pow 2 (8 - L) + q).toUInt8 = L := by
  rw [markerLength, first_toNat h1 hq, log2_first hq]
  omega

private theorem small_toNat {q : Nat} (hq : q < 256) : q.toUInt8.toNat = q := by
  simp only [Nat.toUInt8_eq, UInt8.toNat_ofNat']
  exact Nat.mod_eq_of_lt hq

/-- Clearing the marker of a marked value gives the value back, which stands for the unknown
size when all its data bits are set. -/
theorem unsignedValue_marked {L v : Nat} (h1 : 1 ≤ L) (h8 : L ≤ 8) (hv' : v < Nat.pow 2 (7 * L)) :
    unsignedValue (Nat.pow 2 (8 - L) + v / Nat.pow 2 (8 * (L - 1))).toUInt8
      (Octets.ofNat (L - 1) (v + Nat.pow 2 (7 * L))) = if v = allOnes L then none else some v := by
  have hq := first_bounds h1 h8 hv'
  have hfirst := first_toNat h1 hq
  have hlog := log2_first hq
  have hsplit := pow_seven_split h1 h8
  simp only [Nat.pow_eq] at *
  have hq256 : v / 2 ^ (8 * (L - 1)) < 256 := by
    have : 2 ^ (8 - L) ≤ 2 ^ 7 := Nat.pow_le_pow_right (by omega) (by omega)
    have h7 : (2 : Nat) ^ 7 = 128 := by decide
    omega
  have hk : (256 : Nat) ^ (L - 1) = 2 ^ (8 * (L - 1)) := by rw [Nat.pow_mul]
  have hlow : Octets.toNat (Octets.ofNat (L - 1) (v + 2 ^ (7 * L))) = v % 2 ^ (8 * (L - 1)) := by
    rw [Octets.toNat_ofNat]
    simp only [Nat.pow_eq]
    rw [hk, hsplit, Nat.add_mul_mod_self_right]
  have hval : Octets.toNat ((2 ^ (8 - L) + v / 2 ^ (8 * (L - 1)) - 2 ^ (8 - L)).toUInt8 ::
      Octets.ofNat (L - 1) (v + 2 ^ (7 * L))) = v := by
    rw [Nat.add_sub_cancel_left, Octets.toNat_cons, small_toNat hq256, Octets.length_ofNat, hlow]
    simp only [Nat.pow_eq, hk]
    rw [Nat.mul_comm, Nat.div_add_mod]
  simp only [unsignedValue, Nat.pow_eq, hfirst, hlog, hval, Octets.length_ofNat,
    Nat.sub_add_cancel h1]

/-- The first octet of a marked value of width `L` passes the width check exactly when `L` is
allowed. -/
theorem checkLength_marked {L v : Nat} (maxLen : Nat) (h1 : 1 ≤ L) (h8 : L ≤ 8)
    (hv' : v < Nat.pow 2 (7 * L)) :
    checkLength (Nat.pow 2 (8 - L) + v / Nat.pow 2 (8 * (L - 1))).toUInt8 maxLen =
      if L ≤ maxLen then .ok L else .error .badVintSize := by
  have hq := first_bounds h1 h8 hv'
  have hfirst := first_toNat h1 hq
  have hne : (Nat.pow 2 (8 - L) + v / Nat.pow 2 (8 * (L - 1))).toUInt8 ≠ 0 := by
    intro h
    have h0 := congrArg UInt8.toNat h
    rw [hfirst, UInt8.toNat_zero] at h0
    have hpos : 0 < Nat.pow 2 (8 - L) := Nat.two_pow_pos _
    generalize v / Nat.pow 2 (8 * (L - 1)) = q at h0
    omega
  simp only [checkLength, hne, if_false, markerLength_first h1 h8 hq]
  by_cases hmax : L ≤ maxLen
  · rw [if_neg (Nat.not_lt.mpr hmax), if_pos hmax]
  · rw [if_pos (Nat.lt_of_not_le hmax), if_neg hmax]

/-- Reading a marked value of width `L` gives its value, or the unknown size when all its data
bits are set, and its width. -/
theorem readUnsigned_marked {L v maxLen : Nat} (h1 : 1 ≤ L) (h8 : L ≤ 8) (hmax : L ≤ maxLen)
    (hv' : v < Nat.pow 2 (7 * L)) {s : Source} {rest : Bytes} (hs : s.ahead = withMarker L v ++ rest) :
    (readUnsigned maxLen).run s =
      (.ok (if v = allOnes L then none else some v, L),
        { s with ahead := rest, position := s.position + L }) := by
  rw [withMarker_cons h1 h8, List.cons_append] at hs
  have htail := @ReadM.exact_append
    { s with ahead := Octets.ofNat (L - 1) (v + Nat.pow 2 (7 * L)) ++ rest
             position := s.position + 1 } (Octets.ofNat (L - 1) (v + Nat.pow 2 (7 * L))) rest rfl
  rw [Octets.length_ofNat] at htail
  simp only [readUnsigned, ReadM.run_bind, ReadM.byte_cons hs, checkLength_marked maxLen h1 h8 hv',
    if_pos hmax, ReadM.run_ofExcept, htail, ReadM.run_pure, unsignedValue_marked h1 h8 hv']
  rw [show s.position + 1 + (L - 1) = s.position + L by omega]

/-- Reading a marked value of width `L` refuses it when only narrower widths are allowed. -/
theorem readUnsigned_marked_refused {L v maxLen : Nat} (h1 : 1 ≤ L) (h8 : L ≤ 8)
    (hmax : maxLen < L) (hv' : v < Nat.pow 2 (7 * L)) {s : Source} {rest : Bytes}
    (hs : s.ahead = withMarker L v ++ rest) :
    ∃ s', (readUnsigned maxLen).run s = (.error .badVintSize, s') := by
  rw [withMarker_cons h1 h8, List.cons_append] at hs
  simp only [readUnsigned, ReadM.run_bind, ReadM.byte_cons hs, checkLength_marked maxLen h1 h8 hv',
    if_neg (Nat.not_le.mpr hmax), ReadM.run_ofExcept]
  exact ⟨_, rfl⟩

/-- Reading a marked value of width `L` gives the value and its width. -/
theorem readUnsigned_withMarker {L v maxLen : Nat} (h1 : 1 ≤ L) (h8 : L ≤ 8) (hmax : L ≤ maxLen)
    (hv : v < allOnes L) {s : Source} {rest : Bytes} (hs : s.ahead = withMarker L v ++ rest) :
    (readUnsigned maxLen).run s =
      (.ok (some v, L), { s with ahead := rest, position := s.position + L }) := by
  have hv' : v < Nat.pow 2 (7 * L) := by simp only [allOnes] at hv; omega
  rw [readUnsigned_marked h1 h8 hmax hv' hs, if_neg (Nat.ne_of_lt hv)]

/-! ### Picking a width

Sizes and lace differences take the same search for their width: the first of the widths one to
seven that holds the number, or else eight. -/

/-- The first of the widths one to seven that passes a test, or else eight. -/
def firstWidth (p : Nat → Bool) : Nat := ((List.range' 1 7).find? p).getD 8

theorem octetLength_eq (v : Nat) : octetLength v = firstWidth fun L => decide (v < allOnes L) :=
  rfl

theorem signedOctetLength_eq (v : Int) :
    signedOctetLength v = firstWidth fun L => decide (v.natAbs ≤ bias L) :=
  rfl

/-- The width picked lies between one and eight. -/
theorem firstWidth_bounds (p : Nat → Bool) : 1 ≤ firstWidth p ∧ firstWidth p ≤ 8 := by
  unfold firstWidth
  cases h : (List.range' 1 7).find? p with
  | none => simp
  | some r =>
    have := List.mem_range'_1.mp (List.mem_of_find?_eq_some h)
    simp only [Option.getD_some]
    omega

/-- The width picked passes the test, once the widest does. -/
theorem firstWidth_passes {p : Nat → Bool} (h8 : p 8 = true) : p (firstWidth p) = true := by
  unfold firstWidth
  cases h : (List.range' 1 7).find? p with
  | none => exact h8
  | some r => exact List.find?_some h

/-- No width that passes the test is narrower than the one picked: the search stops at the first
that passes. -/
theorem firstWidth_le {p : Nat → Bool} {L : Nat} (h1 : 1 ≤ L) (hL : p L = true) :
    firstWidth p ≤ L := by
  by_cases h8 : 8 ≤ L
  · exact Nat.le_trans (firstWidth_bounds p).2 h8
  -- `L` is one of the widths tried, so the search stops at it or before
  have hmem : L ∈ List.range' 1 7 := List.mem_range'_1.mpr ⟨h1, by omega⟩
  unfold firstWidth
  cases h : (List.range' 1 7).find? p with
  | none => exact absurd hL (List.find?_eq_none.mp h L hmem)
  | some r =>
    obtain ⟨-, i, hi, rfl, hbefore⟩ := List.find?_eq_some_iff_getElem.mp h
    rw [Option.getD_some, List.getElem_range']
    refine Nat.le_of_not_lt fun hlt => ?_
    have hskip := hbefore (L - 1) (by omega)
    rw [List.getElem_range', show 1 + 1 * (L - 1) = L by omega, hL] at hskip
    exact absurd hskip (by decide)

/-- The width a size is written with holds it: between one and eight octets, below the
all-ones value of that width. -/
theorem octetLength_spec {v : Nat} (hv : v ≤ maxUnsigned) :
    1 ≤ octetLength v ∧ octetLength v ≤ 8 ∧ v < allOnes (octetLength v) := by
  have h8 : v < allOnes 8 := by
    have hpow : Nat.pow 2 (7 * 8) = Nat.pow 2 56 := rfl
    have hpos : 2 ≤ Nat.pow 2 56 := by decide
    simp only [maxUnsigned, allOnes, hpow] at hv ⊢
    omega
  rw [octetLength_eq]
  exact ⟨(firstWidth_bounds _).1, (firstWidth_bounds _).2,
    of_decide_eq_true (firstWidth_passes (p := fun L => decide (v < allOnes L)) (decide_eq_true h8))⟩

/-- No width that holds a size is narrower than the one the writer picks. -/
theorem octetLength_le {v L : Nat} (h1 : 1 ≤ L) (hv : v < allOnes L) : octetLength v ≤ L :=
  firstWidth_le h1 (decide_eq_true hv)

/-- A written size is the value marked at the width the writer picks: the wider of its own
width and the requested least width, at most eight and at most the allowed width. -/
theorem encode_some_ok {v : Nat} {minLen : Option Nat} {maxLen : Nat} {bs : Bytes}
    (h : encode (some v) minLen maxLen = .ok bs) :
    bs = withMarker (max (octetLength v) (minLen.getD 0)) v ∧ v ≤ maxUnsigned ∧
      max (octetLength v) (minLen.getD 0) ≤ maxLen ∧ max (octetLength v) (minLen.getD 0) ≤ 8 := by
  simp only [encode] at h
  split at h
  · cases h
  · split at h
    · cases h
    · cases h
      exact ⟨rfl, by omega, by omega, by omega⟩

/-- A written size is its value marked at the width written, one to eight octets, below the
all-ones value of that width. -/
theorem encode_some_marked {v : Nat} {minLen : Option Nat} {maxLen : Nat} {bs : Bytes}
    (h : encode (some v) minLen maxLen = .ok bs) :
    1 ≤ bs.length ∧ bs.length ≤ 8 ∧ v < allOnes bs.length ∧ bs = withMarker bs.length v := by
  obtain ⟨rfl, hv, -, h8⟩ := encode_some_ok h
  obtain ⟨h1, -, hlt⟩ := octetLength_spec hv
  have hmono : allOnes (octetLength v) ≤ allOnes (max (octetLength v) (minLen.getD 0)) := by
    simp only [allOnes, Nat.pow_eq]
    have := Nat.pow_le_pow_right (show 2 > 0 by omega)
      (show 7 * octetLength v ≤ 7 * max (octetLength v) (minLen.getD 0) by omega)
    omega
  rw [withMarker, Octets.length_ofNat]
  exact ⟨by omega, h8, by omega, rfl⟩

/-- Reading a written size gives the size back, with the number of octets written. A size
takes at most eight octets, so a reader allowing eight reads every size written. -/
theorem readUnsigned_encode {v : Nat} {minLen : Option Nat} {maxLen readMax : Nat} {bs : Bytes}
    (h : encode (some v) minLen maxLen = .ok bs) (hmax : min maxLen 8 ≤ readMax) {s : Source}
    {rest : Bytes} (hs : s.ahead = bs ++ rest) :
    (readUnsigned readMax).run s =
      (.ok (some v, bs.length), { s with ahead := rest, position := s.position + bs.length }) := by
  obtain ⟨h1, h8, hlt, hbs⟩ := encode_some_marked h
  have hL : bs.length ≤ maxLen := by
    obtain ⟨rfl, -, hL, -⟩ := encode_some_ok h
    rwa [withMarker, Octets.length_ofNat]
  rw [hbs] at hs
  exact readUnsigned_withMarker h1 h8 (by omega) hlt hs

/-- Reading a written size, whatever width the reader allows, either refuses the width it was
written with or gives the size back, with the number of octets written. -/
theorem readUnsigned_encoded {v : Nat} {minLen : Option Nat} {maxLen : Nat} (readMax : Nat)
    {bs : Bytes} (h : encode (some v) minLen maxLen = .ok bs) {s : Source} {rest : Bytes}
    (hs : s.ahead = bs ++ rest) :
    (∃ s', (readUnsigned readMax).run s = (.error .badVintSize, s')) ∨
      (readUnsigned readMax).run s =
        (.ok (some v, bs.length), { s with ahead := rest, position := s.position + bs.length }) := by
  obtain ⟨h1, h8, hlt, hbs⟩ := encode_some_marked h
  rw [hbs] at hs
  by_cases hread : bs.length ≤ readMax
  · exact .inr (readUnsigned_withMarker h1 h8 hread hlt hs)
  · have hv' : v < Nat.pow 2 (7 * bs.length) := by simp only [allOnes] at hlt; omega
    exact .inl (readUnsigned_marked_refused h1 h8 (Nat.lt_of_not_le hread) hv' hs)

/-- A signed value in range gets a width between one and eight whose bias bounds it. -/
theorem signedOctetLength_spec {v : Int} (hv : v.natAbs ≤ maxSigned) :
    1 ≤ signedOctetLength v ∧ signedOctetLength v ≤ 8 ∧ v.natAbs ≤ bias (signedOctetLength v) := by
  have h8 : v.natAbs ≤ bias 8 := by
    simp only [maxSigned, bias] at hv ⊢
    omega
  rw [signedOctetLength_eq]
  exact ⟨(firstWidth_bounds _).1, (firstWidth_bounds _).2,
    of_decide_eq_true (firstWidth_passes (p := fun L => decide (v.natAbs ≤ bias L))
      (decide_eq_true h8))⟩

/-- A signed value whose magnitude is within the bias of a width lies, biased, below the all-ones
value of that width: a signed value of `L` octets is never read as the unknown size. -/
theorem biased_lt_allOnes {v : Int} {L : Nat} (h1 : 1 ≤ L) (hb : v.natAbs ≤ bias L) :
    (v + bias L).toNat < allOnes L := by
  have hsplit : Nat.pow 2 (7 * L) = 2 * Nat.pow 2 (7 * L - 1) := by
    simp only [Nat.pow_eq]
    rw [← Nat.pow_succ']
    congr 1
    omega
  have hpos : 0 < Nat.pow 2 (7 * L - 1) := Nat.two_pow_pos _
  simp only [bias, allOnes] at hb ⊢
  omega

/-- Reading a written lace delta gives the delta back, with the number of octets written. -/
theorem readSigned_encodeSigned {v : Int} {bs : Bytes} (h : encodeSigned v 8 = .ok bs)
    {s : Source} {rest : Bytes} (hs : s.ahead = bs ++ rest) :
    (readSigned 8).run s =
      (.ok (v, bs.length), { s with ahead := rest, position := s.position + bs.length }) := by
  have hv : v.natAbs ≤ maxSigned := by
    simp only [encodeSigned, checkSigned] at h
    split at h
    · assumption
    · cases h
  simp only [encodeSigned, checkSigned, hv, if_true, bind, Except.bind] at h
  obtain ⟨rfl, -, -, -⟩ := encode_some_ok h
  obtain ⟨h1, h8, hb⟩ := signedOctetLength_spec hv
  generalize signedOctetLength v = L at *
  -- the biased value lies below the all-ones value of its width, so no wider width is chosen
  have hraw := biased_lt_allOnes h1 hb
  have hmax : max (octetLength (v + bias L).toNat) ((some L).getD 0) = L := by
    have := octetLength_le h1 hraw
    simp only [Option.getD_some]
    omega
  rw [hmax] at hs ⊢
  simp only [readSigned, ReadM.run_bind, readUnsigned_withMarker h1 h8 h8 hraw hs,
    ReadM.run_pure, withMarker, Octets.length_ofNat]
  congr 3
  omega

/-- A written size takes at least one octet. -/
theorem length_encode_pos {v : Nat} {minLen : Option Nat} {maxLen : Nat} {bs : Bytes}
    (h : encode (some v) minLen maxLen = .ok bs) : 0 < bs.length := by
  obtain ⟨rfl, hv, -, -⟩ := encode_some_ok h
  have h1 := (octetLength_spec hv).1
  rw [withMarker, Octets.length_ofNat]
  omega

end Ebml.Vint

namespace Ebml

/-- An identifier takes at least one octet. -/
theorem Element.idBytes_length_pos (e : Element) : 0 < e.idBytes.length := by
  rw [Element.idBytes, Octets.length_ofNat, Element.idWidth]
  omega

/-- What the schema table bears out for every identifier: its first octet announces its width,
of at most four octets, and the octets name the element and its identifier. -/
private theorem idBytes_facts (e : Element) :
    (e.idBytes.head?.map Vint.markerLength = some e.idBytes.length ∧ e.idBytes.head? ≠ some 0 ∧
      e.idBytes.length ≤ 4) ∧ Element.lookup e.idBytes = some e ∧ Octets.toNat e.idBytes = e.id := by
  cases e <;> decide

/-- Every identifier of the schema takes at most four octets. -/
theorem Element.idWidth_le_four (e : Element) : Element.idWidth e.id ≤ 4 := by
  have h := (idBytes_facts e).1.2.2
  rwa [Element.idBytes, Octets.length_ofNat] at h

/-- Reading a header that starts with the identifier of a schema element gives the element,
with the size that the octets after the identifier read as. -/
theorem Header.read_idBytes {opts : DecodeOptions} (e : Element) (hid : 4 ≤ opts.maxIdLength)
    {size : Option Nat} {sz rest : Bytes}
    (hsize : ∀ s : Source, s.ahead = sz ++ rest → (Vint.readUnsigned opts.maxSizeLength).run s =
      (.ok (size, sz.length), { s with ahead := rest, position := s.position + sz.length }))
    {s : Source} (hs : s.ahead = e.idBytes ++ sz ++ rest) :
    (Header.read opts).run s =
      (.ok (some ⟨e.id, some e, size, e.idBytes.length + sz.length⟩),
        { s with ahead := rest, position := s.position + (e.idBytes.length + sz.length) }) := by
  obtain ⟨⟨hmark, hzero, hwidth⟩, hlookup, hid'⟩ := idBytes_facts e
  generalize hbytes : e.idBytes = bytes at *
  cases bytes with
  | nil => simp at hmark
  | cons first tail =>
    simp only [List.head?_cons, Option.map_some, Option.some.injEq, ne_eq, List.length_cons]
      at hmark hzero hwidth
    have hcheck : Vint.checkLength first opts.maxIdLength = .ok (tail.length + 1) := by
      simp only [Vint.checkLength, hzero, if_false, hmark]
      rw [if_neg (by omega)]
    rw [List.cons_append, List.cons_append] at hs
    have htail : (ReadM.exact tail.length).run
        { s with ahead := tail ++ sz ++ rest, position := s.position + 1 } =
        (.ok tail, { s with ahead := sz ++ rest, position := s.position + 1 + tail.length }) :=
      ReadM.exact_append (List.append_assoc _ _ _)
    have hsz := hsize { s with ahead := sz ++ rest, position := s.position + 1 + tail.length } rfl
    simp only [Header.read, ReadM.run_bind, ReadM.run_position, ReadM.byte?_cons hs,
      ReadM.run_ofExcept, hcheck, Nat.add_sub_cancel, htail, hsz, ReadM.run_pure, hlookup, hid']
    simp only [List.length_cons]
    rw [show s.position + 1 + tail.length + sz.length - s.position = tail.length + 1 + sz.length
        by omega, show s.position + 1 + tail.length + sz.length =
          s.position + (tail.length + 1 + sz.length) by omega]

/-- Reading a written header gives the element, its size and the header's length. -/
theorem Header.read_encoded {opts : DecodeOptions} (e : Element) (hid : 4 ≤ opts.maxIdLength)
    {n : Nat} {minLen : Option Nat} {maxLen : Nat} {sz : Bytes}
    (hsz : Vint.encode (some n) minLen maxLen = .ok sz) (hmax : min maxLen 8 ≤ opts.maxSizeLength)
    {s : Source} {rest : Bytes} (hs : s.ahead = e.idBytes ++ sz ++ rest) :
    (Header.read opts).run s =
      (.ok (some ⟨e.id, some e, some n, e.idBytes.length + sz.length⟩),
        { s with ahead := rest, position := s.position + (e.idBytes.length + sz.length) }) :=
  Header.read_idBytes e hid (fun _ hs' => Vint.readUnsigned_encode hsz hmax hs') hs

/-- Reading a written header, whatever widths the reader allows, either fails or gives the
element, its size and the header's length: a reader refuses a width it does not allow, and reads
every other header as it was written. -/
theorem Header.read_written {opts : DecodeOptions} (e : Element) {n : Nat} {minLen : Option Nat}
    {maxLen : Nat} {sz : Bytes} (hsz : Vint.encode (some n) minLen maxLen = .ok sz) {s : Source}
    {rest : Bytes} (hs : s.ahead = e.idBytes ++ sz ++ rest) :
    (∃ err s', (Header.read opts).run s = (.error err, s')) ∨
      (Header.read opts).run s =
        (.ok (some ⟨e.id, some e, some n, e.idBytes.length + sz.length⟩),
          { s with ahead := rest, position := s.position + (e.idBytes.length + sz.length) }) := by
  obtain ⟨⟨hmark, hzero, hwidth⟩, hlookup, hid'⟩ := idBytes_facts e
  generalize hbytes : e.idBytes = bytes at *
  cases bytes with
  | nil => simp at hmark
  | cons first tail =>
    simp only [List.head?_cons, Option.map_some, Option.some.injEq, ne_eq, List.length_cons]
      at hmark hzero hwidth
    rw [List.cons_append, List.cons_append] at hs
    by_cases hid : tail.length + 1 ≤ opts.maxIdLength
    · have hcheck : Vint.checkLength first opts.maxIdLength = .ok (tail.length + 1) := by
        simp only [Vint.checkLength, hzero, if_false, hmark]
        rw [if_neg (by omega)]
      have htail : (ReadM.exact tail.length).run
          { s with ahead := tail ++ sz ++ rest, position := s.position + 1 } =
          (.ok tail, { s with ahead := sz ++ rest, position := s.position + 1 + tail.length }) :=
        ReadM.exact_append (List.append_assoc _ _ _)
      rcases Vint.readUnsigned_encoded opts.maxSizeLength hsz
          (show ({ s with ahead := sz ++ rest, position := s.position + 1 + tail.length } :
            Source).ahead = sz ++ rest from rfl) with ⟨s', hsize⟩ | hsize
      · refine .inl ⟨.badVintSize, s', ?_⟩
        simp only [Header.read, ReadM.run_bind, ReadM.run_position, ReadM.byte?_cons hs,
          ReadM.run_ofExcept, hcheck, Nat.add_sub_cancel, htail, hsize]
      · refine .inr ?_
        simp only [Header.read, ReadM.run_bind, ReadM.run_position, ReadM.byte?_cons hs,
          ReadM.run_ofExcept, hcheck, Nat.add_sub_cancel, htail, hsize, ReadM.run_pure, hlookup,
          hid', List.length_cons]
        rw [show s.position + 1 + tail.length + sz.length - s.position =
            tail.length + 1 + sz.length by omega, show s.position + 1 + tail.length + sz.length =
              s.position + (tail.length + 1 + sz.length) by omega]
    · -- the identifier is wider than the reader allows
      have hcheck : Vint.checkLength first opts.maxIdLength = .error .badVintSize := by
        simp only [Vint.checkLength, hzero, if_false, hmark]
        rw [if_pos (by omega)]
      refine .inl ⟨.badVintSize, { s with ahead := tail ++ sz ++ rest, position := s.position + 1 }, ?_⟩
      simp only [Header.read, ReadM.run_bind, ReadM.run_position, ReadM.byte?_cons hs,
        ReadM.run_ofExcept, hcheck]

end Ebml
