import Mathlib.Tactic.IntervalCases
import Ebml.Proofs.Payload
import Ebml.Proofs.Vint
import Ebml.Proofs.ClusterStreams

/-!
# Integers in the fewest octets

An integer element's data is its number in big-endian octets, two's complement when signed.
Writing with the natural size takes the fewest octets that read back as the number
(`IntegerLaws.least`), a declared size up to eight pads it, any other is refused, and values
that fit the other signedness take the same octets. Main statement: `integer_payload_codec`.
-/

namespace Ebml.Payload

/-- Octets that the reader of a data type, asked for as many octets as they are, reads as the
value under any options, from any source that holds them next. -/
def ReadsBack (t : DataType) (bs : Bytes) (v : Value) : Prop :=
  ∀ opts : DecodeOptions, ReadM.ReadsAs (read opts t bs.length) bs v

/-! ## Reading integers -/

section Reading

variable {opts : DecodeOptions} {s : Source} {bs rest : Bytes}

/-- Up to eight octets read as an unsigned integer give their big-endian number. -/
theorem read_unsigned (h8 : bs.length ≤ 8) (hs : s.ahead = bs ++ rest) :
    (read opts .unsignedInt bs.length).run s =
      (.ok (.uint (Octets.toNat bs).toUInt64),
        { s with ahead := rest, position := s.position + bs.length }) := by
  simp only [read, if_neg (Nat.not_lt.mpr h8), ReadM.run_bind, ReadM.exact_append hs,
    ReadM.run_pure]

/-- Up to eight octets read as a signed integer give their two's complement number; no octets
give zero. -/
theorem read_signed (h8 : bs.length ≤ 8) (hs : s.ahead = bs ++ rest) :
    (read opts .signedInt bs.length).run s =
      (.ok (.int (Int64.ofInt (signedOf bs))),
        { s with ahead := rest, position := s.position + bs.length }) := by
  cases bs with
  | nil =>
    subst hs
    rfl
  | cons b tail =>
    have hne : (b :: tail).length ≠ 0 := by simp
    simp only [read, if_neg (Nat.not_lt.mpr h8), if_neg hne, ReadM.run_bind,
      ReadM.exact_append hs, ReadM.run_pure]

/-- An integer element of more than eight octets is refused. -/
theorem read_integer_over {t : DataType} (ht : t = .unsignedInt ∨ t = .signedInt) {n : Nat}
    (hn : 8 < n) (s : Source) : ((read opts t n).run s).1 = .error .invalidIntSize := by
  rcases ht with rfl | rfl <;> simp only [read, if_pos hn, ReadM.run_fail]

end Reading

/-! ## The numbers octets stand for -/

/-- Octets of `bs.length` hold a number in two's complement. -/
theorem signedOf_fits {bs : Bytes} (hne : bs ≠ []) : fitsSigned (signedOf bs) bs.length = true := by
  have hlt := Octets.toNat_lt bs
  have hlen : 1 ≤ bs.length := List.length_pos_iff.mpr hne
  have hsplit : Nat.pow 256 bs.length = 2 * Nat.pow 2 (8 * bs.length - 1) := by
    simp only [Nat.pow_eq]
    rw [← Nat.pow_succ', show 256 = 2 ^ 8 by rfl, ← Nat.pow_mul]
    congr 1
    omega
  have hP : Int.pow 2 (8 * bs.length) = ((Nat.pow 256 bs.length : Nat) : Int) := by
    rw [show Nat.pow 256 bs.length = Nat.pow 2 (8 * bs.length) by
      simp only [Nat.pow_eq]; rw [show 256 = 2 ^ 8 by rfl, ← Nat.pow_mul]]
    rfl
  have hH : Int.pow 2 (8 * bs.length - 1) = ((Nat.pow 2 (8 * bs.length - 1) : Nat) : Int) := rfl
  rw [hsplit] at hP hlt
  unfold signedOf
  simp only [fitsSigned, hH, List.isEmpty_eq_false_iff.mpr hne, Bool.false_eq_true, if_false,
    decide_eq_true_eq, hP]
  split <;> omega

/-- A number held in `L` octets is held in any more octets. -/
theorem fitsSigned_mono {v : Int} {L L' : Nat} (hL : 1 ≤ L) (hle : L ≤ L')
    (h : fitsSigned v L = true) : fitsSigned v L' = true := by
  have hpow : Nat.pow 2 (8 * L - 1) ≤ Nat.pow 2 (8 * L' - 1) := by
    simp only [Nat.pow_eq]
    exact Nat.pow_le_pow_right (by decide) (by omega)
  have hH : ∀ k, Int.pow 2 k = ((Nat.pow 2 k : Nat) : Int) := fun _ => rfl
  simp only [fitsSigned, hH, decide_eq_true_eq] at h ⊢
  omega

/-- Octets of a number in two's complement stay within the signed 64-bit range. -/
theorem signedOf_bounds {bs : Bytes} (h8 : bs.length ≤ 8) :
    -2 ^ 63 ≤ signedOf bs ∧ signedOf bs < 2 ^ 63 := by
  by_cases hne : bs = []
  · subst hne
    decide
  · have hmono := fitsSigned_mono (List.length_pos_iff.mpr hne) h8 (signedOf_fits hne)
    have hpow : Int.pow 2 (8 * 8 - 1) = 2 ^ 63 := by decide
    simp only [fitsSigned, hpow, decide_eq_true_eq] at hmono
    exact hmono


/-! ## Octets that read back as a number -/

/-- Octets read back as an unsigned number exactly when there are at most eight of them and
their big-endian number is it. -/
theorem readsBack_uint_iff {bs : Bytes} {v : UInt64} :
    ReadsBack .unsignedInt bs (.uint v) ↔ bs.length ≤ 8 ∧ Octets.toNat bs = v.toNat := by
  constructor
  · intro h
    have hrun := h {} (Source.ofBytes bs) [] (List.append_nil bs).symm
    by_cases h8 : bs.length ≤ 8
    · rw [read_unsigned h8 (List.append_nil bs).symm] at hrun
      have hv : (Octets.toNat bs).toUInt64 = v := by
        simp only [Prod.mk.injEq, Except.ok.injEq, Value.uint.injEq] at hrun
        exact hrun.1
      have hlt : Octets.toNat bs < Nat.pow 256 8 :=
        Nat.lt_of_lt_of_le (Octets.toNat_lt bs) (Nat.pow_le_pow_right (by decide) h8)
      refine ⟨h8, ?_⟩
      rw [← hv, Nat.toUInt64_eq, UInt64.toNat_ofNat', Nat.mod_eq_of_lt hlt]
    · have hover : ((read {} .unsignedInt bs.length).run (Source.ofBytes bs)).1 =
          .error .invalidIntSize := read_integer_over (.inl rfl) (Nat.lt_of_not_le h8) _
      rw [hrun] at hover
      exact nomatch hover
  · rintro ⟨h8, hv⟩ opts s rest hs
    rw [read_unsigned h8 hs, hv, Nat.toUInt64_eq, UInt64.ofNat_toNat]

/-- Octets read back as a signed number exactly when there are at most eight of them and
their two's complement number is it. -/
theorem readsBack_int_iff {bs : Bytes} {v : Int64} :
    ReadsBack .signedInt bs (.int v) ↔ bs.length ≤ 8 ∧ signedOf bs = v.toInt := by
  constructor
  · intro h
    have hrun := h {} (Source.ofBytes bs) [] (List.append_nil bs).symm
    by_cases h8 : bs.length ≤ 8
    · rw [read_signed h8 (List.append_nil bs).symm] at hrun
      have hv : Int64.ofInt (signedOf bs) = v := by
        simp only [Prod.mk.injEq, Except.ok.injEq, Value.int.injEq] at hrun
        exact hrun.1
      obtain ⟨hlo, hhi⟩ := signedOf_bounds h8
      exact ⟨h8, by rw [← hv, Int64.toInt_ofInt_of_le hlo hhi]⟩
    · have hover : ((read {} .signedInt bs.length).run (Source.ofBytes bs)).1 =
          .error .invalidIntSize := read_integer_over (.inr rfl) (Nat.lt_of_not_le h8) _
      rw [hrun] at hover
      exact nomatch hover
  · rintro ⟨h8, hv⟩ opts s rest hs
    rw [read_signed h8 hs, hv, Int64.ofInt_toInt]

/-! ## The fewest octets -/

/-- No fewer octets, at least one, than the unsigned width hold a number. -/
theorem unsignedWidth_le {v L : Nat} (hL : 1 ≤ L) (hv : v < Nat.pow 256 L) :
    unsignedWidth v ≤ L := by
  unfold unsignedWidth
  split
  · exact hL
  · rename_i hv0
    have h256 : Nat.pow 256 L = 2 ^ (8 * L) := by
      simp only [Nat.pow_eq]
      rw [show 256 = 2 ^ 8 by rfl, ← Nat.pow_mul]
    have hlog : v.log2 < 8 * L := (Nat.log2_lt hv0).mpr (h256 ▸ hv)
    omega

/-- No fewer octets, at least one, than the signed width hold a number in two's complement:
the width is the first count from one to eight that holds it. -/
theorem signedWidth_le {v : Int} {L : Nat} (hL : 1 ≤ L) (h8 : L ≤ 8)
    (hv : fitsSigned v L = true) : signedWidth v ≤ L := by
  unfold signedWidth
  simp only [List.range', List.find?]
  -- each branch returns a count all of whose predecessors fail, so `L` is not below it
  repeat' split
  all_goals
    simp only [Option.getD_some, Option.getD_none]
    interval_cases L <;> simp_all

/-! ## Writing integers -/

section Writing

variable {e : Element}

/-- A declared width is taken when it is at least the fewest octets and at most eight. -/
theorem integerWidth_some (minimal n : Nat) :
    integerWidth minimal (some n) =
      if minimal ≤ n ∧ n ≤ 8 then .ok n else .error .invalidIntSize := by
  simp only [integerWidth, And.comm, ge_iff_le]

/-- With its natural size an unsigned element writes an unsigned number in the fewest octets. -/
theorem encode_uint_natural (he : e.dataType = .unsignedInt) (v : UInt64) :
    encode e (.uint v) .natural = .ok (Octets.ofNat (unsignedWidth v.toNat) v.toNat) := by
  simp only [encode, he, encodeUnsigned, integerWidth, bind, Except.bind, pure, Except.pure]

/-- With a declared size an unsigned element writes an unsigned number in that many octets, or
refuses the size. -/
theorem encode_uint_exact (he : e.dataType = .unsignedInt) (v : UInt64) (n : Nat) :
    encode e (.uint v) (.exact n) =
      if unsignedWidth v.toNat ≤ n ∧ n ≤ 8 then .ok (Octets.ofNat n v.toNat)
      else .error .invalidIntSize := by
  by_cases h : unsignedWidth v.toNat ≤ n ∧ n ≤ 8
  · simp only [encode, he, encodeUnsigned, integerWidth_some, if_pos h, bind, Except.bind, pure,
      Except.pure]
  · simp only [encode, he, encodeUnsigned, integerWidth_some, if_neg h, bind, Except.bind,
      pure, Except.pure]

/-- With its natural size a signed element writes a signed number in the fewest octets. -/
theorem encode_int_natural (he : e.dataType = .signedInt) (v : Int64) :
    encode e (.int v) .natural = .ok (signedBytes (signedWidth v.toInt) v.toInt) := by
  simp only [encode, he, encodeSigned, integerWidth, bind, Except.bind, pure, Except.pure]

/-- With a declared size a signed element writes a signed number in that many octets, or
refuses the size. -/
theorem encode_int_exact (he : e.dataType = .signedInt) (v : Int64) (n : Nat) :
    encode e (.int v) (.exact n) =
      if signedWidth v.toInt ≤ n ∧ n ≤ 8 then .ok (signedBytes n v.toInt)
      else .error .invalidIntSize := by
  by_cases h : signedWidth v.toInt ≤ n ∧ n ≤ 8
  · simp only [encode, he, encodeSigned, integerWidth_some, if_pos h, bind, Except.bind, pure,
      Except.pure]
  · simp only [encode, he, encodeSigned, integerWidth_some, if_neg h, bind, Except.bind,
      pure, Except.pure]

/-- A signed value that is not negative is written under an unsigned element as the unsigned
number it is. -/
theorem encode_nonneg_int (he : e.dataType = .unsignedInt) {i : Int64} (hi : 0 ≤ i.toInt)
    (size : DeclaredSize) : encode e (.int i) size = encode e (.uint i.toUInt64) size := by
  have hnat : i.toUInt64.toNat = i.toInt.toNat := by
    rw [Int64.toNat_toUInt64_of_le (Int64.le_iff_toInt_le.mpr (by simpa using hi))]
    rfl
  cases size <;> simp [encode, he, hi, hnat]

/-- An unsigned value below `2 ^ 63` is written under a signed element as the signed number it
is. -/
theorem encode_small_uint (he : e.dataType = .signedInt) {u : UInt64}
    (hu : u.toNat < Nat.pow 2 63) (size : DeclaredSize) :
    encode e (.uint u) size = encode e (.int u.toInt64) size := by
  have hint : u.toInt64.toInt = u.toNat := by
    have hbits : u.toInt64.toInt = u.toBitVec.toInt := rfl
    rw [hbits, BitVec.toInt_eq_toNat_cond, UInt64.toNat_toBitVec,
      if_pos (by simp only [Nat.pow_eq] at hu; omega)]
  have hmax : u.toNat ≤ maxSignedWord.toNat := by
    have hw : maxSignedWord.toNat = Nat.pow 2 63 - 1 := by decide
    omega
  cases size <;> simp [encode, he, hint, hmax]

/-! ## The laws of integer data -/

/-- What an integer element writes for a value whose fewest octets are `width`: the natural
size takes `width` octets, which read back as the value, and no string of at least one octet
that is shorter reads back as it; a declared size from `width` up to eight takes that many
octets, which read back as the value, and any other declared size is refused. -/
structure IntegerLaws (e : Element) (v : Value) (width : Nat) : Prop where
  pos : 1 ≤ width
  natural : ∃ bs, encode e v .natural = .ok bs ∧ bs.length = width ∧ ReadsBack e.dataType bs v
  least : ∀ bs : Bytes, 1 ≤ bs.length → ReadsBack e.dataType bs v → width ≤ bs.length
  exact : ∀ n, width ≤ n → n ≤ 8 →
    ∃ bs, encode e v (.exact n) = .ok bs ∧ bs.length = n ∧ ReadsBack e.dataType bs v
  refused : ∀ n, n < width ∨ 8 < n → encode e v (.exact n) = .error .invalidIntSize

/-- An unsigned element keeps the laws of integer data, in the unsigned width. -/
theorem unsigned_laws (he : e.dataType = .unsignedInt) (v : UInt64) :
    IntegerLaws e (.uint v) (unsignedWidth v.toNat) := by
  obtain ⟨h1, h8, hlt⟩ := unsignedWidth_spec v.toNat_lt
  have hreads : ∀ n, unsignedWidth v.toNat ≤ n → n ≤ 8 →
      ReadsBack e.dataType (Octets.ofNat n v.toNat) (.uint v) := by
    intro n hw hn
    rw [he, readsBack_uint_iff, Octets.length_ofNat]
    exact ⟨hn, Octets.toNat_ofNat_of_lt
      (Nat.lt_of_lt_of_le hlt (Nat.pow_le_pow_right (by decide) hw))⟩
  refine ⟨h1, ⟨_, encode_uint_natural he v, Octets.length_ofNat _ _, hreads _ le_rfl h8⟩,
    ?least, ?exact, ?refused⟩
  case least =>
    intro bs hbs hback
    rw [he] at hback
    obtain ⟨-, hv⟩ := readsBack_uint_iff.mp hback
    exact unsignedWidth_le hbs (hv ▸ Octets.toNat_lt bs)
  case exact =>
    intro n hw hn
    exact ⟨_, by rw [encode_uint_exact he, if_pos ⟨hw, hn⟩], Octets.length_ofNat _ _,
      hreads n hw hn⟩
  case refused =>
    intro n hn
    rw [encode_uint_exact he, if_neg (by omega)]

example : encode .trackUid (.uint 0x100) .natural = .ok [1, 0] := by rfl

/-- A signed element keeps the laws of integer data, in the signed width. -/
theorem signed_laws (he : e.dataType = .signedInt) (v : Int64) :
    IntegerLaws e (.int v) (signedWidth v.toInt) := by
  have hfit8 : fitsSigned v.toInt 8 = true := by
    have hpow : Int.pow 2 (8 * 8 - 1) = 2 ^ 63 := by decide
    simp only [fitsSigned, hpow, decide_eq_true_eq]
    exact ⟨Int64.le_toInt v, Int64.toInt_lt v⟩
  obtain ⟨h1, h8, hfit⟩ := signedWidth_spec hfit8
  have hreads : ∀ n, signedWidth v.toInt ≤ n → n ≤ 8 →
      ReadsBack e.dataType (signedBytes n v.toInt) (.int v) := by
    intro n hw hn
    rw [he, readsBack_int_iff, signedBytes, Octets.length_ofNat]
    exact ⟨hn, signedOf_signedBytes (by omega) (fitsSigned_mono h1 hw hfit)⟩
  refine ⟨h1, ⟨_, encode_int_natural he v, Octets.length_ofNat _ _, hreads _ le_rfl h8⟩,
    ?least, ?exact, ?refused⟩
  case least =>
    intro bs hbs hback
    rw [he] at hback
    obtain ⟨h8', hv⟩ := readsBack_int_iff.mp hback
    exact signedWidth_le hbs h8' (hv ▸ signedOf_fits (List.length_pos_iff.mp hbs))
  case exact =>
    intro n hw hn
    exact ⟨signedBytes n v.toInt, by rw [encode_int_exact he, if_pos ⟨hw, hn⟩],
      Octets.length_ofNat _ _, hreads n hw hn⟩
  case refused =>
    intro n hn
    rw [encode_int_exact he, if_neg (by omega)]

example : encode .referenceBlock (.int (-129)) .natural = .ok [0xFF, 0x7F] := by rfl

example : encode .referenceBlock (.int (-2)) (.exact 3) = .ok [0xFF, 0xFF, 0xFE] := by rfl

end Writing

/-- Integer data codec: for every element of an integer data type and every value of its kind,
the natural size writes the fewest octets, at least one, that the reader of that width gives
back as the value; a declared size `N` is written, in `N` octets that read back as the value,
exactly when it lies between that width and eight, and is otherwise refused with
`invalidIntSize`. A signed value that is not negative under an unsigned element, and an
unsigned value below `2 ^ 63` under a signed element, write the octets of the element's own
kind. -/
theorem integer_payload_codec :
    (∀ e : Element, e.dataType = .unsignedInt → ∀ v : UInt64,
      IntegerLaws e (.uint v) (unsignedWidth v.toNat)) ∧
    (∀ e : Element, e.dataType = .signedInt → ∀ v : Int64,
      IntegerLaws e (.int v) (signedWidth v.toInt)) ∧
    (∀ e : Element, e.dataType = .unsignedInt → ∀ (i : Int64) (size : DeclaredSize),
      0 ≤ i.toInt → encode e (.int i) size = encode e (.uint i.toUInt64) size) ∧
    (∀ e : Element, e.dataType = .signedInt → ∀ (u : UInt64) (size : DeclaredSize),
      u.toNat < Nat.pow 2 63 → encode e (.uint u) size = encode e (.int u.toInt64) size) :=
  ⟨fun _ he v => unsigned_laws he v, fun _ he v => signed_laws he v,
    fun _ he _ size hi => encode_nonneg_int he hi size,
    fun _ he _ size hu => encode_small_uint he hu size⟩

/-- `0x100` under `TrackUID` and `-129` under `ReferenceBlock` keep the laws of integer data;
`5` as a signed value under `TrackUID`, and `128` as an unsigned value under `ReferenceBlock`,
are written as the element's own kind. -/
theorem two_octet_integers :
    Element.trackUid.dataType = .unsignedInt ∧ Element.referenceBlock.dataType = .signedInt ∧
    IntegerLaws .trackUid (.uint 0x100) (unsignedWidth (0x100 : UInt64).toNat) ∧
    IntegerLaws .referenceBlock (.int (-129)) (signedWidth (-129 : Int64).toInt) ∧
    encode .trackUid (.int 5) (.exact 8) = encode .trackUid (.uint (5 : Int64).toUInt64) (.exact 8) ∧
    encode .referenceBlock (.uint 128) .natural =
      encode .referenceBlock (.int (128 : UInt64).toInt64) .natural :=
  ⟨rfl, rfl, integer_payload_codec.1 .trackUid rfl 0x100,
    integer_payload_codec.2.1 .referenceBlock rfl (-129),
    integer_payload_codec.2.2.1 .trackUid rfl 5 (.exact 8) (by decide),
    integer_payload_codec.2.2.2 .referenceBlock rfl 128 .natural (by decide)⟩

end Ebml.Payload
