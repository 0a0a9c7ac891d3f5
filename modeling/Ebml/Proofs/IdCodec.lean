import Ebml.Proofs.SizeCodec

/-!
# Element identifiers

An identifier keeps its length marker: it spans one to eight octets and the highest set bit of
its first octet announces that width, so `0x4001` takes two octets and `0x0A45DFA3` is none. The
check, the reader and the writer each compute the width their own way; `id_codec` states that
they agree and that an identifier is written and read back verbatim.
-/

namespace Ebml.Vint

/-- An identifier of width `w`: a number that spans exactly `w` octets, one to eight, and whose
first octet has its highest set bit at `8 - w`, the length marker of `w`. -/
def IdOfWidth (w v : Nat) : Prop :=
  1 ≤ w ∧ w ≤ 8 ∧ Nat.pow 256 (w - 1) ≤ v ∧ v < Nat.pow 256 w ∧
    (v / Nat.pow 256 (w - 1)).log2 = 8 - w

/-! ## Widths -/

private theorem pow256_eq (k : Nat) : Nat.pow 256 k = Nat.pow 2 (8 * k) := by
  rw [Nat.pow_eq, Nat.pow_eq, Nat.pow_mul]

private theorem pow256_pred {L : Nat} (h1 : 1 ≤ L) : Nat.pow 256 L = Nat.pow 256 (L - 1) * 256 := by
  obtain ⟨k, rfl⟩ : ∃ k, L = k + 1 := ⟨L - 1, by omega⟩
  rfl

/-- A number that spans `w` octets has width `w`. -/
theorem idWidth_eq {w v : Nat} (h1 : 1 ≤ w) (hlo : Nat.pow 256 (w - 1) ≤ v)
    (hhi : v < Nat.pow 256 w) : Element.idWidth v = w := by
  have hpos : 0 < Nat.pow 256 (w - 1) := Nat.pow_pos (by omega)
  have hv : v ≠ 0 := by omega
  rw [pow256_eq, Nat.pow_eq] at hlo hhi
  have hge : 8 * (w - 1) ≤ v.log2 := (Nat.le_log2 hv).mpr hlo
  have hlt : v.log2 < 8 * w := (Nat.log2_lt hv).mpr hhi
  simp only [Element.idWidth]
  omega

/-- A number that is not zero spans as many octets as its width. -/
theorem idWidth_bounds {v : Nat} (hv : v ≠ 0) :
    1 ≤ Element.idWidth v ∧ Nat.pow 256 (Element.idWidth v - 1) ≤ v ∧
      v < Nat.pow 256 (Element.idWidth v) := by
  rw [pow256_eq, pow256_eq]
  simp only [Element.idWidth, Nat.pow_eq, Nat.add_sub_cancel]
  refine ⟨by omega, ?_, ?_⟩
  · exact Nat.le_trans (Nat.pow_le_pow_right (by omega) (by omega)) (Nat.log2_self_le hv)
  · exact Nat.lt_of_lt_of_le Nat.lt_log2_self (Nat.pow_le_pow_right (by omega) (by omega))

/-- The first octet of a number spanning `w` octets: not zero, and below `256`. -/
private theorem top_bounds {w v : Nat} (hlo : Nat.pow 256 (w - 1) ≤ v) (hhi : v < Nat.pow 256 w)
    (h1 : 1 ≤ w) : 1 ≤ v / Nat.pow 256 (w - 1) ∧ v / Nat.pow 256 (w - 1) < 256 := by
  have hpos : 0 < Nat.pow 256 (w - 1) := Nat.pow_pos (by omega)
  have hsplit := pow256_pred h1
  refine ⟨(Nat.le_div_iff_mul_le hpos).mpr (by omega), ?_⟩
  rw [Nat.div_lt_iff_lt_mul hpos]
  rw [hsplit] at hhi
  rw [Nat.mul_comm]
  exact hhi

/-- The first octet of a number spanning `w` octets, as the check computes it. -/
private theorem top_toUInt8 {w v : Nat} (hlo : Nat.pow 256 (w - 1) ≤ v) (hhi : v < Nat.pow 256 w)
    (h1 : 1 ≤ w) : (v / Nat.pow 2 (8 * (w - 1))).toUInt8.toNat = v / Nat.pow 256 (w - 1) := by
  have ht := top_bounds hlo hhi h1
  rw [← pow256_eq]
  simp only [Nat.toUInt8_eq, UInt8.toNat_ofNat']
  exact Nat.mod_eq_of_lt ht.2

/-! ## The check -/

/-- The check on a number that is not zero compares the width its first octet announces with the
number's width. -/
theorem checkId_of_ne_zero {v : Nat} (hv : v ≠ 0) :
    checkId v = if Element.idWidth v ≤ 8 ∧
        (v / Nat.pow 256 (Element.idWidth v - 1)).log2 = 8 - Element.idWidth v
      then .ok v else .error .badVintSize := by
  obtain ⟨h1, hlo, hhi⟩ := idWidth_bounds hv
  have ht := top_bounds hlo hhi h1
  have hfirst := top_toUInt8 hlo hhi h1
  have hne : (v / Nat.pow 2 (8 * (Element.idWidth v - 1))).toUInt8 ≠ 0 := by
    intro h
    have h0 := congrArg UInt8.toNat h
    rw [hfirst, UInt8.toNat_zero] at h0
    omega
  have hlog : (v / Nat.pow 256 (Element.idWidth v - 1)).log2 < 8 :=
    (Nat.log2_lt (by omega)).mpr ht.2
  -- the announced width is `8 - log2` of the first octet, which is never above eight
  have hcheck : checkLength (v / Nat.pow 2 (8 * (Element.idWidth v - 1))).toUInt8 8 =
      .ok (8 - (v / Nat.pow 256 (Element.idWidth v - 1)).log2) := by
    simp only [checkLength, hne, if_false, markerLength, hfirst]
    exact if_neg (by omega)
  simp only [checkId, hv, if_false, hcheck]
  by_cases hok : Element.idWidth v ≤ 8 ∧
      (v / Nat.pow 256 (Element.idWidth v - 1)).log2 = 8 - Element.idWidth v
  · rw [if_pos hok, if_pos (by omega)]
  · rw [if_neg hok, if_neg (by omega)]

/-- Being an identifier of some width is the check's own condition on a number that is not
zero. -/
theorem exists_idOfWidth_iff {v : Nat} (hv : v ≠ 0) :
    (∃ w, IdOfWidth w v) ↔ Element.idWidth v ≤ 8 ∧
      (v / Nat.pow 256 (Element.idWidth v - 1)).log2 = 8 - Element.idWidth v := by
  constructor
  · rintro ⟨w, h1, h8, hlo, hhi, hmark⟩
    rw [idWidth_eq h1 hlo hhi]
    exact ⟨h8, hmark⟩
  · rintro ⟨h8, hmark⟩
    obtain ⟨h1, hlo, hhi⟩ := idWidth_bounds hv
    exact ⟨Element.idWidth v, h1, h8, hlo, hhi, hmark⟩

/-- The check accepts exactly the identifiers, and gives them back. -/
theorem checkId_eq_ok_iff (v id : Nat) :
    checkId v = .ok id ↔ id = v ∧ v ≠ 0 ∧ ∃ w, IdOfWidth w v := by
  by_cases hv : v = 0
  · subst hv
    simp [checkId]
  · rw [checkId_of_ne_zero hv, exists_idOfWidth_iff hv]
    constructor
    · intro h
      split at h
      · cases h
        exact ⟨rfl, hv, ‹_›⟩
      · cases h
    · rintro ⟨rfl, -, hok⟩
      exact if_pos hok

-- four octets, but a first octet announcing five; two octets, but a first octet announcing one
example : checkId 0x0A45DFA3 = .error .badVintSize := rfl
example : checkId 0x8100 = .error .badVintSize := rfl

/-- An identifier's width is the number of octets it spans. -/
theorem idWidth_of_idOfWidth {w v : Nat} (h : IdOfWidth w v) : Element.idWidth v = w :=
  idWidth_eq h.1 h.2.2.1 h.2.2.2.1

/-! ## Writing and reading -/

/-- Writing an identifier fails exactly when its width is above the allowed one. -/
theorem encodeId_isOk_iff (v maxLen : Nat) :
    (∃ bs, encodeId v maxLen = .ok bs) ↔ Element.idWidth v ≤ maxLen := by
  simp only [encodeId]
  constructor
  · rintro ⟨bs, h⟩
    split at h
    · cases h
    · omega
  · intro h
    exact ⟨_, if_neg (by omega)⟩

/-- The first octet of an identifier announces its width. -/
private theorem markerLength_top {w v : Nat} (h : IdOfWidth w v) :
    (v / Nat.pow 256 (w - 1)).toUInt8 ≠ 0 ∧ markerLength (v / Nat.pow 256 (w - 1)).toUInt8 = w := by
  obtain ⟨h1, h8, hlo, hhi, hmark⟩ := h
  have ht := top_bounds hlo hhi h1
  have hfirst : (v / Nat.pow 256 (w - 1)).toUInt8.toNat = v / Nat.pow 256 (w - 1) := by
    simp only [Nat.toUInt8_eq, UInt8.toNat_ofNat']
    exact Nat.mod_eq_of_lt ht.2
  refine ⟨fun h0 => ?_, ?_⟩
  · have := congrArg UInt8.toNat h0
    rw [hfirst, UInt8.toNat_zero] at this
    omega
  · rw [markerLength, hfirst, hmark]
    omega

/-- Reading the octets of an identifier of width `w`, when the reader allows `w` octets, gives
the identifier and its width. -/
theorem readId_ofNat {w v maxLen : Nat} (h : IdOfWidth w v) (hmax : w ≤ maxLen) {s : Source}
    {rest : Bytes} (hs : s.ahead = Octets.ofNat w v ++ rest) :
    (readId maxLen).run s = (.ok (v, w), { s with ahead := rest, position := s.position + w }) := by
  obtain ⟨hne, hmarker⟩ := markerLength_top h
  obtain ⟨h1, h8, -, hhi, -⟩ := h
  obtain ⟨k, rfl⟩ : ∃ k, w = k + 1 := ⟨w - 1, by omega⟩
  rw [Octets.ofNat_succ_cons, List.cons_append] at hs
  rw [Nat.add_sub_cancel] at hne hmarker
  have hcheck : checkLength (v / Nat.pow 256 k).toUInt8 maxLen = .ok (k + 1) := by
    simp only [checkLength, hne, if_false, hmarker]
    rw [if_neg (by omega)]
  have htail := @ReadM.exact_append
    { s with ahead := Octets.ofNat k v ++ rest, position := s.position + 1 } (Octets.ofNat k v)
    rest rfl
  rw [Octets.length_ofNat] at htail
  have hval : Octets.toNat ((v / Nat.pow 256 k).toUInt8 :: Octets.ofNat k v) = v := by
    rw [← Octets.ofNat_succ_cons, Octets.toNat_ofNat_of_lt hhi]
  simp only [readId, ReadM.run_bind, ReadM.byte_cons hs, ReadM.run_ofExcept, hcheck,
    Nat.add_sub_cancel, htail, ReadM.run_pure, hval]
  rw [show s.position + 1 + k = s.position + (k + 1) by omega]

/-- A successful identifier read took a first octet announcing its width and the rest of that
width; the identifier is the number those octets spell. -/
theorem readId_ok {maxLen : Nat} {s s' : Source} {id L : Nat}
    (h : (readId maxLen).run s = (.ok (id, L), s')) :
    ∃ first tail, s.ahead = first :: tail ++ s'.ahead ∧ checkLength first maxLen = .ok L ∧
      tail.length = L - 1 ∧ Octets.toNat (first :: tail) = id := by
  obtain ⟨first, s₁, hfirst, h₁⟩ := ReadM.run_bind_ok h
  obtain ⟨L', s₂, hcheck, h₂⟩ := ReadM.run_bind_ok h₁
  obtain ⟨tail, s₃, htail, h₃⟩ := ReadM.run_bind_ok h₂
  clear h h₁ h₂
  rw [ReadM.run_ofExcept] at hcheck
  simp only [ReadM.run_pure, Prod.mk.injEq, Except.ok.injEq] at hcheck h₃
  obtain ⟨hcheck, rfl⟩ := hcheck
  obtain ⟨⟨rfl, rfl⟩, rfl⟩ := h₃
  obtain ⟨hlen, hs₂⟩ := ReadM.exact_ok htail
  refine ⟨first, tail, ?_, hcheck, hlen, rfl⟩
  rw [ReadM.byte_ok hfirst, hs₂, List.cons_append]

/-- Octets whose first octet announces their number spell an identifier of that width. -/
theorem idOfWidth_toNat {first : UInt8} {tail : Bytes} (h0 : first ≠ 0)
    (hlen : tail.length + 1 = markerLength first) :
    IdOfWidth (markerLength first) (Octets.toNat (first :: tail)) := by
  obtain ⟨h1, h8, hlo, hhi⟩ := markerLength_bounds h0
  have hlt := first.toNat_lt
  have hfirst : 1 ≤ first.toNat := by
    have : first.toNat ≠ 0 := fun h' => h0 (UInt8.toNat_inj.mp (by simpa using h'))
    omega
  have hlog : first.toNat.log2 < 8 := (Nat.log2_lt (by omega)).mpr hlt
  have htail := Octets.toNat_lt tail
  have hm : tail.length = markerLength first - 1 := by omega
  rw [hm] at htail
  generalize hp : Nat.pow 256 (markerLength first - 1) = p at htail
  have hpos : 0 < p := hp ▸ Nat.pow_pos (by omega)
  have hsplit : Nat.pow 256 (markerLength first) = 256 * p := by
    rw [← hp, pow256_pred h1, Nat.mul_comm]
  have hval : Octets.toNat (first :: tail) = first.toNat * p + Octets.toNat tail := by
    rw [Octets.toNat_cons, hm, hp]
  have hdiv : Octets.toNat (first :: tail) / p = first.toNat := by
    rw [hval, Nat.add_comm, Nat.add_mul_div_right _ _ hpos, Nat.div_eq_of_lt htail, Nat.zero_add]
  have hstep : (first.toNat + 1) * p ≤ 256 * p := Nat.mul_le_mul_right _ (by omega)
  rw [Nat.add_mul, Nat.one_mul] at hstep
  refine ⟨h1, h8, ?_, ?_, ?_⟩
  · rw [hp, hval]
    exact Nat.le_trans (Nat.le_mul_of_pos_left p hfirst) (Nat.le_add_right _ _)
  · rw [hsplit, hval]
    omega
  · rw [hp, hdiv]
    simp only [markerLength]
    omega

/-! ## The codec -/

/-- The identifier codec. The check accepts a number exactly when it is not zero and is an
identifier of some width: it spans that many octets and the highest set bit of its first octet is
the marker of that width. Every identifier is written, with the default widest width of eight
octets, as its octets at its width, which read back as the identifier and its width; and writing
it fails exactly when its width is above the allowed one. Whatever a reader, allowing any width,
takes as an identifier passes the check and is written back as the octets it was read from. -/
theorem id_codec :
    (∀ v : Nat, (∃ id, checkId v = .ok id) ↔ v ≠ 0 ∧ ∃ w, IdOfWidth w v) ∧
    (∀ v : Nat, (∃ id, checkId v = .ok id) →
      checkId v = .ok v ∧ encodeId v 8 = .ok (Octets.ofNat (Element.idWidth v) v) ∧
      (∀ (s : Source) (rest : Bytes), s.ahead = Octets.ofNat (Element.idWidth v) v ++ rest →
        (readId 8).run s = (.ok (v, Element.idWidth v),
          { s with ahead := rest, position := s.position + Element.idWidth v })) ∧
      ∀ maxLen : Nat, (∃ bs, encodeId v maxLen = .ok bs) ↔ Element.idWidth v ≤ maxLen) ∧
    (∀ (maxLen : Nat) (s s' : Source) (id n : Nat), (readId maxLen).run s = (.ok (id, n), s') →
      checkId id = .ok id ∧ encodeId id 8 = .ok (s.ahead.take n)) := by
  refine ⟨fun v => ?accepts, fun v hv => ?written, ?read⟩
  case accepts =>
    constructor
    · rintro ⟨id, h⟩
      exact ((checkId_eq_ok_iff v id).mp h).2
    · intro h
      exact ⟨v, (checkId_eq_ok_iff v v).mpr ⟨rfl, h⟩⟩
  case written =>
    obtain ⟨id, hid⟩ := hv
    obtain ⟨rfl, hv, w, hw⟩ := (checkId_eq_ok_iff v id).mp hid
    have hwidth := idWidth_of_idOfWidth hw
    refine ⟨hid, ?_, fun s rest hs => ?_, encodeId_isOk_iff id⟩
    · simp only [encodeId, hwidth]
      exact if_neg (by have := hw.2.1; omega)
    · rw [hwidth] at hs ⊢
      exact readId_ofNat hw hw.2.1 hs
  case read =>
    intro maxLen s s' id n h
    obtain ⟨first, tail, hs, hcheck, hlen, rfl⟩ := readId_ok h
    obtain ⟨h0, rfl, -⟩ := checkLength_ok hcheck
    have h1 := (markerLength_bounds h0).1
    have hw := @idOfWidth_toNat first tail h0 (by omega)
    have hwidth := idWidth_of_idOfWidth hw
    have hne : Octets.toNat (first :: tail) ≠ 0 := by
      have := hw.2.2.1
      have : 0 < Nat.pow 256 (markerLength first - 1) := Nat.pow_pos (by omega)
      omega
    refine ⟨(checkId_eq_ok_iff _ _).mpr ⟨rfl, hne, _, hw⟩, ?_⟩
    have htake : s.ahead.take (markerLength first) = first :: tail := by
      rw [hs, List.take_left' (by simp only [List.length_cons]; omega)]
    have hlen' : (first :: tail).length = markerLength first := by
      simp only [List.length_cons]
      omega
    simp only [encodeId, hwidth, htake]
    rw [if_neg (by have := hw.2.1; omega), ← hlen', Octets.ofNat_toNat]

/-- The non-minimal identifier `0x4001` is accepted, written verbatim as its two octets, and read
back with its width. -/
theorem nonminimal_id_verbatim :
    checkId 0x4001 = .ok 0x4001 ∧ encodeId 0x4001 8 = .ok [0x40, 0x01] ∧
      (readId 8).run (Source.ofBytes [0x40, 0x01]) =
        (.ok (0x4001, 2), { Source.ofBytes [0x40, 0x01] with ahead := [], position := 2 }) := by
  have hcheck : checkId 0x4001 = .ok 0x4001 := rfl
  obtain ⟨-, henc, hread, -⟩ := id_codec.2.1 0x4001 ⟨_, hcheck⟩
  have hwidth : Element.idWidth 0x4001 = 2 := by decide
  rw [hwidth] at henc hread
  exact ⟨hcheck, henc, hread (Source.ofBytes [0x40, 0x01]) [] rfl⟩

end Ebml.Vint
