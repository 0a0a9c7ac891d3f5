import Ebml.Proofs.Text
import Ebml.Proofs.Float
import Ebml.Proofs.Lacing
import Ebml.Proofs.ElementMap
import Ebml.Header

/-!
# Element data read back

The data of a scalar element is written by its data type and read back by the same data type.
Integers take the fewest octets that hold them, which is between one and eight for a 64-bit
number; signed ones are two's complement, so a negative number is written plus the modulus and
read back minus it. Floats, strings, dates, octets and blocks each come back through their own
codec. A value comes back exactly when it is restorable: it has the kind its element's data type
decodes to, and it is none of the few values a codec cannot carry. The decoder must also be
allowed to allocate the longest payload a document holds.
-/

namespace Ebml.Payload

/-- The fewest octets of an unsigned 64-bit number hold it, in one to eight octets. -/
theorem unsignedWidth_spec {v : Nat} (hv : v < Nat.pow 2 64) :
    1 ≤ unsignedWidth v ∧ unsignedWidth v ≤ 8 ∧ v < Nat.pow 256 (unsignedWidth v) := by
  unfold unsignedWidth
  split
  · subst_vars
    exact ⟨Nat.le_refl 1, by decide, by decide⟩
  · rename_i hv0
    have hlog : v.log2 < 64 := (Nat.log2_lt hv0).mpr hv
    have hhi : v < 2 ^ (v.log2 + 1) := Nat.lt_log2_self
    have hmono : 2 ^ (v.log2 + 1) ≤ 2 ^ (8 * (v.log2 / 8 + 1)) :=
      Nat.pow_le_pow_right (by decide) (by omega)
    have h256 : Nat.pow 256 (v.log2 / 8 + 1) = 2 ^ (8 * (v.log2 / 8 + 1)) := by
      rw [Nat.pow_mul]
      rfl
    refine ⟨by omega, by omega, ?_⟩
    rw [h256]
    omega

/-- The fewest octets of a signed 64-bit number hold it, in one to eight octets. -/
theorem signedWidth_spec {v : Int} (hv : fitsSigned v 8 = true) :
    1 ≤ signedWidth v ∧ signedWidth v ≤ 8 ∧ fitsSigned v (signedWidth v) = true := by
  unfold signedWidth
  simp only [List.range', List.find?]
  repeat' split
  all_goals simp_all

/-- Two's complement in `len` octets gives back every number it holds. -/
theorem signedOf_signedBytes {v : Int} {len : Nat} (hlen : 1 ≤ len) (hfit : fitsSigned v len = true) :
    signedOf (signedBytes len v) = v := by
  have hP : Int.pow 2 (8 * len) = ((Nat.pow 2 (8 * len) : Nat) : Int) := rfl
  have hH : Int.pow 2 (8 * len - 1) = ((Nat.pow 2 (8 * len - 1) : Nat) : Int) := rfl
  have hsplit : Nat.pow 2 (8 * len) = 2 * Nat.pow 2 (8 * len - 1) := by
    simp only [Nat.pow_eq]
    rw [← Nat.pow_succ']
    congr 1
    omega
  have h256 : Nat.pow 256 len = Nat.pow 2 (8 * len) := by
    simp only [Nat.pow_eq]
    rw [Nat.pow_mul]
  have hpos : 0 < Nat.pow 2 (8 * len - 1) := Nat.two_pow_pos _
  simp only [fitsSigned, hH, decide_eq_true_eq] at hfit
  have hne : ∀ x, (Octets.ofNat len x).isEmpty = false := by
    intro x
    obtain ⟨k, rfl⟩ : ∃ k, len = k + 1 := ⟨len - 1, by omega⟩
    simp [Octets.ofNat]
  unfold signedOf signedBytes
  rw [hne, Octets.length_ofNat, hP, hsplit]
  rw [hsplit] at h256
  generalize Nat.pow 2 (8 * len - 1) = H at *
  -- the octets hold `v` itself, or `v` plus the modulus when it is negative
  have hmod : v % ((2 * H : Nat) : Int) = if 0 ≤ v then v else v + ((2 * H : Nat) : Int) := by
    split
    · exact Int.emod_eq_of_lt (by omega) (by omega)
    · rw [← Int.add_emod_right]
      exact Int.emod_eq_of_lt (by omega) (by omega)
  have hx : (v % ((2 * H : Nat) : Int)).toNat < 2 * H := by
    rw [hmod]
    split <;> omega
  rw [Octets.toNat_ofNat_of_lt (h256 ▸ hx), hmod]
  simp only [Bool.false_eq_true, if_false]
  split <;> split <;> omega

/-- Reading octets within both limits reads them all. -/
private theorem readOctets_of_le {opts : DecodeOptions} {n : Nat} (hmax : n ≤ Vint.maxUnsigned)
    (hlimit : n ≤ opts.allocationLimit) : readOctets opts n = ReadM.exact n := by
  rw [readOctets, if_neg (by omega)]

/-- Text, octets or a block longer than the allocation limit are refused before anything is
read. -/
theorem read_over_limit {opts : DecodeOptions} {t : DataType}
    (ht : t = .string ∨ t = .utf8 ∨ t = .binary ∨ t = .block) {n : Nat}
    (hn : opts.allocationLimit < n) (s : Source) :
    (read opts t n).run s = (.error .tooMuchData, s) := by
  have hrefuse : readOctets opts n = ReadM.fail .tooMuchData := by
    rw [readOctets, if_pos (Or.inr hn)]
  rcases ht with rfl | rfl | rfl | rfl <;>
    simp only [read, hrefuse, ReadM.run_bind, ReadM.run_fail]

end Ebml.Payload

namespace Ebml

/-- A value the decoder gives back as it was written under an element: it has the kind the
element's data type decodes to, and it is none of the values a codec cannot carry (a NaN
single, a string ending in the character zero, a date outside the signed 64-bit nanoseconds, a
block whose last frame is empty). A map is restorable when it is well formed and all its values
are restorable under their elements. -/
inductive Value.Restorable : Element → Value → Prop
  | uint {e : Element} {u : UInt64} : e.dataType = .unsignedInt → Restorable e (.uint u)
  | int {e : Element} {i : Int64} : e.dataType = .signedInt → Restorable e (.int i)
  | float32 {e : Element} {b : UInt32} :
      e.dataType = .float → FloatBits.isNaN32 b = false → Restorable e (.float32 b)
  | float64 {e : Element} {b : UInt64} : e.dataType = .float → Restorable e (.float64 b)
  | string {e : Element} {s : String} : e.dataType = .string ∨ e.dataType = .utf8 →
      s.toList.getLast? ≠ some (Char.ofNat 0) → Restorable e (.string s)
  | date {e : Element} {n : Int} : e.dataType = .date → Payload.minWord ≤ n →
      n ≤ Payload.maxSignedWord → Restorable e (.date n)
  | binary {e : Element} {d : Bytes} : e.dataType = .binary → Restorable e (.binary d)
  | block {e : Element} {b : Block} : e.dataType = .block → b.frames.getLast? ≠ some [] →
      Restorable e (.block b)
  | master {e : Element} {groups : ElementMap} : e.dataType = .master →
      ElementMap.WellFormed groups → (∀ g ∈ groups, ∀ v ∈ g.2, Restorable g.1 v) →
      Restorable e (.master groups)

/-- The element of a restorable value is a master exactly when the value is a map. -/
theorem Value.Restorable.isMaster_eq {e : Element} {v : Value} (hv : v.Restorable e) :
    e.isMaster = (v.kind == .master) := by
  cases hv with
  | string hdt _ => rcases hdt with hdt | hdt <;> rw [Element.isMaster, hdt] <;> rfl
  | _ =>
    simp_all only [Element.isMaster]
    rfl

mutual
/-- The longest data a value writes under an element, over the scalars it holds: what a
decoder's allocation limit must cover to read it back. -/
def Value.longestPayload (e : Element) : Value → Nat
  | .master groups => ElementMap.longestPayload groups
  | v =>
    match Payload.encode e v .natural with
    | .ok data => data.length
    | .error _ => 0

/-- The longest data of the scalars a map holds. -/
def ElementMap.longestPayload : ElementMap → Nat
  | [] => 0
  | (e, vs) :: rest => max (ElementMap.longestInGroup e vs) (ElementMap.longestPayload rest)

/-- The longest data of the scalars of one group. -/
def ElementMap.longestInGroup (e : Element) : List Value → Nat
  | [] => 0
  | v :: vs => max (Value.longestPayload e v) (ElementMap.longestInGroup e vs)
end

/-- The data a scalar writes is as long as its longest payload. -/
theorem Value.length_le_longestPayload {e : Element} {v : Value} {data : Bytes}
    (h : Payload.encode e v .natural = .ok data) : data.length ≤ v.longestPayload e := by
  cases v with
  | master groups => simp [Payload.encode] at h
  | _ => simp [Value.longestPayload, h]

theorem ElementMap.longestInGroup_le {e : Element} {vs : List Value} {v : Value} (hv : v ∈ vs) :
    v.longestPayload e ≤ ElementMap.longestInGroup e vs := by
  induction vs with
  | nil => cases hv
  | cons w ws ih =>
    simp only [ElementMap.longestInGroup]
    rcases List.mem_cons.mp hv with rfl | hv
    · omega
    · have := ih hv
      omega

/-- Every value of a map writes payloads no longer than the map's longest. -/
theorem ElementMap.longestPayload_le {m : ElementMap} {g : Element × List Value} (hg : g ∈ m)
    {v : Value} (hv : v ∈ g.2) : v.longestPayload g.1 ≤ ElementMap.longestPayload m := by
  induction m with
  | nil => cases hg
  | cons h m ih =>
    obtain ⟨e, vs⟩ := h
    simp only [ElementMap.longestPayload]
    rcases List.mem_cons.mp hg with rfl | hg
    · have := @ElementMap.longestInGroup_le e vs v hv
      dsimp only
      omega
    · have := ih hg
      omega

end Ebml

namespace Ebml.Payload

/-- The data a restorable value is written as reads back as the value, within the decoder's
limits. Only scalar values have data of their own: a map is never encoded here. -/
theorem read_encode {opts : DecodeOptions} {e : Element} {v : Value} (hv : v.Restorable e)
    {data : Bytes} (h : encode e v .natural = .ok data) (hmax : data.length ≤ Vint.maxUnsigned)
    (hlimit : data.length ≤ opts.allocationLimit) {s : Source} {rest : Bytes}
    (hs : s.ahead = data ++ rest) :
    (read opts e.dataType data.length).run s =
      (.ok v, { s with ahead := rest, position := s.position + data.length }) := by
  have hexact := ReadM.exact_append hs
  cases hv with
  | @uint _ u hdt =>
    simp only [encode, hdt, encodeUnsigned, integerWidth, bind, Except.bind, pure, Except.pure,
      Except.ok.injEq] at h
    subst h
    obtain ⟨-, h8, hlt⟩ := unsignedWidth_spec u.toNat_lt
    rw [Octets.length_ofNat] at hexact ⊢
    simp only [read, hdt, if_neg (Nat.not_lt.mpr h8), ReadM.run_bind, hexact, ReadM.run_pure,
      Octets.toNat_ofNat_of_lt hlt, Nat.toUInt64_eq, UInt64.ofNat_toNat]
  | @int _ i hdt =>
    simp only [encode, hdt, encodeSigned, integerWidth, bind, Except.bind, pure, Except.pure,
      Except.ok.injEq] at h
    subst h
    have hfit : fitsSigned i.toInt 8 = true := by
      have hlo := Int64.le_toInt i
      have hhi := Int64.toInt_lt i
      have hpow : Int.pow 2 (8 * 8 - 1) = 2 ^ 63 := by decide
      simp only [fitsSigned, hpow, decide_eq_true_eq]
      omega
    obtain ⟨h1, h8, hw⟩ := signedWidth_spec hfit
    have hlen : (signedBytes (signedWidth i.toInt) i.toInt).length = signedWidth i.toInt :=
      Octets.length_ofNat _ _
    rw [hlen] at hexact ⊢
    simp only [read, hdt, if_neg (Nat.not_lt.mpr h8), if_neg (Nat.ne_of_gt h1), ReadM.run_bind,
      hexact, ReadM.run_pure, signedOf_signedBytes h1 hw, Int64.ofInt_toInt]
  | @float32 _ b hdt hnan =>
    simp only [encode, hdt, encodeFloat, Option.getD_none, if_pos, pure, Except.pure, bind,
      Except.bind, Except.ok.injEq] at h
    subst h
    rw [Octets.length_ofNat, FloatBits.narrow_widen hnan] at hexact
    rw [Octets.length_ofNat]
    have hlt : b.toNat < Nat.pow 256 4 := UInt32.toNat_lt _
    simp only [read, hdt, show (4 : Nat) ≠ 0 by decide, if_false, if_pos, ReadM.run_bind, hexact,
      ReadM.run_pure, Octets.toNat_ofNat_of_lt hlt, Nat.toUInt32_eq, UInt32.ofNat_toNat]
  | @float64 _ b hdt =>
    simp only [encode, hdt, encodeFloat, Option.getD_none, show (8 : Nat) ≠ 4 by decide, if_false,
      if_pos, pure, Except.pure, bind, Except.bind, Except.ok.injEq] at h
    subst h
    rw [Octets.length_ofNat] at hexact ⊢
    have hlt : b.toNat < Nat.pow 256 8 := UInt64.toNat_lt _
    simp only [read, hdt, show (8 : Nat) ≠ 0 by decide, show (8 : Nat) ≠ 4 by decide, if_false,
      if_pos, ReadM.run_bind, hexact, ReadM.run_pure, Octets.toNat_ofNat_of_lt hlt,
      Nat.toUInt64_eq, UInt64.ofNat_toNat]
  | @string _ str hdt hlast =>
    rcases hdt with hdt | hdt <;>
    · simp only [encode, hdt, pad, pure, Except.pure, bind, Except.bind, Except.ok.injEq] at h
      subst h
      simp only [read, hdt, readOctets_of_le hmax hlimit, ReadM.run_bind, hexact,
        decode_trimZeros_utf8 hlast, ReadM.run_pure]
  | @date _ n hdt hlo hhi =>
    simp only [encode, hdt, Option.any_none, Bool.false_eq_true, if_false, pure, Except.pure, bind,
      Except.bind, Except.ok.injEq] at h
    subst h
    have hsat : saturate n = n := by
      simp only [saturate] at *
      omega
    have hfit : fitsSigned n 8 = true := by
      have hpow : Int.pow 2 (8 * 8 - 1) = 2 ^ 63 := by decide
      have hmin : minWord = -2 ^ 63 := by decide
      have hmaxw : maxSignedWord = 2 ^ 63 - 1 := by decide
      simp only [fitsSigned, hpow, decide_eq_true_eq]
      omega
    have hlen : (signedBytes 8 (saturate n)).length = 8 := Octets.length_ofNat _ _
    rw [hlen] at hexact ⊢
    simp only [read, hdt, show (8 : Nat) ≠ 0 by decide, if_false, if_pos, ReadM.run_bind, hexact,
      ReadM.run_pure, hsat, signedOf_signedBytes (by decide) hfit]
  | @binary _ d hdt =>
    simp only [encode, hdt, pad, pure, Except.pure, bind, Except.bind, Except.ok.injEq] at h
    subst h
    simp only [read, hdt, readOctets_of_le hmax hlimit, ReadM.run_bind, hexact, ReadM.run_pure]
  | @block _ b hdt hlast =>
    cases henc : b.encode with
    | error err => simp [encode, hdt, henc, bind, Except.bind, pure, Except.pure] at h
    | ok bytes =>
      simp only [encode, hdt, henc, Option.any_none, Bool.false_eq_true, if_false, pure,
        Except.pure, bind, Except.bind, Except.ok.injEq] at h
      subst h
      simp only [read, hdt, readOctets_of_le hmax hlimit, ReadM.run_bind, hexact,
        Block.parse_encode henc hlast, ReadM.run_ofExcept, ReadM.run_pure]
  | master hdt _ _ =>
    simp [encode, hdt] at h

end Ebml.Payload
