import Ebml.Proofs.LaceCodec

/-!
# The block codec, both ways

A block is written exactly when its track number is a size and its lacing mode can write its
frames, and it parses back as itself when its last frame is not empty. The other way round,
block octets that parse are written back unchanged when the track number and an EBML lace's
sizes are as short as their values allow and the flag octet leaves the bits `0x70` clear.
-/

namespace Ebml.Block

set_option maxRecDepth 4096 in
/-- The flag octet of the fields a flag octet announces is that octet, when its bits `0x70`
are clear. -/
private theorem flag_octet_fields (f : UInt8) (h : f &&& 0x70 = 0) :
    ((Lacing.ofFlags f).flagBits |||
      (if (f &&& keyframeBit != 0) = true then keyframeBit else 0) |||
      (if (f &&& invisibleBit != 0) = true then invisibleBit else 0) |||
      (if (f &&& discardableBit != 0) = true then discardableBit else 0)) = f := by
  -- an octet has 256 values, and each one is checked
  revert h
  cases f with
  | ofBitVec bv =>
    cases bv with
    | ofFin x =>
      revert x
      decide

/-- A block whose fields are those a flag octet announces has that octet as its flags, when the
octet's bits `0x70` are clear. -/
theorem flags_of_fields {b : Block} {f : UInt8} (h : f &&& 0x70 = 0)
    (hl : b.lacing = Lacing.ofFlags f) (hk : b.keyframe = (f &&& keyframeBit != 0))
    (hi : b.invisible = (f &&& invisibleBit != 0))
    (hd : b.discardable = (f &&& discardableBit != 0)) : b.flags = f := by
  rw [flags, hl, hk, hi, hd]
  exact flag_octet_fields f h

/-- Two octets read as a timecode are written back as the same two octets. -/
theorem timecodeBytes_timecodeOf {t : Bytes} (ht : t.length = 2) :
    timecodeBytes (timecodeOf t) = t := by
  have hlt : Octets.toNat t < 65536 := by
    have := Octets.toNat_lt t
    rw [ht] at this
    exact this
  rw [timecodeBytes, timecodeOf, UInt16.toUInt16_toInt16, UInt16.toNat_ofNat_of_lt' hlt, ← ht,
    Octets.ofNat_toNat]

/-- A block whose track number is a size and whose frames its lacing mode can write is written,
and parses back as itself when its last frame is not empty. -/
theorem parse_encode_of_writable {b : Block} (htrack : b.track.toNat ≤ Vint.maxUnsigned)
    (hframes : Lacing.Writable b.lacing b.frames) (hlast : b.frames.getLast? ≠ some []) :
    ∃ data, b.encode = .ok data ∧ parse data = .ok b := by
  obtain ⟨track, htr⟩ := (Vint.encode_isOk_iff _).mpr htrack
  obtain ⟨fr, hfr⟩ := (Lacing.write_isOk_iff _ _).mpr hframes
  have henc : b.encode = .ok (track ++ timecodeBytes b.timecode ++ [b.flags] ++ fr) := by
    simp only [encode, htr, hfr, bind, Except.bind, pure, Except.pure]
  exact ⟨_, henc, parse_encode henc hlast⟩

/-- Block octets that parse are written back unchanged from the block parsed, when the track
number and an EBML lace's sizes are as short as their values allow and the flag octet leaves the
bits `0x70` clear. -/
theorem encode_parse {track t payload : Bytes} {flags : UInt8} {b : Block}
    (htrack : Vint.Shortest track) (ht : t.length = 2) (hflags : flags &&& 0x70 = 0)
    (hsizes : Lacing.ofFlags flags = .ebml → Lacing.ShortestEbmlSizes payload)
    (h : parse (track ++ t ++ [flags] ++ payload) = .ok b) :
    b.encode = .ok (track ++ t ++ [flags] ++ payload) := by
  obtain ⟨n, hn⟩ := Vint.encode_of_shortest htrack
  have hn64 : n.toUInt64.toNat = n := by
    have hmax := (Vint.encode_some_ok hn).2.1
    have hbound : Vint.maxUnsigned < UInt64.size := by decide
    exact UInt64.toNat_ofNat_of_lt' (by omega)
  simp only [parse, bind, Except.bind, readFront_readHead hn ht] at h
  cases hframes : (Lacing.ofFlags flags).read payload with
  | error e => simp [hframes] at h
  | ok frames =>
    simp only [hframes, pure, Except.pure, Except.ok.injEq] at h
    subst h
    have hfl : Block.flags
        { track := n.toUInt64, timecode := timecodeOf t, keyframe := flags &&& keyframeBit != 0,
          invisible := flags &&& invisibleBit != 0, discardable := flags &&& discardableBit != 0,
          lacing := Lacing.ofFlags flags, frames := frames } = flags :=
      flags_of_fields hflags rfl rfl rfl rfl
    simp only [encode, hn64, hn, Lacing.write_read hframes hsizes, timecodeBytes_timecodeOf ht, hfl,
      bind, Except.bind, pure, Except.pure]

/-- The block codec both ways. A block whose track number is a size, whose frames its lacing mode
can write and whose last frame, if any, is not empty is written and parsed back as itself. Block
octets that parse, with a track number and EBML lace sizes as short as their values allow and the
bits `0x70` of the flag octet clear, are written back unchanged from the block parsed. -/
theorem block_codec :
    (∀ b : Block, b.track.toNat ≤ Vint.maxUnsigned → Lacing.Writable b.lacing b.frames →
      b.frames.getLast? ≠ some [] → ∃ data, b.encode = .ok data ∧ parse data = .ok b) ∧
    (∀ (track t payload : Bytes) (flags : UInt8) (b : Block), Vint.Shortest track →
      t.length = 2 → flags &&& 0x70 = 0 →
      (Lacing.ofFlags flags = .ebml → Lacing.ShortestEbmlSizes payload) →
      parse (track ++ t ++ [flags] ++ payload) = .ok b →
      b.encode = .ok (track ++ t ++ [flags] ++ payload)) :=
  ⟨fun _ htrack hframes hlast => parse_encode_of_writable htrack hframes hlast,
    fun _ _ _ _ _ htrack ht hflags hsizes h => encode_parse htrack ht hflags hsizes h⟩

/-- A keyframe of track 2 at timecode `-3`, invisible and discardable, with frames of three and
two octets in an EBML lace. -/
def lacedSample : Block :=
  { track := 2, timecode := -3, keyframe := true, invisible := true, discardable := true,
    lacing := .ebml, frames := [[1, 1, 1], [2, 2]] }

/-- The laced sample both ways: it is written and parsed back, and its octets, with the shortest
track number and lace size, are written back from the block they parse as. -/
theorem block_codec_lacedSample :
    (∃ data, lacedSample.encode = .ok data ∧ parse data = .ok lacedSample) ∧
      lacedSample.encode = .ok ([0x82] ++ [0xFF, 0xFD] ++ [0x8F] ++ [0x01, 0x83, 1, 1, 1, 2, 2]) := by
  obtain ⟨hforward, hback⟩ := block_codec
  have htrack : Vint.Shortest [0x82] := ⟨2, by decide, rfl⟩
  have hsizes : Lacing.ShortestEbmlSizes [0x01, 0x83, 1, 1, 1, 2, 2] := by
    intro count rest h
    obtain ⟨rfl, rfl⟩ := List.cons.inj h
    exact ⟨[[0x83]], [1, 1, 1, 2, 2], rfl, rfl,
      fun v hv => by cases hv; exact ⟨3, by decide, rfl⟩, by simp⟩
  refine ⟨hforward lacedSample (by decide) (by decide) (by decide), ?_⟩
  exact hback _ _ _ _ _ htrack rfl (by decide) (fun _ => hsizes) rfl

end Ebml.Block
