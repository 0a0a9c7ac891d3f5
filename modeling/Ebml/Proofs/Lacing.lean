import Ebml.Proofs.Vint
import Ebml.Block

/-!
# Blocks read back from their octets

A laced block writes the frame count, the sizes of all frames but the last, and the frames; the
reader cuts the frames out again and gives the last one what is left. Each lace size code reads
back as the sizes it was written for: Xiph runs of `0xFF`, one shared size for fixed lacing, and
EBML sizes as a first size and signed differences, each of which fits in the octets after it.
The reader refuses a last frame with nothing left, so the round trip holds exactly when the last
frame is not empty. A block's head (track number, timecode and flag octet) reads back as well,
so a block that encodes is parsed back to itself.
-/

namespace Ebml.Lacing

/-- Cutting the octets of frames at the lengths of all but the last gives the frames back. -/
theorem split_flatten (frames : List Bytes) (last : Bytes) :
    split (frames.map List.length) ((frames ++ [last]).flatten) = frames ++ [last] := by
  induction frames with
  | nil => simp [split]
  | cons f fs ih =>
    simp only [List.map_cons, List.cons_append, List.flatten_cons, split, List.take_left',
      List.drop_left', ih]

/-- A run of `0xFF` octets and a remainder below `0xFF` reads back as the size it writes. -/
private theorem readXiphSize_run (acc k : Nat) {r : UInt8} (hr : r ≠ 0xFF) (rest : Bytes) :
    readXiphSize acc (List.replicate k 0xFF ++ r :: rest) = .ok (acc + 255 * k + r.toNat, rest) := by
  induction k generalizing acc with
  | zero => simp [readXiphSize, hr]
  | succ k ih =>
    rw [List.replicate_succ, List.cons_append, readXiphSize, if_pos rfl, ih]
    congr 2
    omega

theorem readXiphSize_xiphSize (acc n : Nat) (rest : Bytes) :
    readXiphSize acc (xiphSize n ++ rest) = .ok (acc + n, rest) := by
  have hr : ((n % 255).toUInt8).toNat = n % 255 := by
    rw [Nat.toUInt8_eq, UInt8.toNat_ofNat']
    exact Nat.mod_eq_of_lt (by omega)
  have hne : (n % 255).toUInt8 ≠ 0xFF := by
    intro h
    have := congrArg UInt8.toNat h
    rw [hr] at this
    simp at this
    omega
  rw [xiphSize, List.append_assoc, List.singleton_append, readXiphSize_run acc _ hne, hr]
  congr 2
  omega

/-- Xiph sizes read back as the lengths they were written for. -/
theorem readXiphSizes_flatMap (frames : List Bytes) (rest : Bytes) :
    readXiphSizes frames.length (frames.flatMap (xiphSize ·.length) ++ rest) =
      .ok (frames.map List.length, rest) := by
  induction frames with
  | nil => rfl
  | cons f fs ih =>
    simp only [List.length_cons, List.flatMap_cons, List.append_assoc, readXiphSizes,
      readXiphSize_xiphSize, bind, Except.bind, ih, pure, Except.pure, List.map_cons, Nat.zero_add]

/-- A reading that succeeds on the octets in front reports the octets it left. -/
theorem readFront_of_run {α : Type} {r : ReadM α} {bs : Bytes} {a : α} {s : Source}
    (h : r.run (Source.ofBytes bs) = (.ok a, s)) : readFront r bs = .ok (a, s.ahead) := by
  simp only [readFront, ReadM.runOn, h]
  rfl

/-- EBML sizes read back as the sizes they were written for, when each fits in what follows. -/
theorem readEbmlSizes_ebmlSizes (ns : List Nat) (prev : Option Nat) {bs : Bytes} (rest : Bytes)
    (h : ebmlSizes prev ns = .ok bs) (hfit : ∀ n ∈ ns, n ≤ rest.length) :
    readEbmlSizes ns.length (prev.map fun p : Nat => (p : Int)) (bs ++ rest) = .ok (ns, rest) := by
  induction ns generalizing prev bs with
  | nil =>
    cases prev <;> (simp only [ebmlSizes, Except.ok.injEq] at h; subst h; rfl)
  | cons n ns ih =>
    have hn : n ≤ rest.length := hfit n (List.mem_cons_self ..)
    have hfit' : ∀ m ∈ ns, m ≤ rest.length := fun m hm => hfit m (List.mem_cons_of_mem _ hm)
    cases prev with
    | none =>
      simp only [ebmlSizes, bind, Except.bind] at h
      cases hhead : Vint.encode (some n) none 8 with
      | error e => simp [hhead] at h
      | ok head =>
        cases htail : ebmlSizes (some n) ns with
        | error e => simp [hhead, htail] at h
        | ok tail =>
          simp only [hhead, htail, pure, Except.pure, Except.ok.injEq] at h
          subst h
          have hread := readFront_of_run (Vint.readUnsigned_encode hhead (Nat.le_refl 8)
            (show (Source.ofBytes (head ++ tail ++ rest)).ahead = head ++ (tail ++ rest) from
              List.append_assoc _ _ _))
          have hrest := ih (some n) htail hfit'
          simp only [Option.map_some] at hrest
          simp only [List.length_cons, readEbmlSizes, Option.map_none, bind, Except.bind, hread,
            pure, Except.pure, List.length_append]
          rw [if_neg (by omega), hrest]
          simp
    | some p =>
      simp only [ebmlSizes, bind, Except.bind] at h
      cases hhead : Vint.encodeSigned ((n : Int) - p) 8 with
      | error e => simp [hhead] at h
      | ok head =>
        cases htail : ebmlSizes (some n) ns with
        | error e => simp [hhead, htail] at h
        | ok tail =>
          simp only [hhead, htail, pure, Except.pure, Except.ok.injEq] at h
          subst h
          have hread := readFront_of_run (Vint.readSigned_encodeSigned hhead
            (show (Source.ofBytes (head ++ tail ++ rest)).ahead = head ++ (tail ++ rest) from
              List.append_assoc _ _ _))
          have hrest := ih (some n) htail hfit'
          simp only [Option.map_some] at hrest
          simp only [List.length_cons, readEbmlSizes, Option.map_some, bind, Except.bind, hread,
            pure, Except.pure, List.length_append]
          rw [if_neg (by omega), show (p : Int) + ((n : Int) - p) = n by omega, hrest]
          simp

private theorem foldl_add_lengths (frames : List Bytes) (acc : Nat) :
    (frames.map List.length).foldl (· + ·) acc = acc + frames.flatten.length := by
  induction frames generalizing acc with
  | nil => simp
  | cons f fs ih =>
    simp only [List.map_cons, List.foldl_cons, ih, List.flatten_cons, List.length_append]
    omega

/-- Frames of one length: their octets are that many times as long as the last frame. -/
private theorem length_flatten_of_uniform {frames : List Bytes} {last : Bytes}
    (h : ∀ f ∈ frames, f.length = last.length) :
    (frames ++ [last]).flatten.length = (frames.length + 1) * last.length := by
  induction frames with
  | nil => simp
  | cons f fs ih =>
    have hf := h f (List.mem_cons_self ..)
    have hfs := ih fun g hg => h g (List.mem_cons_of_mem _ hg)
    simp only [List.cons_append, List.flatten_cons, List.length_append, hfs, hf,
      List.length_cons]
    rw [Nat.add_mul (fs.length + 1) 1]
    omega

/-- The sizes a lace header holds read back, leaving the frames' octets. -/
private theorem readSizes_header {mode : Lacing} (hmode : mode ≠ unlaced) {leading : List Bytes}
    {last sizes : Bytes} (h : header mode leading last = .ok sizes) :
    readSizes mode leading.length (sizes ++ (leading ++ [last]).flatten) =
      .ok (leading.map List.length, (leading ++ [last]).flatten) := by
  cases mode with
  | unlaced => exact absurd rfl hmode
  | xiph =>
    simp only [header, Except.ok.injEq] at h
    subst h
    exact readXiphSizes_flatMap leading _
  | fixed =>
    simp only [header] at h
    split at h
    · rename_i huniform
      simp only [Except.ok.injEq] at h
      subst h
      have hlen : ∀ f ∈ leading, f.length = last.length := by
        intro f hf
        have := List.all_eq_true.mp huniform f (List.mem_append_left _ hf)
        simpa using this
      have hflat := length_flatten_of_uniform hlen
      simp only [readSizes, List.nil_append, hflat, Nat.mul_mod_right,
        Nat.mul_div_cancel_left _ (Nat.succ_pos _)]
      rw [if_neg (fun h => h rfl)]
      congr 2
      apply List.ext_getElem (by simp)
      intro i h1 h2
      simp only [List.getElem_replicate, List.getElem_map]
      exact (hlen _ (List.getElem_mem _)).symm
    · cases h
  | ebml =>
    simp only [header] at h
    have hfit : ∀ n ∈ leading.map List.length, n ≤ (leading ++ [last]).flatten.length := by
      intro n hn
      obtain ⟨f, hf, rfl⟩ := List.mem_map.mp hn
      exact (List.sublist_flatten_of_mem (List.mem_append_left _ hf)).length_le
    have := readEbmlSizes_ebmlSizes (leading.map List.length) none _ h hfit
    simpa [readSizes] using this

/-- Frames written with a lacing mode read back as the same frames when the last frame is not
empty: the reader gives the last frame what the sizes leave, and refuses to leave nothing. -/
theorem read_write {mode : Lacing} {frames : List Bytes} {bs : Bytes}
    (h : write mode frames = .ok bs) (hlast : frames.getLast? ≠ some []) :
    read mode bs = .ok frames := by
  rcases List.eq_nil_or_concat frames with rfl | ⟨leading, last, rfl⟩
  · simp only [write, List.reverse_nil, Except.ok.injEq] at h
    subst h
    rfl
  simp only [List.concat_eq_append] at h hlast ⊢
  have hne : last ≠ [] := by simpa using hlast
  simp only [write, List.reverse_append, List.reverse_singleton, List.singleton_append,
    List.reverse_reverse] at h
  by_cases hun : mode = unlaced
  · -- one frame, written alone
    subst hun
    simp only [if_true] at h
    split at h
    · rename_i hlead
      simp only [Except.ok.injEq] at h
      subst h
      have hleading : leading = [] := by simpa using hlead
      subst hleading
      cases last with
      | nil => exact absurd rfl hne
      | cons b rest => rfl
    · cases h
  · rw [if_neg hun] at h
    split at h
    · cases h
    · rename_i hmax
      cases hh : header mode leading last with
      | error e => simp [hh, bind, Except.bind] at h
      | ok sizes =>
        simp only [hh, bind, Except.bind, pure, Except.pure, Except.ok.injEq] at h
        subst h
        have hcount : ((leading ++ [last]).length - 1).toUInt8.toNat = leading.length := by
          simp only [List.length_append, List.length_singleton, Nat.add_sub_cancel, Nat.toUInt8_eq,
            UInt8.toNat_ofNat']
          simp only [maxFrames, List.length_append, List.length_singleton, Nat.not_lt] at hmax
          exact Nat.mod_eq_of_lt (by simp only [Nat.reducePow]; omega)
        have hlen : 0 < last.length := List.length_pos_iff.mpr hne
        have hsum : (leading.map List.length).foldl (· + ·) 0 <
            ((leading ++ [last]).flatten).length := by
          simp only [foldl_add_lengths, List.flatten_append, List.flatten_singleton,
            List.length_append]
          omega
        simp only [read, List.cons_append, hun, if_false, hcount, bind, Except.bind,
          readSizes_header hun hh]
        rw [if_neg (Nat.not_le.mpr hsum), split_flatten]
        rfl

end Ebml.Lacing

namespace Ebml.Block

/-- The flag octet carries the lacing mode and the three flags apart. -/
private theorem flags_read (b : Block) :
    Lacing.ofFlags b.flags = b.lacing ∧ (b.flags &&& keyframeBit != 0) = b.keyframe ∧
      (b.flags &&& invisibleBit != 0) = b.invisible ∧
      (b.flags &&& discardableBit != 0) = b.discardable := by
  -- the flag octet depends on these four fields only, each of a few values
  have hall : ∀ (lacing : Lacing) (keyframe invisible discardable : Bool),
      let f := ({ lacing, keyframe, invisible, discardable } : Block).flags
      Lacing.ofFlags f = lacing ∧ (f &&& keyframeBit != 0) = keyframe ∧
        (f &&& invisibleBit != 0) = invisible ∧ (f &&& discardableBit != 0) = discardable := by
    intro lacing keyframe invisible discardable
    cases lacing <;> cases keyframe <;> cases invisible <;> cases discardable <;> decide
  exact hall b.lacing b.keyframe b.invisible b.discardable

/-- A timecode survives its two octets. -/
theorem timecodeOf_timecodeBytes (t : Int16) : timecodeOf (timecodeBytes t) = t := by
  have hlt : t.toUInt16.toNat < Nat.pow 256 2 := t.toUInt16.toNat_lt
  rw [timecodeOf, timecodeBytes, Octets.toNat_ofNat_of_lt hlt, Nat.toUInt16_eq, UInt16.ofNat_toNat,
    Int16.toInt16_toUInt16]

/-- A block's head reads back from the front of its octets: the track number, the timecode the
two octets after it hold, and the flag octet. -/
theorem readFront_readHead {n : Nat} {track t : Bytes} {flags : UInt8}
    (htrack : Vint.encode (some n) none 8 = .ok track) (ht : t.length = 2) (rest : Bytes) :
    Lacing.readFront readHead (track ++ t ++ [flags] ++ rest) =
      .ok ((n, timecodeOf t, flags), rest) := by
  unfold Lacing.readFront ReadM.runOn
  generalize hs0 : Source.ofBytes (track ++ t ++ [flags] ++ rest) = s0
  have hahead : s0.ahead = track ++ (t ++ ([flags] ++ rest)) := by
    rw [← hs0]
    simp [Source.ofBytes]
  have h1 := Vint.readUnsigned_encode htrack (Nat.le_refl 8) hahead
  have h2 := @ReadM.exact_append
    { s0 with ahead := t ++ ([flags] ++ rest), position := s0.position + track.length }
    t ([flags] ++ rest) rfl
  have h3 := @ReadM.byte_cons
    { s0 with ahead := [flags] ++ rest, position := s0.position + track.length + t.length }
    flags rest rfl
  rw [ht] at h2 h3
  simp only [readHead, ReadM.run_bind, h1, h2, h3, ReadM.run_pure]
  rfl

/-- A block reads back from the octets it is written as, with the frames its lacing mode reads
from what it wrote of them. -/
theorem parse_encode_frames {b : Block} {data fr : Bytes} {frames : List Bytes}
    (h : b.encode = .ok data) (hw : b.lacing.write b.frames = .ok fr)
    (hr : b.lacing.read fr = .ok frames) : parse data = .ok { b with frames } := by
  simp only [encode, hw, bind, Except.bind] at h
  cases htrack : Vint.encode (some b.track.toNat) none 8 with
  | error e => simp [htrack] at h
  | ok track =>
    simp only [htrack, pure, Except.pure, Except.ok.injEq] at h
    subst h
    obtain ⟨hlacing, hkeyframe, hinvisible, hdiscardable⟩ := flags_read b
    have hlen : (timecodeBytes b.timecode).length = 2 := Octets.length_ofNat 2 _
    simp only [parse, bind, Except.bind, readFront_readHead htrack hlen, timecodeOf_timecodeBytes,
      hlacing, hr, pure, Except.pure, hkeyframe, hinvisible, hdiscardable, Nat.toUInt64_eq,
      UInt64.ofNat_toNat]

/-- A block reads back from the octets it is written as, when its last frame is not empty. -/
theorem parse_encode {b : Block} {data : Bytes} (h : b.encode = .ok data)
    (hlast : b.frames.getLast? ≠ some []) : parse data = .ok b := by
  cases hw : b.lacing.write b.frames with
  | error e =>
    simp only [encode, hw, bind, Except.bind] at h
    split at h <;> cases h
  | ok fr => simpa using parse_encode_frames h hw (Lacing.read_write hw hlast)

end Ebml.Block
