import Ebml.Proofs.Lacing
import Ebml.Proofs.SizeCodec

/-!
# The lace codec, both ways

Writing frames with a lacing mode fails exactly in four ways (`write_isOk_iff`), and what is
written reads back as the same frames when the last frame is not empty. The other way round,
every payload the reader accepts is written back unchanged from the frames it read, when an
EBML lace's sizes are as short as their values allow.
-/

namespace Ebml.Lacing

/-! ## When frames can be laced -/

/-- Sizes an EBML lace header holds, after the size `prev` when there is one: a first size up to
the largest size, then each size within the signed range of the size before it. -/
def SizesFit : Option Nat → List Nat → Prop
  | _, [] => True
  | none, n :: rest => n ≤ Vint.maxUnsigned ∧ SizesFit (some n) rest
  | some p, n :: rest => ((n : Int) - p).natAbs ≤ Vint.maxSigned ∧ SizesFit (some n) rest

instance instDecidableSizesFit : (prev : Option Nat) → (ns : List Nat) →
    Decidable (SizesFit prev ns)
  | _, [] => isTrue trivial
  | none, n :: rest =>
    have := instDecidableSizesFit (some n) rest
    inferInstanceAs (Decidable (n ≤ Vint.maxUnsigned ∧ SizesFit (some n) rest))
  | some p, n :: rest =>
    have := instDecidableSizesFit (some n) rest
    inferInstanceAs
      (Decidable (((n : Int) - p).natAbs ≤ Vint.maxSigned ∧ SizesFit (some n) rest))

/-- The frames a lacing mode writes: at most one without lacing and at most 256 with it; in a
fixed lace frames of one size, and in an EBML lace frames before the last whose sizes its header
holds. -/
def Writable (mode : Lacing) (frames : List Bytes) : Prop :=
  match mode with
  | unlaced => frames.length ≤ 1
  | xiph => frames.length ≤ maxFrames
  | fixed => frames.length ≤ maxFrames ∧ ∀ f ∈ frames, ∀ g ∈ frames, f.length = g.length
  | ebml => frames.length ≤ maxFrames ∧ SizesFit none (frames.dropLast.map List.length)

instance (mode : Lacing) (frames : List Bytes) : Decidable (Writable mode frames) :=
  match mode with
  | unlaced => inferInstanceAs (Decidable (frames.length ≤ 1))
  | xiph => inferInstanceAs (Decidable (frames.length ≤ maxFrames))
  | fixed => inferInstanceAs (Decidable
      (frames.length ≤ maxFrames ∧ ∀ f ∈ frames, ∀ g ∈ frames, f.length = g.length))
  | ebml => inferInstanceAs (Decidable
      (frames.length ≤ maxFrames ∧ SizesFit none (frames.dropLast.map List.length)))

/-- Two writes joined by an append succeed exactly when both do. -/
private theorem isOk_append_iff {x y : Except Error Bytes} :
    (∃ bs, (do let a ← x; let b ← y; pure (a ++ b)) = Except.ok bs) ↔
      (∃ a, x = .ok a) ∧ (∃ b, y = .ok b) := by
  cases x <;> cases y <;> simp [bind, Except.bind, pure, Except.pure]

/-- An EBML lace header is written exactly when its sizes fit. -/
theorem ebmlSizes_isOk_iff (prev : Option Nat) (ns : List Nat) :
    (∃ bs, ebmlSizes prev ns = .ok bs) ↔ SizesFit prev ns := by
  induction ns generalizing prev with
  | nil => cases prev <;> simp [ebmlSizes, SizesFit]
  | cons n rest ih =>
    cases prev with
    | none =>
      simp only [ebmlSizes, SizesFit, ← ih (some n), ← Vint.encode_isOk_iff]
      exact isOk_append_iff
    | some p =>
      simp only [ebmlSizes, SizesFit, ← ih (some n), ← Vint.encodeSigned_isOk_iff]
      exact isOk_append_iff

/-- Frames laced with the last one apart: without lacing the last frame alone, otherwise the
frame count less one, the header and the frames. -/
theorem write_append_singleton (mode : Lacing) (leading : List Bytes) (last : Bytes) :
    write mode (leading ++ [last]) =
      if mode = unlaced then (if leading.isEmpty then .ok last else .error .multipleFramesNoLace)
      else if leading.length + 1 > maxFrames then .error .tooManyFrames
      else (do
        let sizes ← header mode leading last
        pure (leading.length.toUInt8 :: sizes ++ (leading ++ [last]).flatten)) := by
  simp only [write, List.reverse_append, List.reverse_singleton, List.singleton_append,
    List.reverse_reverse, List.length_append, List.length_singleton, Nat.add_sub_cancel]

/-- A laced write succeeds exactly when there are at most 256 frames and the header is written. -/
private theorem write_laced_isOk_iff {mode : Lacing} (hmode : mode ≠ unlaced)
    (leading : List Bytes) (last : Bytes) :
    (∃ bs, write mode (leading ++ [last]) = .ok bs) ↔
      leading.length + 1 ≤ maxFrames ∧ ∃ sizes, header mode leading last = .ok sizes := by
  rw [write_append_singleton, if_neg hmode]
  by_cases hmax : leading.length + 1 > maxFrames
  · rw [if_pos hmax]
    constructor
    · rintro ⟨_, h⟩
      cases h
    · rintro ⟨h, -⟩
      omega
  · rw [if_neg hmax]
    cases hh : header mode leading last with
    | error e => simp [bind, Except.bind]
    | ok sizes =>
      simp only [bind, Except.bind, pure, Except.pure]
      exact ⟨fun _ => ⟨by omega, _, rfl⟩, fun _ => ⟨_, rfl⟩⟩

/-- A fixed lace's check: every frame as long as the last is every two frames of one length. -/
private theorem all_length_eq_iff (leading : List Bytes) (last : Bytes) :
    (leading ++ [last]).all (·.length == last.length) = true ↔
      ∀ f ∈ leading ++ [last], ∀ g ∈ leading ++ [last], f.length = g.length := by
  simp only [List.all_eq_true, beq_iff_eq]
  constructor
  · intro h f hf g hg
    rw [h f hf, h g hg]
  · intro h f hf
    exact h f hf last (List.mem_append_right _ (List.mem_singleton_self _))

/-- Writing frames succeeds exactly when the mode can write them. -/
theorem write_isOk_iff (mode : Lacing) (frames : List Bytes) :
    (∃ bs, write mode frames = .ok bs) ↔ Writable mode frames := by
  rcases List.eq_nil_or_concat frames with rfl | ⟨leading, last, rfl⟩
  · -- no frames: nothing is written, whatever the mode
    cases mode <;> simp [write, Writable, SizesFit, maxFrames]
  simp only [List.concat_eq_append]
  cases mode with
  | unlaced =>
    rw [write_append_singleton, if_pos rfl]
    by_cases hlead : leading = [] <;> simp [Writable, hlead]
  | xiph =>
    rw [write_laced_isOk_iff (by decide)]
    simp [Writable, header]
  | fixed =>
    rw [write_laced_isOk_iff (by decide)]
    simp only [Writable, header, ← all_length_eq_iff, List.length_append, List.length_singleton]
    by_cases hall : (leading ++ [last]).all (·.length == last.length) = true <;> simp [hall]
  | ebml =>
    rw [write_laced_isOk_iff (by decide)]
    simp only [Writable, header, List.dropLast_concat, ← ebmlSizes_isOk_iff, List.length_append,
      List.length_singleton]

/-! ## Round trip -/

/-- The lace codec. Writing frames with a lacing mode succeeds exactly when the mode can write
them, and what it writes reads back as the same frames when the last frame is not empty. -/
theorem lace_codec (mode : Lacing) (frames : List Bytes) :
    ((∃ bs, write mode frames = .ok bs) ↔ Writable mode frames) ∧
      ∀ bs, write mode frames = .ok bs → frames.getLast? ≠ some [] → read mode bs = .ok frames :=
  ⟨write_isOk_iff mode frames, fun _ h hlast => read_write h hlast⟩

/-- Two frames of three and two octets in an EBML lace: they can be written, and their lace
reads back as the two frames. -/
theorem lace_codec_two_frames :
    Writable ebml [[1, 1, 1], [2, 2]] ∧
      read ebml [0x01, 0x83, 1, 1, 1, 2, 2] = .ok [[1, 1, 1], [2, 2]] := by
  obtain ⟨hiff, hread⟩ := lace_codec ebml [[1, 1, 1], [2, 2]]
  have hw : write ebml [[1, 1, 1], [2, 2]] = .ok [0x01, 0x83, 1, 1, 1, 2, 2] := rfl
  exact ⟨hiff.mp ⟨_, hw⟩, hread _ hw (by decide)⟩

example : Writable fixed [[1, 2], [3, 4], [5, 6]] ∧ ¬Writable fixed [[1, 2], [3]] := by decide

/-- A lace whose last frame is empty is written without complaint but not read back: its sizes
leave nothing for the last frame. -/
theorem empty_last_frame_unread :
    write xiph [[]] = .ok [0] ∧ read xiph [0] = .error .wrongLaceSize := ⟨rfl, rfl⟩

/-! ## Reading back to the written form -/

theorem xiphSize_add (m : Nat) : xiphSize (m + 255) = 0xFF :: xiphSize m := by
  simp only [xiphSize, show (m + 255) / 255 = m / 255 + 1 by omega,
    show (m + 255) % 255 = m % 255 by omega, List.replicate_succ, List.cons_append]

/-- A Xiph size read from the front of some octets stands there in its one Xiph form. -/
theorem eq_xiphSize_of_readXiphSize {acc n : Nat} {bs rest : Bytes}
    (h : readXiphSize acc bs = .ok (n, rest)) : acc ≤ n ∧ bs = xiphSize (n - acc) ++ rest := by
  induction bs generalizing acc with
  | nil => cases h
  | cons b bs ih =>
    rw [readXiphSize] at h
    split at h
    · -- a run octet adds 255 and the run goes on
      rename_i hb
      obtain ⟨hle, hbs⟩ := ih h
      refine ⟨by omega, ?_⟩
      rw [hbs, hb, show n - acc = n - (acc + 255) + 255 by omega, xiphSize_add, List.cons_append]
    · -- the octet that ends the run is the remainder
      rename_i hb
      simp only [Except.ok.injEq, Prod.mk.injEq] at h
      obtain ⟨rfl, rfl⟩ := h
      have hlt : b.toNat < 255 := by
        have := b.toNat_lt
        have : b.toNat ≠ 255 := fun h' => hb (UInt8.toNat_inj.mp h')
        omega
      refine ⟨by omega, ?_⟩
      simp [xiphSize, Nat.div_eq_of_lt hlt, Nat.mod_eq_of_lt hlt]

/-- The Xiph sizes read from the front of some octets stand there in their Xiph forms. -/
theorem eq_flatMap_of_readXiphSizes {k : Nat} {bs rest : Bytes} {ns : List Nat}
    (h : readXiphSizes k bs = .ok (ns, rest)) :
    ns.length = k ∧ bs = ns.flatMap xiphSize ++ rest := by
  induction k generalizing bs ns with
  | zero =>
    simp only [readXiphSizes, Except.ok.injEq, Prod.mk.injEq] at h
    obtain ⟨rfl, rfl⟩ := h
    exact ⟨rfl, rfl⟩
  | succ k ih =>
    simp only [readXiphSizes, bind, Except.bind] at h
    cases hsize : readXiphSize 0 bs with
    | error e => simp [hsize] at h
    | ok r =>
      obtain ⟨n, bs'⟩ := r
      cases hrest : readXiphSizes k bs' with
      | error e => simp [hsize, hrest] at h
      | ok r' =>
        obtain ⟨ns', rest'⟩ := r'
        simp only [hsize, hrest, pure, Except.pure, Except.ok.injEq, Prod.mk.injEq] at h
        obtain ⟨rfl, rfl⟩ := h
        obtain ⟨-, hbs⟩ := eq_xiphSize_of_readXiphSize hsize
        obtain ⟨hlen, hbs'⟩ := ih hrest
        refine ⟨by simp [hlen], ?_⟩
        rw [hbs, hbs', Nat.sub_zero, List.flatMap_cons, List.append_assoc]

/-- Lace differences in their shortest forms, read after the size `p`, are written back from the
sizes read as the same octets. -/
private theorem ebmlSizes_of_read_signed {p : Nat} {vints : List Bytes} {rest rest' : Bytes}
    {ns : List Nat} (hshort : ∀ v ∈ vints, Vint.ShortestSigned v)
    (h : readEbmlSizes vints.length (some (p : Int)) (vints.flatten ++ rest) = .ok (ns, rest')) :
    ns.length = vints.length ∧ ebmlSizes (some p) ns = .ok vints.flatten ∧ rest' = rest := by
  induction vints generalizing p ns with
  | nil =>
    simp only [List.length_nil, List.flatten_nil, List.nil_append, readEbmlSizes,
      Except.ok.injEq, Prod.mk.injEq] at h
    obtain ⟨rfl, rfl⟩ := h
    exact ⟨rfl, rfl, rfl⟩
  | cons v vs ih =>
    obtain ⟨d, hd⟩ := Vint.encodeSigned_of_shortestSigned (hshort v (List.mem_cons_self ..))
    have hread := readFront_of_run (Vint.readSigned_encodeSigned hd
      (show (Source.ofBytes (v ++ (vs.flatten ++ rest))).ahead = v ++ (vs.flatten ++ rest)
        from rfl))
    simp only [List.length_cons, List.flatten_cons, List.append_assoc, readEbmlSizes, bind,
      Except.bind, hread, pure, Except.pure] at h
    split at h
    · cases h
    · rename_i hrange
      cases hrec : readEbmlSizes vs.length (some ((p : Int) + d)) (vs.flatten ++ rest) with
      | error e => simp [hrec] at h
      | ok r =>
        obtain ⟨ns', rest''⟩ := r
        simp only [hrec, Except.ok.injEq, Prod.mk.injEq] at h
        obtain ⟨rfl, rfl⟩ := h
        have hsize : ((((p : Int) + d).toNat : Nat) : Int) = (p : Int) + d :=
          Int.toNat_of_nonneg (by omega)
        rw [← hsize] at hrec
        obtain ⟨hlen, htail, rfl⟩ := ih (fun w hw => hshort w (List.mem_cons_of_mem _ hw)) hrec
        refine ⟨by rw [List.length_cons, hlen, List.length_cons], ?_, rfl⟩
        simp only [ebmlSizes, show ((((p : Int) + d).toNat : Nat) : Int) - p = d by omega, hd,
          htail, bind, Except.bind, pure, Except.pure, List.flatten_cons]

/-- `k` lace sizes at the front of some octets, each written as short as its value allows: an
unsigned first size, then signed differences. -/
def ShortestSizesAhead (k : Nat) (bs : Bytes) : Prop :=
  ∃ (vints : List Bytes) (rest : Bytes), vints.length = k ∧ bs = vints.flatten ++ rest ∧
    (∀ v ∈ vints.head?, Vint.Shortest v) ∧ ∀ v ∈ vints.tail, Vint.ShortestSigned v

/-- EBML lace sizes in their shortest forms are written back, from the sizes read, as the octets
they were read from. -/
theorem ebmlSizes_of_readEbmlSizes {k : Nat} {bs rest' : Bytes} {ns : List Nat}
    (hshort : ShortestSizesAhead k bs) (h : readEbmlSizes k none bs = .ok (ns, rest')) :
    ns.length = k ∧ ∃ hdr, ebmlSizes none ns = .ok hdr ∧ bs = hdr ++ rest' := by
  obtain ⟨vints, rest, rfl, rfl, hfirst, hsigned⟩ := hshort
  cases vints with
  | nil =>
    simp only [List.length_nil, readEbmlSizes, Except.ok.injEq, Prod.mk.injEq] at h
    obtain ⟨rfl, rfl⟩ := h
    exact ⟨rfl, [], rfl, rfl⟩
  | cons v vs =>
    obtain ⟨n, hn⟩ := Vint.encode_of_shortest (hfirst v rfl)
    have hread := readFront_of_run (Vint.readUnsigned_encode hn (Nat.le_refl 8)
      (show (Source.ofBytes (v ++ (vs.flatten ++ rest))).ahead = v ++ (vs.flatten ++ rest)
        from rfl))
    simp only [List.length_cons, List.flatten_cons, List.append_assoc, readEbmlSizes, bind,
      Except.bind, hread, pure, Except.pure] at h
    split at h
    · cases h
    · cases hrec : readEbmlSizes vs.length (some (n : Int)) (vs.flatten ++ rest) with
      | error e => simp [hrec] at h
      | ok r =>
        obtain ⟨ns', rest''⟩ := r
        simp only [hrec, Except.ok.injEq, Prod.mk.injEq, Int.toNat_natCast] at h
        obtain ⟨rfl, rfl⟩ := h
        obtain ⟨hlen, htail, rfl⟩ := ebmlSizes_of_read_signed hsigned hrec
        refine ⟨by simp [hlen], v ++ vs.flatten, ?_, by simp⟩
        simp only [ebmlSizes, hn, htail, bind, Except.bind, pure, Except.pure, List.tail_cons]

private theorem foldl_add_acc (ns : List Nat) (acc : Nat) :
    ns.foldl (· + ·) acc = acc + ns.foldl (· + ·) 0 := by
  induction ns generalizing acc with
  | nil => simp
  | cons n ns ih =>
    simp only [List.foldl_cons, ih (acc + n), ih (0 + n)]
    omega

/-- Cutting octets at sizes that leave some octets over gives frames of those sizes before the
last frame, and a last frame that is not empty; together the frames spell the octets. -/
theorem split_spec {ns : List Nat} {bs : Bytes} (h : ns.foldl (· + ·) 0 < bs.length) :
    ∃ leading last, split ns bs = leading ++ [last] ∧ leading.map List.length = ns ∧
      last ≠ [] ∧ (leading ++ [last]).flatten = bs := by
  induction ns generalizing bs with
  | nil => exact ⟨[], bs, rfl, rfl, List.ne_nil_of_length_pos h, by simp⟩
  | cons n ns ih =>
    rw [List.foldl_cons, foldl_add_acc] at h
    obtain ⟨leading, last, hsplit, hlen, hlast, hflat⟩ :=
      ih (show ns.foldl (· + ·) 0 < (bs.drop n).length by simp only [List.length_drop]; omega)
    refine ⟨bs.take n :: leading, last, by rw [split, hsplit]; rfl, ?_, hlast, ?_⟩
    · simp only [List.map_cons, List.length_take, hlen, List.cons.injEq, and_true]
      omega
    · rw [List.cons_append, List.flatten_cons, hflat, List.take_append_drop]

/-- The sizes of an EBML-laced payload are written as short as their values allow. -/
def ShortestEbmlSizes (payload : Bytes) : Prop :=
  ∀ count rest, payload = count :: rest → ShortestSizesAhead count.toNat rest

/-- The lace header read from a payload is what the writer gives for the frames read: Xiph runs
and fixed sizes have one form, and EBML sizes in their shortest forms are written back as read. -/
private theorem header_of_readSizes {mode : Lacing} (hmode : mode ≠ unlaced) {count : UInt8}
    {rest bs last : Bytes} {sizes : List Nat} {leading : List Bytes}
    (hread : readSizes mode count.toNat rest = .ok (sizes, bs))
    (hlen : leading.map List.length = sizes)
    (hflat : (leading ++ [last]).flatten = bs)
    (hsizes : mode = ebml → ShortestSizesAhead count.toNat rest) :
    sizes.length = count.toNat ∧
      ∃ hdr, header mode leading last = .ok hdr ∧ rest = hdr ++ bs := by
  cases mode with
  | unlaced => exact absurd rfl hmode
  | xiph =>
    obtain ⟨hcount, hrest⟩ := eq_flatMap_of_readXiphSizes hread
    refine ⟨hcount, _, rfl, ?_⟩
    rw [hrest, ← hlen, List.flatMap_map]
  | fixed =>
    simp only [readSizes] at hread
    split at hread
    · cases hread
    · rename_i hdiv
      simp only [Except.ok.injEq, Prod.mk.injEq] at hread
      obtain ⟨rfl, rfl⟩ := hread
      -- every frame before the last has the shared size, so the last one has it too
      have hlead : ∀ f ∈ leading, f.length = rest.length / (count.toNat + 1) := by
        intro f hf
        have : f.length ∈ leading.map List.length := List.mem_map_of_mem hf
        rw [hlen] at this
        exact List.eq_of_mem_replicate this
      have hlast : last.length = rest.length / (count.toNat + 1) := by
        have htotal := congrArg List.length hflat
        rw [List.flatten_append, List.length_append, List.flatten_singleton,
          List.length_flatten, hlen, List.sum_replicate_nat] at htotal
        have hq := Nat.div_add_mod rest.length (count.toNat + 1)
        rw [Nat.succ_mul] at hq
        omega
      have hall : (leading ++ [last]).all (·.length == last.length) = true := by
        simp only [List.all_eq_true, beq_iff_eq, List.mem_append, List.mem_singleton]
        rintro f (hf | rfl)
        · rw [hlead f hf, hlast]
        · rfl
      exact ⟨List.length_replicate, [], by simp only [header, hall, if_true], rfl⟩
  | ebml =>
    obtain ⟨hcount, hdr, hhdr, hrest⟩ := ebmlSizes_of_readEbmlSizes (hsizes rfl) hread
    exact ⟨hcount, hdr, by rw [header, hlen, hhdr], hrest⟩

/-- Frames read from a payload are written back as that payload, when an EBML lace's sizes are
written as short as their values allow. -/
theorem write_read {mode : Lacing} {payload : Bytes} {frames : List Bytes}
    (h : read mode payload = .ok frames) (hsizes : mode = ebml → ShortestEbmlSizes payload) :
    write mode frames = .ok payload := by
  cases payload with
  | nil =>
    simp only [read, Except.ok.injEq] at h
    subst h
    rfl
  | cons count rest =>
    by_cases hun : mode = unlaced
    · subst hun
      simp only [read, if_true, Except.ok.injEq] at h
      subst h
      rfl
    simp only [read, hun, if_false, bind, Except.bind] at h
    cases hread : readSizes mode count.toNat rest with
    | error e => simp [hread] at h
    | ok r =>
      obtain ⟨sizes, bs⟩ := r
      simp only [hread] at h
      split at h
      · cases h
      · rename_i hsum
        simp only [pure, Except.pure, Except.ok.injEq] at h
        subst h
        obtain ⟨leading, last, hsplit, hlen, -, hflat⟩ := split_spec (Nat.lt_of_not_le hsum)
        obtain ⟨hcount, hdr, hhdr, hrest⟩ := header_of_readSizes hun hread hlen hflat
          (fun he => hsizes he count rest rfl)
        have hnum : leading.length = count.toNat := by
          rw [← List.length_map (f := List.length), hlen, hcount]
        have hmax : ¬leading.length + 1 > maxFrames := by
          have := count.toNat_lt
          simp only [maxFrames]
          omega
        rw [hsplit, write_append_singleton, if_neg hun, if_neg hmax, hhdr, hflat, hnum, hrest]
        simp only [bind, Except.bind, pure, Except.pure, Nat.toUInt8_eq, UInt8.ofNat_toNat,
          List.cons_append]

end Ebml.Lacing
