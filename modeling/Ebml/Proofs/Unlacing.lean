import Ebml.Proofs.LaceCodec
import Ebml.Proofs.SignedCodec

/-!
# Unlacing any payload

The lace reader copes with every payload: its Xiph sizes are bounded by 255 per octet, its EBML
sums stay within the payload's length widened by `2 ^ 55 - 1`, and it cuts frames only once the
sizes leave octets over, so every cut lies within the payload. A laced payload reads to the
count octet plus one frames that make up the rest of the payload, and writing them back gives the
payload when an EBML lace's sizes are as short as their values allow (`write_read`).
-/

namespace Ebml.Lacing

/-! ## Readings on the front of a payload -/

/-- A reading on the front of some octets that succeeds ran to success on them. -/
theorem readFront_ok {α : Type} {r : ReadM α} {bs rest : Bytes} {a : α}
    (h : readFront r bs = .ok (a, rest)) :
    ∃ s, r.run (Source.ofBytes bs) = (.ok a, s) ∧ s.ahead = rest := by
  simp only [readFront, ReadM.runOn] at h
  rcases hr : r.run (Source.ofBytes bs) with ⟨result, s⟩
  rw [hr] at h
  cases result with
  | error e => cases h
  | ok a' =>
    simp only [Except.map, Except.ok.injEq, Prod.mk.injEq] at h
    obtain ⟨rfl, rfl⟩ := h
    exact ⟨s, rfl, rfl⟩

/-- A size read from the front of some octets took a prefix of them. -/
theorem readFront_readUnsigned {bs rest : Bytes} {r : Option Nat} {L : Nat}
    (h : readFront (Vint.readUnsigned 8) bs = .ok ((r, L), rest)) : ∃ hdr, bs = hdr ++ rest := by
  obtain ⟨s, hs, rfl⟩ := readFront_ok h
  obtain ⟨first, tail, hbs, -⟩ := Vint.readUnsigned_ok hs
  exact ⟨first :: tail, hbs⟩

/-- A lace difference read from the front of some octets took a prefix of them, and lies within
the signed range. -/
theorem readFront_readSigned {bs rest : Bytes} {d : Int} {L : Nat}
    (h : readFront (Vint.readSigned 8) bs = .ok ((d, L), rest)) :
    (∃ hdr, bs = hdr ++ rest) ∧ d.natAbs ≤ Vint.maxSigned := by
  obtain ⟨s, hs, rfl⟩ := readFront_ok h
  obtain ⟨raw, hraw, -⟩ := Vint.readSigned_ok hs
  obtain ⟨first, tail, hbs, -⟩ := Vint.readUnsigned_ok hraw
  obtain ⟨-, h8, -, hbias, -⟩ := Vint.readSigned_bounds hs
  exact ⟨⟨first :: tail, hbs⟩, Nat.le_trans hbias (Vint.bias_le h8)⟩

/-! ## Sizes within the payload -/

theorem length_xiphSize (m : Nat) : (xiphSize m).length = m / 255 + 1 := by
  simp [xiphSize]

/-- A Xiph size adds at most 255 for each octet of its run. -/
theorem readXiphSize_le {acc n : Nat} {bs rest : Bytes} (h : readXiphSize acc bs = .ok (n, rest)) :
    n ≤ acc + 255 * (bs.length - rest.length) := by
  obtain ⟨hle, hbs⟩ := eq_xiphSize_of_readXiphSize h
  have hlen : bs.length - rest.length = (n - acc) / 255 + 1 := by
    rw [hbs, List.length_append, length_xiphSize]
    omega
  rw [hlen]
  omega

/-- A bound computation that succeeds ran its first part to success. -/
private theorem except_bind_ok {α β : Type} {x : Except Error α} {f : α → Except Error β} {b : β}
    (h : x >>= f = .ok b) : ∃ a, x = .ok a ∧ f a = .ok b := by
  cases x with
  | error e => cases h
  | ok a => exact ⟨a, rfl, h⟩

/-- One EBML size: read from a prefix as a first size or a difference, and kept only when it
is not negative and fits in what follows it. -/
private theorem readEbmlSizes_succ_ok {k : Nat} {prev : Option Int} {bs rest : Bytes}
    {ns : List Nat} (h : readEbmlSizes (k + 1) prev bs = .ok (ns, rest)) :
    ∃ (size : Int) (hdr bs₁ : Bytes) (ns' : List Nat), bs = hdr ++ bs₁ ∧ 0 ≤ size ∧
      size ≤ bs₁.length ∧ readEbmlSizes k (some size) bs₁ = .ok (ns', rest) ∧
      ns = size.toNat :: ns' := by
  cases prev with
  | none =>
    rw [readEbmlSizes.eq_2] at h
    obtain ⟨⟨⟨n, L⟩, bs₁⟩, hr, hk⟩ := except_bind_ok h
    obtain ⟨hdr, rfl⟩ := readFront_readUnsigned hr
    cases n with
    | none => cases hk
    | some n =>
      simp only [pure_bind] at hk
      split at hk
      · cases hk
      · obtain ⟨⟨ns', rest'⟩, hrec, hk⟩ := except_bind_ok hk
        cases hk
        exact ⟨n, hdr, bs₁, ns', rfl, by omega, by omega, hrec, rfl⟩
  | some p =>
    rw [readEbmlSizes.eq_3] at h
    obtain ⟨⟨⟨d, L⟩, bs₁⟩, hr, hk⟩ := except_bind_ok h
    obtain ⟨hdr, rfl⟩ := (readFront_readSigned hr).1
    simp only [pure_bind] at hk
    split at hk
    · cases hk
    · obtain ⟨⟨ns', rest'⟩, hrec, hk⟩ := except_bind_ok hk
      cases hk
      exact ⟨p + d, hdr, bs₁, ns', rfl, by omega, by omega, hrec, rfl⟩

/-- EBML sizes read from some octets: as many as asked for, read from a prefix, and each at most
the octets read from. -/
theorem readEbmlSizes_ok {k : Nat} {prev : Option Int} {bs rest : Bytes} {ns : List Nat}
    (h : readEbmlSizes k prev bs = .ok (ns, rest)) :
    ns.length = k ∧ (∃ hdr, bs = hdr ++ rest) ∧ ∀ n ∈ ns, n ≤ bs.length := by
  induction k generalizing prev bs ns with
  | zero =>
    simp only [readEbmlSizes, Except.ok.injEq, Prod.mk.injEq] at h
    obtain ⟨rfl, rfl⟩ := h
    exact ⟨rfl, ⟨[], rfl⟩, by simp⟩
  | succ k ih =>
    obtain ⟨size, hdr, bs₁, ns', rfl, hpos, hfit, hrec, rfl⟩ := readEbmlSizes_succ_ok h
    obtain ⟨hlen, ⟨hdr', rfl⟩, hle⟩ := ih hrec
    refine ⟨by simp [hlen], ⟨hdr ++ hdr', by rw [List.append_assoc]⟩, ?_⟩
    -- the size just read fits in what follows it; the later ones fit in less
    intro n hn
    simp only [List.length_append] at hfit hle ⊢
    rcases List.mem_cons.mp hn with rfl | hn
    · omega
    · have := hle n hn
      omega

/-- The sizes of a laced payload's leading frames: as many as its count octet says, read from a
prefix of what follows that octet. -/
theorem readSizes_ok {mode : Lacing} (hmode : mode ≠ unlaced) {k : Nat} {bs bs' : Bytes}
    {sizes : List Nat} (h : readSizes mode k bs = .ok (sizes, bs')) :
    sizes.length = k ∧ ∃ hdr, bs = hdr ++ bs' := by
  cases mode with
  | unlaced => exact absurd rfl hmode
  | xiph =>
    obtain ⟨hlen, hbs⟩ := eq_flatMap_of_readXiphSizes h
    exact ⟨hlen, _, hbs⟩
  | fixed =>
    simp only [readSizes] at h
    split at h
    · cases h
    · simp only [Except.ok.injEq, Prod.mk.injEq] at h
      obtain ⟨rfl, rfl⟩ := h
      exact ⟨List.length_replicate, [], rfl⟩
  | ebml =>
    obtain ⟨hlen, hpre, -⟩ := readEbmlSizes_ok h
    exact ⟨hlen, hpre⟩

/-- A laced payload read into frames: the sizes of the leading frames leave octets over, and the
frames are what follows the lace header cut at those sizes. -/
theorem read_laced_ok {mode : Lacing} (hmode : mode ≠ unlaced) {count : UInt8} {rest : Bytes}
    {frames : List Bytes} (h : read mode (count :: rest) = .ok frames) :
    ∃ sizes bs, readSizes mode count.toNat rest = .ok (sizes, bs) ∧
      sizes.foldl (· + ·) 0 < bs.length ∧ frames = split sizes bs := by
  simp only [read, hmode, if_false, bind, Except.bind] at h
  rcases hread : readSizes mode count.toNat rest with _ | ⟨sizes, bs⟩
  · rw [hread] at h
    cases h
  · rw [hread] at h
    simp only at h
    split at h
    · cases h
    · rename_i hsum
      simp only [pure, Except.pure, Except.ok.injEq] at h
      exact ⟨sizes, bs, rfl, Nat.lt_of_not_le hsum, h.symm⟩

/-- The frames of a laced payload: the count octet plus one of them, which together are the
payload less its lace header, each before the last as long as the header says, and the last not
empty. -/
theorem read_laced_shape {mode : Lacing} (hmode : mode ≠ unlaced) {count : UInt8} {rest : Bytes}
    {frames : List Bytes} (h : read mode (count :: rest) = .ok frames) :
    frames.length = count.toNat + 1 ∧
      (∃ hdr sizes, rest = hdr ++ frames.flatten ∧
        readSizes mode count.toNat rest = .ok (sizes, frames.flatten) ∧
        frames.dropLast.map List.length = sizes) ∧
      ∃ last, frames.getLast? = some last ∧ last ≠ [] := by
  obtain ⟨sizes, bs, hread, hsum, rfl⟩ := read_laced_ok hmode h
  obtain ⟨leading, last, hsplit, hlen, hlast, hflat⟩ := split_spec hsum
  obtain ⟨hcount, hdr, rfl⟩ := readSizes_ok hmode hread
  have hnum : leading.length = count.toNat := by
    rw [← List.length_map (f := List.length), hlen, hcount]
  rw [hsplit, hflat]
  refine ⟨by simp [hnum], ⟨hdr, sizes, rfl, hread, ?_⟩, last, by simp, hlast⟩
  rw [List.dropLast_concat, hlen]

/-! ## The reader's safety -/

/-- Unlacing any payload. Every Xiph size adds at most 255 for each octet of its run; every EBML
difference lies within `±(2 ^ 55 - 1)` and every EBML size kept is at most the octets it was read
from, so no sum the reader forms leaves the payload's length widened by `2 ^ 55 - 1`. A laced
payload read into frames gives the count octet plus one frames, which together are the payload
less its lace header, each before the last as long as the header says, so that every cut lies
within the payload; the last frame is not empty, and in a fixed lace all frames have one length.
Writing the frames back with the same mode gives the payload, when an EBML lace's sizes were
written as short as their values allow. -/
theorem unlacing_safe :
    (∀ (acc n : Nat) (bs rest : Bytes), readXiphSize acc bs = .ok (n, rest) →
      n ≤ acc + 255 * (bs.length - rest.length)) ∧
    (∀ (bs rest : Bytes) (d : Int) (L : Nat), readFront (Vint.readSigned 8) bs = .ok ((d, L), rest) →
      d.natAbs ≤ Vint.maxSigned) ∧
    (∀ (k : Nat) (prev : Option Int) (bs rest : Bytes) (ns : List Nat),
      readEbmlSizes k prev bs = .ok (ns, rest) → ∀ n ∈ ns, n ≤ bs.length) ∧
    (∀ (mode : Lacing) (count : UInt8) (rest : Bytes) (frames : List Bytes), mode ≠ unlaced →
      read mode (count :: rest) = .ok frames →
      frames.length = count.toNat + 1 ∧
      (∃ hdr sizes, rest = hdr ++ frames.flatten ∧
        readSizes mode count.toNat rest = .ok (sizes, frames.flatten) ∧
        frames.dropLast.map List.length = sizes) ∧
      (∃ last, frames.getLast? = some last ∧ last ≠ []) ∧
      (mode = fixed → ∀ f ∈ frames, ∀ g ∈ frames, f.length = g.length)) ∧
    (∀ (mode : Lacing) (payload : Bytes) (frames : List Bytes), read mode payload = .ok frames →
      (mode = ebml → ShortestEbmlSizes payload) → write mode frames = .ok payload) := by
  refine ⟨fun _ _ _ _ h => readXiphSize_le h, fun _ _ _ _ h => (readFront_readSigned h).2,
    fun _ _ _ _ _ h => (readEbmlSizes_ok h).2.2, ?shape, fun _ _ _ h hs => write_read h hs⟩
  intro mode count rest frames hmode h
  obtain ⟨hcount, hheader, hlast⟩ := read_laced_shape hmode h
  refine ⟨hcount, hheader, hlast, ?_⟩
  rintro rfl
  have hwrite := write_read h (fun he => by cases he)
  exact ((write_isOk_iff fixed frames).mp ⟨_, hwrite⟩).2

/-- A Xiph lace of a two-octet and a one-octet frame reads back as those frames and is written
back as itself. -/
theorem xiph_lace_unlaced :
    read xiph [1, 2, 0xAA, 0xBB, 0xCC] = .ok [[0xAA, 0xBB], [0xCC]] ∧
      [[0xAA, 0xBB], [0xCC]].length = (1 : UInt8).toNat + 1 ∧
      write xiph [[0xAA, 0xBB], [0xCC]] = .ok [1, 2, 0xAA, 0xBB, 0xCC] := by
  have hread : read xiph [1, 2, 0xAA, 0xBB, 0xCC] = .ok [[0xAA, 0xBB], [0xCC]] := rfl
  obtain ⟨-, -, -, hshape, hback⟩ := unlacing_safe
  exact ⟨hread, (hshape xiph 1 _ _ (by decide) hread).1, hback _ _ _ hread (fun he => by cases he)⟩

end Ebml.Lacing
