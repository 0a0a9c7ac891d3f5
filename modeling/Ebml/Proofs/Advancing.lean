import Ebml.Proofs.Shifting
import Ebml.Proofs.SizeCodec

/-!
# Readings that only move forward

A reading takes octets from the front of its source and moves the position by exactly the
octets it took: the position plus the octets still ahead stays the same, and no octet comes
back. This holds of the primitive reads and is kept by binding, so it holds of variable-size
integers and element data (`ReadM.Closed`), and of headers. A header read takes two octets or
more.
-/

namespace Ebml

namespace ReadM

/-- A reading moves the position by exactly the octets it takes, and takes octets only from the
front: none come back. -/
def Advances {α : Type} (r : ReadM α) : Prop :=
  ∀ s, (r.run s).2.ahead.length ≤ s.ahead.length ∧
    (r.run s).2.position + (r.run s).2.ahead.length = s.position + s.ahead.length

variable {α β : Type}

theorem advances_pure (a : α) : Advances (pure a : ReadM α) := fun _ => ⟨Nat.le_refl _, rfl⟩

theorem advances_throw (e : Error) : Advances (throw e : ReadM α) :=
  fun _ => ⟨Nat.le_refl _, rfl⟩

theorem advances_position : Advances position := fun _ => ⟨Nat.le_refl _, rfl⟩

theorem Advances.bind {r : ReadM α} {f : α → ReadM β} (hr : Advances r)
    (hf : ∀ a, Advances (f a)) :
    Advances (r >>= f) := by
  intro s
  obtain ⟨hle, hpos⟩ := hr s
  rw [run_bind]
  rcases hrun : r.run s with ⟨_ | a, s'⟩
  · rw [hrun] at hle hpos
    exact ⟨hle, hpos⟩
  · rw [hrun] at hle hpos
    obtain ⟨hle', hpos'⟩ := hf a s'
    exact ⟨Nat.le_trans hle' hle, hpos'.trans hpos⟩

theorem advances_byte? : Advances byte? := by
  intro s
  obtain ⟨ahead, held, breaks, position⟩ := s
  cases ahead with
  | nil => cases breaks <;> exact ⟨Nat.le_refl _, rfl⟩
  | cons b rest =>
    simp only [byte?, run_bind, run_get, run_set, run_pure, List.length_cons]
    omega

theorem advances_take (n : Nat) (short : IoFault) : Advances (take n short) := by
  intro s
  simp only [take, run_bind, run_get, run_set]
  have hsplit : (s.ahead.take n).length + (s.ahead.drop n).length = s.ahead.length := by
    rw [← List.length_append, List.take_append_drop]
  split
  · simp only [run_throw]
    omega
  · simp only [run_pure]
    omega

/-- Moving forward only is a property kept by binding. -/
theorem advances_closed : Closed Advances :=
  ⟨advances_pure, advances_throw, advances_take, Advances.bind⟩

/-- An octet handed out comes from the front. -/
theorem byte?_some {s s' : Source} {b : UInt8} (h : byte?.run s = (.ok (some b), s')) :
    s.ahead = b :: s'.ahead := by
  obtain ⟨ahead, held, breaks, position⟩ := s
  cases ahead with
  | nil => cases breaks <;> simp [byte?, run_bind, run_get] at h
  | cons c rest =>
    simp only [byte?, run_bind, run_get, run_set, run_pure, Prod.mk.injEq, Except.ok.injEq,
      Option.some.injEq] at h
    obtain ⟨rfl, rfl⟩ := h
    rfl

end ReadM

theorem Header.advances_read (opts : DecodeOptions) : ReadM.Advances (Header.read opts) := by
  refine ReadM.advances_position.bind fun start => ReadM.advances_byte?.bind fun b => ?_
  cases b with
  | none => exact ReadM.advances_pure _
  | some first =>
    refine (ReadM.advances_closed.of_ofExcept _).bind fun width =>
      (ReadM.advances_closed.of_exact _).bind fun tail => ?_
    refine (ReadM.advances_closed.of_readUnsigned _).bind fun sized => ?_
    exact ReadM.advances_position.bind fun _ => ReadM.advances_pure _

/-- A header read takes two octets or more: one or more for the identifier and one or more for
the size. -/
theorem Header.read_takes_two {opts : DecodeOptions} {s s' : Source} {h : Header}
    (hread : (Header.read opts).run s = (.ok (some h), s')) :
    s'.ahead.length + 2 ≤ s.ahead.length := by
  obtain ⟨start, s₀, hstart, h₀⟩ := ReadM.run_bind_ok hread
  obtain ⟨b, s₁, hb, h₁⟩ := ReadM.run_bind_ok h₀
  simp only [ReadM.run_position, Prod.mk.injEq, Except.ok.injEq] at hstart
  obtain ⟨-, rfl⟩ := hstart
  cases b with
  | none => simp [ReadM.run_pure] at h₁
  | some first =>
    dsimp only at h₁
    obtain ⟨width, s₂, hwidth, h₂⟩ := ReadM.run_bind_ok h₁
    obtain ⟨tail, s₃, htail, h₃⟩ := ReadM.run_bind_ok h₂
    obtain ⟨⟨size, L⟩, s₄, hsize, h₄⟩ := ReadM.run_bind_ok h₃
    simp only [ReadM.run_ofExcept, Prod.mk.injEq] at hwidth
    obtain ⟨-, rfl⟩ := hwidth
    simp only [ReadM.run_bind, ReadM.run_position, ReadM.run_pure, Prod.mk.injEq] at h₄
    obtain ⟨-, rfl⟩ := h₄
    have hfirst : s.ahead.length = s₁.ahead.length + 1 := by
      rw [ReadM.byte?_some hb, List.length_cons]
    have htail : s₃.ahead.length ≤ s₁.ahead.length := by
      have := (ReadM.advances_closed.of_exact (width - 1) s₁).1
      rwa [htail] at this
    obtain ⟨first', tail', hsplit, -⟩ := Vint.readUnsigned_ok hsize
    have hsize' : s₃.ahead.length = tail'.length + 1 + s₄.ahead.length := by
      rw [hsplit, List.cons_append, List.length_cons, List.length_append]
      omega
    omega

end Ebml
