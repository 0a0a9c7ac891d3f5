import Ebml.Proofs.Reading
import Ebml.Header

/-!
# Readings further into a stream

A property that the primitive reads have and that binding keeps holds of every reading built
from them (`ReadM.Closed`). Such a property is that a reading looks at its source's position only
to measure what it read, so on the same octets further into a stream it gives the same result and
ends as much further on; headers have it too.
-/

namespace Ebml

namespace Source

/-- The same source, `k` octets further into its stream. -/
def moved (s : Source) (k : Nat) : Source := { s with position := s.position + k }

@[simp] theorem moved_ahead (s : Source) (k : Nat) : (s.moved k).ahead = s.ahead := rfl
@[simp] theorem moved_held (s : Source) (k : Nat) : (s.moved k).held = s.held := rfl
@[simp] theorem moved_breaks (s : Source) (k : Nat) : (s.moved k).breaks = s.breaks := rfl
@[simp] theorem moved_position (s : Source) (k : Nat) :
    (s.moved k).position = s.position + k := rfl

/-- Consuming octets and then moving is moving and then consuming them. -/
@[simp] theorem moved_update (s : Source) (k n : Nat) (rest : Bytes) :
    { s.moved k with ahead := rest, position := s.position + k + n } =
      ({ s with ahead := rest, position := s.position + n } : Source).moved k := by
  simp only [moved, Nat.add_right_comm]

end Source

namespace ReadM

/-- A property of readings that the primitive reads have and that binding keeps. -/
structure Closed (P : ∀ {α : Type}, ReadM α → Prop) : Prop where
  of_pure : ∀ {α : Type} (a : α), P (pure a : ReadM α)
  of_throw : ∀ {α : Type} (e : Error), P (throw e : ReadM α)
  of_take : ∀ (n : Nat) (short : IoFault), P (take n short)
  of_bind : ∀ {α β : Type} {r : ReadM α} {f : α → ReadM β},
    P r → (∀ a, P (f a)) → P (r >>= f)

namespace Closed

variable {P : ∀ {α : Type}, ReadM α → Prop} (hP : Closed P) {α : Type}
include hP

theorem of_fail (e : Error) : P (ReadM.fail e : ReadM α) := hP.of_throw e

theorem of_ofExcept (r : Except Error α) : P (ReadM.ofExcept r) := by
  cases r with
  | error e => exact hP.of_throw e
  | ok a => exact hP.of_pure a

theorem of_exact (n : Nat) : P (ReadM.exact n) := hP.of_take n .shortRead

theorem of_skip (n : Nat) : P (ReadM.skip n) :=
  hP.of_bind (hP.of_take n .elementCut) fun _ => hP.of_pure ()

theorem of_byte : P ReadM.byte :=
  hP.of_bind (hP.of_exact 1) fun _ => by
    split
    · exact hP.of_pure _
    · exact hP.of_throw _

theorem of_readUnsigned (maxLen : Nat) : P (Vint.readUnsigned maxLen) :=
  hP.of_bind hP.of_byte fun _ => hP.of_bind (hP.of_ofExcept _) fun _ =>
    hP.of_bind (hP.of_exact _) fun _ => hP.of_pure _

theorem of_readOctets (opts : DecodeOptions) (n : Nat) : P (Payload.readOctets opts n) := by
  unfold Payload.readOctets
  split
  · exact hP.of_fail _
  · exact hP.of_exact n

/-- Element data of every type is read by primitive reads alone. -/
theorem of_payloadRead (opts : DecodeOptions) (t : DataType) (n : Nat) :
    P (Payload.read opts t n) := by
  cases t with
  | signedInt =>
    simp only [Payload.read]
    split
    · exact hP.of_fail _
    split
    · exact hP.of_pure _
    · exact hP.of_bind (hP.of_exact n) fun _ => hP.of_pure _
  | unsignedInt =>
    simp only [Payload.read]
    split
    · exact hP.of_fail _
    · exact hP.of_bind (hP.of_exact n) fun _ => hP.of_pure _
  | float =>
    simp only [Payload.read]
    split
    · exact hP.of_pure _
    split
    · exact hP.of_bind (hP.of_exact 4) fun _ => hP.of_pure _
    split
    · exact hP.of_bind (hP.of_exact 8) fun _ => hP.of_pure _
    · exact hP.of_fail _
  | string | utf8 =>
    simp only [Payload.read]
    refine hP.of_bind (hP.of_readOctets opts n) fun data => ?_
    split
    · exact hP.of_pure _
    · exact hP.of_fail _
  | date =>
    simp only [Payload.read]
    split
    · exact hP.of_pure _
    split
    · exact hP.of_bind (hP.of_exact 8) fun _ => hP.of_pure _
    · exact hP.of_fail _
  | binary => exact hP.of_bind (hP.of_readOctets opts n) fun _ => hP.of_pure _
  | block =>
    exact hP.of_bind (hP.of_readOctets opts n) fun _ =>
      hP.of_bind (hP.of_ofExcept _) fun _ => hP.of_pure _
  | master => exact hP.of_fail _

end Closed

/-- A reading that sees positions only through their differences: run further into a stream, it
gives the same result and leaves the source as much further on. -/
def Shifts {α : Type} (r : ReadM α) : Prop :=
  ∀ s k, r.run (s.moved k) = ((r.run s).1, (r.run s).2.moved k)

variable {α β : Type}

theorem shifts_pure (a : α) : Shifts (pure a : ReadM α) := fun _ _ => rfl

theorem shifts_throw (e : Error) : Shifts (throw e : ReadM α) := fun _ _ => rfl

theorem Shifts.bind {r : ReadM α} {f : α → ReadM β} (hr : Shifts r) (hf : ∀ a, Shifts (f a)) :
    Shifts (r >>= f) := by
  intro s k
  rw [run_bind, run_bind, hr s k]
  rcases r.run s with ⟨_ | a, s'⟩
  · rfl
  · exact hf a s' k

theorem shifts_byte? : Shifts byte? := by
  intro s k
  obtain ⟨ahead, held, breaks, position⟩ := s
  cases ahead with
  | nil => cases breaks <;> rfl
  | cons b rest =>
    simp only [byte?, run_bind, run_get, run_set, run_pure, Source.moved, Nat.add_right_comm]

theorem shifts_take (n : Nat) (short : IoFault) : Shifts (take n short) := by
  intro s k
  simp only [take, run_bind, run_get, run_set, Source.moved_ahead, Source.moved_position,
    Source.moved_update]
  by_cases hlt : (s.ahead.take n).length < n
  · simp only [hlt, if_true, run_throw]
    rfl
  · simp only [hlt, if_false, run_pure]

theorem shifts_exact (n : Nat) : Shifts (exact n) := shifts_take n .shortRead

/-- Seeing positions only through their differences is a property kept by binding. -/
theorem shifts_closed : Closed Shifts := ⟨shifts_pure, shifts_throw, shifts_take, Shifts.bind⟩

end ReadM

namespace Vint

theorem shifts_readUnsigned (maxLen : Nat) : ReadM.Shifts (readUnsigned maxLen) :=
  ReadM.shifts_closed.of_readUnsigned maxLen

end Vint

/-- Reading a header sees positions only to measure the header. -/
theorem Header.shifts_read (opts : DecodeOptions) : ReadM.Shifts (Header.read opts) := by
  intro s k
  simp only [Header.read, ReadM.run_bind, ReadM.run_position, Source.moved_position,
    ReadM.shifts_byte? s k]
  rcases ReadM.byte?.run s with ⟨_ | _ | first, s₁⟩
  · rfl
  · rfl
  dsimp only
  simp only [ReadM.run_bind, ReadM.run_ofExcept]
  rcases Vint.checkLength first opts.maxIdLength with err | width
  · rfl
  dsimp only
  simp only [ReadM.shifts_exact _ s₁ k]
  rcases (ReadM.exact (width - 1)).run s₁ with ⟨_ | tail, s₂⟩
  · rfl
  dsimp only
  simp only [Vint.shifts_readUnsigned _ s₂ k]
  rcases (Vint.readUnsigned opts.maxSizeLength).run s₂ with ⟨_ | ⟨size, L⟩, s₃⟩
  · rfl
  simp only [ReadM.run_position, ReadM.run_pure, Source.moved_position, Nat.add_sub_add_right]

namespace Payload

/-- Reading data sees no position. -/
theorem shifts_read (opts : DecodeOptions) (t : DataType) (n : Nat) :
    ReadM.Shifts (read opts t n) :=
  ReadM.shifts_closed.of_payloadRead opts t n

end Payload

end Ebml
