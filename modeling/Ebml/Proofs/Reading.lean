import Ebml.Source

/-!
# Reading laws

How a reading runs on a byte source. Binding runs the second reading on the source the first
one left, or passes an error on with the source as it was then. The primitive reads take their
octets from the front of what is ahead and count them in the position. Proofs about the codecs
evaluate readings through these equations and never unfold `ReadM` itself.
-/

namespace Ebml

namespace ReadM

theorem run_bind {α β : Type} (x : ReadM α) (f : α → ReadM β) (s : Source) :
    (x >>= f).run s = match x.run s with
      | (.ok a, s') => (f a).run s'
      | (.error e, s') => (.error e, s') := by
  unfold ReadM.run ExceptT.run StateT.run
  simp only [bind, ExceptT.bind, ExceptT.mk, StateT.bind, ExceptT.bindCont]
  cases x s with
  | mk result next => cases result <;> rfl

theorem run_map {α β : Type} (f : α → β) (x : ReadM α) (s : Source) :
    (f <$> x).run s = match x.run s with
      | (.ok a, s') => (.ok (f a), s')
      | (.error e, s') => (.error e, s') := by
  unfold ReadM.run ExceptT.run StateT.run
  simp only [Functor.map, ExceptT.map, ExceptT.mk, bind, StateT.bind]
  cases x s with
  | mk result next => cases result <;> rfl

/-- A bound reading that succeeds ran its first reading to success, and the second one on the
source the first left. -/
theorem run_bind_ok {α β : Type} {x : ReadM α} {f : α → ReadM β} {s s'' : Source} {b : β}
    (h : (x >>= f).run s = (.ok b, s'')) :
    ∃ a s', x.run s = (.ok a, s') ∧ (f a).run s' = (.ok b, s'') := by
  rw [run_bind] at h
  split at h
  · rename_i a s' hx
    exact ⟨a, s', hx, h⟩
  · simp at h

@[simp] theorem run_pure {α : Type} (a : α) (s : Source) :
    (pure a : ReadM α).run s = (.ok a, s) := rfl

@[simp] theorem run_get (s : Source) : (get : ReadM Source).run s = (.ok s, s) := rfl

@[simp] theorem run_set (s s' : Source) : (set s' : ReadM PUnit).run s = (.ok ⟨⟩, s') := rfl

@[simp] theorem run_throw {α : Type} (e : Error) (s : Source) :
    (throw e : ReadM α).run s = (.error e, s) := rfl

@[simp] theorem run_fail {α : Type} (e : Error) (s : Source) :
    (fail e : ReadM α).run s = (.error e, s) := rfl

@[simp] theorem run_ofExcept {α : Type} (r : Except Error α) (s : Source) :
    (ofExcept r).run s = (r, s) := by
  cases r <;> rfl

@[simp] theorem run_position (s : Source) : position.run s = (.ok s.position, s) := rfl

/-- The next octet is taken from the front. -/
theorem byte?_cons {s : Source} {b : UInt8} {rest : Bytes} (h : s.ahead = b :: rest) :
    byte?.run s = (.ok (some b), { s with ahead := rest, position := s.position + 1 }) := by
  simp [byte?, run_bind, run_map, h]

/-- A source that ends cleanly reports its end. -/
theorem byte?_nil {s : Source} (h : s.ahead = []) (hb : s.breaks = false) :
    byte?.run s = (.ok none, s) := by
  simp [byte?, run_bind, h, hb]

/-- Taking as many octets as a prefix of what is ahead holds takes exactly that prefix. -/
theorem take_append {s : Source} {bs rest : Bytes} (h : s.ahead = bs ++ rest) (short : IoFault) :
    (take bs.length short).run s =
      (.ok bs, { s with ahead := rest, position := s.position + bs.length }) := by
  simp [take, run_bind, run_map, h]

theorem exact_append {s : Source} {bs rest : Bytes} (h : s.ahead = bs ++ rest) :
    (exact bs.length).run s =
      (.ok bs, { s with ahead := rest, position := s.position + bs.length }) :=
  take_append h .shortRead

/-- Exactly `n` octets read were the `n` octets in front. -/
theorem exact_ok {n : Nat} {s s' : Source} {bs : Bytes} (h : (exact n).run s = (.ok bs, s')) :
    bs.length = n ∧ s.ahead = bs ++ s'.ahead := by
  simp only [exact, take, run_bind, run_get, run_set] at h
  split at h
  · simp at h
  · rename_i hlen
    simp only [run_pure, Prod.mk.injEq, Except.ok.injEq] at h
    obtain ⟨rfl, rfl⟩ := h
    refine ⟨by simp at hlen ⊢; omega, ?_⟩
    simp

theorem byte_cons {s : Source} {b : UInt8} {rest : Bytes} (h : s.ahead = b :: rest) :
    byte.run s = (.ok b, { s with ahead := rest, position := s.position + 1 }) := by
  have hx : (exact 1).run s = (.ok [b], { s with ahead := rest, position := s.position + 1 }) :=
    @exact_append s [b] rest h
  simp only [byte, run_bind, hx, run_pure]

/-- An octet read was the octet in front. -/
theorem byte_ok {s s' : Source} {b : UInt8} (h : byte.run s = (.ok b, s')) :
    s.ahead = b :: s'.ahead := by
  obtain ⟨bs, s₁, hx, hb⟩ := run_bind_ok h
  obtain ⟨hlen, hs⟩ := exact_ok hx
  obtain ⟨c, rfl⟩ : ∃ c, bs = [c] := List.length_eq_one_iff.mp hlen
  simp only [run_pure, Prod.mk.injEq, Except.ok.injEq] at hb
  obtain ⟨rfl, rfl⟩ := hb
  exact hs

end ReadM

end Ebml
