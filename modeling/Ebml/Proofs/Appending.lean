import Ebml.Matroska.Writer

/-!
# Writers only append

A sink keeps what it has taken: encoding a document into it, the cluster writer putting a
block or a cluster, a pipeline delivering frames and a stream closing all leave what was
written before as a prefix of what is written after. So the stream a writer produces starts
with the header it wrote first, whatever frames follow.
-/

namespace Ebml

namespace Sink

/-- Write calls that are all taken append their octets, in order. -/
theorem take_ok : ∀ {s s' : Sink} {calls : List Bytes}, s.take calls = (s', none) →
    s'.written = s.written ++ calls.flatten
  | s, s', [], h => by
    obtain rfl : s = s' := (Prod.mk.inj h).1
    simp
  | s, s', c :: cs, h => by
    unfold take at h
    split at h
    · cases h
    · rw [take_ok h]
      simp

/-- Taking write calls only appends to what is written. -/
theorem written_prefix_take : ∀ (s : Sink) (calls : List Bytes), s.written <+: (s.take calls).1.written
  | s, [] => List.prefix_refl _
  | s, c :: cs => by
    unfold take
    split
    · exact List.prefix_refl _
    · exact (List.prefix_append _ _).trans (written_prefix_take { s with written := s.written ++ c } cs)

/-- A document encoded into a sink without error: its octets are appended to what was written. -/
theorem marshal_ok {s s' : Sink} {opts : MarshalOptions} {doc : List (Tag × View)}
    {n : Nat} {recs : List Record} (h : s.marshal opts doc = (s', .ok (n, recs))) :
    ∃ o, Marshal.run opts doc = (o, none) ∧ s'.written = s.written ++ o.bytes := by
  unfold marshal at h
  rcases hr : Marshal.run opts doc with ⟨o, _ | err⟩
  · rw [hr] at h
    dsimp only at h
    rcases ht : s.take o.calls with ⟨s₁, _ | refused⟩
    · rw [ht] at h
      obtain rfl : s₁ = s' := (Prod.mk.inj h).1
      exact ⟨o, rfl, take_ok ht⟩
    · rw [ht] at h
      cases h
  · rw [hr] at h
    dsimp only at h
    rcases ht : s.take o.calls with ⟨s₁, _ | refused⟩
    · rw [ht] at h
      cases h
    · rw [ht] at h
      cases h

/-- Encoding into a sink only appends to what it has written. -/
theorem written_prefix_marshal (s : Sink) (opts : MarshalOptions) (doc : List (Tag × View)) :
    s.written <+: (s.marshal opts doc).1.written := by
  unfold marshal
  rcases hr : Marshal.run opts doc with ⟨o, err⟩
  have := written_prefix_take s o.calls
  dsimp only
  rcases ht : s.take o.calls with ⟨s₁, _ | refused⟩
  · rw [ht] at this
    cases err <;> exact this
  · rw [ht] at this
    exact this

end Sink

namespace Matroska

namespace ClusterWriter

/-- Putting a document changes the sink as encoding it into the sink does. -/
theorem put_sink (w : ClusterWriter) (doc : List (Tag × View)) :
    (w.put doc).1.sink = (w.sink.marshal w.options doc).1 := by
  unfold put
  rcases w.sink.marshal w.options doc with ⟨s, _ | ⟨n, recs⟩⟩ <;> rfl

theorem written_prefix_put (w : ClusterWriter) (doc : List (Tag × View)) :
    w.sink.written <+: (w.put doc).1.sink.written := by
  rw [put_sink]
  exact Sink.written_prefix_marshal _ _ _

theorem written_prefix_openCluster (w : ClusterWriter) (timecode : Nat) :
    w.sink.written <+: (w.openCluster timecode).1.sink.written := by
  unfold openCluster
  exact written_prefix_put { w with clusterStart := some w.position } _

/-- Writing a frame only appends: every branch opens at most one cluster and puts at most one
block, and otherwise changes only the writer's bookkeeping. -/
theorem written_prefix_writeFrame (w : ClusterWriter) (f : Frame) :
    w.sink.written <+: (w.writeFrame f).1.sink.written := by
  have hput := fun (w : ClusterWriter) doc => written_prefix_put w doc
  have hopen := fun (w : ClusterWriter) n => written_prefix_openCluster w n
  unfold writeFrame
  dsimp only
  grind [List.IsPrefix.trans]

/-- Closing the stream only appends its last cluster. -/
theorem written_prefix_finish (w : ClusterWriter) :
    w.sink.written <+: w.finish.1.sink.written := by
  unfold finish
  exact written_prefix_openCluster w _

end ClusterWriter

namespace Pipeline

/-- Delivering a frame only appends; a pipeline that has stopped takes nothing. -/
theorem written_prefix_deliver (p : Pipeline) (f : Frame) :
    p.writer.sink.written <+: (p.deliver f).writer.sink.written := by
  unfold deliver
  cases hf : p.failed with
  | some err => exact List.prefix_refl _
  | none =>
    have hw := ClusterWriter.written_prefix_writeFrame p.writer f
    dsimp only
    rcases hwf : p.writer.writeFrame f with ⟨w, err⟩
    rw [hwf] at hw
    exact hw

end Pipeline

/-- A fold whose every step extends a sink keeps every prefix of the sink it starts from. -/
theorem prefix_foldl {σ β : Type} (written : σ → Bytes) {step : σ → β → σ}
    (hstep : ∀ s b, written s <+: written (step s b)) (l : List β) {s : σ} {pre : Bytes}
    (hs : pre <+: written s) : pre <+: written (l.foldl step s) := by
  induction l generalizing s with
  | nil => exact hs
  | cons b l ih => exact ih (hs.trans (hstep s b))

end Matroska

end Ebml
