import Ebml.Proofs.Appending
import Ebml.Proofs.Sorting

/-!
# A writer that stops

The writer behind a stream's handles takes frames one after another and stops at its first
error, which becomes the stream's fatal error; the stream stays what the sink held then, and is
closed whatever the writer met. A handle writing straight to the writer fails with
`pipelineClosed` from the first write after the writer stopped; a sorted stream's writes return
the octets handed over. The writer's state after its frames is `Pipeline.deliverAll`.
-/

namespace Ebml

/-! ## Where errors come from -/

namespace Sink

/-- The only error a sink returns is its refusal of a write that does not fit. -/
theorem take_error : ∀ {s : Sink} {calls : List Bytes} {e : Error}, (s.take calls).2 = some e →
    e = .io .sinkFull
  | s, [], e, h => by cases h
  | s, c :: cs, e, h => by
    unfold take at h
    split at h
    · exact (Option.some.inj h).symm
    · exact take_error h

/-- Encoding into a sink fails with the sink's refusal, or with the encoder's own error. -/
theorem marshal_error {s : Sink} {opts : MarshalOptions} {doc : List (Tag × View)} {e : Error}
    (h : (s.marshal opts doc).2 = .error e) :
    e = .io .sinkFull ∨ (Marshal.run opts doc).2 = some e := by
  unfold marshal at h
  rcases hr : Marshal.run opts doc with ⟨o, _ | err⟩
  · rw [hr] at h
    dsimp only at h
    rcases ht : s.take o.calls with ⟨s₁, _ | refused⟩
    · rw [ht] at h
      cases h
    · rw [ht] at h
      cases h
      exact .inl (take_error (by rw [ht]))
  · rw [hr] at h
    dsimp only at h
    rcases ht : s.take o.calls with ⟨s₁, _ | refused⟩
    · rw [ht] at h
      cases h
      exact .inr rfl
    · rw [ht] at h
      cases h
      exact .inl (take_error (by rw [ht]))

end Sink

namespace Matroska

namespace ClusterWriter

/-- A document put into the sink fails with the sink's refusal, or with an encoding error. -/
theorem put_error {w : ClusterWriter} {doc : List (Tag × View)} {e : Error}
    (h : (w.put doc).2 = some e) :
    e = .io .sinkFull ∨ ∃ opts doc, (Marshal.run opts doc).2 = some e := by
  unfold put at h
  split at h
  · cases h
  · rename_i sink err hm
    cases h
    exact (Sink.marshal_error (by rw [hm])).imp_right fun h => ⟨_, _, h⟩

/-- Every error writing a frame meets is one that putting a document into the sink returned, as
it was returned. -/
theorem writeFrame_error {w : ClusterWriter} {f : Frame} {e : Error}
    (h : (w.writeFrame f).2 = some e) :
    ∃ (v : ClusterWriter) (doc : List (Tag × View)), (v.put doc).2 = some e := by
  unfold writeFrame openCluster at h
  simp only at h
  split at h
  · rename_i w' err hopened
    -- the cluster the frame opens was refused
    split at hopened
    · split at hopened
      · split at hopened
        · rename_i w'' err' hput
          cases hopened
          cases h
          exact ⟨_, _, by rw [hput]⟩
        · cases hopened
      · cases hopened
    · split at hopened
      · rename_i w'' err' hput
        cases hopened
        cases h
        exact ⟨_, _, by rw [hput]⟩
      · cases hopened
  · -- the block of the frame was refused
    split at h
    · cases h
    · split at h
      · rename_i w'' err' hput
        cases h
        exact ⟨_, _, by rw [hput]⟩
      · cases h

/-- Closing the stream fails only as putting its last cluster into the sink does. -/
theorem finish_error {w : ClusterWriter} {e : Error} (h : w.finish.2 = some e) :
    ∃ (v : ClusterWriter) (doc : List (Tag × View)), (v.put doc).2 = some e :=
  ⟨_, _, h⟩

end ClusterWriter

end Matroska

namespace Matroska

/-- The frame a handle write hands over, given the track numbers of the handles. -/
def HandleWrite.toFrame (numbers : List UInt64) (hw : HandleWrite) : Frame :=
  { track := numbers.getD hw.track 0, keyframe := hw.keyframe, timestamp := hw.timestamp,
    data := hw.data }

namespace Pipeline

/-- The writer of a stream once its header, of `length` octets, is in the sink. -/
def afterHeader (sink : Sink) (length : Nat) (opts : WriterOptions) : Pipeline :=
  { writer := { sink, position := length, mainTrack := opts.mainTrack, options := opts.marshal } }

/-- The writer after it was handed frames, one after the other. -/
def deliverAll (p : Pipeline) (fs : List Frame) : Pipeline := fs.foldl deliver p

/-- What handle writes that hand their frames straight to the writer return: `pipelineClosed`
once the writer has stopped, and the octets handed over before. -/
def directResults (p : Pipeline) : List Frame → List (Except Error Nat)
  | [] => []
  | f :: fs =>
    (if p.failed.isSome then .error .pipelineClosed else .ok f.data.length) ::
      directResults (p.deliver f) fs

end Pipeline

/-- The frames the writer of a stream is handed, in the order it takes them: those of the handle
writes as they come, or, in a sorted stream, as the sorter releases them, those its finish
releases coming last. -/
def writerFrames (tracks : List TrackDescription) (opts : WriterOptions)
    (writes : List HandleWrite) : List Frame :=
  let numbers := tracks.map (·.number)
  opts.sorter.elim (writes.map (HandleWrite.toFrame numbers)) fun so =>
    let run := (FrameSorter.new tracks.length so).pushAll
      (writes.map fun hw => (hw.track, hw.toFrame numbers))
    (run.2.flatten ++ run.1.finish.2).map (·.2)

namespace Pipeline

section Step

variable {p : Pipeline} {f : Frame}

/-- A writer that has stopped takes nothing more. -/
theorem deliver_of_failed (h : p.failed.isSome) : p.deliver f = p := by
  unfold deliver
  cases hf : p.failed with
  | none => rw [hf] at h; cases h
  | some e => rfl

/-- A running writer writes the frame, and stops with the error that meets, if any. -/
theorem deliver_of_running (h : p.failed = none) :
    p.deliver f =
      { writer := (p.writer.writeFrame f).1, failed := (p.writer.writeFrame f).2 } := by
  unfold deliver
  rw [h]

@[simp] theorem deliverAll_nil (p : Pipeline) : p.deliverAll [] = p := rfl

@[simp] theorem deliverAll_cons (p : Pipeline) (f : Frame) (fs : List Frame) :
    p.deliverAll (f :: fs) = (p.deliver f).deliverAll fs := rfl

theorem deliverAll_append (p : Pipeline) (fs gs : List Frame) :
    p.deliverAll (fs ++ gs) = (p.deliverAll fs).deliverAll gs :=
  List.foldl_append

/-- A writer that has stopped stays as it is, whatever it is handed. -/
theorem deliverAll_of_failed (h : p.failed.isSome) (fs : List Frame) : p.deliverAll fs = p := by
  induction fs with
  | nil => rfl
  | cons f fs ih => rw [deliverAll_cons, deliver_of_failed h, ih]

/-- Handing over the frames of a release list one by one. -/
theorem foldl_deliver_snd (p : Pipeline) (out : List (Nat × Frame)) :
    out.foldl (fun p x => p.deliver x.2) p = p.deliverAll (out.map (·.2)) := by
  rw [deliverAll, List.foldl_map]

end Step

section Run

variable {p : Pipeline} {fs : List Frame}

/-- The writer after one frame more. -/
theorem deliverAll_take_succ {i : Nat} {f : Frame} (hf : fs[i]? = some f) :
    p.deliverAll (fs.take (i + 1)) = (p.deliverAll (fs.take i)).deliver f := by
  rw [List.take_add_one, hf, deliverAll_append]
  rfl

/-- Once the writer has stopped, the frames after do nothing. -/
theorem deliverAll_of_stopped {k : Nat} (h : (p.deliverAll (fs.take k)).failed.isSome) :
    p.deliverAll fs = p.deliverAll (fs.take k) := by
  calc p.deliverAll fs = (p.deliverAll (fs.take k)).deliverAll (fs.drop k) := by
        rw [← deliverAll_append, List.take_append_drop]
    _ = p.deliverAll (fs.take k) := deliverAll_of_failed h _

/-- A writer that stops at a frame stops with the error of writing it, and takes nothing after:
it is then the cluster writer that frame left. -/
theorem deliverAll_of_stop {i : Nat} {f : Frame} {e : Error} (hf : fs[i]? = some f)
    (hrun : (p.deliverAll (fs.take i)).failed = none)
    (he : ((p.deliverAll (fs.take i)).writer.writeFrame f).2 = some e) :
    p.deliverAll fs =
      { writer := ((p.deliverAll (fs.take i)).writer.writeFrame f).1, failed := some e } := by
  have hstep : p.deliverAll (fs.take (i + 1)) =
      { writer := ((p.deliverAll (fs.take i)).writer.writeFrame f).1, failed := some e } := by
    rw [deliverAll_take_succ hf, deliver_of_running hrun, he]
  rw [deliverAll_of_stopped (k := i + 1) (by rw [hstep]; rfl), hstep]

/-- A writer that was running and has stopped stopped at some frame, with the error of writing
it. -/
theorem exists_stop {e : Error} (hp : p.failed = none) (h : (p.deliverAll fs).failed = some e) :
    ∃ i f, fs[i]? = some f ∧ (p.deliverAll (fs.take i)).failed = none ∧
      ((p.deliverAll (fs.take i)).writer.writeFrame f).2 = some e := by
  induction fs generalizing p with
  | nil => rw [deliverAll_nil, hp] at h; cases h
  | cons f fs ih =>
    rw [deliverAll_cons, deliver_of_running hp] at h
    cases hw : (p.writer.writeFrame f).2 with
    | some e' =>
      rw [hw, deliverAll_of_failed rfl] at h
      cases h
      exact ⟨0, f, rfl, hp, hw⟩
    | none =>
      rw [hw] at h
      obtain ⟨i, g, hg, hrun, he⟩ := ih rfl h
      refine ⟨i + 1, g, hg, ?_, ?_⟩
      all_goals rw [List.take_succ_cons, deliverAll_cons, deliver_of_running hp, hw]
      · exact hrun
      · exact he

@[simp] theorem length_directResults (p : Pipeline) (fs : List Frame) :
    (p.directResults fs).length = fs.length := by
  induction fs generalizing p with
  | nil => rfl
  | cons f fs ih => simp [directResults, ih]

/-- A direct write fails with `pipelineClosed` exactly when the writer has stopped on the frames
before it, and returns the octets it hands over otherwise. -/
theorem directResults_getElem? (p : Pipeline) (fs : List Frame) (j : Nat) :
    (p.directResults fs)[j]? = fs[j]?.map fun f =>
      if (p.deliverAll (fs.take j)).failed.isSome then .error .pipelineClosed
      else .ok f.data.length := by
  induction fs generalizing p j with
  | nil => rfl
  | cons f fs ih =>
    cases j with
    | zero => rfl
    | succ j => exact ih (p.deliver f) j

/-- How a stream ends, given its writer after every frame: with the writer's error and what the
sink held when it stopped, or else as closing the stream leaves it. -/
def Ends (p : Pipeline) (r : WriteResult) : Prop :=
  (∀ e, p.failed = some e → r.fatal = some e ∧ r.stream = p.writer.sink.written) ∧
    (p.failed = none → r.fatal = p.writer.finish.2 ∧ r.stream = p.writer.finish.1.sink.written)

end Run

end Pipeline

end Matroska

end Ebml
