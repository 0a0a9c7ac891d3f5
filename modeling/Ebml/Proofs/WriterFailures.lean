import Ebml.Proofs.Clusters
import Ebml.Proofs.SingleCaller
import Ebml.Proofs.IdCodec
import Ebml.Proofs.LaceCodec

/-!
# What a stream's writer can fail on

With the default encoding options a cluster head always encodes, and a simple block as soon as
its track number is a size and the block is no longer than the largest size; so a writer whose
tracks are numbered by sizes stops only when its sink refuses a write
(`writer_fails_only_on_sink`). The checks a stream's tracks pass do not bound their numbers, and
a track numbered `2 ^ 56 - 1` stops the writer at its first frame (`unsized_track_stops_writer`).
-/

namespace Ebml

namespace Marshal

/-- With the default options every element's header is written: identifiers take at most four
octets, and a size up to the largest one, or the unknown size, at most eight. -/
theorem header_default (e : Element) (size : Option Nat)
    (hsize : size.all (· ≤ Vint.maxUnsigned)) (o : Output) : (header {} e size o).2 = none := by
  obtain ⟨id, hid⟩ := (Vint.encodeId_isOk_iff e.id 4).mpr e.idWidth_le_four
  cases size with
  | none =>
    simp only [header, hid]
    rfl
  | some n =>
    obtain ⟨sz, hsz⟩ := (Vint.encode_isOk_iff n).mpr (by simpa using hsize)
    simp only [header, hid, hsz]

/-- A scalar under an element that is not a master is written whenever its payload encodes, to
no more than the largest size. -/
theorem field_scalar_default {depth : Nat} {tag : Tag} {v : Value} {z : Bool} {data : Bytes}
    (hm : tag.element.isMaster = false) (hp : Payload.encode tag.element v tag.size = .ok data)
    (hlen : data.length ≤ Vint.maxUnsigned) (o : Output) :
    (field {} depth tag (.scalar v z) o).2 = none := by
  have hh := header_default tag.element (some data.length) (by simpa using hlen) o
  unfold field
  split
  · rfl
  · simp only [hm, hp, Bool.false_eq_true, if_false]
    rcases h : header {} tag.element (some data.length) o with ⟨o', err⟩
    rw [h] at hh
    cases hh
    rfl

/-- Fields each written after any output are written one after another. -/
theorem fields_default_of {depth : Nat} {l : List (Tag × View)}
    (h : ∀ x ∈ l, ∀ o, (field {} depth x.1 x.2 o).2 = none) (o : Output) :
    (fields {} depth l o).2 = none := by
  induction l generalizing o with
  | nil => rfl
  | cons x l ih =>
    have hx := h x List.mem_cons_self o
    rcases hf : field {} depth x.1 x.2 o with ⟨o', err⟩
    rw [hf] at hx
    cases hx
    simp only [fields, hf]
    exact ih (fun y hy => h y (List.mem_cons_of_mem _ hy)) o'

/-- A repeated field with no items writes nothing. -/
theorem field_repeated_nil (opts : MarshalOptions) (depth : Nat) (tag : Tag) (z : Bool)
    (o : Output) : field opts depth tag (.repeated [] z) o = (o, none) := by
  unfold field
  split <;> rfl

/-- A master streamed with the unknown size is written whenever its children are, within the
nesting limit. -/
theorem field_streamed_default {depth : Nat} {tag : Tag} {children : List (Tag × View)} {z : Bool}
    (hm : tag.element.isMaster = true) (hs : tag.size = .unknown) (hd : depth + 1 ≤ maxDepth)
    (hc : ∀ x ∈ children, ∀ o, (field {} (depth + 1) x.1 x.2 o).2 = none) (o : Output) :
    (field {} depth tag (.master children z) o).2 = none := by
  have hh := header_default tag.element none rfl o
  unfold field
  split
  · rfl
  · dsimp only
    rw [if_neg (by simp [hm])]
    rcases h : header {} tag.element none o with ⟨o', err⟩
    rw [h] at hh
    cases hh
    simp only [Nat.not_lt.mpr hd, if_false]
    exact fields_default_of hc _

end Marshal

/-- An unsigned number's payload takes at most eight octets. -/
theorem Payload.length_unsigned_le (v : UInt64) :
    (Octets.ofNat (Payload.unsignedWidth v.toNat) v.toNat).length ≤ Vint.maxUnsigned := by
  have h8 := (Payload.unsignedWidth_spec (by simpa using v.toNat_lt)).2.1
  have hmax : 8 ≤ Vint.maxUnsigned := by decide
  rw [Octets.length_ofNat]
  omega

/-- An unsigned number under an unsigned element takes its fewest octets. -/
theorem Payload.encode_uint {e : Element} (he : e.dataType = .unsignedInt) (v : UInt64) :
    Payload.encode e (.uint v) .natural =
      .ok (Octets.ofNat (Payload.unsignedWidth v.toNat) v.toNat) := by
  simp [Payload.encode, he, Payload.encodeUnsigned, Payload.integerWidth, bind, Except.bind, pure,
    Except.pure]

namespace Matroska

/-- With the default options the head of a cluster that holds no blocks is always written. -/
theorem Put.head_encodes {c : Cluster} (hs : c.simpleBlocks = []) (hg : c.blockGroups = []) :
    (Put.head c).Encodes {} := by
  obtain ⟨t, p, sbs, gs⟩ := c
  cases hs
  cases hg
  unfold Put.Encodes Put.doc Marshal.run
  apply Marshal.fields_default_of
  simp only [List.mem_singleton, forall_eq]
  intro o
  apply Marshal.field_streamed_default rfl rfl (by decide)
  simp only [Slot.view, Slot.viewFields, Slot.viewItems, List.map_nil]
  intro x hx o
  simp only [List.mem_cons, List.not_mem_nil, or_false] at hx
  rcases hx with rfl | rfl | rfl | rfl
  · exact Marshal.field_scalar_default rfl (Payload.encode_uint rfl t)
      (Payload.length_unsigned_le t) o
  · exact Marshal.field_scalar_default rfl (Payload.encode_uint rfl p)
      (Payload.length_unsigned_le p) o
  · rw [Marshal.field_repeated_nil]
  · rw [Marshal.field_repeated_nil]

/-- The length of the simple block a frame is written as: its track number as a size, the two
octets of its timecode, the flag octet and the frame itself. -/
def Frame.blockLength (f : Frame) : Nat := Vint.octetLength f.track.toNat + 3 + f.data.length

/-- The block of a frame encodes once its track number is a size, into `blockLength` octets. -/
theorem blockAt_encode {f : Frame} (ht : f.track.toNat ≤ Vint.maxUnsigned) (a : Int) :
    ∃ data, (ClusterWriter.blockAt f a).encode = .ok data ∧ data.length = f.blockLength := by
  obtain ⟨track, htr⟩ := (Vint.encode_isOk_iff _).mpr ht
  obtain ⟨rfl, -, -, -⟩ := Vint.encode_some_ok htr
  refine ⟨Vint.withMarker (max (Vint.octetLength f.track.toNat) 0) f.track.toNat ++
    Block.timecodeBytes (Int16.ofInt (saturatingSub f.timestamp a)) ++
    [(ClusterWriter.blockAt f a).flags] ++ f.data, ?_, ?_⟩
  · simp only [Block.encode, ClusterWriter.blockAt, htr, bind, Except.bind, pure, Except.pure]
    rfl
  · simp [Frame.blockLength, Vint.withMarker, Block.timecodeBytes]
    omega

/-- With the default options the simple block of a frame is always written, once its track
number is a size and the block is no longer than the largest size. -/
theorem Put.block_encodes {f : Frame} (ht : f.track.toNat ≤ Vint.maxUnsigned)
    (hl : f.blockLength ≤ Vint.maxUnsigned) (a : Int) :
    (Put.block (ClusterWriter.blockAt f a)).Encodes {} := by
  obtain ⟨data, hdata, hlen⟩ := blockAt_encode ht a
  unfold Put.Encodes Put.doc Marshal.run
  apply Marshal.fields_default_of
  simp only [List.mem_singleton, forall_eq]
  intro o
  refine Marshal.field_scalar_default rfl ?_ (hlen ▸ hl) o
  have hdt : Element.simpleBlock.dataType = .block := rfl
  simp only [Tag.plain, Payload.encode, hdt, hdata, bind, Except.bind, pure, Except.pure]
  rfl

end Matroska

namespace Sink

/-- Taking write calls keeps the sink's capacity. -/
theorem take_capacity : ∀ (s : Sink) (calls : List Bytes), (s.take calls).1.capacity = s.capacity
  | s, [] => rfl
  | s, c :: cs => by
    unfold take
    split
    · rfl
    · exact take_capacity _ cs

/-- Only a sink with a capacity refuses a write call. -/
theorem take_refused_capacity : ∀ {s : Sink} {calls : List Bytes} {e : Error},
    (s.take calls).2 = some e → s.capacity.isSome
  | s, [], e, h => by cases h
  | s, c :: cs, e, h => by
    unfold take at h
    split at h
    · rename_i hfull
      revert hfull
      cases s.capacity <;> simp
    · have hrest := take_refused_capacity h
      exact hrest

/-- Encoding into a sink keeps its capacity. -/
theorem marshal_capacity (s : Sink) (opts : MarshalOptions) (doc : List (Tag × View)) :
    (s.marshal opts doc).1.capacity = s.capacity := by
  unfold marshal
  rcases Marshal.run opts doc with ⟨o, err⟩
  dsimp only
  have hcap := take_capacity s o.calls
  rcases ht : s.take o.calls with ⟨s₁, _ | refused⟩
  · rw [ht] at hcap
    cases err <;> exact hcap
  · rw [ht] at hcap
    exact hcap

/-- A document that encodes goes into a sink unless the sink refuses it, which only a sink with
a capacity does. -/
theorem marshal_refused {s : Sink} {opts : MarshalOptions} {doc : List (Tag × View)} {e : Error}
    (hp : (Marshal.run opts doc).2 = none) (h : (s.marshal opts doc).2 = .error e) :
    e = .io .sinkFull ∧ s.capacity.isSome := by
  unfold marshal at h
  rcases hr : Marshal.run opts doc with ⟨o, err⟩
  rw [hr] at hp h
  cases hp
  dsimp only at h
  rcases ht : s.take o.calls with ⟨s₁, _ | refused⟩
  · rw [ht] at h
    cases h
  · rw [ht] at h
    cases h
    exact ⟨take_error (by rw [ht]), take_refused_capacity (by rw [ht])⟩

end Sink

namespace Matroska

namespace ClusterWriter

/-- What a writer keeps along a stream: its encoding options and its sink's capacity. -/
structure Keeps (v w : ClusterWriter) : Prop where
  options : v.options = w.options
  capacity : v.sink.capacity = w.sink.capacity

theorem Keeps.refl (w : ClusterWriter) : Keeps w w := ⟨rfl, rfl⟩

theorem Keeps.trans {u v w : ClusterWriter} (h₁ : Keeps u v) (h₂ : Keeps v w) : Keeps u w :=
  ⟨h₁.options.trans h₂.options, h₁.capacity.trans h₂.capacity⟩

/-- Putting a document into the sink keeps what a writer keeps. -/
theorem put_keeps (w : ClusterWriter) (doc : List (Tag × View)) : Keeps (w.put doc).1 w := by
  have hcap := Sink.marshal_capacity w.sink w.options doc
  unfold put
  rcases hm : w.sink.marshal w.options doc with ⟨sink, _ | ⟨n, recs⟩⟩
  all_goals
    rw [hm] at hcap
    exact ⟨rfl, hcap⟩

/-- A document that encodes under the writer's options fails to go into the sink only as the
sink refuses it. -/
theorem put_refused {w : ClusterWriter} {doc : List (Tag × View)} {e : Error}
    (hp : (Marshal.run w.options doc).2 = none) (h : (w.put doc).2 = some e) :
    e = .io .sinkFull ∧ w.sink.capacity.isSome := by
  unfold put at h
  rcases hm : w.sink.marshal w.options doc with ⟨sink, _ | ⟨n, recs⟩⟩
  · rw [hm] at h
    cases h
    exact Sink.marshal_refused hp (by rw [hm])
  · rw [hm] at h
    cases h

/-- A put that writing a frame makes: the head of a cluster that holds no blocks yet, or the
frame's block at some anchor. -/
def PutFor (f : Frame) : Put → Prop
  | .head c => c.simpleBlocks = [] ∧ c.blockGroups = []
  | .block b => ∃ a, b = blockAt f a

/-- Opening a cluster puts the head of a cluster with no blocks, from the writer with its start
noted. -/
theorem openCluster_steps {u w : ClusterWriter} (hu : Keeps u w) (t : Nat) :
    Keeps (u.openCluster t).1 w ∧ ∀ e, (u.openCluster t).2 = some e →
      ∃ v c, Keeps v w ∧ c.simpleBlocks = [] ∧ c.blockGroups = [] ∧
        (v.put (Put.head c).doc).2 = some e := by
  have hv : Keeps { u with clusterStart := some u.position } w := ⟨hu.options, hu.capacity⟩
  rw [openCluster_eq]
  exact ⟨(put_keeps _ _).trans hv, fun e he => ⟨_, u.headAt t, hv, rfl, rfl, he⟩⟩

/-- Placing a frame keeps what a writer keeps, and fails only as putting the frame's block fails. -/
theorem place_steps (v : ClusterWriter) (f : Frame) (a : Int) :
    Keeps (v.place f a).1 v ∧ ∀ e, (v.place f a).2 = some e →
      (v.put (Put.block (blockAt f a)).doc).2 = some e := by
  unfold place
  split
  · exact ⟨⟨rfl, rfl⟩, fun e he => by cases he⟩
  · have hk := put_keeps v (Put.block (blockAt f a)).doc
    refine ⟨?_, fun e he => he⟩
    dsimp only
    split
    · exact ⟨hk.options, hk.capacity⟩
    · exact hk

/-- Writing a frame keeps what a writer keeps, and fails only as one of its puts fails, from a
writer that keeps it too. -/
theorem writeFrame_steps (w : ClusterWriter) (f : Frame) :
    Keeps (w.writeFrame f).1 w ∧ ∀ e, (w.writeFrame f).2 = some e →
      ∃ v p, Keeps v w ∧ PutFor f p ∧ (v.put p.doc).2 = some e := by
  have hw₁ : Keeps (w.withOrigin f) w := ⟨rfl, rfl⟩
  have hplace : ∀ {v : ClusterWriter} (a : Int), Keeps v w →
      Keeps (v.place f a).1 w ∧ ∀ e, (v.place f a).2 = some e →
        ∃ v p, Keeps v w ∧ PutFor f p ∧ (v.put p.doc).2 = some e := by
    intro v a hv
    obtain ⟨hk, herr⟩ := place_steps v f a
    exact ⟨hk.trans hv, fun e he => ⟨v, .block (blockAt f a), hv, ⟨a, rfl⟩, herr e he⟩⟩
  cases hopens : w.opensFor f with
  | true =>
    obtain ⟨hk₀, herr₀⟩ := openCluster_steps hw₁ (w.openingTimecode f)
    rcases hopen : (w.withOrigin f).openCluster (w.openingTimecode f) with ⟨w₀, _ | err⟩
    · -- the cluster was opened: the frame goes into it
      rw [hopen] at hk₀
      rw [writeFrame_of_opened hopens hopen]
      exact hplace f.timestamp ⟨hk₀.options, hk₀.capacity⟩
    · -- the cluster the frame opens was refused
      rw [hopen] at hk₀ herr₀
      rw [writeFrame_of_refused hopens hopen]
      refine ⟨hk₀, fun e he => ?_⟩
      obtain ⟨v, c, hv, hs, hg, hput⟩ := herr₀ e he
      exact ⟨v, .head c, hv, ⟨hs, hg⟩, hput⟩
  | false =>
    rw [writeFrame_of_joins hopens]
    exact hplace _ hw₁

/-- Closing the stream keeps what a writer keeps, and fails only as putting the head of its last
cluster fails. -/
theorem finish_steps (w : ClusterWriter) :
    Keeps w.finish.1 w ∧ ∀ e, w.finish.2 = some e →
      ∃ v c, Keeps v w ∧ c.simpleBlocks = [] ∧ c.blockGroups = [] ∧
        (v.put (Put.head c).doc).2 = some e := by
  rw [finish_eq]
  exact openCluster_steps (Keeps.refl w) _

/-- With the default options every put a frame's write makes is encoded, once the frame's track
number is a size and its block is no longer than the largest size. -/
theorem PutFor.encodes {f : Frame} {p : Put} (hp : PutFor f p)
    (ht : f.track.toNat ≤ Vint.maxUnsigned) (hl : f.blockLength ≤ Vint.maxUnsigned) : p.Encodes {} := by
  cases p with
  | head c => exact Put.head_encodes hp.1 hp.2
  | block b =>
    obtain ⟨a, rfl⟩ := hp
    exact Put.block_encodes ht hl a

end ClusterWriter

namespace Pipeline

/-- Handing frames to the writer keeps what it keeps. -/
theorem deliverAll_keeps (p : Pipeline) (fs : List Frame) :
    ClusterWriter.Keeps (p.deliverAll fs).writer p.writer := by
  induction fs generalizing p with
  | nil => exact ClusterWriter.Keeps.refl _
  | cons f fs ih =>
    rw [deliverAll_cons]
    refine (ih _).trans ?_
    cases hf : p.failed with
    | some e =>
      rw [deliver_of_failed (by rw [hf]; rfl)]
      exact ClusterWriter.Keeps.refl _
    | none =>
      rw [deliver_of_running hf]
      exact (ClusterWriter.writeFrame_steps p.writer f).1

end Pipeline

namespace FrameSorter

variable {P : Frame → Prop} {s s' : FrameSorter} {out : List (Nat × Frame)}

/-- Every frame a sorter holds has the property `P`. -/
def Holds (P : Frame → Prop) (s : FrameSorter) : Prop := ∀ q ∈ s.queues, ∀ g ∈ q, P g

/-- A flush releases only frames that were waiting. -/
theorem flush_holds {force : Bool} {fuel : Nat} (h : flush force fuel s = (s', out))
    (hs : Holds P s) : Holds P s' ∧ ∀ x ∈ out, P x.2 := by
  have hc := flush_conserves h
  constructor
  · intro q hq g hg
    obtain ⟨j, hj, rfl⟩ := List.getElem_of_mem hq
    have hcj := hc j
    rw [List.getD_eq_getElem _ _ hj] at hcj
    have hwait : g ∈ s.queues.getD j [] := hcj ▸ List.mem_append_right _ hg
    exact hs _ (mem_getD hwait) g hwait
  · intro x hx
    have hx' : x.2 ∈ framesOf x.1 out :=
      List.mem_map.mpr ⟨x, List.mem_filter.mpr ⟨hx, by simp⟩, rfl⟩
    have hwait : x.2 ∈ s.queues.getD x.1 [] := hc x.1 ▸ List.mem_append_left _ hx'
    exact hs _ (mem_getD hwait) _ hwait

/-- A push releases only frames that were waiting or pushed. -/
theorem push_holds (hs : Holds P s) {f : Frame} (hf : P f) (i : Nat) :
    Holds P (s.push i f).1 ∧ ∀ x ∈ (s.push i f).2, P x.2 := by
  by_cases hold : Outdated s f
  · rw [push_outdated hold]
    exact ⟨hs, by simp⟩
  · rw [push_current hold]
    apply flush_holds (flush_eq _ _ _)
    intro q hq g hg
    rcases mem_modify hq with hq | rfl
    · exact hs q hq g hg
    · rcases List.mem_append.mp hg with hg | hg
      · exact hs _ (mem_getD hg) g hg
      · rw [List.mem_singleton.mp hg]
        exact hf

/-- A run of pushes releases only frames that were waiting or pushed. -/
theorem pushAll_holds (hs : Holds P s) {ps : List (Nat × Frame)} (hps : ∀ x ∈ ps, P x.2) :
    Holds P (s.pushAll ps).1 ∧ ∀ x ∈ (s.pushAll ps).2.flatten, P x.2 := by
  induction ps generalizing s with
  | nil => exact ⟨hs, by simp [pushAll]⟩
  | cons p ps ih =>
    obtain ⟨hs', hout⟩ := push_holds hs (hps p List.mem_cons_self) p.1
    obtain ⟨hrest, hrout⟩ := ih hs' (fun x hx => hps x (List.mem_cons_of_mem _ hx))
    refine ⟨hrest, fun x hx => ?_⟩
    simp only [pushAll, List.flatten_cons, List.mem_append] at hx
    exact hx.elim (hout x) (hrout x)

end FrameSorter

/-- Every frame the writer of a stream is handed is the frame of one of its handle writes, so
what holds of those holds of every frame the writer takes. -/
theorem writerFrames_holds {P : Frame → Prop} {tracks : List TrackDescription}
    {opts : WriterOptions} {writes : List HandleWrite}
    (h : ∀ hw ∈ writes, P (hw.toFrame (tracks.map (·.number)))) :
    ∀ f ∈ writerFrames tracks opts writes, P f := by
  unfold writerFrames
  cases opts.sorter with
  | none =>
    intro f hf
    obtain ⟨hw, hmem, rfl⟩ := List.mem_map.mp hf
    exact h hw hmem
  | some so =>
    intro f hf
    simp only [Option.elim_some] at hf
    obtain ⟨x, hx, rfl⟩ := List.mem_map.mp hf
    have hnew : FrameSorter.Holds P (FrameSorter.new tracks.length so) := by
      simp [FrameSorter.Holds, FrameSorter.new]
    have hpushed : ∀ x ∈ writes.map (fun hw => (hw.track, hw.toFrame (tracks.map (·.number)))),
        P x.2 := by
      intro x hx
      obtain ⟨hw, hmem, rfl⟩ := List.mem_map.mp hx
      exact h hw hmem
    obtain ⟨hrun, hout⟩ := FrameSorter.pushAll_holds hnew hpushed
    rcases List.mem_append.mp hx with hx | hx
    · exact hout x hx
    · exact (FrameSorter.flush_holds (FrameSorter.flush_eq _ _ _) hrun).2 x hx

/-- Writing a stream's header keeps the sink's capacity. -/
theorem writeHeader_capacity {sink sink' : Sink} {tracks : List TrackDescription}
    {opts : WriterOptions} {r : Except Error Nat} (h : writeHeader sink tracks opts = (sink', r)) :
    sink'.capacity = sink.capacity := by
  unfold writeHeader at h
  dsimp only at h
  split at h
  · cases h
    rfl
  · rename_i index hindex
    have hcap := Sink.marshal_capacity sink opts.marshal
      (headerDocument opts.header (segmentFields index opts.info tracks))
    rcases hm : sink.marshal opts.marshal
      (headerDocument opts.header (segmentFields index opts.info tracks)) with ⟨s, res⟩
    rw [hm] at h hcap
    cases h
    exact hcap

/-- A handle write's frame carries one of the tracks' numbers, or zero. -/
theorem toFrame_track_le {tracks : List TrackDescription}
    (htracks : ∀ t ∈ tracks, t.number.toNat ≤ Vint.maxUnsigned) (hw : HandleWrite) :
    (hw.toFrame (tracks.map (·.number))).track.toNat ≤ Vint.maxUnsigned := by
  simp only [HandleWrite.toFrame, List.getD_eq_getElem?_getD]
  cases hn : (tracks.map (·.number))[hw.track]? with
  | none => simp [Vint.maxUnsigned]
  | some n =>
    obtain ⟨t, ht, rfl⟩ := List.mem_map.mp (List.mem_of_getElem? hn)
    exact htracks t ht

namespace Pipeline

/-- With the default encoding options, a writer handed frames whose track numbers and blocks fit
sizes stops, or fails to close its stream, only when its sink refuses a write: the head of every
cluster, the end of the stream, and the simple block of every such frame are always encoded. -/
theorem closed_failed_refused {p : Pipeline} (hopts : p.writer.options = {}) (hrun : p.failed = none)
    {fs : List Frame}
    (hfs : ∀ f ∈ fs, f.track.toNat ≤ Vint.maxUnsigned ∧ f.blockLength ≤ Vint.maxUnsigned)
    {e : Error} (he : (p.deliverAll fs).closed.failed = some e) :
    e = .io .sinkFull ∧ p.writer.sink.capacity.isSome := by
  have hrefused : ∀ (v : ClusterWriter) (q : Put) (e : Error),
      ClusterWriter.Keeps v p.writer → q.Encodes {} → (v.put q.doc).2 = some e →
      e = .io .sinkFull ∧ p.writer.sink.capacity.isSome := by
    intro v q e hv hq he
    rw [← hopts, ← hv.options] at hq
    have hfail := ClusterWriter.put_refused hq he
    rwa [hv.capacity] at hfail
  cases hf : (p.deliverAll fs).failed with
  | some e' =>
    simp only [closed, hf, Option.some.injEq] at he
    subst he
    obtain ⟨i, f, hfi, -, hstep⟩ := Pipeline.exists_stop hrun hf
    have hfits := hfs f (List.mem_of_getElem? hfi)
    obtain ⟨v, q, hv, hq, hput⟩ := (ClusterWriter.writeFrame_steps _ f).2 e' hstep
    exact hrefused v q e' (hv.trans (deliverAll_keeps p _)) (hq.encodes hfits.1 hfits.2) hput
  | none =>
    simp only [closed, hf] at he
    obtain ⟨v, c, hv, hs, hg, hput⟩ := (ClusterWriter.finish_steps _).2 e he
    exact hrefused v (.head c) e (hv.trans (deliverAll_keeps p fs)) (Put.head_encodes hs hg) hput

end Pipeline

/-- With the default encoding options and tracks numbered by sizes, the writer of a stream stops
only when the sink refuses a write: the head of every cluster, the end of the stream, and the
simple block of every frame handed over whose block is no longer than the largest size are always
encoded. A sink without a capacity never refuses, so it never stops the writer. -/
theorem writer_fails_only_on_sink (sink : Sink) (tracks : List TrackDescription)
    (opts : WriterOptions) (writes : List HandleWrite) (r : WriteResult)
    (hdefault : opts.marshal = {})
    (htracks : ∀ t ∈ tracks, t.number.toNat ≤ Vint.maxUnsigned)
    (hblocks : ∀ hw ∈ writes,
      (hw.toFrame (tracks.map (·.number))).blockLength ≤ Vint.maxUnsigned)
    (hw : writeStream sink tracks opts writes = .ok r) :
    (∀ e, r.fatal = some e → e = .io .sinkFull) ∧
      (sink.capacity = none → r.fatal = none) := by
  obtain ⟨sink', n, hheader, hends, -⟩ := writeStream_ok hw
  have hframes : ∀ f ∈ writerFrames tracks opts (writes.filter (·.track < tracks.length)),
      f.track.toNat ≤ Vint.maxUnsigned ∧ f.blockLength ≤ Vint.maxUnsigned :=
    writerFrames_holds fun hw hmem =>
      ⟨toFrame_track_le htracks hw, hblocks hw (List.mem_filter.mp hmem).1⟩
  have hfatal : ∀ e, r.fatal = some e → e = .io .sinkFull ∧ sink.capacity.isSome := by
    intro e he
    rw [hends.fatal_eq] at he
    rw [← writeHeader_capacity hheader]
    exact Pipeline.closed_failed_refused hdefault rfl hframes he
  refine ⟨fun e he => (hfatal e he).1, fun hcap => ?_⟩
  cases he : r.fatal with
  | none => rfl
  | some e =>
    have hsome := (hfatal e he).2
    rw [hcap] at hsome
    cases hsome

/-- A track numbered `2 ^ 56 - 1`, the all-ones size, passes the checks of a stream's tracks,
but no block of it can be encoded: into a sink that never refuses, the first frame stops the
writer with `badVintSize`. -/
theorem unsized_track_stops_writer :
    ∃ r, writeStream {} [⟨0xFFFFFFFFFFFFFF, []⟩] {} [⟨0, true, 0, [1]⟩] = .ok r ∧
      r.fatal = some (.context (.encoding .simpleBlock) .badVintSize) := by
  have h : (writeStream {} [⟨0xFFFFFFFFFFFFFF, []⟩] {} [⟨0, true, 0, [1]⟩]).toOption.map
      (·.fatal) = some (some (.context (.encoding .simpleBlock) .badVintSize)) := by
    decide +kernel
  cases hw : writeStream {} [⟨0xFFFFFFFFFFFFFF, []⟩] {} [⟨0, true, 0, [1]⟩] with
  | error e =>
    rw [hw] at h
    cases h
  | ok r =>
    rw [hw] at h
    exact ⟨r, rfl, Option.some.inj h⟩

/-- A track numbered one, written into a sink that never refuses: the writer never stops. -/
theorem one_track_writer_never_fails :
    ∃ r, writeStream {} [⟨1, []⟩] {} [⟨0, true, 0, [1]⟩] = .ok r ∧ r.fatal = none := by
  have h : (writeStream {} [⟨1, []⟩] {} [⟨0, true, 0, [1]⟩]).toBool = true := by
    decide +kernel
  cases hw : writeStream {} [⟨1, []⟩] {} [⟨0, true, 0, [1]⟩] with
  | error e =>
    rw [hw] at h
    cases h
  | ok r =>
    refine ⟨r, rfl,
      (writer_fails_only_on_sink {} [⟨1, []⟩] {} [⟨0, true, 0, [1]⟩] r rfl ?_ ?_ hw).2 rfl⟩
    · intro t ht
      simp only [List.mem_singleton] at ht
      subst ht
      decide
    · intro hw' hmem
      simp only [List.mem_singleton] at hmem
      subst hmem
      decide

end Matroska

end Ebml
