import Ebml.Proofs.Stopping
import Ebml.Proofs.Records

/-!
# Clusters

The cluster writer puts cluster heads of unknown size and simple blocks into its sink, each
encoded on its own (`render`). Writing a frame opens a cluster when none is open or the frame
needs one, drops the frame when it lies `0x7FFF` or more before the cluster's anchor, and
otherwise puts its block, timed from the anchor; `writeFrame_ok` says all of it at once, and the
bookkeeping of a whole run is the invariant `Books`.
-/

namespace Ebml

namespace Matroska

/-! ## Puts -/

/-- A document the cluster writer puts into its sink: the head of a cluster of unknown size, or
a simple block. -/
inductive Put where
  | head (c : Cluster)
  | block (b : Block)
  deriving DecidableEq

namespace Put

/-- The one-field document of a put. -/
def doc : Put → List (Tag × View)
  | head c => [({ element := .cluster, size := .unknown }, c.toSlot.view)]
  | block b => [(.plain .simpleBlock, (Slot.block b).view)]

/-- The octets the encoder writes for a put. -/
def bytes (opts : MarshalOptions) (p : Put) : Bytes := (Marshal.run opts p.doc).1.bytes

/-- Whether the encoder writes a put without error. -/
def Encodes (opts : MarshalOptions) (p : Put) : Prop := (Marshal.run opts p.doc).2 = none

/-- The block of a put that is one. -/
def block? : Put → Option Block
  | head _ => none
  | block b => some b

/-- The cluster head of a put that is one. -/
def head? : Put → Option Cluster
  | head c => some c
  | block _ => none

/-- Whether a put is a block. -/
def isBlock (p : Put) : Bool := p.block?.isSome

end Put

/-- The octets of puts, one after another. -/
def render (opts : MarshalOptions) (ps : List Put) : Bytes := (ps.map (Put.bytes opts)).flatten

@[simp] theorem render_nil (opts : MarshalOptions) : render opts [] = [] := rfl

@[simp] theorem render_cons (opts : MarshalOptions) (p : Put) (ps : List Put) :
    render opts (p :: ps) = p.bytes opts ++ render opts ps := rfl

@[simp] theorem render_append (opts : MarshalOptions) (ps qs : List Put) :
    render opts (ps ++ qs) = render opts ps ++ render opts qs := by
  simp [render]

/-- The octets of a cluster head that encodes start with the cluster's identifier, so where a
head starts is where its identifier is. -/
theorem Put.idBytes_prefix_head {opts : MarshalOptions} {c : Cluster} (h : (Put.head c).Encodes opts) :
    Element.cluster.idBytes <+: (Put.head c).bytes opts := by
  unfold Put.Encodes Put.bytes Marshal.run at *
  rcases hrun : Marshal.fields opts 0 (Put.head c).doc {} with ⟨o, _ | err⟩
  · obtain ⟨w, o', hw, -, rfl⟩ := Marshal.fields_cons_eq hrun
    obtain ⟨hd, inner, hh, -, rfl⟩ := Marshal.field_unknown_eq hw
    rw [Output.bytes_append, Output.bytes_append]
    exact (Marshal.header_starts_with_id hh).trans (List.prefix_append _ _) |>.trans
      (List.prefix_append _ _)
  · rw [hrun] at h
    cases h

/-! ## One step of the cluster writer -/

namespace ClusterWriter

variable {w w' : ClusterWriter}

/-- A put the sink takes whole: the sink gains the put's octets and the position counts them;
nothing else changes. -/
theorem put_ok {p : Put} (h : w.put p.doc = (w', none)) :
    p.Encodes w.options ∧ ∃ sink : Sink, sink.written = w.sink.written ++ p.bytes w.options ∧
      w' = { w with sink, position := w.position + (p.bytes w.options).length } := by
  unfold put at h
  rcases hm : w.sink.marshal w.options p.doc with ⟨sink, _ | ⟨n, recs⟩⟩
  · rw [hm] at h
    cases h
  · rw [hm] at h
    obtain ⟨o, ho, hw, rfl⟩ := Sink.marshal_ok_length hm
    cases h
    have hbytes : p.bytes w.options = o.bytes := by rw [Put.bytes, ho]
    exact ⟨by rw [Put.Encodes, ho], sink, by rw [hbytes, hw], by rw [hbytes]⟩

/-- The size a cluster opened now records of the one before it: the octets from that cluster's
start to here, or zero for the first. -/
def prevSize (w : ClusterWriter) : Nat := (w.clusterStart.map (w.position - ·)).getD 0

/-- The head of a cluster opened now at a timecode. -/
def headAt (w : ClusterWriter) (timecode : Nat) : Cluster :=
  { timecode := timecode.toUInt64, prevSize := w.prevSize.toUInt64 }

/-- Opening a cluster puts its head, once it has recorded that the cluster starts here. -/
theorem openCluster_eq (w : ClusterWriter) (t : Nat) :
    w.openCluster t = { w with clusterStart := some w.position }.put (Put.head (w.headAt t)).doc := by
  unfold openCluster headAt prevSize
  cases w.clusterStart <;> rfl

/-- Opening a cluster that the sink takes whole puts its head, records where it starts, and
changes nothing else. -/
theorem openCluster_ok {t : Nat} (h : w.openCluster t = (w', none)) :
    (Put.head (w.headAt t)).Encodes w.options ∧ ∃ sink : Sink,
      sink.written = w.sink.written ++ (Put.head (w.headAt t)).bytes w.options ∧
      w' = { w with sink, clusterStart := some w.position,
                    position := w.position + ((Put.head (w.headAt t)).bytes w.options).length } := by
  rw [openCluster_eq] at h
  exact put_ok h

/-- The timecode of the cluster that ends the stream: the last timestamp written, from the
origin, or zero when nothing was written. -/
def trailerTimecode (w : ClusterWriter) : Nat :=
  ((w.origin.bind fun o => w.lastTimestamp.map fun l => max 0 (saturatingSub l o)).getD 0).toNat

/-- Closing the stream opens one more cluster, at the trailer's timecode. -/
theorem finish_eq (w : ClusterWriter) : w.finish = w.openCluster w.trailerTimecode := by
  unfold finish trailerTimecode
  cases w.origin <;> cases w.lastTimestamp <;> rfl

/-! ### Placing a frame -/

/-- Whether writing a frame opens a cluster: none is open, or the frame needs one. -/
def opensFor (w : ClusterWriter) (f : Frame) : Bool := w.anchor.all (w.needsCluster f)

/-- The anchor of the cluster a frame goes into. -/
def anchorFor (w : ClusterWriter) (f : Frame) : Int :=
  if w.opensFor f then f.timestamp else w.anchor.getD f.timestamp

/-- Whether a frame is dropped: it lies `0x7FFF` or more before the anchor of its cluster. -/
def dropsFor (w : ClusterWriter) (f : Frame) : Bool :=
  decide (saturatingSub f.timestamp (w.anchorFor f) ≤ -maxTimecodeDelta)

/-- The simple block of a frame in a cluster anchored at `anchor`. -/
def blockAt (f : Frame) (anchor : Int) : Block :=
  { track := f.track, timecode := Int16.ofInt (saturatingSub f.timestamp anchor),
    keyframe := f.keyframe, frames := [f.data] }

/-- The timecode of the cluster a frame opens: its distance from the origin, at least zero. -/
def openingTimecode (w : ClusterWriter) (f : Frame) : Nat :=
  (max 0 (saturatingSub f.timestamp (w.origin.getD f.timestamp))).toNat

/-- What writing a frame puts into the sink: the head of the cluster it opens, if it opens one,
then its block, unless it is dropped. -/
def putsFor (w : ClusterWriter) (f : Frame) : List Put :=
  (if w.opensFor f then [.head (w.headAt (w.openingTimecode f))] else []) ++
    (if w.dropsFor f then [] else [.block (blockAt f (w.anchorFor f))])

/-- What a frame write that succeeds does: it puts the frame's documents and counts their
octets, sets the origin at the first frame, anchors the frame, notes where the last cluster
starts and the last timestamp written, and reports a dropped frame. -/
structure Wrote (w : ClusterWriter) (f : Frame) (w' : ClusterWriter) : Prop where
  encodes : ∀ p ∈ w.putsFor f, p.Encodes w.options
  written : w'.sink.written = w.sink.written ++ render w.options (w.putsFor f)
  position : w'.position = w.position + (render w.options (w.putsFor f)).length
  origin : w'.origin = some (w.origin.getD f.timestamp)
  anchor : w'.anchor = some (w.anchorFor f)
  lastTimestamp : w'.lastTimestamp = if w.dropsFor f then w.lastTimestamp else some f.timestamp
  clusterStart : w'.clusterStart = if w.opensFor f then some w.position else w.clusterStart
  reports : w'.reports = if w.dropsFor f then w.reports ++ [.ignoreOldFrame] else w.reports
  mainTrack : w'.mainTrack = w.mainTrack
  options : w'.options = w.options

/-- A frame that opens a cluster anchors it. -/
theorem anchorFor_of_opens {w : ClusterWriter} {f : Frame} (h : w.opensFor f = true) :
    w.anchorFor f = f.timestamp := by
  simp only [anchorFor, h, if_true]

/-- A frame that joins the open cluster keeps its anchor. -/
theorem anchorFor_of_joins {w : ClusterWriter} {f : Frame} {a : Int} (h : w.opensFor f = false)
    (ha : w.anchor = some a) : w.anchorFor f = a := by
  simp only [anchorFor, h, ha, Option.getD_some, Bool.false_eq_true, if_false]

/-- A frame joins a cluster only when one is open. -/
theorem anchor_of_joins {w : ClusterWriter} {f : Frame} (h : w.opensFor f = false) :
    ∃ a, w.anchor = some a := by
  cases ha : w.anchor with
  | none => simp [opensFor, ha] at h
  | some a => exact ⟨a, rfl⟩

/-! ### The two stages of a frame write

A frame write first sets the origin and, when the frame opens a cluster, opens one; if the sink
refuses it, the write stops there. Then it places the frame in its cluster (`place`). The three
equations below say which happens, so that what follows never opens `writeFrame` again. -/

/-- The writer a frame write works on: the origin is set at its first frame. -/
def withOrigin (w : ClusterWriter) (f : Frame) : ClusterWriter :=
  { w with origin := some (w.origin.getD f.timestamp) }

/-- The second stage of a frame write, in a cluster anchored at `anchor`: a frame `0x7FFF` or
more before the anchor is dropped and reported; any other is put as its block, and its
timestamp is noted once the sink took it. -/
def place (w : ClusterWriter) (f : Frame) (anchor : Int) : ClusterWriter × Option Error :=
  if saturatingSub f.timestamp anchor ≤ -maxTimecodeDelta then
    ({ w with reports := w.reports ++ [.ignoreOldFrame] }, none)
  else
    let put := w.put (Put.block (blockAt f anchor)).doc
    (if put.2.isNone then { put.1 with lastTimestamp := some f.timestamp } else put.1, put.2)

/-- A frame that opens a cluster the sink takes goes into it, anchored at its own timestamp. -/
theorem writeFrame_of_opened {f : Frame} {w₀ : ClusterWriter} (hopens : w.opensFor f = true)
    (h : (w.withOrigin f).openCluster (w.openingTimecode f) = (w₀, none)) :
    w.writeFrame f = { w₀ with anchor := some f.timestamp }.place f f.timestamp := by
  unfold writeFrame
  dsimp only
  simp only [withOrigin, openingTimecode] at h
  cases ha : w.anchor
  case' none =>
    rw [ha] at h
    simp only [h]
  case' some a =>
    rw [ha] at h
    simp only [opensFor, ha, Option.all_some, needsCluster] at hopens
    simp only [needsCluster, hopens, if_true, h]
  all_goals
    unfold place
    simp only [Put.doc, blockAt]
    split
    · rfl
    split <;> next hput => simp [hput]

/-- A frame that opens a cluster the sink refuses stops the write there. -/
theorem writeFrame_of_refused {f : Frame} {w₀ : ClusterWriter} {err : Error}
    (hopens : w.opensFor f = true)
    (h : (w.withOrigin f).openCluster (w.openingTimecode f) = (w₀, some err)) :
    w.writeFrame f = (w₀, some err) := by
  unfold writeFrame
  dsimp only
  simp only [withOrigin, openingTimecode] at h
  cases ha : w.anchor
  case' none =>
    rw [ha] at h
    simp only [h]
  case' some a =>
    rw [ha] at h
    simp only [opensFor, ha, Option.all_some, needsCluster] at hopens
    simp only [needsCluster, hopens, if_true, h]

/-- A frame that joins the open cluster goes into it at its anchor. -/
theorem writeFrame_of_joins {f : Frame} (hjoins : w.opensFor f = false) :
    w.writeFrame f = (w.withOrigin f).place f (w.anchorFor f) := by
  obtain ⟨a, ha⟩ := anchor_of_joins hjoins
  rw [anchorFor_of_joins hjoins ha]
  unfold writeFrame place withOrigin
  dsimp only
  simp only [opensFor, ha, Option.all_some, needsCluster] at hjoins
  simp only [ha, needsCluster, hjoins, Bool.false_eq_true, if_false, Put.doc, blockAt]
  split
  · rfl
  split <;> next hput => simp [hput]

/-- Placing a frame that goes through: a frame `0x7FFF` or more before the anchor is dropped and
reported and nothing else changes; any other has its block taken whole by the sink, which counts
its octets, and its timestamp noted. -/
theorem place_ok {f : Frame} {a : Int} (h : w.place f a = (w', none)) :
    (saturatingSub f.timestamp a ≤ -maxTimecodeDelta ∧
      w' = { w with reports := w.reports ++ [.ignoreOldFrame] }) ∨
    (¬saturatingSub f.timestamp a ≤ -maxTimecodeDelta ∧
      (Put.block (blockAt f a)).Encodes w.options ∧ ∃ sink : Sink,
        sink.written = w.sink.written ++ (Put.block (blockAt f a)).bytes w.options ∧
        w' = { w with sink, position := w.position + ((Put.block (blockAt f a)).bytes w.options).length,
                      lastTimestamp := some f.timestamp }) := by
  unfold place at h
  split at h
  · rename_i hfar
    exact .inl ⟨hfar, (Prod.mk.inj h).1.symm⟩
  · rename_i hnear
    rcases hput : w.put (Put.block (blockAt f a)).doc with ⟨w₁, _ | err⟩
    · rw [hput] at h
      obtain ⟨henc, sink, hs, rfl⟩ := put_ok hput
      cases h
      exact .inr ⟨hnear, henc, sink, hs, rfl⟩
    · rw [hput] at h
      cases h

/-- Everything a frame write that succeeds does. -/
theorem writeFrame_ok {f : Frame} (h : w.writeFrame f = (w', none)) : w.Wrote f w' := by
  cases hopens : w.opensFor f with
  | true =>
    rcases hopen : (w.withOrigin f).openCluster (w.openingTimecode f) with ⟨w₀, _ | err⟩
    · rw [writeFrame_of_opened hopens hopen] at h
      obtain ⟨henc₀, s₀, hs₀, rfl⟩ := openCluster_ok hopen
      have hzero : saturatingSub f.timestamp f.timestamp = 0 := by
        rw [saturatingSub, Int.sub_self]
        decide
      have hanchor : w.anchorFor f = f.timestamp := anchorFor_of_opens hopens
      have hdrops : w.dropsFor f = false := by
        simp only [dropsFor, hanchor, hzero, maxTimecodeDelta]
        decide
      rcases place_ok h with ⟨hfar, -⟩ | ⟨-, henc₁, s₁, hs₁, rfl⟩
      · rw [hzero] at hfar
        exact absurd hfar (by decide)
      have hputs : w.putsFor f =
          [.head (w.headAt (w.openingTimecode f)), .block (blockAt f f.timestamp)] := by
        simp only [putsFor, hopens, hdrops, hanchor, if_true, Bool.false_eq_true, if_false]
        rfl
      have hhead : (w.withOrigin f).headAt (w.openingTimecode f) = w.headAt (w.openingTimecode f) :=
        rfl
      rw [hhead] at henc₀ hs₀ ⊢
      dsimp only [withOrigin] at henc₀ hs₀ henc₁ hs₁ ⊢
      refine ⟨?_, ?_, ?_, rfl, ?_, ?_, ?_, ?_, rfl, rfl⟩ <;>
        simp [hputs, hdrops, hopens, hanchor, henc₀, henc₁, hs₀, hs₁]
      omega
    · rw [writeFrame_of_refused hopens hopen] at h
      cases h
  | false =>
    obtain ⟨a, ha⟩ := anchor_of_joins hopens
    have hanchor : w.anchorFor f = a := anchorFor_of_joins hopens ha
    rw [writeFrame_of_joins hopens, hanchor] at h
    rcases place_ok h with ⟨hfar, rfl⟩ | ⟨hnear, henc₁, s₁, hs₁, rfl⟩
    · -- it lies too far before the anchor, and is dropped
      have hdrops : w.dropsFor f = true := by simp only [dropsFor, hanchor, hfar, decide_true]
      have hputs : w.putsFor f = [] := by
        simp only [putsFor, hopens, hdrops, if_true, Bool.false_eq_true, if_false, List.append_nil]
      refine ⟨?_, ?_, ?_, rfl, ?_, ?_, ?_, ?_, rfl, rfl⟩ <;>
        simp [hputs, hdrops, hopens, withOrigin, hanchor, ha]
    · -- it is put as its block
      have hdrops : w.dropsFor f = false := by simp only [dropsFor, hanchor, hnear, decide_false]
      have hputs : w.putsFor f = [.block (blockAt f a)] := by
        simp only [putsFor, hopens, hdrops, hanchor, Bool.false_eq_true, if_false, List.nil_append]
      dsimp only [withOrigin] at henc₁ hs₁
      refine ⟨?_, ?_, ?_, rfl, ?_, ?_, ?_, ?_, rfl, rfl⟩ <;>
        simp [hputs, hdrops, hopens, withOrigin, hanchor, ha, henc₁, hs₁]

end ClusterWriter

/-! ## Placing a frame by plain differences -/

/-- Whether a frame starts a new cluster, by the rule with plain differences of timestamps: no
cluster is open, or the frame lies `0x7FFF` or more past the anchor, or it is a keyframe of the
main track that lies at least the main track's interval past the anchor. -/
def startsCluster (main : Option MainTrack) (anchor : Option Int) (f : Frame) : Bool :=
  anchor.all fun a => decide (maxTimecodeDelta ≤ f.timestamp - a) ||
    main.any fun m => f.keyframe && f.track == m.number && decide (m.maxKeyframeInterval ≤ f.timestamp - a)

/-- A main track as the writer's options set it: its interval is a 64-bit count, capped to the
signed range. -/
def MainTrack.Capped (m : MainTrack) : Prop :=
  0 ≤ m.maxKeyframeInterval ∧ m.maxKeyframeInterval ≤ maxTimestamp

theorem maxTimestamp_eq : maxTimestamp = 9223372036854775807 := by decide

theorem minTimestamp_eq : minTimestamp = -9223372036854775808 := by decide

theorem MainTrack.new_capped (n i : UInt64) : (MainTrack.new n i).Capped := by
  simp only [Capped, MainTrack.new, maxTimestamp_eq]
  omega

/-- Every main track the muxer builds is capped. -/
theorem MainTrack.capped_of_new {main : Option MainTrack}
    (hmain : ∀ m ∈ main, ∃ n i, m = MainTrack.new n i) : ∀ m ∈ main, m.Capped := by
  intro m hm'
  obtain ⟨n, i, rfl⟩ := hmain m hm'
  exact MainTrack.new_capped n i

/-- A difference within the signed range is not saturated. -/
theorem saturatingSub_of_le {a b : Int} (hlo : minTimestamp ≤ a - b) (hhi : a - b ≤ maxTimestamp) :
    saturatingSub a b = a - b := by
  unfold saturatingSub
  omega

/-- Saturating never changes whether a difference reaches a bound above the least signed value. -/
theorem le_saturatingSub_iff {a b c : Int} (hlo : minTimestamp < c) (hhi : c ≤ maxTimestamp) :
    c ≤ saturatingSub a b ↔ c ≤ a - b := by
  unfold saturatingSub
  omega

/-- Saturating never changes whether a difference stays within a bound below the greatest signed
value. -/
theorem saturatingSub_le_iff {a b c : Int} (hlo : minTimestamp ≤ c) (hhi : c < maxTimestamp) :
    saturatingSub a b ≤ c ↔ a - b ≤ c := by
  unfold saturatingSub
  omega

namespace ClusterWriter

/-- A frame is dropped exactly when it lies `0x7FFF` or more before its anchor. -/
theorem dropsFor_iff {w : ClusterWriter} {f : Frame} :
    w.dropsFor f = true ↔ f.timestamp - w.anchorFor f ≤ -maxTimecodeDelta := by
  rw [dropsFor, decide_eq_true_iff]
  exact saturatingSub_le_iff (by rw [minTimestamp_eq]; decide) (by rw [maxTimestamp_eq]; decide)

section Placement

variable {w : ClusterWriter} {f : Frame} (hm : ∀ m ∈ w.mainTrack, m.Capped)
include hm

/-- The writer opens a cluster for a frame exactly when the rule with plain differences says so:
saturating the differences changes no comparison the rule makes. -/
theorem opensFor_eq : w.opensFor f = startsCluster w.mainTrack w.anchor f := by
  unfold opensFor startsCluster needsCluster
  cases w.anchor with
  | none => rfl
  | some a =>
    have hdelta : decide (saturatingSub f.timestamp a ≥ maxTimecodeDelta) =
        decide (maxTimecodeDelta ≤ f.timestamp - a) :=
      decide_eq_decide.mpr (le_saturatingSub_iff (by rw [minTimestamp_eq]; decide)
        (by rw [maxTimestamp_eq]; decide))
    cases hmt : w.mainTrack with
    | none => simp only [Option.all_some, hdelta, Option.any_none]
    | some m =>
      obtain ⟨h0, hmax⟩ := hm m hmt
      have hkey : decide (saturatingSub f.timestamp a ≥ m.maxKeyframeInterval) =
          decide (m.maxKeyframeInterval ≤ f.timestamp - a) :=
        decide_eq_decide.mpr (le_saturatingSub_iff (by rw [minTimestamp_eq]; omega) hmax)
      simp only [Option.all_some, hdelta, Option.any_some, hkey]

/-- The anchor of the open cluster is never after a frame that opens a new one: anchors never
decrease. -/
theorem le_anchorFor {a : Int} (ha : w.anchor = some a) : a ≤ w.anchorFor f := by
  unfold anchorFor
  cases hopens : w.opensFor f with
  | false => simp only [ha, Option.getD_some, Bool.false_eq_true, if_false, Int.le_refl]
  | true =>
    rw [opensFor_eq hm, startsCluster, ha] at hopens
    simp only [Option.all_some, Bool.or_eq_true, decide_eq_true_eq, Option.any_eq_true,
      Bool.and_eq_true, beq_iff_eq] at hopens
    simp only [if_true]
    rcases hopens with hfar | ⟨m, hmt, -, hkey⟩
    · have : (0 : Int) < maxTimecodeDelta := by decide
      omega
    · have := (hm m hmt).1
      omega

/-- A frame that joins the open cluster lies less than `0x7FFF` past its anchor. -/
theorem sub_lt_of_joins {a : Int} (hjoins : w.opensFor f = false) (ha : w.anchor = some a) :
    f.timestamp - a < maxTimecodeDelta := by
  rw [opensFor_eq hm, startsCluster, ha] at hjoins
  simp only [Option.all_some, Bool.or_eq_false_iff, decide_eq_false_iff_not] at hjoins
  omega

/-- A frame that is written lies strictly within `0x7FFF` of its anchor either way. -/
theorem sub_anchorFor_bounds (hd : w.dropsFor f = false) :
    -maxTimecodeDelta < f.timestamp - w.anchorFor f ∧ f.timestamp - w.anchorFor f < maxTimecodeDelta := by
  have hlo : -maxTimecodeDelta < f.timestamp - w.anchorFor f := by
    have := (not_congr (dropsFor_iff (w := w) (f := f))).mp (by simp [hd])
    omega
  refine ⟨hlo, ?_⟩
  cases hopens : w.opensFor f with
  | true =>
    rw [anchorFor_of_opens hopens, Int.sub_self]
    decide
  | false =>
    obtain ⟨a, ha⟩ := anchor_of_joins hopens
    rw [anchorFor_of_joins hopens ha]
    exact sub_lt_of_joins hm hopens ha

/-- The block of a frame that is written carries its exact distance from the anchor, which the
sixteen-bit timecode holds without wrapping. -/
theorem blockAt_of_written (hd : w.dropsFor f = false) :
    blockAt f (w.anchorFor f) =
      { track := f.track, timecode := Int16.ofInt (f.timestamp - w.anchorFor f),
        keyframe := f.keyframe, frames := [f.data] } ∧
    (Int16.ofInt (f.timestamp - w.anchorFor f)).toInt = f.timestamp - w.anchorFor f := by
  obtain ⟨hlo, hhi⟩ := sub_anchorFor_bounds hm hd
  have hδ : maxTimecodeDelta = 0x7FFF := rfl
  rw [hδ] at hlo hhi
  refine ⟨?_, ?_⟩
  · rw [blockAt, saturatingSub_of_le (by rw [minTimestamp_eq]; omega) (by rw [maxTimestamp_eq]; omega)]
  · have hsize : (Int16.size : Int) = 65536 := rfl
    rw [Int16.toInt_ofInt]
    exact Int.bmod_eq_of_le (by rw [hsize]; omega) (by rw [hsize]; omega)

end Placement

/-- The blocks a frame write puts: the frame's own block, unless the frame is dropped. -/
theorem filterMap_putsFor (w : ClusterWriter) (f : Frame) :
    (w.putsFor f).filterMap Put.block? =
      if w.dropsFor f then [] else [blockAt f (w.anchorFor f)] := by
  unfold putsFor
  cases w.opensFor f <;> cases w.dropsFor f <;> rfl

end ClusterWriter

/-! ## Runs -/

namespace Pipeline

/-- What each frame write of a run that succeeds carries, the run carries: a property of the
frames written so far and the writer, true at the start and kept by every frame write, holds
once the run is over. -/
theorem deliverAll_induction {P : List Frame → ClusterWriter → Prop} {p : Pipeline}
    {fs : List Frame} (hstart : P [] p.writer)
    (hstep : ∀ gs f v v', gs ++ [f] <+: fs → P gs v → v.Wrote f v' → P (gs ++ [f]) v')
    (hrun : (p.deliverAll fs).failed = none) : P fs (p.deliverAll fs).writer := by
  have hshorter : ∀ k, (p.deliverAll (fs.take k)).failed = none := by
    intro k
    cases hf : (p.deliverAll (fs.take k)).failed with
    | none => rfl
    | some e =>
      rw [deliverAll_of_stopped (k := k) (by rw [hf]; rfl), hf] at hrun
      cases hrun
  -- the property holds after every prefix, one frame more at a time
  have hall : ∀ k, P (fs.take k) (p.deliverAll (fs.take k)).writer := by
    intro k
    induction k with
    | zero => exact hstart
    | succ k ih =>
      cases hf : fs[k]? with
      | none =>
        have hk : fs.length ≤ k := List.getElem?_eq_none_iff.mp hf
        rw [List.take_of_length_le (by omega)]
        rw [List.take_of_length_le hk] at ih
        exact ih
      | some f =>
        have hsucc := hshorter (k + 1)
        have htake : fs.take (k + 1) = fs.take k ++ [f] := by rw [List.take_add_one, hf]; rfl
        rw [deliverAll_take_succ hf, deliver_of_running (hshorter k)] at hsucc ⊢
        have hwrote := ClusterWriter.writeFrame_ok (Prod.ext rfl hsucc)
        rw [htake]
        exact hstep _ f _ _ (htake ▸ List.take_prefix _ _) ih hwrote
  have hend := hall fs.length
  rwa [List.take_length] at hend

end Pipeline

/-! ## Where clusters start and blocks are timed -/

/-- A block holding a frame alone, as the cluster writer writes it: the frame's track, keyframe
flag and data, at timecode `t`. -/
def frameBlock (f : Frame) (t : Int16) : Block :=
  { track := f.track, timecode := t, keyframe := f.keyframe, frames := [f.data] }

section Placing

variable {main : Option MainTrack} (hmain : ∀ m ∈ main, ∃ n i, m = MainTrack.new n i)
include hmain

/-- One frame write that succeeds, by the rule with plain differences. The frame is placed in a
cluster anchored at `a'`: its own timestamp when the rule starts a cluster, else the anchor of
the open cluster, which is never later. It is dropped, and reported once, exactly when it lies
`0x7FFF` or more before `a'`; otherwise its block is written, timed exactly `f.timestamp - a'`,
after the head of the new cluster if one was started. -/
theorem writeFrame_places {w w' : ClusterWriter} {f : Frame} (hmt : w.mainTrack = main)
    (h : w.writeFrame f = (w', none)) :
    w'.anchor = some (if startsCluster main w.anchor f then f.timestamp else w.anchor.getD f.timestamp) ∧
    ∀ a', w'.anchor = some a' →
      (∀ a ∈ w.anchor, a ≤ a') ∧
      w'.reports = w.reports ++ (if f.timestamp - a' ≤ -maxTimecodeDelta then [.ignoreOldFrame] else []) ∧
      (∃ c : Cluster, w'.sink.written = w.sink.written ++ render w.options
        ((if startsCluster main w.anchor f then [.head c] else []) ++
          (if f.timestamp - a' ≤ -maxTimecodeDelta then []
            else [.block (frameBlock f (Int16.ofInt (f.timestamp - a')))]))) ∧
      (-maxTimecodeDelta < f.timestamp - a' → (Int16.ofInt (f.timestamp - a')).toInt = f.timestamp - a') := by
  have hm : ∀ m ∈ w.mainTrack, m.Capped := by
    rw [hmt]
    exact MainTrack.capped_of_new hmain
  have hwrote := ClusterWriter.writeFrame_ok h
  have hopens := ClusterWriter.opensFor_eq (f := f) hm
  rw [hmt] at hopens
  refine ⟨by rw [hwrote.anchor, ClusterWriter.anchorFor, hopens], ?_⟩
  intro a' ha'
  rw [hwrote.anchor, Option.some.injEq] at ha'
  subst ha'
  have hdrops : w.dropsFor f = decide (f.timestamp - w.anchorFor f ≤ -maxTimecodeDelta) := by
    rw [Bool.eq_iff_iff, ClusterWriter.dropsFor_iff, decide_eq_true_iff]
  refine ⟨fun a ha => ClusterWriter.le_anchorFor hm ha, ?_, ⟨w.headAt (w.openingTimecode f), ?_⟩, ?_⟩
  · rw [hwrote.reports, hdrops]
    by_cases hfar : f.timestamp - w.anchorFor f ≤ -maxTimecodeDelta <;> simp [hfar]
  · rw [hwrote.written, ClusterWriter.putsFor, hopens]
    cases hd : w.dropsFor f with
    | true =>
      have hfar : f.timestamp - w.anchorFor f ≤ -maxTimecodeDelta := ClusterWriter.dropsFor_iff.mp hd
      simp only [if_pos hfar, if_true]
    | false =>
      have hnear : ¬(f.timestamp - w.anchorFor f ≤ -maxTimecodeDelta) := by
        rw [← ClusterWriter.dropsFor_iff, hd]
        decide
      rw [if_neg hnear, (ClusterWriter.blockAt_of_written hm hd).1]
      rfl
  · intro hnear
    have hd : w.dropsFor f = false := by
      rw [hdrops, decide_eq_false_iff_not]
      omega
    exact (ClusterWriter.blockAt_of_written hm hd).2

/-- Frames in non-decreasing timestamp order, written from a writer whose open cluster, if any,
is anchored no later than any of them: no frame is dropped, and the blocks written are the
frames' own, in order, each timed between `0` and `0x7FFE` from its cluster's anchor. -/
theorem deliverAll_sorted {w : ClusterWriter} {fs : List Frame} (hmt : w.mainTrack = main)
    (hanchor : ∀ a ∈ w.anchor, ∀ f ∈ fs, a ≤ f.timestamp)
    (hsorted : fs.Pairwise fun f g => f.timestamp ≤ g.timestamp)
    (hrun : (({ writer := w } : Pipeline).deliverAll fs).failed = none) :
    (({ writer := w } : Pipeline).deliverAll fs).writer.reports = w.reports ∧
    ∃ ps ts, (({ writer := w } : Pipeline).deliverAll fs).writer.sink.written =
        w.sink.written ++ render w.options ps ∧
      ts.length = fs.length ∧ ps.filterMap Put.block? = List.zipWith frameBlock fs ts ∧
      ∀ t ∈ ts, 0 ≤ t.toInt ∧ t.toInt ≤ 0x7FFE := by
  have hend := Pipeline.deliverAll_induction
    (P := fun gs v => v.mainTrack = main ∧ v.options = w.options ∧ v.reports = w.reports ∧
      (∀ a ∈ v.anchor, ∀ g, gs ++ [g] <+: fs → a ≤ g.timestamp) ∧
      ∃ ps ts, v.sink.written = w.sink.written ++ render w.options ps ∧
        ts.length = gs.length ∧ ps.filterMap Put.block? = List.zipWith frameBlock gs ts ∧
        ∀ t ∈ ts, 0 ≤ t.toInt ∧ t.toInt ≤ 0x7FFE)
    ⟨hmt, rfl, rfl, fun a ha g hg => hanchor a ha g (hg.subset (List.mem_singleton_self g)),
      [], [], by simp, rfl, rfl, by simp⟩ ?_ hrun
  · exact ⟨hend.2.2.1, hend.2.2.2.2⟩
  rintro gs f v v' hpre ⟨hmt', hopt, hrep, hanc, ps, ts, hw, hlen, hblocks, hts⟩ hwrote
  have hm : ∀ m ∈ v.mainTrack, m.Capped := by
    rw [hmt']
    exact MainTrack.capped_of_new hmain
  have hle : v.anchorFor f ≤ f.timestamp := by
    cases hopens : v.opensFor f with
    | true => exact Int.le_of_eq (ClusterWriter.anchorFor_of_opens hopens)
    | false =>
      obtain ⟨a, ha⟩ := ClusterWriter.anchor_of_joins hopens
      rw [ClusterWriter.anchorFor_of_joins hopens ha]
      exact hanc a ha f hpre
  have hd : v.dropsFor f = false := by
    cases hd : v.dropsFor f with
    | false => rfl
    | true =>
      have := ClusterWriter.dropsFor_iff.mp hd
      have : (0 : Int) < maxTimecodeDelta := by decide
      omega
  obtain ⟨hblock, htc⟩ := ClusterWriter.blockAt_of_written hm hd
  have hhi := (ClusterWriter.sub_anchorFor_bounds hm hd).2
  refine ⟨hwrote.mainTrack.trans hmt', hwrote.options.trans hopt, ?_, ?_,
    ps ++ v.putsFor f, ts ++ [Int16.ofInt (f.timestamp - v.anchorFor f)], ?_, ?_, ?_, ?_⟩
  · rw [hwrote.reports, hd, hrep]
    rfl
  · -- the next frame is no earlier than this one
    intro a ha g hg
    rw [hwrote.anchor, Option.mem_def, Option.some.injEq] at ha
    subst ha
    have hfg : (gs ++ [f, g]).Pairwise fun f g => f.timestamp ≤ g.timestamp :=
      hsorted.sublist (by simpa using hg.sublist)
    have := (List.pairwise_append.mp hfg).2.1
    simp only [List.pairwise_cons, List.mem_singleton, forall_eq] at this
    exact Int.le_trans hle this.1
  · rw [hwrote.written, hw, hopt, List.append_assoc, render_append]
  · simp [hlen]
  · rw [List.filterMap_append, hblocks, ClusterWriter.filterMap_putsFor, hd, hblock,
      List.zipWith_append (by rw [hlen])]
    rfl
  · intro t ht
    rcases List.mem_append.mp ht with ht | ht
    · exact hts t ht
    · rw [List.mem_singleton] at ht
      subst ht
      have hδ : maxTimecodeDelta = 0x7FFF := rfl
      rw [htc]
      omega

end Placing

/-- Cluster splitting and block timecodes, for a writer with or without a main track set by the
options. Each frame write that succeeds places the frame by the rule with plain differences: a
cluster is started before it exactly when `startsCluster` says so, anchored at the frame; the
frame is dropped, and reported once, exactly when it lies `0x7FFF` or more before the anchor it
is placed against, and otherwise exactly one simple block is written for it, whose sixteen-bit
timecode is its exact distance from that anchor; and anchors never decrease. So frames in
non-decreasing timestamp order are never dropped: the blocks written are the frames' own, in
order, each timed between `0` and `0x7FFE`. -/
theorem cluster_placement (main : Option MainTrack)
    (hmain : ∀ m ∈ main, ∃ n i, m = MainTrack.new n i) :
    (∀ (w w' : ClusterWriter) (f : Frame), w.mainTrack = main → w.writeFrame f = (w', none) →
      w'.anchor = some (if startsCluster main w.anchor f then f.timestamp else w.anchor.getD f.timestamp) ∧
      ∀ a', w'.anchor = some a' →
        (∀ a ∈ w.anchor, a ≤ a') ∧
        w'.reports = w.reports ++ (if f.timestamp - a' ≤ -maxTimecodeDelta then [.ignoreOldFrame] else []) ∧
        (∃ c : Cluster, w'.sink.written = w.sink.written ++ render w.options
          ((if startsCluster main w.anchor f then [.head c] else []) ++
            (if f.timestamp - a' ≤ -maxTimecodeDelta then []
              else [.block (frameBlock f (Int16.ofInt (f.timestamp - a')))]))) ∧
        (-maxTimecodeDelta < f.timestamp - a' →
          (Int16.ofInt (f.timestamp - a')).toInt = f.timestamp - a')) ∧
    (∀ (w : ClusterWriter) (fs : List Frame), w.mainTrack = main →
      (∀ a ∈ w.anchor, ∀ f ∈ fs, a ≤ f.timestamp) →
      fs.Pairwise (fun f g => f.timestamp ≤ g.timestamp) →
      (({ writer := w } : Pipeline).deliverAll fs).failed = none →
      (({ writer := w } : Pipeline).deliverAll fs).writer.reports = w.reports ∧
      ∃ ps ts, (({ writer := w } : Pipeline).deliverAll fs).writer.sink.written =
          w.sink.written ++ render w.options ps ∧
        ts.length = fs.length ∧ ps.filterMap Put.block? = List.zipWith frameBlock fs ts ∧
        ∀ t ∈ ts, 0 ≤ t.toInt ∧ t.toInt ≤ 0x7FFE) :=
  ⟨fun _ _ _ hmt h => writeFrame_places hmain hmt h,
    fun _ _ hmt hanchor hsorted hrun => deliverAll_sorted hmain hmt hanchor hsorted hrun⟩

/-- Track 1 as the main track, starting clusters at keyframes once a cluster spans `0x800`. -/
def mainTrackOne : MainTrack := MainTrack.new 1 0x800

/-- Frames of track 1: a keyframe, a frame just after, one `0x1000` on, and a keyframe after it,
which starts a cluster since the first spans `0x1000`. -/
def keyframeRun : List Frame :=
  [{ track := 1, keyframe := true, timestamp := 0, data := [0] },
   { track := 1, timestamp := 1, data := [1] },
   { track := 1, timestamp := 0x1000, data := [0] },
   { track := 1, keyframe := true, timestamp := 0x1001, data := [1] }]

/-- The keyframe run, written with track 1 as the main track: nothing is reported, and the four
blocks written are the frames' own, in order, timed between `0` and `0x7FFE`. -/
theorem keyframe_run_in_order :
    (∀ m ∈ some mainTrackOne, ∃ n i, m = MainTrack.new n i) ∧
    (({ writer := { sink := {}, position := 0, mainTrack := some mainTrackOne } } : Pipeline).deliverAll
      keyframeRun).failed = none ∧
    (({ writer := { sink := {}, position := 0, mainTrack := some mainTrackOne } } : Pipeline).deliverAll
      keyframeRun).writer.reports = [] ∧
    ∃ ps ts, (({ writer := { sink := {}, position := 0, mainTrack := some mainTrackOne } } :
        Pipeline).deliverAll keyframeRun).writer.sink.written = [] ++ render {} ps ∧
      ts.length = keyframeRun.length ∧ ps.filterMap Put.block? = List.zipWith frameBlock keyframeRun ts ∧
      ∀ t ∈ ts, 0 ≤ t.toInt ∧ t.toInt ≤ 0x7FFE := by
  have hmain : ∀ m ∈ some mainTrackOne, ∃ n i, m = MainTrack.new n i := by
    intro m hm
    rw [Option.mem_def, Option.some.injEq] at hm
    exact ⟨1, 0x800, hm.symm⟩
  have hrun : (({ writer := { sink := {}, position := 0, mainTrack := some mainTrackOne } } :
      Pipeline).deliverAll keyframeRun).failed = none := by decide +kernel
  have hsorted : keyframeRun.Pairwise (fun f g => f.timestamp ≤ g.timestamp) := by decide
  exact ⟨hmain, hrun, (cluster_placement (some mainTrackOne) hmain).2 _ keyframeRun rfl
    (fun a ha => by cases ha) hsorted hrun⟩


/-! ## Cluster bookkeeping -/

/-- The cluster heads among puts, each with where it starts in their octets, counted from
`pos`. -/
def headsFrom (opts : MarshalOptions) : Nat → List Put → List (Nat × Cluster)
  | _, [] => []
  | pos, p :: ps => (p.head?.map (pos, ·)).toList ++ headsFrom opts (pos + (p.bytes opts).length) ps

theorem headsFrom_append (opts : MarshalOptions) (pos : Nat) (ps qs : List Put) :
    headsFrom opts pos (ps ++ qs) =
      headsFrom opts pos ps ++ headsFrom opts (pos + (render opts ps).length) qs := by
  induction ps generalizing pos with
  | nil => rfl
  | cons p ps ih =>
    simp only [List.cons_append, headsFrom, ih, List.append_assoc, render_cons, List.length_append,
      Nat.add_assoc]

/-- Puts that all encode hold the cluster's identifier where each of their heads starts. -/
theorem idBytes_at_headsFrom {opts : MarshalOptions} {ps : List Put} (hps : ∀ p ∈ ps, p.Encodes opts)
    (pos : Nat) : ∀ hc ∈ headsFrom opts pos ps,
      pos ≤ hc.1 ∧ Element.cluster.idBytes <+: (render opts ps).drop (hc.1 - pos) := by
  induction ps generalizing pos with
  | nil => simp [headsFrom]
  | cons p ps ih =>
    intro hc hmem
    rcases List.mem_append.mp hmem with hhead | htail
    · -- the first put is the head: its octets start the stream
      cases p with
      | head c =>
        simp only [Put.head?, Option.map_some, Option.toList_some, List.mem_singleton] at hhead
        subst hhead
        refine ⟨Nat.le_refl pos, ?_⟩
        rw [Nat.sub_self, List.drop_zero, render_cons]
        exact (Put.idBytes_prefix_head (hps _ List.mem_cons_self)).trans (List.prefix_append _ _)
      | block b => simp [Put.head?] at hhead
    · -- a later head: past the first put's octets
      have hrest : ∀ q ∈ ps, q.Encodes opts := fun q hq => hps q (List.mem_cons_of_mem p hq)
      obtain ⟨hle, hpre⟩ := ih hrest _ hc htail
      have hsplit : hc.1 - pos = (p.bytes opts).length + (hc.1 - (pos + (p.bytes opts).length)) := by
        omega
      refine ⟨by omega, ?_⟩
      rw [render_cons, hsplit, List.drop_append, List.drop_eq_nil_of_le (Nat.le_add_right _ _),
        List.nil_append, Nat.add_sub_cancel_left]
      exact hpre

/-- Whether each cluster head, given with where it starts, records the distance in octets from the
start of the head before it, as a 64-bit count; `prev` is where the head before the first
starts, if there is one, and a head with none before it records zero. -/
def RecordsPrevSize : Option Nat → List (Nat × Cluster) → Prop
  | _, [] => True
  | prev, hc :: hs =>
    hc.2.prevSize = ((prev.map (hc.1 - ·)).getD 0).toUInt64 ∧ RecordsPrevSize (some hc.1) hs

/-- One head more, after the others: it records the distance from the last of them. -/
theorem recordsPrevSize_append_single (prev : Option Nat) (hs : List (Nat × Cluster)) (pos : Nat)
    (c : Cluster) :
    RecordsPrevSize prev (hs ++ [(pos, c)]) ↔ RecordsPrevSize prev hs ∧
      c.prevSize = ((((hs.getLast?).map (·.1)).or prev).map (pos - ·) |>.getD 0).toUInt64 := by
  induction hs generalizing prev with
  | nil => simp [RecordsPrevSize]
  | cons hc hs ih =>
    simp only [List.cons_append, RecordsPrevSize, ih, and_assoc, List.getLast?_cons]
    cases hs.getLast? <;> rfl

/-- The timestamp of the last frame of a log whose block was written. -/
def lastWritten (log : List (Frame × List Put)) : Option Int :=
  ((log.filter fun e => e.2.any Put.isBlock).getLast?).map fun e => e.1.timestamp

theorem lastWritten_append_single (log : List (Frame × List Put)) (f : Frame) (ps : List Put) :
    lastWritten (log ++ [(f, ps)]) = if ps.any Put.isBlock then some f.timestamp else lastWritten log := by
  unfold lastWritten
  rw [List.filter_append]
  cases hb : ps.any Put.isBlock
  · simp [hb]
  · simp [hb]

/-- The documents of a frame written in a cluster: the head of the cluster it started, if it started
one, then its block, unless it was dropped. -/
def FramePuts (f : Frame) (ps : List Put) : Prop :=
  ∃ (hd : Option Cluster) (t : Option Int16),
    ps = (hd.map Put.head).toList ++ (t.map fun t => Put.block (frameBlock f t)).toList

/-- The bookkeeping of a cluster writer that started at position `h` on a sink holding `base`,
after the frames of `log`, each beside the documents its write put. The writer has written the
documents and counted their octets; each cluster head records the distance from the one before
it, and the writer knows where the last one starts; the origin is the first frame's timestamp, and
no cluster is anchored before it; each cluster a frame opened is timed by that frame's distance
from the origin, capped to the signed range; and the last timestamp is the last frame written. -/
structure Books (h : Nat) (base : Bytes) (opts : MarshalOptions) (log : List (Frame × List Put))
    (w : ClusterWriter) : Prop where
  options : w.options = opts
  shape : ∀ e ∈ log, FramePuts e.1 e.2
  encodes : ∀ p ∈ log.flatMap Prod.snd, p.Encodes opts
  written : w.sink.written = base ++ render opts (log.flatMap Prod.snd)
  position : w.position = h + (render opts (log.flatMap Prod.snd)).length
  prevSizes : RecordsPrevSize none (headsFrom opts 0 (log.flatMap Prod.snd))
  clusterStart :
    w.clusterStart = ((headsFrom opts 0 (log.flatMap Prod.snd)).getLast?).map fun hc => h + hc.1
  origin : w.origin = log.head?.map fun e => e.1.timestamp
  anchor_none : w.origin = none → w.anchor = none
  anchor : ∀ o ∈ w.origin, ∃ a, w.anchor = some a ∧ o ≤ a
  timecodes : ∀ e ∈ log, ∀ c, Put.head c ∈ e.2 →
    ∃ o ∈ w.origin, o ≤ e.1.timestamp ∧
      c.timecode.toNat = (min (e.1.timestamp - o) maxTimestamp).toNat
  lastTimestamp : w.lastTimestamp = lastWritten log


namespace ClusterWriter

/-- The documents of a frame write are those of a frame written in a cluster. -/
theorem framePuts_putsFor (w : ClusterWriter) (f : Frame) : FramePuts f (w.putsFor f) :=
  ⟨if w.opensFor f then some (w.headAt (w.openingTimecode f)) else none,
    if w.dropsFor f then none else some (Int16.ofInt (saturatingSub f.timestamp (w.anchorFor f))), by
      unfold putsFor
      cases w.opensFor f <;> cases w.dropsFor f <;> rfl⟩

/-- The head a frame write puts, if any, starts where the frame's documents start. -/
theorem headsFrom_putsFor (opts : MarshalOptions) (pos : Nat) (w : ClusterWriter) (f : Frame) :
    headsFrom opts pos (w.putsFor f) =
      if w.opensFor f then [(pos, w.headAt (w.openingTimecode f))] else [] := by
  unfold putsFor
  cases w.opensFor f <;> cases w.dropsFor f <;> rfl

/-- The only head a frame write puts is the one of the cluster it opens. -/
theorem mem_putsFor_head {w : ClusterWriter} {f : Frame} {c : Cluster} (h : Put.head c ∈ w.putsFor f) :
    w.opensFor f = true ∧ c = w.headAt (w.openingTimecode f) := by
  unfold putsFor at h
  cases hopens : w.opensFor f <;> cases w.dropsFor f <;> simp_all

/-- A frame write puts a block exactly when it does not drop the frame. -/
theorem any_isBlock_putsFor (w : ClusterWriter) (f : Frame) :
    (w.putsFor f).any Put.isBlock = !w.dropsFor f := by
  unfold putsFor
  cases w.opensFor f <;> cases w.dropsFor f <;> rfl

/-- The timecode of a cluster head, below `2 ^ 64`, is held exactly. -/
theorem headAt_timecode (w : ClusterWriter) {t : Nat} (ht : t < Nat.pow 2 64) :
    (w.headAt t).timecode.toNat = t :=
  UInt64.toNat_ofNat_of_lt' (by simpa [Nat.pow_eq] using ht)

/-- The timecode of a cluster opened at or past the origin: its distance from the origin, capped
to the signed range. -/
theorem openingTimecode_eq {w : ClusterWriter} {f : Frame}
    (ho : w.origin.getD f.timestamp ≤ f.timestamp) :
    w.openingTimecode f = (min (f.timestamp - w.origin.getD f.timestamp) maxTimestamp).toNat := by
  unfold openingTimecode saturatingSub
  rw [maxTimestamp_eq, minTimestamp_eq] at *
  congr 1
  omega

end ClusterWriter


namespace Books

variable {h : Nat} {base : Bytes} {opts : MarshalOptions}

/-- A writer that has written nothing yet, at position `h`, keeps its books. -/
theorem start (sink : Sink) (main : Option MainTrack) :
    Books h sink.written opts [] { sink, position := h, mainTrack := main, options := opts } where
  options := rfl
  shape := by simp
  encodes := by simp
  written := by simp
  position := by simp
  prevSizes := trivial
  clusterStart := rfl
  origin := rfl
  anchor_none := fun _ => rfl
  anchor := by simp
  timecodes := by simp
  lastTimestamp := rfl

/-- A cluster the writer opens now records the octets written since the last head started, or
zero when it is the first. -/
theorem recordsPrevSize_snoc {log : List (Frame × List Put)} {w : ClusterWriter}
    (hb : Books h base opts log w) (t : Nat) :
    RecordsPrevSize none (headsFrom opts 0 (log.flatMap Prod.snd) ++
      [((render opts (log.flatMap Prod.snd)).length, w.headAt t)]) := by
  refine (recordsPrevSize_append_single _ _ _ _).mpr ⟨hb.prevSizes, ?_⟩
  simp only [ClusterWriter.headAt, ClusterWriter.prevSize, hb.clusterStart, hb.position,
    Option.or_none, Option.map_map]
  cases (headsFrom opts 0 (log.flatMap Prod.snd)).getLast? with
  | none => rfl
  | some hc => simp [Nat.add_sub_add_left]

/-- A frame write that succeeds keeps the books, the frame and its documents logged. -/
theorem step {log : List (Frame × List Put)} {v v' : ClusterWriter} {f : Frame}
    (hm : ∀ m ∈ v.mainTrack, m.Capped) (hb : Books h base opts log v) (hw : v.Wrote f v') :
    Books h base opts (log ++ [(f, v.putsFor f)]) v' := by
  have hT : (log ++ [(f, v.putsFor f)]).flatMap Prod.snd = log.flatMap Prod.snd ++ v.putsFor f := by
    simp
  have hopts : v.options = opts := hb.options
  -- the origin, once set, lies at or before the anchor the frame is placed against
  have horigin : v.origin.getD f.timestamp ≤ v.anchorFor f := by
    cases hor : v.origin with
    | none =>
      have hopens : v.opensFor f = true := by simp [ClusterWriter.opensFor, hb.anchor_none hor]
      exact Int.le_of_eq (ClusterWriter.anchorFor_of_opens hopens).symm
    | some o =>
      obtain ⟨a, ha, hoa⟩ := hb.anchor o hor
      exact Int.le_trans hoa (ClusterWriter.le_anchorFor hm ha)
  constructor
  · rw [hw.options, hopts]
  · intro e he
    rcases List.mem_append.mp he with he | he
    · exact hb.shape e he
    · rw [List.mem_singleton] at he
      subst he
      exact ClusterWriter.framePuts_putsFor v f
  · intro p hp
    rw [hT] at hp
    rcases List.mem_append.mp hp with hp | hp
    · exact hb.encodes p hp
    · rw [← hopts]
      exact hw.encodes p hp
  · rw [hw.written, hb.written, hT, hopts, render_append, List.append_assoc]
  · rw [hw.position, hb.position, hT, hopts, render_append, List.length_append, Nat.add_assoc]
  · rw [hT, headsFrom_append, ClusterWriter.headsFrom_putsFor]
    cases hopens : v.opensFor f with
    | false => simpa using hb.prevSizes
    | true => simpa using hb.recordsPrevSize_snoc (v.openingTimecode f)
  · rw [hw.clusterStart, hT, headsFrom_append, ClusterWriter.headsFrom_putsFor]
    cases hopens : v.opensFor f with
    | false => simpa using hb.clusterStart
    | true => simp [hb.position]
  · rw [hw.origin, hb.origin]
    cases log with
    | nil => rfl
    | cons e log => rfl
  · rw [hw.origin]
    intro hnone
    cases hnone
  · intro o ho
    rw [hw.origin, Option.mem_def, Option.some.injEq] at ho
    subst ho
    exact ⟨_, hw.anchor, horigin⟩
  · intro e he c hc
    rcases List.mem_append.mp he with he | he
    · obtain ⟨o, ho, hle, htc⟩ := hb.timecodes e he c hc
      rw [Option.mem_def] at ho
      refine ⟨o, ?_, hle, htc⟩
      rw [hw.origin, ho, Option.getD_some]
      rfl
    · rw [List.mem_singleton] at he
      subst he
      obtain ⟨hopens, rfl⟩ := ClusterWriter.mem_putsFor_head hc
      have hle : v.origin.getD f.timestamp ≤ f.timestamp := by
        simpa [ClusterWriter.anchorFor_of_opens hopens] using horigin
      refine ⟨_, hw.origin, hle, ?_⟩
      rw [ClusterWriter.openingTimecode_eq hle]
      apply ClusterWriter.headAt_timecode
      rw [maxTimestamp_eq]
      simp only [Nat.pow_eq]
      omega
  · rw [hw.lastTimestamp, lastWritten_append_single, ClusterWriter.any_isBlock_putsFor,
      hb.lastTimestamp]
    cases v.dropsFor f <;> rfl

/-- Closing the stream, when the sink takes it, puts the trailer: a head that records the
octets from the last head, timed by the last frame written, from the origin, clamped to the
signed range, or zero when no frame was written. -/
theorem finish_ok {log : List (Frame × List Put)} {w w' : ClusterWriter}
    (hb : Books h base opts log w) (hf : w.finish = (w', none)) :
    ∃ c : Cluster,
      w'.sink.written = base ++ render opts (log.flatMap Prod.snd ++ [.head c]) ∧
      w'.position = h + (render opts (log.flatMap Prod.snd ++ [.head c])).length ∧
      RecordsPrevSize none (headsFrom opts 0 (log.flatMap Prod.snd ++ [.head c])) ∧
      (∀ hc ∈ headsFrom opts 0 (log.flatMap Prod.snd ++ [.head c]),
        Element.cluster.idBytes <+: (render opts (log.flatMap Prod.snd ++ [.head c])).drop hc.1) ∧
      (lastWritten log = none → c.timecode = 0) ∧
      ∀ l e, lastWritten log = some l → log.head? = some e →
        c.timecode.toNat = (max 0 (min (l - e.1.timestamp) maxTimestamp)).toNat := by
  rw [ClusterWriter.finish_eq] at hf
  obtain ⟨htrailer, sink, hsink, rfl⟩ := ClusterWriter.openCluster_ok hf
  refine ⟨w.headAt w.trailerTimecode, ?_, ?_, ?_, ?_, ?_, ?_⟩
  · rw [hsink, hb.written, hb.options, render_append, render_cons, render_nil, List.append_nil,
      List.append_assoc]
  · rw [hb.position, hb.options, render_append, render_cons, render_nil, List.append_nil,
      List.length_append, Nat.add_assoc]
  · rw [headsFrom_append]
    simpa [headsFrom, Put.head?] using hb.recordsPrevSize_snoc w.trailerTimecode
  · -- every put of the stream encodes, the trailer as the sink took it
    have hall : ∀ p ∈ log.flatMap Prod.snd ++ [.head (w.headAt w.trailerTimecode)], p.Encodes opts := by
      intro p hp
      rcases List.mem_append.mp hp with hp | hp
      · exact hb.encodes p hp
      · rw [List.mem_singleton.mp hp, ← hb.options]
        exact htrailer
    intro hc hmem
    simpa using (idBytes_at_headsFrom hall 0 hc hmem).2
  · intro hnone
    simp [ClusterWriter.headAt, ClusterWriter.trailerTimecode, hb.lastTimestamp, hnone]
  · intro l e hl he
    have hclamp : (max 0 (saturatingSub l e.1.timestamp)) = max 0 (min (l - e.1.timestamp) maxTimestamp) := by
      unfold saturatingSub
      rw [minTimestamp_eq, maxTimestamp_eq]
      omega
    have htrailer : w.trailerTimecode = (max 0 (min (l - e.1.timestamp) maxTimestamp)).toNat := by
      simp [ClusterWriter.trailerTimecode, hb.lastTimestamp, hb.origin, hl, he, hclamp]
    rw [htrailer]
    apply ClusterWriter.headAt_timecode
    rw [maxTimestamp_eq]
    simp only [Nat.pow_eq]
    omega

end Books

/-- Every run that succeeds, from a writer that has written nothing yet, keeps the books, with
the frames of the run logged in order. -/
theorem Books.deliverAll (sink : Sink) (h : Nat) {main : Option MainTrack}
    (hm : ∀ m ∈ main, m.Capped) (opts : MarshalOptions) {fs : List Frame}
    (hrun : (({ writer := { sink, position := h, mainTrack := main, options := opts } } :
      Pipeline).deliverAll fs).failed = none) :
    ∃ log, log.map Prod.fst = fs ∧ Books h sink.written opts log
      (({ writer := { sink, position := h, mainTrack := main, options := opts } } :
        Pipeline).deliverAll fs).writer := by
  refine Pipeline.deliverAll_induction
    (P := fun gs v => v.mainTrack = main ∧ ∃ log, log.map Prod.fst = gs ∧ Books h sink.written opts log v)
    ⟨rfl, [], rfl, Books.start sink main⟩ ?_ hrun |>.2
  rintro gs f v v' - ⟨hmt, log, hlog, hb⟩ hw
  refine ⟨hw.mainTrack.trans hmt, log ++ [(f, v.putsFor f)], by simp [hlog], ?_⟩
  exact hb.step (hmt ▸ hm) hw

/-- A zero previous size is left out of a cluster head: the first cluster carries none. -/
theorem prevSize_zero_left_out (opts : MarshalOptions) (depth : Nat) (o : Output) :
    Marshal.field opts depth (omitting .prevSize) (Slot.uint 0).view o = (o, none) := by
  unfold Marshal.field
  rfl

/-- Cluster bookkeeping, for a cluster writer created at position `h` (the length of the header
before it) with or without a main track set by the options, after any frames written without
error: the log pairs each frame, in order, with the documents its write put, a cluster head if
it started one and its block unless it was dropped. The writer keeps its books (`Books`): the
sink holds what it held and the logged documents, the position is `h` plus their octets, each
cluster head records the distance in octets from the start of the head before it, the first
recording zero, which is left out, each head starting with the cluster's identifier, and each cluster a frame started is timed by that frame's
distance from the origin, capped to the signed range, the frame lying at or after the origin.
Closing the stream, when the sink takes it, appends the trailer, which records the distance from
the last head, so that every head after the first records the octets from the identifier of the
one before it to its own, and is timed by the last frame written, from the origin, clamped to the signed
range, or zero when no frame was written. -/
theorem cluster_bookkeeping (sink : Sink) (h : Nat) (main : Option MainTrack)
    (hmain : ∀ m ∈ main, ∃ n i, m = MainTrack.new n i) (opts : MarshalOptions) (fs : List Frame)
    (hrun : (({ writer := { sink, position := h, mainTrack := main, options := opts } } :
      Pipeline).deliverAll fs).failed = none) :
    ∃ log, log.map Prod.fst = fs ∧
      Books h sink.written opts log
        (({ writer := { sink, position := h, mainTrack := main, options := opts } } :
          Pipeline).deliverAll fs).writer ∧
      (∀ w', (({ writer := { sink, position := h, mainTrack := main, options := opts } } :
          Pipeline).deliverAll fs).writer.finish = (w', none) →
        ∃ c : Cluster,
          w'.sink.written = sink.written ++ render opts (log.flatMap Prod.snd ++ [.head c]) ∧
          w'.position = h + (render opts (log.flatMap Prod.snd ++ [.head c])).length ∧
          RecordsPrevSize none (headsFrom opts 0 (log.flatMap Prod.snd ++ [.head c])) ∧
          (∀ hc ∈ headsFrom opts 0 (log.flatMap Prod.snd ++ [.head c]),
            Element.cluster.idBytes <+: (render opts (log.flatMap Prod.snd ++ [.head c])).drop hc.1) ∧
          (lastWritten log = none → c.timecode = 0) ∧
          ∀ l e, lastWritten log = some l → log.head? = some e →
            c.timecode.toNat = (max 0 (min (l - e.1.timestamp) maxTimestamp)).toNat) ∧
      ∀ depth o, Marshal.field opts depth (omitting .prevSize) (Slot.uint 0).view o = (o, none) := by
  have hm := MainTrack.capped_of_new hmain
  obtain ⟨log, hlog, hb⟩ := Books.deliverAll sink h hm opts hrun
  exact ⟨log, hlog, hb, fun _ hf => hb.finish_ok hf, prevSize_zero_left_out opts⟩

/-- Frames at the two ends of the signed range: the second starts a cluster timed `2 ^ 63 - 1`
from the first. -/
def extremeRun : List Frame :=
  [{ track := 1, timestamp := minTimestamp, data := [0] },
   { track := 1, timestamp := maxTimestamp, data := [1] }]

/-- The books of a writer with no main track, at the start of an empty sink, after the extreme
run. -/
theorem extreme_run_books :
    (∀ m ∈ (none : Option MainTrack), ∃ n i, m = MainTrack.new n i) ∧
    (({ writer := { sink := {}, position := 0 } } : Pipeline).deliverAll extremeRun).failed = none ∧
    ∃ log, log.map Prod.fst = extremeRun ∧
      Books 0 [] {} log (({ writer := { sink := {}, position := 0 } } : Pipeline).deliverAll
        extremeRun).writer ∧
      (∀ w', (({ writer := { sink := {}, position := 0 } } : Pipeline).deliverAll
          extremeRun).writer.finish = (w', none) →
        ∃ c : Cluster,
          w'.sink.written = [] ++ render {} (log.flatMap Prod.snd ++ [.head c]) ∧
          w'.position = 0 + (render {} (log.flatMap Prod.snd ++ [.head c])).length ∧
          RecordsPrevSize none (headsFrom {} 0 (log.flatMap Prod.snd ++ [.head c])) ∧
          (∀ hc ∈ headsFrom {} 0 (log.flatMap Prod.snd ++ [.head c]),
            Element.cluster.idBytes <+: (render {} (log.flatMap Prod.snd ++ [.head c])).drop hc.1) ∧
          (lastWritten log = none → c.timecode = 0) ∧
          ∀ l e, lastWritten log = some l → log.head? = some e →
            c.timecode.toNat = (max 0 (min (l - e.1.timestamp) maxTimestamp)).toNat) ∧
      ∀ depth o, Marshal.field {} depth (omitting .prevSize) (Slot.uint 0).view o = (o, none) := by
  have hmain : ∀ m ∈ (none : Option MainTrack), ∃ n i, m = MainTrack.new n i := by
    intro m hm
    cases hm
  have hrun : (({ writer := { sink := {}, position := 0 } } : Pipeline).deliverAll
      extremeRun).failed = none := by decide +kernel
  exact ⟨hmain, hrun, cluster_bookkeeping {} 0 none hmain {} extremeRun hrun⟩

end Matroska

end Ebml
