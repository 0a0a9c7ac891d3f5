import Ebml.Marshal
import Ebml.Matroska.Document

/-!
# Placing frames into clusters

The writer of a block stream places frames as simple blocks into clusters, each cluster of
unknown size, and an empty cluster ends the stream. Cluster timecodes count from the first
frame's timestamp (the origin), and a block's timecode is its frame's distance from the first
frame of its cluster (the anchor), which must fit in sixteen bits. A frame starts a new cluster
when it is `0x7FFF` or more past the anchor, or, for a keyframe of the main track, when the
cluster spans the main track's keyframe interval. A frame `0x7FFF` or more before the anchor is
dropped and reported. Each cluster records the size of the one before it.
-/

namespace Ebml

namespace Matroska

/-- The track whose keyframes start clusters once a cluster spans `maxKeyframeInterval`. -/
structure MainTrack where
  number : UInt64
  maxKeyframeInterval : Int
  deriving DecidableEq, Inhabited

/-- A main track, its interval capped to the signed 64-bit range. -/
def MainTrack.new (number interval : UInt64) : MainTrack :=
  ⟨number, min interval.toNat maxTimestamp⟩

/-- The farthest a block may be from the start of its cluster. -/
def maxTimecodeDelta : Int := 0x7FFF

/-- The state of the cluster writer: the sink and the number of octets written, the origin,
the anchor of the current cluster, the last timestamp written, where the current cluster
starts, and the errors reported for dropped frames. -/
structure ClusterWriter where
  sink : Sink
  position : Nat
  mainTrack : Option MainTrack := none
  options : MarshalOptions := {}
  origin : Option Int := none
  anchor : Option Int := none
  lastTimestamp : Option Int := none
  clusterStart : Option Nat := none
  reports : List Error := []
  deriving Inhabited

namespace ClusterWriter

/-- Whether a frame needs a new cluster, given the anchor of the current one. -/
def needsCluster (w : ClusterWriter) (f : Frame) (anchor : Int) : Bool :=
  let delta := saturatingSub f.timestamp anchor
  decide (delta ≥ maxTimecodeDelta) ||
    w.mainTrack.any fun m => f.keyframe && f.track == m.number && decide (delta ≥ m.maxKeyframeInterval)

/-- Writes a document to the sink, counting the octets written. -/
def put (w : ClusterWriter) (doc : List (Tag × View)) : ClusterWriter × Option Error :=
  match w.sink.marshal w.options doc with
  | (sink, .ok (n, _)) => ({ w with sink, position := w.position + n }, none)
  | (sink, .error err) => ({ w with sink }, some err)

/-- Starts a cluster of unknown size at a timecode, with the size of the previous cluster. -/
def openCluster (w : ClusterWriter) (timecode : Nat) : ClusterWriter × Option Error :=
  let prevSize := match w.clusterStart with
    | some start => w.position - start
    | none => 0
  let cluster : Cluster := { timecode := timecode.toUInt64, prevSize := prevSize.toUInt64 }
  let w := { w with clusterStart := some w.position }
  w.put [({ element := .cluster, size := .unknown }, cluster.toSlot.view)]

/-- Writes a frame as a simple block, starting a cluster first if needed. -/
def writeFrame (w : ClusterWriter) (f : Frame) : ClusterWriter × Option Error :=
  let origin := w.origin.getD f.timestamp
  let w := { w with origin := some origin }
  let opened : ClusterWriter × Except Error Int :=
    match w.anchor with
    | some a => if w.needsCluster f a then
        match w.openCluster (max 0 (saturatingSub f.timestamp origin)).toNat with
        | (w, some err) => (w, .error err)
        | (w, none) => ({ w with anchor := some f.timestamp }, .ok f.timestamp)
      else (w, .ok a)
    | none =>
      match w.openCluster (max 0 (saturatingSub f.timestamp origin)).toNat with
      | (w, some err) => (w, .error err)
      | (w, none) => ({ w with anchor := some f.timestamp }, .ok f.timestamp)
  match opened with
  | (w, .error err) => (w, some err)
  | (w, .ok anchor) =>
    let delta := saturatingSub f.timestamp anchor
    if delta ≤ -maxTimecodeDelta then ({ w with reports := w.reports ++ [.ignoreOldFrame] }, none)
    else
      let block : Block :=
        { track := f.track, timecode := Int16.ofInt delta, keyframe := f.keyframe, frames := [f.data] }
      match w.put [(.plain .simpleBlock, (Slot.block block).view)] with
      | (w, some err) => (w, some err)
      | (w, none) => ({ w with lastTimestamp := some f.timestamp }, none)

/-- Ends the stream with an empty cluster at the last timestamp written. -/
def finish (w : ClusterWriter) : ClusterWriter × Option Error :=
  let timecode := match w.origin, w.lastTimestamp with
    | some origin, some last => max 0 (saturatingSub last origin)
    | _, _ => 0
  w.openCluster timecode.toNat

end ClusterWriter

/-! ## A writer that stops -/

/-- A cluster writer that stops at its first error, and that error, if any. -/
structure Pipeline where
  writer : ClusterWriter
  failed : Option Error := none
  deriving Inhabited

namespace Pipeline

/-- Writes a frame, unless the writer has stopped. -/
def deliver (p : Pipeline) (f : Frame) : Pipeline :=
  match p.failed with
  | some _ => p
  | none =>
    let (w, err) := p.writer.writeFrame f
    { writer := w, failed := err }

end Pipeline

end Matroska

end Ebml
