import Ebml.Decoder
import Ebml.Matroska.Document

/-!
# Reading block streams

A block stream is read in two stages: the stream header up to its track list, then the clusters,
whose blocks deliver their frames track by track. A frame's timestamp is its cluster's timecode
plus its block's, which must fit a signed 64-bit number; a block group delivers its block when it
ends, as a keyframe when its reference priority is not zero. A closed track is dropped from the
list of its kind of block, and the stream closes once such a list is empty.
-/

namespace Ebml

namespace Matroska

/-- The tag of the track list in a stream header: reading stops after it. -/
def trackListTag : Tag := { element := .tracks, stop := true }

/-- What a stream header is read into: the EBML header, and the seek index, information and
track list of the segment. -/
def streamHeaderSlot : Slot :=
  .record [(.plain .ebml, EbmlHeader.toSlot {}),
    (.plain .segment, .record [(.plain .seekHead, .option (SeekHead.toSlot {}) none),
      (.plain .info, Info.toSlot {}), (trackListTag, Tracks.toSlot {})])]

/-- The tracks a stream header lists. -/
def headerTracks (s : Slot) : List TrackEntry :=
  match s.fieldSlots with
  | [_, segment] =>
    match segment.fieldSlots with
    | [_, _, tracks] => (Tracks.ofSlot tracks).entries
    | _ => []
  | _ => []

/-- Delivers the frames of blocks to the open tracks. -/
structure Emitter where
  /-- The tracks still open as far as this emitter knows: each one's number and its place in
  the track list. -/
  tracks : List (UInt64 × Nat)
  clusterTimecode : UInt64 := 0
  deriving DecidableEq, Inhabited

/-- The fields of a block group being read. -/
structure GroupState where
  emitter : Emitter
  block : Option Block := none
  blockDuration : UInt64 := 0
  referencePriority : UInt64 := 0
  referenceBlocks : List Int64 := []
  deriving DecidableEq, Inhabited

/-- Where the reading of clusters is: between clusters, in a cluster, or in a block group. -/
inductive FeedLevel where
  | stream
  | cluster
  | group
  deriving DecidableEq, Inhabited

/-- The state of the reading of clusters, and the frames delivered so far in order. -/
structure Feed where
  level : FeedLevel := .stream
  emitter : Emitter
  group : GroupState
  prevSize : UInt64 := 0
  position : UInt64 := 0
  closed : List Nat := []
  delivered : List (Nat × Frame) := []
  deriving Inhabited

namespace Feed

/-- The feed of a stream with tracks of the given numbers, of which the ones at the places
`closed` are closed. -/
def new (numbers : List UInt64) (closed : List Nat) : Feed :=
  let tracks := numbers.zipIdx
  { emitter := { tracks }, group := { emitter := { tracks } }, closed }

/-- The timestamp of a block in a cluster, if it fits a signed 64-bit number. -/
def timestamp (clusterTimecode : UInt64) (blockTimecode : Int16) : Option Int :=
  let t := (clusterTimecode.toNat : Int) + blockTimecode.toInt
  if clusterTimecode.toNat ≤ maxTimestamp.toNat ∧ t ≤ maxTimestamp then some t else none

/-- Sends the frames of a block to the first listed track of its number: a block of a track
that is not listed is skipped; the frames of a listed track are delivered, unless the track
turns out to be closed, which removes it from the list. -/
def emit (f : Feed) (em : Emitter) (b : Block) (keyframe : Bool) :
    Feed × Emitter × Option Error :=
  match em.tracks.find? (·.1 == b.track) with
  | none => (f, em, if em.tracks.isEmpty then some .pipelineClosed else none)
  | some (n, i) =>
    match timestamp em.clusterTimecode b.timecode with
    | none => (f, em, some .timestampOutOfRange)
    | some t =>
      let (f, em) :=
        if b.frames.isEmpty then (f, em)
        else if i ∈ f.closed then (f, { em with tracks := em.tracks.erase (n, i) })
        else
          let frames := b.frames.map fun d => (i, { track := b.track, keyframe, timestamp := t, data := d })
          ({ f with delivered := f.delivered ++ frames }, em)
      (f, em, if em.tracks.isEmpty then some .pipelineClosed else none)

/-- Delivers a simple block through the cluster's emitter. -/
def emitSimple (f : Feed) (b : Block) : Feed × Option Error :=
  let (f, em, err) := f.emit f.emitter b b.keyframe
  ({ f with emitter := em }, err)

/-- Ends a block group: delivers its block, if it had one, through the group's emitter. -/
def endGroup (f : Feed) : Feed × Option Error :=
  let g := f.group
  let keyframe := g.referencePriority != 0
  let cleared : GroupState :=
    { g with block := none, blockDuration := 0, referencePriority := 0, referenceBlocks := [] }
  let f := { f with group := cleared }
  match g.block with
  | none => (f, none)
  | some b =>
    let (f, em, err) := f.emit f.group.emitter b keyframe
    ({ f with group := { f.group with emitter := em } }, err)

/-- Stores a value in a field of the feed, reporting conversion errors. -/
def store {α : Type} (f : Feed) (r : Except Error α) (put : Feed → α → Feed) : Feed × Option Error :=
  match r with
  | .ok a => (put f a, none)
  | .error err => (f, some err)

/-- The feed as a decoding target. Between clusters it takes clusters; in a cluster its
timecode, previous size, position, simple blocks and block groups; in a block group its
block, duration, reference priority and references. -/
def target : Target Feed where
  select f e :=
    match f.level, e with
    | .stream, .cluster => some (.plain e, f)
    | .cluster, .timecode | .cluster, .prevSize | .cluster, .position
    | .cluster, .simpleBlock => some (.plain e, f)
    | .cluster, .blockGroup =>
      let em := { f.group.emitter with clusterTimecode := f.emitter.clusterTimecode }
      some (.plain e, { f with group := { f.group with emitter := em } })
    | .group, .block | .group, .blockDuration | .group, .referencePriority
    | .group, .referenceBlock => some (.plain e, f)
    | _, _ => none
  assign f e v :=
    match f.level, e with
    | .cluster, .timecode =>
      f.store v.toUnsigned fun f t => { f with emitter := { f.emitter with clusterTimecode := t } }
    | .cluster, .prevSize => f.store v.toUnsigned fun f n => { f with prevSize := n }
    | .cluster, .position => f.store v.toUnsigned fun f n => { f with position := n }
    | .cluster, .simpleBlock =>
      match v.toBlock with
      | .ok b => f.emitSimple b
      | .error err => (f, some err)
    | .group, .block => f.store v.toBlock fun f b => { f with group := { f.group with block := some b } }
    | .group, .blockDuration =>
      f.store v.toUnsigned fun f n => { f with group := { f.group with blockDuration := n } }
    | .group, .referencePriority =>
      f.store v.toUnsigned fun f n => { f with group := { f.group with referencePriority := n } }
    | .group, .referenceBlock =>
      f.store v.toSigned fun f n =>
        { f with group := { f.group with referenceBlocks := f.group.referenceBlocks ++ [n] } }
    | _, _ => (f, some (.incompatibleType v.kind))
  enter f e :=
    match f.level, e with
    | .stream, .cluster => (f, some { f with level := .cluster })
    | .cluster, .blockGroup => (f, some { f with level := .group })
    | _, _ => (f, none)
  close parent _ child := { child with level := parent.level }
  finish f :=
    match f.level with
    | .cluster => ({ f with emitter := { f.emitter with clusterTimecode := 0 } }, none)
    | .group => f.endGroup
    | .stream => (f, none)

end Feed

/-- What reading a block stream gives: the tracks of its header, the frames delivered with the
place of the track they went to, and the error that stopped the reading, if any. Closing the
stream once every track is closed is no error. -/
structure ReadResult where
  tracks : List TrackEntry
  frames : List (Nat × Frame)
  fatal : Option Error
  deriving Inhabited

/-- Reads the header of a block stream: its tracks, and the decoder positioned after the
track list. -/
def readHeader (opts : DecodeOptions) (d : Decoder) : Except Error (List TrackEntry) × Decoder :=
  let ((header, r), d) := (Decoder.unmarshal opts Slot.target streamHeaderSlot).run d
  match r with
  | .error err => (.error err, d)
  | .ok .finished => (.error (.invalidTrack .noTrackList), d)
  | .ok .stopped => (.ok (headerTracks header), d)

/-- Reads a block stream: its header, then its clusters, delivering the frames of every track
except the tracks at the places `closed` of the track list. -/
def readStream (opts : DecodeOptions) (source : Source) (closed : List Nat) :
    Except Error ReadResult :=
  match readHeader opts (Decoder.ofSource source) with
  | (.error err, _) => .error err
  | (.ok tracks, d) =>
    let numbers := tracks.map (·.trackNumber)
    let ((feed, r), _) := (Decoder.unmarshal opts Feed.target (Feed.new numbers closed)).run d
    let fatal := match r with
      | .error err => if err.any (· == .pipelineClosed) then none else some err
      | .ok _ => none
    .ok { tracks, frames := feed.delivered, fatal }

end Matroska

end Ebml
