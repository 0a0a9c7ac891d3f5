import Ebml.Slot

/-!
# Matroska documents

The parts of a Matroska or WebM document that a block stream needs: the EBML header, the segment
information, the seek index, the track list, the clusters of blocks, and the frames they carry.
Each structure lists its tagged fields in written order as a record slot (`toSlot`), which reads
back into the structure (`ofSlot`); optional fields are not written while `none`, and fields
tagged `omitempty` not while zero.
-/

namespace Ebml

namespace Slot

/-- The unsigned number a slot holds, zero for any other slot. -/
def toUInt64 : Slot → UInt64
  | uint v => v
  | _ => 0

/-- The signed number a slot holds. -/
def toInt64 : Slot → Int64
  | int v => v
  | _ => 0

/-- The flag a slot holds. -/
def toFlag : Slot → Bool
  | flag b => b
  | _ => false

/-- The bits of the double a slot holds. -/
def toFloat64 : Slot → UInt64
  | float64 b => b
  | _ => 0

/-- The text a slot holds. -/
def toText : Slot → String
  | text s => s
  | _ => ""

/-- The octets a slot holds. -/
def toBinary : Slot → Bytes
  | binary d => d
  | _ => []

/-- The block a slot holds. -/
def toBlock : Slot → Block
  | block b => b
  | _ => {}

/-- The fields of a record slot. -/
def fieldSlots : Slot → List Slot
  | record fs => fs.map (·.2)
  | _ => []

/-- The items of a list slot. -/
def items : Slot → List Slot
  | list _ items => items
  | _ => []

/-- The item of an optional slot. -/
def item? : Slot → Option Slot
  | option _ item => item
  | _ => none

end Slot

namespace Matroska

/-- A tag with `omitempty`. -/
def omitting (e : Element) : Tag := { element := e, omitEmpty := true }

/-- The EBML header of a stream. -/
structure EbmlHeader where
  ebmlVersion : UInt64 := 0
  ebmlReadVersion : UInt64 := 0
  ebmlMaxIdLength : UInt64 := 0
  ebmlMaxSizeLength : UInt64 := 0
  docType : String := ""
  docTypeVersion : UInt64 := 0
  docTypeReadVersion : UInt64 := 0
  deriving DecidableEq, Inhabited

namespace EbmlHeader

/-- The header of a WebM stream. -/
def webm : EbmlHeader :=
  { ebmlVersion := 1, ebmlReadVersion := 1, ebmlMaxIdLength := 4, ebmlMaxSizeLength := 8,
    docType := "webm", docTypeVersion := 2, docTypeReadVersion := 2 }

/-- The header of a Matroska stream. -/
def matroska : EbmlHeader := { webm with docType := "matroska", docTypeVersion := 4 }

/-- The header as a record. -/
def toSlot (h : EbmlHeader) : Slot :=
  .record [(.plain .ebmlVersion, .uint h.ebmlVersion),
    (.plain .ebmlReadVersion, .uint h.ebmlReadVersion),
    (.plain .ebmlMaxIdLength, .uint h.ebmlMaxIdLength),
    (.plain .ebmlMaxSizeLength, .uint h.ebmlMaxSizeLength),
    (.plain .docType, .text h.docType),
    (.plain .docTypeVersion, .uint h.docTypeVersion),
    (.plain .docTypeReadVersion, .uint h.docTypeReadVersion)]

/-- The header a record holds. -/
def ofSlot (s : Slot) : EbmlHeader :=
  match s.fieldSlots with
  | [a, b, c, d, e, f, g] =>
    { ebmlVersion := a.toUInt64, ebmlReadVersion := b.toUInt64, ebmlMaxIdLength := c.toUInt64,
      ebmlMaxSizeLength := d.toUInt64, docType := e.toText, docTypeVersion := f.toUInt64,
      docTypeReadVersion := g.toUInt64 }
  | _ => {}

end EbmlHeader

/-- The default timecode scale: timestamps in milliseconds. -/
def defaultTimecodeScale : UInt64 := 1000000

/-- Segment information. The duration is a double, by its bits. -/
structure Info where
  timecodeScale : UInt64 := 0
  muxingApp : String := ""
  writingApp : String := ""
  duration : UInt64 := 0
  title : String := ""
  segmentUid : Bytes := []
  deriving DecidableEq, Inhabited

namespace Info

/-- The information written when no other is given: the default timecode scale, and the
application as both muxing and writing application. -/
def new (app : String) : Info :=
  { timecodeScale := defaultTimecodeScale, muxingApp := app, writingApp := app }

/-- The information as a record. -/
def toSlot (i : Info) : Slot :=
  .record [(.plain .timecodeScale, .uint i.timecodeScale),
    (.plain .muxingApp, .text i.muxingApp),
    (.plain .writingApp, .text i.writingApp),
    (omitting .duration, .float64 i.duration),
    (omitting .title, .text i.title),
    (omitting .segmentUid, .binary i.segmentUid)]

/-- The information a record holds. -/
def ofSlot (s : Slot) : Info :=
  match s.fieldSlots with
  | [a, b, c, d, e, f] =>
    { timecodeScale := a.toUInt64, muxingApp := b.toText, writingApp := c.toText,
      duration := d.toFloat64, title := e.toText, segmentUid := f.toBinary }
  | _ => {}

end Info

/-- An entry of the seek index: an element's identifier as written, and its position from the
start of the segment's data. -/
structure Seek where
  seekId : Bytes := []
  seekPosition : UInt64 := 0
  deriving DecidableEq, Inhabited

namespace Seek

/-- The entry as a record; the position always takes eight octets. -/
def toSlot (s : Seek) : Slot :=
  .record [(.plain .seekId, .binary s.seekId),
    ({ element := .seekPosition, size := .exact 8 }, .uint s.seekPosition)]

/-- The entry a record holds. -/
def ofSlot (s : Slot) : Seek :=
  match s.fieldSlots with
  | [a, b] => { seekId := a.toBinary, seekPosition := b.toUInt64 }
  | _ => {}

end Seek

/-- The seek index. -/
structure SeekHead where
  seeks : List Seek := []
  deriving DecidableEq, Inhabited

namespace SeekHead

/-- The index as a record. -/
def toSlot (h : SeekHead) : Slot :=
  .record [(.plain .seek, .list (Seek.toSlot {}) (h.seeks.map Seek.toSlot))]

/-- The index a record holds. -/
def ofSlot (s : Slot) : SeekHead :=
  match s.fieldSlots with
  | [a] => { seeks := a.items.map Seek.ofSlot }
  | _ => {}

end SeekHead

/-- The video settings of a track. -/
structure Video where
  flagInterlaced : UInt64 := 0
  pixelWidth : UInt64 := 0
  pixelHeight : UInt64 := 0
  displayWidth : UInt64 := 0
  displayHeight : UInt64 := 0
  deriving DecidableEq, Inhabited

namespace Video

/-- The settings as a record. -/
def toSlot (v : Video) : Slot :=
  .record [(omitting .flagInterlaced, .uint v.flagInterlaced),
    (.plain .pixelWidth, .uint v.pixelWidth),
    (.plain .pixelHeight, .uint v.pixelHeight),
    (omitting .displayWidth, .uint v.displayWidth),
    (omitting .displayHeight, .uint v.displayHeight)]

/-- The settings a record holds. -/
def ofSlot (s : Slot) : Video :=
  match s.fieldSlots with
  | [a, b, c, d, e] =>
    { flagInterlaced := a.toUInt64, pixelWidth := b.toUInt64, pixelHeight := c.toUInt64,
      displayWidth := d.toUInt64, displayHeight := e.toUInt64 }
  | _ => {}

end Video

/-- The audio settings of a track. Frequencies are doubles, by their bits. -/
structure Audio where
  samplingFrequency : UInt64 := 0
  outputSamplingFrequency : UInt64 := 0
  channels : UInt64 := 0
  bitDepth : UInt64 := 0
  deriving DecidableEq, Inhabited

namespace Audio

/-- The settings as a record. -/
def toSlot (a : Audio) : Slot :=
  .record [(.plain .samplingFrequency, .float64 a.samplingFrequency),
    (omitting .outputSamplingFrequency, .float64 a.outputSamplingFrequency),
    (.plain .channels, .uint a.channels),
    (omitting .bitDepth, .uint a.bitDepth)]

/-- The settings a record holds. -/
def ofSlot (s : Slot) : Audio :=
  match s.fieldSlots with
  | [a, b, c, d] =>
    { samplingFrequency := a.toFloat64, outputSamplingFrequency := b.toFloat64,
      channels := c.toUInt64, bitDepth := d.toUInt64 }
  | _ => {}

end Audio

/-- Track types. -/
def videoTrack : UInt64 := 1
def audioTrack : UInt64 := 2
def subtitleTrack : UInt64 := 0x11

/-- A track. -/
structure TrackEntry where
  trackNumber : UInt64 := 0
  trackUid : UInt64 := 0
  trackType : UInt64 := 0
  flagDefault : Option Bool := none
  defaultDuration : UInt64 := 0
  name : String := ""
  language : String := ""
  codecId : String := ""
  codecPrivate : Bytes := []
  codecDelay : UInt64 := 0
  seekPreRoll : UInt64 := 0
  video : Option Video := none
  audio : Option Audio := none
  deriving DecidableEq, Inhabited

namespace TrackEntry

/-- A track with a number, a type and a codec; its unique identifier is its number. -/
def new (number type : UInt64) (codec : String) : TrackEntry :=
  { trackNumber := number, trackUid := number, trackType := type, codecId := codec }

/-- The track as a record. -/
def toSlot (t : TrackEntry) : Slot :=
  .record [(.plain .trackNumber, .uint t.trackNumber),
    (.plain .trackUid, .uint t.trackUid),
    (.plain .trackType, .uint t.trackType),
    (.plain .flagDefault, .option (.flag false) (t.flagDefault.map .flag)),
    (omitting .defaultDuration, .uint t.defaultDuration),
    (omitting .trackName, .text t.name),
    (omitting .language, .text t.language),
    (.plain .codecId, .text t.codecId),
    (omitting .codecPrivate, .binary t.codecPrivate),
    (omitting .codecDelay, .uint t.codecDelay),
    (omitting .seekPreRoll, .uint t.seekPreRoll),
    (.plain .video, .option (Video.toSlot {}) (t.video.map Video.toSlot)),
    (.plain .audio, .option (Audio.toSlot {}) (t.audio.map Audio.toSlot))]

/-- The track a record holds. -/
def ofSlot (s : Slot) : TrackEntry :=
  match s.fieldSlots with
  | [a, b, c, d, e, f, g, h, i, j, k, l, m] =>
    { trackNumber := a.toUInt64, trackUid := b.toUInt64, trackType := c.toUInt64,
      flagDefault := d.item?.map Slot.toFlag, defaultDuration := e.toUInt64, name := f.toText,
      language := g.toText, codecId := h.toText, codecPrivate := i.toBinary,
      codecDelay := j.toUInt64, seekPreRoll := k.toUInt64, video := l.item?.map Video.ofSlot,
      audio := m.item?.map Audio.ofSlot }
  | _ => {}

end TrackEntry

/-- The track list. -/
structure Tracks where
  entries : List TrackEntry := []
  deriving DecidableEq, Inhabited

namespace Tracks

/-- The track list as a record. -/
def toSlot (t : Tracks) : Slot :=
  .record [(.plain .trackEntry, .list (TrackEntry.toSlot {}) (t.entries.map TrackEntry.toSlot))]

/-- The track list a record holds. -/
def ofSlot (s : Slot) : Tracks :=
  match s.fieldSlots with
  | [a] => { entries := a.items.map TrackEntry.ofSlot }
  | _ => {}

end Tracks

/-- A block with its duration, priority and references. -/
structure BlockGroup where
  block : Block := {}
  blockDuration : UInt64 := 0
  referencePriority : UInt64 := 0
  referenceBlocks : List Int64 := []
  deriving DecidableEq, Inhabited

namespace BlockGroup

/-- The group as a record. -/
def toSlot (g : BlockGroup) : Slot :=
  .record [(.plain .block, .block g.block),
    (omitting .blockDuration, .uint g.blockDuration),
    (omitting .referencePriority, .uint g.referencePriority),
    (.plain .referenceBlock, .list (.int 0) (g.referenceBlocks.map .int))]

/-- The group a record holds. -/
def ofSlot (s : Slot) : BlockGroup :=
  match s.fieldSlots with
  | [a, b, c, d] =>
    { block := a.toBlock, blockDuration := b.toUInt64, referencePriority := c.toUInt64,
      referenceBlocks := d.items.map Slot.toInt64 }
  | _ => {}

end BlockGroup

/-- A cluster: blocks sharing a timecode origin. -/
structure Cluster where
  timecode : UInt64 := 0
  prevSize : UInt64 := 0
  simpleBlocks : List Block := []
  blockGroups : List BlockGroup := []
  deriving DecidableEq, Inhabited

namespace Cluster

/-- The cluster as a record. -/
def toSlot (c : Cluster) : Slot :=
  .record [(.plain .timecode, .uint c.timecode),
    (omitting .prevSize, .uint c.prevSize),
    (.plain .simpleBlock, .list (.block {}) (c.simpleBlocks.map .block)),
    (.plain .blockGroup, .list (BlockGroup.toSlot {}) (c.blockGroups.map BlockGroup.toSlot))]

/-- The cluster a record holds. -/
def ofSlot (s : Slot) : Cluster :=
  match s.fieldSlots with
  | [a, b, c, d] =>
    { timecode := a.toUInt64, prevSize := b.toUInt64, simpleBlocks := c.items.map Slot.toBlock,
      blockGroups := d.items.map BlockGroup.ofSlot }
  | _ => {}

end Cluster

/-- A segment: its seek index, information, tracks and clusters. -/
structure Segment where
  seekHead : Option SeekHead := none
  info : Info := {}
  tracks : Tracks := {}
  clusters : List Cluster := []
  deriving DecidableEq, Inhabited

namespace Segment

/-- The segment as a record. -/
def toSlot (s : Segment) : Slot :=
  .record [(.plain .seekHead, .option (SeekHead.toSlot {}) (s.seekHead.map SeekHead.toSlot)),
    (.plain .info, s.info.toSlot),
    (.plain .tracks, s.tracks.toSlot),
    (.plain .cluster, .list (Cluster.toSlot {}) (s.clusters.map Cluster.toSlot))]

/-- The segment a record holds. -/
def ofSlot (s : Slot) : Segment :=
  match s.fieldSlots with
  | [a, b, c, d] =>
    { seekHead := a.item?.map SeekHead.ofSlot, info := Info.ofSlot b,
      tracks := Tracks.ofSlot c, clusters := d.items.map Cluster.ofSlot }
  | _ => {}

end Segment

/-- A whole document: the EBML header and the segment. -/
structure Document where
  header : EbmlHeader := {}
  segment : Segment := {}
  deriving DecidableEq, Inhabited

namespace Document

/-- The document as a record. -/
def toSlot (d : Document) : Slot :=
  .record [(.plain .ebml, d.header.toSlot), (.plain .segment, d.segment.toSlot)]

/-- The document a record holds. -/
def ofSlot (s : Slot) : Document :=
  match s.fieldSlots with
  | [a, b] => { header := EbmlHeader.ofSlot a, segment := Segment.ofSlot b }
  | _ => {}

end Document

/-! ## Frames

A frame is one media sample of a track: its data, its timestamp in timecode units and whether
it can be decoded on its own. Timestamps are signed 64-bit numbers; arithmetic on them
saturates at the ends of that range. -/

/-- The least and greatest signed 64-bit numbers. -/
def minTimestamp : Int := -Int.pow 2 63
def maxTimestamp : Int := Int.pow 2 63 - 1

/-- A difference of timestamps, saturated to the signed 64-bit range. -/
def saturatingSub (a b : Int) : Int := max minTimestamp (min maxTimestamp (a - b))

/-- A media sample. -/
structure Frame where
  track : UInt64 := 0
  keyframe : Bool := false
  timestamp : Int := 0
  data : Bytes := []
  deriving DecidableEq, Inhabited

end Matroska

end Ebml
