/-!
# The element schema

Every element this library understands, with its identifier, the type of data it holds and
whether it is a top-level element of a segment. Identifiers keep their length marker, so the
octets of an identifier are its big-endian bytes at the width the marker announces. Lookups
by identifier octets and by name are exact: `lookup (e.idBytes) = some e` and
`ofName? e.name = some e` for every element, because identifiers and names are distinct.
-/

namespace Ebml

/-! ## Octet strings

Every encoded quantity in this library is a list of octets. The list model keeps the
codecs and their laws on plain `List` lemmas. This section fixes the big-endian reading and
writing of natural numbers: `Octets.toNat (Octets.ofNat w n) = n % 256 ^ w`, so a number
below `256 ^ w` survives a round trip through `w` octets. -/

/-- An octet string. -/
abbrev Bytes := List UInt8

namespace Octets

/-- The `w` low octets of `n`, most significant first. -/
def ofNat : Nat → Nat → Bytes
  | 0, _ => []
  | w + 1, n => ofNat w (n / 256) ++ [(n % 256).toUInt8]

/-- The number whose big-endian octets are `bs`. -/
def toNat (bs : Bytes) : Nat :=
  bs.foldl (fun acc b => acc * 256 + b.toNat) 0

@[simp] theorem length_ofNat (w n : Nat) : (ofNat w n).length = w := by
  induction w generalizing n with
  | zero => rfl
  | succ w ih => simp [ofNat, ih]

theorem toNat_append_single (bs : Bytes) (b : UInt8) :
    toNat (bs ++ [b]) = toNat bs * 256 + b.toNat := by
  simp [toNat, List.foldl_append]

/-- Reading back `w` written octets keeps the number modulo `256 ^ w`. -/
theorem toNat_ofNat (w n : Nat) : toNat (ofNat w n) = n % Nat.pow 256 w := by
  induction w generalizing n with
  | zero => simp [ofNat, toNat, Nat.pow, Nat.mod_one]
  | succ w ih =>
    rw [ofNat, toNat_append_single, ih]
    have h : ((n % 256).toUInt8).toNat = n % 256 := by simp [Nat.toUInt8]
    have hp : Nat.pow 256 (w + 1) = 256 * Nat.pow 256 w := Nat.mul_comm (Nat.pow 256 w) 256
    rw [h, hp, Nat.mod_mul]
    omega

/-- A number below `256 ^ w` is read back exactly. -/
theorem toNat_ofNat_of_lt {w n : Nat} (h : n < Nat.pow 256 w) : toNat (ofNat w n) = n := by
  rw [toNat_ofNat, Nat.mod_eq_of_lt h]

end Octets

/-! ## Elements -/

/-- The type of data an element holds. -/
inductive DataType where
  | signedInt
  | unsignedInt
  | float
  | string
  | utf8
  | date
  | master
  | binary
  | block
  deriving DecidableEq, Inhabited

/-- The description of an element: its name in tags, identifier, data type and level. -/
structure Spec where
  name : String
  id : Nat
  dataType : DataType
  topLevel : Bool
  deriving DecidableEq, Inhabited

/-- An element known to the schema. The constructor `trackName` is the element `Name`. -/
inductive Element where
  | ebml | ebmlVersion | ebmlReadVersion | ebmlMaxIdLength | ebmlMaxSizeLength
  | docType | docTypeVersion | docTypeReadVersion | docTypeExtension
  | docTypeExtensionName | docTypeExtensionVersion
  | void | crc32
  | segment
  | seekHead | seek | seekId | seekPosition
  | info | timecodeScale | muxingApp | writingApp | duration | dateUtc | title | segmentUid
  | cluster | timecode | prevSize | position | simpleBlock | blockGroup | block
  | blockDuration | referencePriority | referenceBlock | discardPadding
  | tracks | trackEntry | trackNumber | trackUid | trackType | flagEnabled | flagDefault
  | flagForced | flagLacing | defaultDuration | trackName | language | codecId
  | codecPrivate | codecName | codecDelay | seekPreRoll
  | video | flagInterlaced | pixelWidth | pixelHeight | displayWidth | displayHeight
  | displayUnit
  | audio | samplingFrequency | outputSamplingFrequency | channels | bitDepth
  | cues | cuePoint | cueTime | cueTrackPositions | cueTrack | cueClusterPosition
  | cueRelativePosition
  | tags | chapters | attachments
  deriving DecidableEq, Inhabited

namespace Element

/-- The schema table: name, identifier, data type and level of every element. -/
def spec : Element → Spec
  | ebml => ⟨"EBML", 0x1A45DFA3, .master, false⟩
  | ebmlVersion => ⟨"EBMLVersion", 0x4286, .unsignedInt, false⟩
  | ebmlReadVersion => ⟨"EBMLReadVersion", 0x42F7, .unsignedInt, false⟩
  | ebmlMaxIdLength => ⟨"EBMLMaxIDLength", 0x42F2, .unsignedInt, false⟩
  | ebmlMaxSizeLength => ⟨"EBMLMaxSizeLength", 0x42F3, .unsignedInt, false⟩
  | docType => ⟨"DocType", 0x4282, .string, false⟩
  | docTypeVersion => ⟨"DocTypeVersion", 0x4287, .unsignedInt, false⟩
  | docTypeReadVersion => ⟨"DocTypeReadVersion", 0x4285, .unsignedInt, false⟩
  | docTypeExtension => ⟨"DocTypeExtension", 0x4281, .master, false⟩
  | docTypeExtensionName => ⟨"DocTypeExtensionName", 0x4283, .string, false⟩
  | docTypeExtensionVersion => ⟨"DocTypeExtensionVersion", 0x4284, .unsignedInt, false⟩
  | void => ⟨"Void", 0xEC, .binary, false⟩
  | crc32 => ⟨"CRC32", 0xBF, .binary, false⟩
  | segment => ⟨"Segment", 0x18538067, .master, false⟩
  | seekHead => ⟨"SeekHead", 0x114D9B74, .master, true⟩
  | seek => ⟨"Seek", 0x4DBB, .master, false⟩
  | seekId => ⟨"SeekID", 0x53AB, .binary, false⟩
  | seekPosition => ⟨"SeekPosition", 0x53AC, .unsignedInt, false⟩
  | info => ⟨"Info", 0x1549A966, .master, true⟩
  | timecodeScale => ⟨"TimecodeScale", 0x2AD7B1, .unsignedInt, false⟩
  | muxingApp => ⟨"MuxingApp", 0x4D80, .utf8, false⟩
  | writingApp => ⟨"WritingApp", 0x5741, .utf8, false⟩
  | duration => ⟨"Duration", 0x4489, .float, false⟩
  | dateUtc => ⟨"DateUTC", 0x4461, .date, false⟩
  | title => ⟨"Title", 0x7BA9, .utf8, false⟩
  | segmentUid => ⟨"SegmentUID", 0x73A4, .binary, false⟩
  | cluster => ⟨"Cluster", 0x1F43B675, .master, true⟩
  | timecode => ⟨"Timecode", 0xE7, .unsignedInt, false⟩
  | prevSize => ⟨"PrevSize", 0xAB, .unsignedInt, false⟩
  | position => ⟨"Position", 0xA7, .unsignedInt, false⟩
  | simpleBlock => ⟨"SimpleBlock", 0xA3, .block, false⟩
  | blockGroup => ⟨"BlockGroup", 0xA0, .master, false⟩
  | block => ⟨"Block", 0xA1, .block, false⟩
  | blockDuration => ⟨"BlockDuration", 0x9B, .unsignedInt, false⟩
  | referencePriority => ⟨"ReferencePriority", 0xFA, .unsignedInt, false⟩
  | referenceBlock => ⟨"ReferenceBlock", 0xFB, .signedInt, false⟩
  | discardPadding => ⟨"DiscardPadding", 0x75A2, .signedInt, false⟩
  | tracks => ⟨"Tracks", 0x1654AE6B, .master, true⟩
  | trackEntry => ⟨"TrackEntry", 0xAE, .master, false⟩
  | trackNumber => ⟨"TrackNumber", 0xD7, .unsignedInt, false⟩
  | trackUid => ⟨"TrackUID", 0x73C5, .unsignedInt, false⟩
  | trackType => ⟨"TrackType", 0x83, .unsignedInt, false⟩
  | flagEnabled => ⟨"FlagEnabled", 0xB9, .unsignedInt, false⟩
  | flagDefault => ⟨"FlagDefault", 0x88, .unsignedInt, false⟩
  | flagForced => ⟨"FlagForced", 0x55AA, .unsignedInt, false⟩
  | flagLacing => ⟨"FlagLacing", 0x9C, .unsignedInt, false⟩
  | defaultDuration => ⟨"DefaultDuration", 0x23E383, .unsignedInt, false⟩
  | trackName => ⟨"Name", 0x536E, .utf8, false⟩
  | language => ⟨"Language", 0x22B59C, .string, false⟩
  | codecId => ⟨"CodecID", 0x86, .string, false⟩
  | codecPrivate => ⟨"CodecPrivate", 0x63A2, .binary, false⟩
  | codecName => ⟨"CodecName", 0x258688, .utf8, false⟩
  | codecDelay => ⟨"CodecDelay", 0x56AA, .unsignedInt, false⟩
  | seekPreRoll => ⟨"SeekPreRoll", 0x56BB, .unsignedInt, false⟩
  | video => ⟨"Video", 0xE0, .master, false⟩
  | flagInterlaced => ⟨"FlagInterlaced", 0x9A, .unsignedInt, false⟩
  | pixelWidth => ⟨"PixelWidth", 0xB0, .unsignedInt, false⟩
  | pixelHeight => ⟨"PixelHeight", 0xBA, .unsignedInt, false⟩
  | displayWidth => ⟨"DisplayWidth", 0x54B0, .unsignedInt, false⟩
  | displayHeight => ⟨"DisplayHeight", 0x54BA, .unsignedInt, false⟩
  | displayUnit => ⟨"DisplayUnit", 0x54B2, .unsignedInt, false⟩
  | audio => ⟨"Audio", 0xE1, .master, false⟩
  | samplingFrequency => ⟨"SamplingFrequency", 0xB5, .float, false⟩
  | outputSamplingFrequency => ⟨"OutputSamplingFrequency", 0x78B5, .float, false⟩
  | channels => ⟨"Channels", 0x9F, .unsignedInt, false⟩
  | bitDepth => ⟨"BitDepth", 0x6264, .unsignedInt, false⟩
  | cues => ⟨"Cues", 0x1C53BB6B, .master, true⟩
  | cuePoint => ⟨"CuePoint", 0xBB, .master, false⟩
  | cueTime => ⟨"CueTime", 0xB3, .unsignedInt, false⟩
  | cueTrackPositions => ⟨"CueTrackPositions", 0xB7, .master, false⟩
  | cueTrack => ⟨"CueTrack", 0xF7, .unsignedInt, false⟩
  | cueClusterPosition => ⟨"CueClusterPosition", 0xF1, .unsignedInt, false⟩
  | cueRelativePosition => ⟨"CueRelativePosition", 0xF0, .unsignedInt, false⟩
  | tags => ⟨"Tags", 0x1254C367, .master, true⟩
  | chapters => ⟨"Chapters", 0x1043A770, .master, true⟩
  | attachments => ⟨"Attachments", 0x1941A469, .master, true⟩

/-- Every element, in the order of the schema table. -/
def all : List Element :=
  [ebml, ebmlVersion, ebmlReadVersion, ebmlMaxIdLength, ebmlMaxSizeLength, docType,
    docTypeVersion, docTypeReadVersion, docTypeExtension, docTypeExtensionName,
    docTypeExtensionVersion, void, crc32, segment, seekHead, seek, seekId, seekPosition, info,
    timecodeScale, muxingApp, writingApp, duration, dateUtc, title, segmentUid, cluster,
    timecode, prevSize, position, simpleBlock, blockGroup, block, blockDuration,
    referencePriority, referenceBlock, discardPadding, tracks, trackEntry, trackNumber,
    trackUid, trackType, flagEnabled, flagDefault, flagForced, flagLacing, defaultDuration,
    trackName, language, codecId, codecPrivate, codecName, codecDelay, seekPreRoll, video,
    flagInterlaced, pixelWidth, pixelHeight, displayWidth, displayHeight, displayUnit, audio,
    samplingFrequency, outputSamplingFrequency, channels, bitDepth, cues, cuePoint, cueTime,
    cueTrackPositions, cueTrack, cueClusterPosition, cueRelativePosition, tags, chapters,
    attachments]

/-- The element's name, as written in tags. -/
def name (e : Element) : String := e.spec.name

/-- The element's identifier, length marker included. -/
def id (e : Element) : Nat := e.spec.id

/-- The type of data the element holds. -/
def dataType (e : Element) : DataType := e.spec.dataType

/-- Whether the element is a top-level element: one ends any unknown-size top-level element
it is found in. -/
def isTopLevel (e : Element) : Bool := e.spec.topLevel

/-- Whether the element holds child elements. -/
def isMaster (e : Element) : Bool := e.dataType == .master

/-- The number of octets of an identifier: its highest non-zero octet counts last. -/
def idWidth (id : Nat) : Nat := Nat.log2 id / 8 + 1

/-- The identifier's octets, most significant first. -/
def idBytes (e : Element) : Bytes := Octets.ofNat (idWidth e.id) e.id

/-- The element with this name. -/
def ofName? (name : String) : Option Element := all.find? (·.name == name)

/-- The element whose identifier octets are exactly `octets`; a strict prefix of an
identifier names no element. -/
def lookup (octets : Bytes) : Option Element := all.find? (·.idBytes == octets)

/-- The element with this identifier value. -/
def ofId? (id : Nat) : Option Element := all.find? (·.id == id)

end Element

end Ebml
