import Ebml.Schema

/-!
# Errors

An error is a cause, possibly wrapped in the stages that were running when it arose
(`encoding Timecode`, `reading Cluster`, ...). The wording of every cause lives in one function,
`Error.message`; a wrapped error reads as its stages joined with `": "` in front of its cause.
`Error.root` is the cause itself and `Error.layers` lists the wrappers from the outside in.
-/

namespace Ebml

/-- The kind of a value, as named when a value does not fit its element or field. -/
inductive ValueKind where
  | int | uint | float32 | float64 | string | date | binary | block | master
  deriving DecidableEq, Inhabited

/-- The name of a value kind in messages. -/
def ValueKind.name : ValueKind → String
  | .int => "int"
  | .uint => "uint"
  | .float32 => "float32"
  | .float64 => "float64"
  | .string => "string"
  | .date => "date"
  | .binary => "binary"
  | .block => "block"
  | .master => "master"

/-- The two classes of input/output failure this library reports. -/
inductive IoKind where
  | unexpectedEof
  | other
  deriving DecidableEq, Inhabited

/-- Input/output failures: streams that end too early, and byte sources or sinks that give up. -/
inductive IoFault where
  /-- A fixed number of octets was asked for and the stream ended first. -/
  | shortRead
  /-- A master element with a known end was still open when the stream ended. -/
  | masterCut
  /-- The data of an element being skipped runs past the end of the stream. -/
  | elementCut
  /-- A sink refused a write that would take it past its capacity. -/
  | sinkFull
  /-- A byte source failed at its failure offset. -/
  | sourceFailed
  deriving DecidableEq, Inhabited

/-- The class of an input/output failure. -/
def IoFault.kind : IoFault → IoKind
  | .shortRead | .masterCut | .elementCut => .unexpectedEof
  | .sinkFull | .sourceFailed => .other

/-- The text of an input/output failure. -/
def IoFault.message : IoFault → String
  | .shortRead => "failed to fill whole buffer"
  | .masterCut => "Stream ended inside of a master element"
  | .elementCut => "Element ends past the end of the stream"
  | .sinkFull => "sink is full"
  | .sourceFailed => "source failed"

/-- Why a tag string was refused. -/
inductive TagFault where
  | emptyOption (tag : String)
  | unknownOption (option : String)
  | invalidSize (text : String)
  deriving DecidableEq, Inhabited

/-- Why a list of tracks was refused. -/
inductive TrackFault where
  | noTracks
  | zeroNumber
  | duplicateNumber
  | mainTrackMissing
  | noTrackList
  deriving DecidableEq, Inhabited

/-- The text of a track problem. -/
def TrackFault.message : TrackFault → String
  | .noTracks => "no tracks given"
  | .zeroNumber => "track numbers start at 1"
  | .duplicateNumber => "duplicate track number"
  | .mainTrackMissing => "the main track isn't in the track list"
  | .noTrackList => "the stream has no track list"

/-- A stage that wraps the errors arising inside it. -/
inductive Stage where
  | encoding (e : Element)
  | reading (e : Element)
  | assigning (e : Element)
  deriving DecidableEq, Inhabited

/-- The text of a stage. -/
def Stage.message : Stage → String
  | .encoding e => "encoding " ++ e.name
  | .reading e => "reading " ++ e.name
  | .assigning e => "assigning " ++ e.name

/-- Where decoding text as UTF-8 failed: the length of the valid prefix, and the length of the
invalid sequence after it, or `none` when the text ends inside a sequence. -/
structure Utf8Fault where
  validUpTo : Nat
  errorLen : Option Nat
  deriving DecidableEq, Inhabited

/-- The text of a UTF-8 failure. -/
def Utf8Fault.message (f : Utf8Fault) : String :=
  match f.errorLen with
  | some n => "invalid utf-8 sequence of " ++ toString n ++ " bytes from index " ++
      toString f.validUpTo
  | none => "incomplete utf-8 byte sequence from index " ++ toString f.validUpTo

/-- Everything that can go wrong in this library. -/
inductive Error where
  | badVintSize
  | unknownElement (id : Nat)
  | unknownElementName (name : String)
  | unassignableElement (e : Element)
  | invalidIntSize
  | invalidFloatSize
  | sizeMismatch
  | incompatibleType (kind : ValueKind)
  | invalidTag (fault : TagFault)
  | maxDepthExceeded
  | tooMuchData
  | multipleFramesNoLace
  | unevenFixedLace
  | fixedLaceUndivisible
  | tooManyFrames
  | wrongLaceSize
  | ignoreOldFrame
  | timestampOutOfRange
  | invalidTrack (fault : TrackFault)
  | invalidSorterOptions
  | pipelineClosed
  | context (stage : Stage) (inner : Error)
  | utf8 (fault : Utf8Fault)
  | io (fault : IoFault)
  deriving DecidableEq, Inhabited

/-- Upper-case hexadecimal digits of a number. -/
def hexUpper (n : Nat) : String := String.ofList ((Nat.toDigits 16 n).map Char.toUpper)

namespace Error

/-- The text of an error, its stages first. -/
def message : Error → String
  | badVintSize => "VInt has an invalid octet length or value"
  | unknownElement id => "Unknown element ID: 0x" ++ hexUpper id
  | unknownElementName name => "Tag references an unknown element: \"" ++ name ++ "\""
  | unassignableElement e =>
    "Element `" ++ e.name ++ "` has no matching field in the destination"
  | invalidIntSize => "Integer element has an invalid size"
  | invalidFloatSize => "Float element has an invalid size (expected 0, 4, or 8)"
  | sizeMismatch =>
    "Encountered an invalid element size, either too big or too small to be valid"
  | incompatibleType kind =>
    "A value of kind `" ++ kind.name ++ "` is incompatible with the element or field"
  | invalidTag (.emptyOption tag) => "Invalid tag: empty option in \"" ++ tag ++ "\""
  | invalidTag (.unknownOption option) => "Invalid tag: unknown option \"" ++ option ++ "\""
  | invalidTag (.invalidSize text) => "Invalid tag: invalid size \"" ++ text ++ "\""
  | maxDepthExceeded => "Maximum element depth reached"
  | tooMuchData => "Attempted to read/write an abnormally large amount of data"
  | multipleFramesNoLace => "Multiple frames given to a block without lacing"
  | unevenFixedLace => "Fixed lacing requires frames of equal size"
  | fixedLaceUndivisible => "Fixed lace payload is not divisible by its frame count"
  | tooManyFrames => "A lace can hold at most 256 frames"
  | wrongLaceSize => "Lace describes a frame with an invalid size"
  | ignoreOldFrame => "Frame is too old for the current cluster and was dropped"
  | timestampOutOfRange => "Block timestamp is out of range"
  | invalidTrack fault => "Invalid track: " ++ fault.message
  | invalidSorterOptions =>
    "Exactly one of `max_delayed_packets` and `max_timescale_delay` must be set"
  | pipelineClosed => "The block pipeline has been closed"
  | context stage inner => stage.message ++ ": " ++ inner.message
  | utf8 fault => fault.message
  | io fault => fault.message

/-- The name of an error's own layer: `Context` for a stage, otherwise its cause. -/
def kindName : Error → String
  | badVintSize => "BadVintSize"
  | unknownElement _ => "UnknownElement"
  | unknownElementName _ => "UnknownElementName"
  | unassignableElement _ => "UnassignableElement"
  | invalidIntSize => "InvalidIntSize"
  | invalidFloatSize => "InvalidFloatSize"
  | sizeMismatch => "SizeMismatch"
  | incompatibleType _ => "IncompatibleType"
  | invalidTag _ => "InvalidTag"
  | maxDepthExceeded => "MaxDepthExceeded"
  | tooMuchData => "TooMuchData"
  | multipleFramesNoLace => "MultipleFramesNoLace"
  | unevenFixedLace => "UnevenFixedLace"
  | fixedLaceUndivisible => "FixedLaceUndivisible"
  | tooManyFrames => "TooManyFrames"
  | wrongLaceSize => "WrongLaceSize"
  | ignoreOldFrame => "IgnoreOldFrame"
  | timestampOutOfRange => "TimestampOutOfRange"
  | invalidTrack _ => "InvalidTrack"
  | invalidSorterOptions => "InvalidSorterOptions"
  | pipelineClosed => "PipelineClosed"
  | context _ _ => "Context"
  | utf8 _ => "StringFromUtf8"
  | io fault =>
    match fault.kind with
    | .unexpectedEof => "Io(UnexpectedEof)"
    | .other => "Io(Other)"

/-- The cause of an error, with its stages removed. -/
def root : Error → Error
  | context _ inner => inner.root
  | e => e

/-- The layers of an error from the outside in, ending with its cause. -/
def layers : Error → List Error
  | context stage inner => context stage inner :: inner.layers
  | e => [e]

/-- Whether some layer of the error satisfies `p`. -/
def any (e : Error) (p : Error → Bool) : Bool := e.layers.any p

/-- Whether the cause is an input/output failure of class `kind`. -/
def isIo (e : Error) (kind : IoKind) : Bool :=
  match e.root with
  | io fault => fault.kind == kind
  | _ => false

/-- The texts of the errors found by following what each error wraps, starting below the
outer error: a stage wraps an error, and an input/output or UTF-8 failure wraps its own
report. -/
def sources : Error → List String
  | context _ inner => inner.message :: inner.sources
  | utf8 fault => [fault.message]
  | io fault => [fault.message]
  | _ => []

@[simp] theorem root_context (s : Stage) (e : Error) : (context s e).root = e.root := rfl

@[simp] theorem message_context (s : Stage) (e : Error) :
    (context s e).message = s.message ++ ": " ++ e.message := rfl

end Error

end Ebml
