import Ebml.Marshal
import Ebml.Matroska.Document
import Ebml.Matroska.Threads

/-!
# Writing block streams

A block stream starts with a header: the EBML header, then a segment of unknown size holding
an optional seek index, the segment information and the track list. The threads of the writer
then place the frames written through the track handles into clusters, and the stream ends once
every handle is closed or dropped.
-/

namespace Ebml

namespace Matroska

/-! ## Seek index -/

/-- The elements a stream header indexes. -/
def indexedElements : List Element := [.info, .tracks]

/-- A seek index for the indexed elements with every position zero. Positions always take
eight octets, so filling them in keeps the index's size. -/
def seekPlaceholder : SeekHead :=
  { seeks := indexedElements.map fun e => { seekId := e.idBytes } }

/-- Fills in the positions of a seek index from the records of an encoding of the header:
each entry takes the first element after the start of the segment's data with its
identifier, relative to that start. -/
def fillSeekHead (h : SeekHead) (records : List Record) : SeekHead :=
  match records.find? (·.element == .segment) with
  | none => h
  | some segment =>
    let base := segment.dataPosition
    { seeks := h.seeks.map fun s =>
        match records.find? (fun r => decide (r.position ≥ base) && r.element.idBytes == s.seekId) with
        | some r => { s with seekPosition := (r.position - base).toUInt64 }
        | none => s }

/-! ## Stream header -/

/-- A track to write: the number its blocks carry, and the fields of its track entry. -/
structure TrackDescription where
  number : UInt64
  entry : List (Tag × View)

/-- The description of a track entry, numbered by its track number. -/
def TrackDescription.ofEntry (t : TrackEntry) : TrackDescription :=
  ⟨t.trackNumber, t.toSlot.document⟩


/-- How a stream is written. The default information names this library as the application. -/
structure WriterOptions where
  header : EbmlHeader := .webm
  info : Info := Info.new "ebml_mux"
  seekHead : Bool := false
  sorter : Option SorterOptions := none
  mainTrack : Option MainTrack := none
  marshal : MarshalOptions := {}
  deriving Inhabited

/-- Checks the tracks: there is one at least, numbers start at one and differ, and the main
track is one of them. -/
def validateTracks (tracks : List TrackDescription) (main : Option MainTrack) : Except Error Unit := do
  if tracks.isEmpty then throw (.invalidTrack .noTracks)
  let check (seen : List UInt64) (t : TrackDescription) : Except Error (List UInt64) := do
    if t.number = 0 then throw (.invalidTrack .zeroNumber)
    if t.number ∈ seen then throw (.invalidTrack .duplicateNumber)
    pure (t.number :: seen)
  let _ ← tracks.foldlM check []
  match main with
  | some m => if tracks.any (·.number == m.number) then pure () else throw (.invalidTrack .mainTrackMissing)
  | none => pure ()

/-- The fields of the segment in a stream header. -/
def segmentFields (seekHead : Option SeekHead) (info : Info) (tracks : List TrackDescription) :
    List (Tag × View) :=
  let index := match seekHead with
    | some h => [(Tag.plain .seekHead, h.toSlot.view)]
    | none => []
  let entries := tracks.map fun t => (Tag.plain .trackEntry, View.master t.entry false)
  index ++ [(.plain .info, info.toSlot.view), (.plain .tracks, .master entries entries.isEmpty)]

/-- A stream header: the EBML header, and the segment with an unknown size. -/
def headerDocument (h : EbmlHeader) (segment : List (Tag × View)) : List (Tag × View) :=
  [(.plain .ebml, h.toSlot.view), ({ element := .segment, size := .unknown }, .master segment false)]

/-- Writes a stream header, giving its length. With a seek index, the header is first encoded
with a placeholder index to find where the indexed elements go. -/
def writeHeader (sink : Sink) (tracks : List TrackDescription) (opts : WriterOptions) :
    Sink × Except Error Nat :=
  let index : Except Error (Option SeekHead) :=
    if opts.seekHead then
      let draft := headerDocument opts.header (segmentFields (some seekPlaceholder) opts.info tracks)
      (Marshal.encode opts.marshal draft).map fun (_, records) =>
        some (fillSeekHead seekPlaceholder records)
    else .ok none
  match index with
  | .error err => (sink, .error err)
  | .ok index =>
    let doc := headerDocument opts.header (segmentFields index opts.info tracks)
    let (sink, r) := sink.marshal opts.marshal doc
    (sink, r.map (·.1))

/-- A write of a track handle: the place of the track in the track list, whether the frame is
a keyframe, its timestamp and its data. -/
structure HandleWrite where
  track : Nat
  keyframe : Bool
  timestamp : Int
  data : Bytes
  deriving DecidableEq, Inhabited

/-- What writing a stream gives: the track numbers of the handles, the result of every handle
write (the octets taken, or an error), the errors reported for dropped frames, the error that
stopped the writer, and the stream. -/
structure WriteResult where
  trackNumbers : List UInt64
  writes : List (Except Error Nat)
  reports : List Error
  fatal : Option Error
  stream : Bytes
  deriving Inhabited

/-- The frame of a handle write, before its handle stamps it with its track number. -/
def HandleWrite.frame (hw : HandleWrite) : Frame :=
  { keyframe := hw.keyframe, timestamp := hw.timestamp, data := hw.data }

/-- The calls of a single caller writing a stream of `n` tracks: the handle writes in order,
then dropping every handle but the last, and closing the last. -/
def calls (n : Nat) (writes : List HandleWrite) : List Move :=
  writes.map (fun hw => .write hw.track hw.frame) ++ (List.range (n - 1)).map .drop ++ [.close (n - 1)]

/-- Writes a stream into a sink: the header, then the calls of a single caller, each made once
the threads can no longer move. Fails with what the sink took when the tracks are not valid or
the header cannot be written. -/
def writeStream (sink : Sink) (tracks : List TrackDescription) (opts : WriterOptions)
    (writes : List HandleWrite) : Except (Error × Bytes) WriteResult :=
  match validateTracks tracks opts.mainTrack with
  | .error err => .error (err, sink.written)
  | .ok () =>
    match writeHeader sink tracks opts with
    | (sink, .error err) => .error (err, sink.written)
    | (sink, .ok length) =>
      let numbers := tracks.map (·.number)
      let start : Pipeline :=
        { writer := { sink, position := length, mainTrack := opts.mainTrack, options := opts.marshal } }
      let run := (Threads.start numbers opts.sorter start).performAll (calls numbers.length writes)
      .ok { trackNumbers := numbers, writes := run.2.filterMap Event.writeResult,
            reports := run.1.writer.pipeline.writer.reports, fatal := run.2.findSome? Event.fatalError,
            stream := run.1.writer.pipeline.writer.sink.written }

end Matroska

end Ebml
