import Ebml.Payload

/-!
# Encoding

Encoding writes the fields of a master one after another. A master of known size is encoded into
a buffer first, so its size is known when its header is written; one of unknown size is streamed
after the all-ones size. Masters nest at most 32 deep, every element written is reported as a
record in output order, and the output is a sequence of write calls, so that a sink refusing one
call keeps the calls made before.
-/

namespace Ebml

/-- How sizes and identifiers are written: the size width to use at least, and the widths
allowed at most, each between one and eight. -/
structure MarshalOptions where
  sizeLength : Option Nat := none
  maxIdLength : Nat := 4
  maxSizeLength : Nat := 8
  deriving DecidableEq, Inhabited

/-- A width limited to one to eight octets. -/
def clampWidth (n : Nat) : Nat := min 8 (max 1 n)

/-- An element written by the encoder or read by the decoder: where its identifier starts,
the length of its header, and the size of its data (`none` when unknown). -/
structure Record where
  element : Element
  position : Nat
  headerLen : Nat
  size : Option Nat
  deriving DecidableEq, Inhabited

/-- Where a record's data starts. -/
def Record.dataPosition (r : Record) : Nat := r.position + r.headerLen

/-- The same record, `d` octets further. -/
def Record.shift (d : Nat) (r : Record) : Record := { r with position := r.position + d }

/-- The deepest nesting of masters. -/
def maxDepth : Nat := 32

/-- What an encoding has written so far: its write calls, their total length and the records
of the elements written. -/
structure Output where
  calls : List Bytes := []
  length : Nat := 0
  records : List Record := []
  deriving Inhabited

namespace Output

/-- Makes one write call; an empty one is never made. -/
def emit (o : Output) (chunk : Bytes) : Output :=
  if chunk.isEmpty then o else { o with calls := o.calls ++ [chunk], length := o.length + chunk.length }

/-- Makes one write call per octet. -/
def emitEach (o : Output) (bs : Bytes) : Output := bs.foldl (fun o b => o.emit [b]) o

/-- Notes a record. -/
def note (o : Output) (r : Record) : Output := { o with records := o.records ++ [r] }

/-- Everything written, in order. -/
def bytes (o : Output) : Bytes := o.calls.flatten

end Output

/-- An encoding step: the output so far, and the error that stopped it, if any. -/
abbrev Written := Output × Option Error

namespace Marshal

/-- Writes an element header: identifier, then size (`none` for the unknown size). -/
def header (opts : MarshalOptions) (e : Element) (size : Option Nat) (o : Output) : Written :=
  match Vint.encodeId e.id opts.maxIdLength with
  | .error err => (o, some err)
  | .ok id =>
    let o := o.emit id
    let sizeBytes := match size with
      | some n => Vint.encode (some n) opts.sizeLength opts.maxSizeLength
      | none => Vint.encode none (some opts.maxSizeLength) opts.maxSizeLength
    match sizeBytes with
    | .error err => (o, some err)
    | .ok bs => (o.emitEach bs, none)

mutual
/-- Writes one field under a tag at a nesting depth. -/
def field (opts : MarshalOptions) (depth : Nat) (tag : Tag) (v : View) (o : Output) :
    Written :=
  if tag.omitEmpty && v.zero then (o, none)
  else
    match v with
    | .absent _ => (o, none)
    | .repeated items _ => repeated opts depth tag items o
    | .master children _ =>
      let e := tag.element
      if !e.isMaster then (o, some (.incompatibleType .master))
      else if tag.size = .unknown then
        let start := o.length
        match header opts e none o with
        | (o, some err) => (o, some err)
        | (o, none) =>
          let o := o.note ⟨e, start, o.length - start, none⟩
          if depth + 1 > maxDepth then (o, some .maxDepthExceeded)
          else fields opts (depth + 1) children o
      else if depth + 1 > maxDepth then (o, some .maxDepthExceeded)
      else
        match fields opts (depth + 1) children {} with
        | (_, some err) => (o, some err)
        | (inner, none) =>
          let data := inner.bytes
          if tag.size != .natural && tag.size != .exact data.length then (o, some .sizeMismatch)
          else
            let start := o.length
            match header opts e (some data.length) o with
            | (o, some err) => (o, some err)
            | (o, none) =>
              let dataStart := o.length
              let o := o.note ⟨e, start, dataStart - start, some data.length⟩
              let o := { o with records := o.records ++ inner.records.map (Record.shift dataStart) }
              (o.emit data, none)
    | .scalar value _ =>
      let e := tag.element
      if e.isMaster then (o, some (.incompatibleType value.kind))
      else
        match Payload.encode e value tag.size with
        | .error err => (o, some (.context (.encoding e) err))
        | .ok data =>
          let start := o.length
          match header opts e (some data.length) o with
          | (o, some err) => (o, some err)
          | (o, none) =>
            let o := o.note ⟨e, start, o.length - start, some data.length⟩
            (o.emit data, none)

/-- Writes the items of a repeated field, each under the same tag. -/
def repeated (opts : MarshalOptions) (depth : Nat) (tag : Tag) : List View → Output → Written
  | [], o => (o, none)
  | v :: vs, o =>
    match field opts depth tag v o with
    | (o, none) => repeated opts depth tag vs o
    | stopped => stopped

/-- Writes the fields of a master in order. -/
def fields (opts : MarshalOptions) (depth : Nat) : List (Tag × View) → Output → Written
  | [], o => (o, none)
  | (tag, v) :: rest, o =>
    match field opts depth tag v o with
    | (o, none) => fields opts depth rest o
    | stopped => stopped
end

/-- Encodes a document: the fields of a root master, written with no header of its own. -/
def run (opts : MarshalOptions) (doc : List (Tag × View)) : Written := fields opts 0 doc {}

/-- Encodes a document completely, with its records, or fails. -/
def encode (opts : MarshalOptions) (doc : List (Tag × View)) : Except Error (Bytes × List Record) :=
  match run opts doc with
  | (o, none) => .ok (o.bytes, o.records)
  | (_, some err) => .error err

end Marshal

/-- A sink that takes whole write calls until one would take it past its capacity. -/
structure Sink where
  written : Bytes := []
  capacity : Option Nat := none
  deriving Inhabited

namespace Sink

/-- Takes write calls in order, refusing the first one that does not fit, and every one after. -/
def take (s : Sink) : List Bytes → Sink × Option Error
  | [] => (s, none)
  | c :: cs =>
    if s.capacity.any (s.written.length + c.length > ·) then (s, some (.io .sinkFull))
    else take { s with written := s.written ++ c } cs

/-- Encodes a document into the sink, giving the number of octets written and the records. A
refused write call stops the encoding, so its error comes before any later encoding error. -/
def marshal (s : Sink) (opts : MarshalOptions) (doc : List (Tag × View)) :
    Sink × Except Error (Nat × List Record) :=
  let (o, err) := Marshal.run opts doc
  match s.take o.calls with
  | (s, some refused) => (s, .error refused)
  | (s, none) =>
    match err with
    | some err => (s, .error err)
    | none => (s, .ok (o.length, o.records))

end Sink

end Ebml
