import Ebml.Header
import Ebml.Marshal
import Ebml.Slot

/-!
# Decoding

A decoder reads elements from a byte source into a target, one master at a time, until the
master's data ends, the source ends or a `stop` element has been read. Unknown identifiers and
elements the target has no field for are errors or skipped, as the parsing mode says; masters
are entered and their children read into their field, other elements stored. An element may
not end past its parent, an unknown-sized top-level master ends at the next top-level element,
masters nest at most 32 deep, and every header read is noted as a record.
-/

namespace Ebml

/-- How a decoding ended without error. -/
inductive Outcome where
  /-- The source ended between elements. -/
  | finished
  /-- An element tagged `stop` was read; the next decoding continues after it. -/
  | stopped
  deriving DecidableEq, Inhabited

/-- Why a master stopped reading its children. -/
inductive MasterEnd where
  /-- The source ended. -/
  | eof
  /-- The master's data has been read. -/
  | exhausted
  /-- An element tagged `stop` was read. -/
  | stopped
  /-- A top-level element ended an unknown-sized top-level master; its parent reads it. -/
  | handoff (h : Header)
  deriving DecidableEq, Inhabited

/-- What a decoder asks of its target. `select` finds the field an element goes to (and may
prepare it); `assign` stores a value in that field; `enter` gives the target the field's
master is read into; `close` puts that target back into the field; `finish` runs once all of
a master's children have been read. `assign` and `enter` give back the target as they leave
it, also when they refuse. -/
structure Target (τ : Type) where
  select : τ → Element → Option (Tag × τ)
  assign : τ → Element → Value → τ × Option Error
  enter : τ → Element → τ × Option τ
  close : τ → Element → τ → τ
  finish : τ → τ × Option Error

namespace Target

/-- A target that takes every element and keeps none: what an unknown-sized master is read
into when it is skipped. -/
def ignoring {τ : Type} : Target τ where
  select t e := some (Tag.plain e, t)
  assign t _ _ := (t, none)
  enter t _ := (t, some t)
  close t _ _ := t
  finish t := (t, none)

end Target

namespace Slot

/-- Stores a value in the field of a map or record that takes an element. A map keeps a fresh
value as the element's last one, and the stored value replaces it. A record's field is left as
the store leaves it. -/
def assignField (t : Slot) (e : Element) (v : Value) : Slot × Option Error :=
  match t with
  | map m => (map (m.setLast e v), none)
  | record fs =>
    match fieldIndex fs e with
    | some i =>
      match fs[i]? with
      | some (_, s) =>
        match s.assign v with
        | (s, err) => (record (modifyField fs i fun _ => s), err)
      | none => (t, none)
    | none => (t, none)
  | _ => (t, none)

/-- Enters the master of the field of a map or record that takes an element. A record's field
is left as entering leaves it. -/
def enterField (t : Slot) (e : Element) : Slot × Option Slot :=
  match t with
  | map m =>
    match (m.getAll e).getLast? with
    | some (.master inner) => (t, some (map inner))
    | _ => (t, none)
  | record fs =>
    match fieldIndex fs e with
    | some i =>
      match fs[i]? with
      | some (_, s) =>
        match s.enter with
        | (s, target) => (record (modifyField fs i fun _ => s), target)
      | none => (t, none)
    | none => (t, none)
  | _ => (t, none)

/-- Puts back the master of the field of a map or record that takes an element. -/
def closeField (t : Slot) (e : Element) (target : Slot) : Slot :=
  match t with
  | map m =>
    match target with
    | map inner => map (m.setLast e (.master inner))
    | _ => t
  | record fs =>
    match fieldIndex fs e with
    | some i => record (modifyField fs i fun s => s.close target)
    | none => t
  | _ => t

/-- Slots as decoding targets: a map takes every element, storing a fresh value (an empty
map for a master element) for each occurrence; a record takes the elements its tags name. -/
def target : Target Slot where
  select t e :=
    match t with
    | map m => some (Tag.plain e, map (m.push e (Value.fresh e)))
    | record fs => (fieldIndex fs e).bind fun i => fs[i]?.map fun (tag, _) => (tag, t)
    | _ => none
  assign := assignField
  enter := enterField
  close := closeField
  finish t := (t, none)

end Slot

/-- A decoder: the source it reads and the records of the headers read so far. -/
structure Decoder where
  source : Source
  records : List Record := []
  deriving Inhabited

/-- Decoding: a step on the decoder's state. Results carry their own errors, so that the
target a step leaves behind survives them. -/
abbrev DecodeM := StateM Decoder

namespace DecodeM

/-- Runs a reading on the decoder's source. -/
def read {α : Type} (r : ReadM α) : DecodeM (Except Error α) := fun d =>
  let (res, s) := r.run d.source
  (res, { d with source := s })

/-- The number of octets read so far. -/
def position : DecodeM Nat := do pure (← get).source.position

/-- Notes the record of a header. -/
def note (r : Record) : DecodeM Unit := modify fun d => { d with records := d.records ++ [r] }

end DecodeM

/-- Where the children of a master are read: the end of its data if known, whether it is an
unknown-sized top-level master, and its depth. -/
structure Extent where
  stop : Option Nat
  unknownTop : Bool
  depth : Nat
  deriving DecidableEq, Inhabited

namespace Decoder

/-- Whether an element ending at `dataEnd` passes the end of its parent. -/
def overruns (parent dataEnd : Option Nat) : Bool :=
  match parent, dataEnd with
  | some p, some d => d > p
  | _, _ => false

/-- What reading an element does once its header is at hand, going on with the readings it is
given: `children` reads the rest of the current master (from a header already read, if any),
`master` reads the children of a child master, and `skip` skips an element that has no field. -/
def readElement {τ : Type} (opts : DecodeOptions) (T : Target τ)
    (children : τ → Option Header → DecodeM (τ × Except Error MasterEnd))
    (master : τ → Extent → DecodeM (τ × Except Error MasterEnd))
    (skip : τ → Element → Option Nat → Extent → DecodeM (τ × Except Error (Option Header)))
    (t : τ) (ext : Extent) (h : Header) : DecodeM (τ × Except Error MasterEnd) := do
  let pos ← DecodeM.position
  let dataEnd := h.size.map (pos + ·)
  if overruns ext.stop dataEnd then return (t, .error .sizeMismatch)
  match h.element with
  | none =>
    if opts.mode = .relaxed then
      match dataEnd with
      | none => return (t, .error .sizeMismatch)
      | some d =>
        match ← DecodeM.read (ReadM.skip (d - pos)) with
        | .error err => return (t, .error err)
        | .ok () => children t none
    else return (t, .error (.unknownElement h.id))
  | some e =>
    if ext.unknownTop && e.isTopLevel then return (t, .ok (.handoff h))
    DecodeM.note ⟨e, pos - h.length, h.length, h.size⟩
    match T.select t e with
    | none =>
      if opts.mode = .strict then return (t, .error (.unassignableElement e))
      let (t, r) ← skip t e dataEnd ext
      match r with
      | .error err => return (t, .error err)
      | .ok next => children t next
    | some (tag, t) =>
      if e.isMaster then
        match T.enter t e with
        | (t, none) => return (t, .error (.incompatibleType .master))
        | (t, some child) =>
          let inner : Extent := ⟨dataEnd <|> ext.stop, dataEnd.isNone && e.isTopLevel, ext.depth + 1⟩
          let (child, r) ← master child inner
          match r with
          | .error err => return (T.close t e child, .error (.context (.reading e) err))
          | .ok .stopped => return (T.close t e child, .ok .stopped)
          | .ok ending =>
            let (child, finished) := T.finish child
            let t := T.close t e child
            match finished with
            | some err => return (t, .error err)
            | none =>
              if tag.stop then return (t, .ok .stopped)
              match ending with
              | .eof => return (t, .ok .eof)
              | .handoff next => children t (some next)
              | _ => children t none
      else
        match dataEnd with
        | none => return (t, .error .sizeMismatch)
        | some d =>
          match ← DecodeM.read (Payload.read opts e.dataType (d - pos)) with
          | .error err => return (t, .error (.context (.reading e) err))
          | .ok v =>
            let (t, failed) := T.assign t e v
            match failed with
            | some err => return (t, .error (.context (.assigning e) err))
            | none =>
              if tag.stop then return (t, .ok .stopped)
              children t none

mutual
/-- Reads the children of a master into a target. Each step spends one unit of `fuel`. -/
def readMaster {τ : Type} (opts : DecodeOptions) (T : Target τ) :
    Nat → τ → Extent → DecodeM (τ × Except Error MasterEnd)
  | 0, t, _ => pure (t, .error .tooMuchData)
  | fuel + 1, t, ext =>
    if ext.depth > maxDepth then pure (t, .error .maxDepthExceeded)
    else readChildren opts T fuel t ext none

/-- Reads children until the master ends, starting with a header already read, if any. -/
def readChildren {τ : Type} (opts : DecodeOptions) (T : Target τ) :
    Nat → τ → Extent → Option Header → DecodeM (τ × Except Error MasterEnd)
  | 0, t, _, _ => pure (t, .error .tooMuchData)
  | fuel + 1, t, ext, pending => do
    let start ← DecodeM.position
    if ext.stop.any (start ≥ ·) then return (t, .ok .exhausted)
    let header ← match pending with
      | some h => pure (.ok (some h))
      | none => DecodeM.read (Header.read opts)
    match header with
    | .error err => return (t, .error err)
    | .ok none => return (t, if ext.stop.isSome then .error (.io .masterCut) else .ok .eof)
    | .ok (some h) =>
      readElement opts T (fun t p => readChildren opts T fuel t ext p) (readMaster opts T fuel)
        (skipElement opts fuel) t ext h

/-- Skips an element that has no field: its data if its size is known, otherwise (a master)
by reading it into a target that keeps nothing. Gives the header that ended it, if that
header belongs to the parent. -/
def skipElement {τ : Type} (opts : DecodeOptions) :
    Nat → τ → Element → Option Nat → Extent → DecodeM (τ × Except Error (Option Header))
  | 0, t, _, _, _ => pure (t, .error .tooMuchData)
  | fuel + 1, t, e, dataEnd, ext => do
    match dataEnd with
    | some d =>
      let pos ← DecodeM.position
      match ← DecodeM.read (ReadM.skip (d - pos)) with
      | .error err => return (t, .error err)
      | .ok () => return (t, .ok none)
    | none =>
      if !e.isMaster then return (t, .error .sizeMismatch)
      let (t, r) ← readMaster opts Target.ignoring fuel t ⟨ext.stop, e.isTopLevel, ext.depth + 1⟩
      match r with
      | .error err => return (t, .error err)
      | .ok (.handoff h) => return (t, .ok (some h))
      | .ok _ => return (t, .ok none)
end

/-- A decoder at the start of a source. -/
def ofSource (s : Source) : Decoder := { source := s }

/-- Enough steps to read everything the source holds: every header spends at least two
octets, and is handed up through at most every level of nesting. -/
def budget (d : Decoder) : Nat := (maxDepth + 8) * (d.source.ahead.length + 2)

/-- Reads elements into a target until the source ends or a `stop` element is read. -/
def unmarshal {τ : Type} (opts : DecodeOptions) (T : Target τ) (t : τ) :
    DecodeM (τ × Except Error Outcome) := do
  let fuel := budget (← get)
  let (t, r) ← readMaster opts T fuel t ⟨none, false, 0⟩
  pure (t, r.map fun | .stopped => .stopped | _ => .finished)

end Decoder

end Ebml
