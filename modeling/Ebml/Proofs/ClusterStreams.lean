import Mathlib.Data.List.Forall2
import Ebml.Matroska.Reader

/-!
# Cluster streams

What follows the header of a block stream: clusters of known or unknown size holding timecodes,
previous sizes, positions, simple blocks and block groups in any order, given by what the element
readers make of their octets (`ReadM.ReadsAs`). The blocks come in order with the timecode their
cluster has when each is read (`placedBlocks`), and `deliverAll` sends the frames of the blocks
of listed tracks, stopping at the first whose timestamp does not fit 64 signed bits.
-/

namespace Ebml

namespace ReadM

/-- A reading that takes the octets `bs` from the front of a source and gives `a`, whatever
follows them. -/
def ReadsAs {α : Type} (r : ReadM α) (bs : Bytes) (a : α) : Prop :=
  ∀ (s : Source) (rest : Bytes), s.ahead = bs ++ rest →
    r.run s = (.ok a, { s with ahead := rest, position := s.position + bs.length })

end ReadM

/-! ## The octets of elements -/

section Octets

variable (opts : DecodeOptions)

/-- The octets of an element header for `e` that announces `size` octets of data (`none` for
the unknown size). -/
def HeadOctets (e : Element) (size : Option Nat) (bs : Bytes) : Prop :=
  ∃ id, ReadM.ReadsAs (Header.read opts) bs (some ⟨id, some e, size, bs.length⟩)

/-- The octets of a scalar element `e` holding `v`: its header, then its data. -/
def ScalarOctets (e : Element) (v : Value) (bs : Bytes) : Prop :=
  ∃ head data, bs = head ++ data ∧ HeadOctets opts e (some data.length) head ∧
    ReadM.ReadsAs (Payload.read opts e.dataType data.length) data v

/-- The octets of a master element `e` whose data is `body`, with a header that gives its size
or not. -/
def MasterOctets (e : Element) (sized : Bool) (body bs : Bytes) : Prop :=
  ∃ head, bs = head ++ body ∧ HeadOctets opts e (if sized then some body.length else none) head

end Octets

namespace Matroska

/-! ## The octets of a stream of clusters -/

/-- A child of a block group that the reader takes: a block, its duration, the group's
reference priority, or one of its references. -/
inductive GroupChild where
  | block (b : Block)
  | duration (n : UInt64)
  | priority (n : UInt64)
  | reference (n : Int64)
  deriving DecidableEq

namespace GroupChild

/-- The element a group child is. -/
def element : GroupChild → Element
  | block _ => .block
  | duration _ => .blockDuration
  | priority _ => .referencePriority
  | reference _ => .referenceBlock

/-- The value a group child holds, as its element's data reads. -/
def value : GroupChild → Value
  | block b => .block b
  | duration n => .uint n
  | priority n => .uint n
  | reference n => .int n

/-- The octets of a group child. -/
def Octets (opts : DecodeOptions) (c : GroupChild) (bs : Bytes) : Prop :=
  ScalarOctets opts c.element c.value bs

/-- The block of a group child, if it is one. -/
def block? : GroupChild → Option Block
  | block b => some b
  | _ => none

/-- The reference priority of a group child, if it is one. -/
def priority? : GroupChild → Option UInt64
  | priority n => some n
  | _ => none

/-- The block a group delivers: its last. -/
def lastBlock (cs : List GroupChild) : Option Block := (cs.filterMap block?).getLast?

/-- A group's reference priority: its last, zero when it has none. -/
def lastPriority (cs : List GroupChild) : UInt64 := ((cs.filterMap priority?).getLast?).getD 0

theorem lastBlock_cons (c : GroupChild) (cs : List GroupChild) :
    lastBlock (c :: cs) = (lastBlock cs).or c.block? := by
  cases c <;> simp [lastBlock, block?, List.getLast?_cons]

end GroupChild

/-- A child of a cluster that the reader takes: a timecode, the previous cluster's size, the
cluster's position, a simple block or a block group. -/
inductive ClusterChild where
  | timecode (t : UInt64)
  | prevSize (n : UInt64)
  | position (n : UInt64)
  | simpleBlock (b : Block)
  | blockGroup (children : List GroupChild)
  deriving DecidableEq

namespace ClusterChild

/-- The octets of a cluster child: a block group's are those of a master of known size whose
data is its children's octets one after another. -/
def Octets (opts : DecodeOptions) : ClusterChild → Bytes → Prop
  | timecode t, bs => ScalarOctets opts .timecode (.uint t) bs
  | prevSize n, bs => ScalarOctets opts .prevSize (.uint n) bs
  | position n, bs => ScalarOctets opts .position (.uint n) bs
  | simpleBlock b, bs => ScalarOctets opts .simpleBlock (.block b) bs
  | blockGroup cs, bs => ∃ parts, List.Forall₂ (GroupChild.Octets opts) cs parts ∧
      MasterOctets opts .blockGroup true parts.flatten bs

end ClusterChild

/-- A cluster as the reader meets it: whether its header gives its size, and its children in
order. -/
structure ClusterElement where
  sized : Bool
  children : List ClusterChild
  deriving DecidableEq

/-- The octets of a cluster: its header, then its children's octets one after another. -/
def ClusterElement.Octets (opts : DecodeOptions) (c : ClusterElement) (bs : Bytes) : Prop :=
  ∃ parts, List.Forall₂ (ClusterChild.Octets opts) c.children parts ∧
    MasterOctets opts .cluster c.sized parts.flatten bs

/-- The octets of clusters one after another. -/
def ClustersOctets (opts : DecodeOptions) (cs : List ClusterElement) (bs : Bytes) : Prop :=
  ∃ parts, List.Forall₂ (ClusterElement.Octets opts) cs parts ∧ bs = parts.flatten

/-! ## The blocks of a stream, and their delivery -/

/-- A block as a stream places it: the block, whether it counts as a keyframe, the timecode its
cluster has when it is read, and whether it comes as a simple block. -/
structure PlacedBlock where
  block : Block
  keyframe : Bool
  clusterTimecode : UInt64
  simple : Bool
  deriving DecidableEq

namespace PlacedBlock

/-- The timestamp of a block: its cluster's timecode plus its own. -/
def timestamp (p : PlacedBlock) : Int := (p.clusterTimecode.toNat : Int) + p.block.timecode.toInt

/-- Whether a block can be stamped: its cluster's timecode and its timestamp both fit a signed
64-bit number. -/
def fits (p : PlacedBlock) : Bool :=
  decide ((p.clusterTimecode.toNat : Int) ≤ maxTimestamp) && decide (p.timestamp ≤ maxTimestamp)

/-- Whether a block goes to one of the tracks `numbers`. -/
def listed (numbers : List UInt64) (p : PlacedBlock) : Bool := numbers.contains p.block.track

/-- The frames of a block delivered to the track at place `i`: one per laced frame. -/
def frames (p : PlacedBlock) (i : Nat) : List (Nat × Frame) :=
  p.block.frames.map fun data =>
    (i, { track := p.block.track, keyframe := p.keyframe, timestamp := p.timestamp, data })

/-- Delivering one block to the tracks `numbers`: the frames it gives, none for a track not
listed, or the error that stops the stream. -/
def outcome (numbers : List UInt64) (p : PlacedBlock) : Except Error (List (Nat × Frame)) :=
  if p.listed numbers then
    if p.fits then .ok (p.frames (numbers.idxOf p.block.track)) else .error .timestampOutOfRange
  else if numbers.isEmpty then .error .pipelineClosed
  else .ok []

/-- An error met delivering a block, as the reading of its cluster reports it: a simple block's
in the context of its assignment, a group's as it is. -/
def refusal (p : PlacedBlock) (err : Error) : Error :=
  if p.simple then .context (.assigning .simpleBlock) err else err

end PlacedBlock

/-- The block a group places, from a cluster timecode `tc`: its last, as a keyframe when the
group's reference priority is not zero. -/
def GroupChild.placed (tc : UInt64) (cs : List GroupChild) : List PlacedBlock :=
  ((GroupChild.lastBlock cs).map fun b => ⟨b, GroupChild.lastPriority cs != 0, tc, false⟩).toList

/-- The blocks of a cluster's children in order, from a cluster timecode `tc`. -/
def ClusterChild.placed : UInt64 → List ClusterChild → List PlacedBlock
  | _, [] => []
  | _, .timecode t :: cs => placed t cs
  | tc, .prevSize _ :: cs => placed tc cs
  | tc, .position _ :: cs => placed tc cs
  | tc, .simpleBlock b :: cs => ⟨b, b.keyframe, tc, true⟩ :: placed tc cs
  | tc, .blockGroup gs :: cs => GroupChild.placed tc gs ++ placed tc cs

/-- The blocks of a stream of clusters in order; each cluster's timecode starts at zero. -/
def placedBlocks (cs : List ClusterElement) : List PlacedBlock :=
  cs.flatMap fun c => ClusterChild.placed 0 c.children

@[simp] theorem placedBlocks_nil : placedBlocks [] = [] := rfl

@[simp] theorem placedBlocks_cons (c : ClusterElement) (cs : List ClusterElement) :
    placedBlocks (c :: cs) = ClusterChild.placed 0 c.children ++ placedBlocks cs := rfl

/-- Delivers blocks in order until one stops the stream: the frames delivered, and the error
that stopped it. -/
def deliverAll (numbers : List UInt64) : List PlacedBlock → List (Nat × Frame) × Option Error
  | [] => ([], none)
  | p :: ps =>
    match p.outcome numbers with
    | .ok fs => (fs ++ (deliverAll numbers ps).1, (deliverAll numbers ps).2)
    | .error err => ([], some (p.refusal err))

theorem deliverAll_append_of_none (numbers : List UInt64) {ps : List PlacedBlock}
    (h : (deliverAll numbers ps).2 = none) (qs : List PlacedBlock) :
    deliverAll numbers (ps ++ qs) =
      ((deliverAll numbers ps).1 ++ (deliverAll numbers qs).1, (deliverAll numbers qs).2) := by
  induction ps with
  | nil => simp [deliverAll]
  | cons p ps ih =>
    cases hp : p.outcome numbers with
    | ok fs =>
      simp only [deliverAll, hp] at h
      simp only [List.cons_append, deliverAll, hp, ih h, List.append_assoc]
    | error err => simp [deliverAll, hp] at h

theorem deliverAll_append_of_some (numbers : List UInt64) {ps : List PlacedBlock} {err : Error}
    (h : (deliverAll numbers ps).2 = some err) (qs : List PlacedBlock) :
    deliverAll numbers (ps ++ qs) = deliverAll numbers ps := by
  induction ps with
  | nil => simp [deliverAll] at h
  | cons p ps ih =>
    cases hp : p.outcome numbers with
    | ok fs =>
      simp only [deliverAll, hp] at h
      simp only [List.cons_append, deliverAll, hp, ih h]
    | error e => simp only [List.cons_append, deliverAll, hp]

/-- Delivery in one formula: the frames of the listed blocks before the first that does not
fit, and the refusal of that block. With no track listed, the first block closes the stream. -/
theorem deliverAll_eq (numbers : List UInt64) (ps : List PlacedBlock) :
    deliverAll numbers ps =
      (((ps.filter (·.listed numbers)).takeWhile (·.fits)).flatMap
          (fun p => p.frames (numbers.idxOf p.block.track)),
        if numbers.isEmpty then ps.head?.map (·.refusal .pipelineClosed)
        else ((ps.filter (·.listed numbers)).find? (!·.fits)).map (·.refusal .timestampOutOfRange)) := by
  induction ps with
  | nil => simp [deliverAll]
  | cons p ps ih =>
    simp only [deliverAll, PlacedBlock.outcome]
    by_cases hl : p.listed numbers = true
    · -- a listed block: the tracks are not all gone
      have hne : numbers.isEmpty = false := by
        simp only [PlacedBlock.listed, List.contains_iff_mem] at hl
        exact List.isEmpty_eq_false_iff.mpr (List.ne_nil_of_mem hl)
      by_cases hf : p.fits = true
      · simp [hl, hf, hne, ih]
      · simp [hl, hf, hne]
    · by_cases he : numbers.isEmpty = true
      · have hnil : numbers = [] := List.isEmpty_iff.mp he
        subst hnil
        simp [PlacedBlock.listed]
      · simp [hl, he, ih]

end Matroska

end Ebml
