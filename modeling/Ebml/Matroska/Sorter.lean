import Ebml.Matroska.Document
import Ebml.Error

/-!
# Sorting frames across tracks

A sorter queues the frames of every track and releases them oldest first, once every track has
a frame waiting; ties go to the track given first. A track with more than `maxDelayedPackets`
frames waiting, or waiting frames spanning more than `maxTimescaleDelay`, also releases the
oldest frame. A frame older than the last one released is dropped, or queued anyway, by the
sorter's rule.
-/

namespace Ebml

namespace Matroska

/-- What to do with a frame older than the last one released. -/
inductive OutdatedRule where
  | drop
  | keep
  deriving DecidableEq, Inhabited

/-- The limits of a sorter (zero is unset) and its rule for outdated frames. -/
structure SorterOptions where
  maxDelayedPackets : Nat := 0
  maxTimescaleDelay : Int := 0
  rule : OutdatedRule := .drop
  deriving DecidableEq, Inhabited

/-- Checks that exactly one limit is set, and that the span limit is not negative. -/
def SorterOptions.validate (o : SorterOptions) : Except Error SorterOptions :=
  if (o.maxDelayedPackets = 0) = (o.maxTimescaleDelay = 0) then .error .invalidSorterOptions
  else if o.maxTimescaleDelay < 0 then .error .invalidSorterOptions
  else .ok o

/-- A sorter: a queue per track, the timestamp of the last frame released, and its options. -/
structure FrameSorter where
  queues : List (List Frame)
  done : Int := minTimestamp
  options : SorterOptions
  deriving Inhabited

namespace FrameSorter

/-- A sorter for `tracks` tracks, with nothing waiting. -/
def new (tracks : Nat) (options : SorterOptions) : FrameSorter :=
  { queues := List.replicate tracks [], options }

/-- The number of frames waiting. -/
def len (s : FrameSorter) : Nat := s.queues.foldl (fun n q => n + q.length) 0

/-- What a scan of the queues finds: the track whose first frame is oldest (the first such
track), how many queues are not empty, the longest queue, the oldest first frame and the
newest last frame. -/
structure Scan where
  oldest : Option (Nat × Int) := none
  nonEmpty : Nat := 0
  backlog : Nat := 0
  minHead : Int := maxTimestamp
  maxTail : Int := minTimestamp

/-- Scans the queues, counting tracks from `i`. -/
def scan : Nat → List (List Frame) → Scan → Scan
  | _, [], acc => acc
  | i, q :: qs, acc =>
    match q.head?, q.getLast? with
    | some head, some tail =>
      let oldest := match acc.oldest with
        | some (j, t) => if head.timestamp < t then some (i, head.timestamp) else some (j, t)
        | none => some (i, head.timestamp)
      scan (i + 1) qs
        { oldest, nonEmpty := acc.nonEmpty + 1, backlog := max acc.backlog q.length,
          minHead := min acc.minHead head.timestamp, maxTail := max acc.maxTail tail.timestamp }
    | _, _ => scan (i + 1) qs acc

/-- Releases frames oldest first while enough tracks have frames waiting (all of them, or one
when `force`) or a limit is passed. Each round releases one frame, so `fuel` rounds suffice
for that many frames. -/
def flush (force : Bool) : Nat → FrameSorter → FrameSorter × List (Nat × Frame)
  | 0, s => (s, [])
  | fuel + 1, s =>
    let found := scan 0 s.queues {}
    match found.oldest with
    | none => (s, [])
    | some (i, _) =>
      let required := if force then 1 else s.queues.length
      let backlogged := s.options.maxDelayedPackets ≠ 0 ∧ found.backlog > s.options.maxDelayedPackets
      let delayed := s.options.maxTimescaleDelay ≠ 0 ∧
        saturatingSub found.maxTail found.minHead > s.options.maxTimescaleDelay
      if found.nonEmpty < required ∧ ¬backlogged ∧ ¬delayed then (s, [])
      else
        match (s.queues.getD i []) with
        | [] => (s, [])
        | f :: rest =>
          let s := { s with queues := s.queues.set i rest, done := f.timestamp }
          let (s, out) := flush force fuel s
          (s, (i, f) :: out)

/-- The frame is older than the last frame released, and such frames are dropped. -/
def Outdated (s : FrameSorter) (f : Frame) : Prop := f.timestamp < s.done ∧ s.options.rule = .drop

instance (s : FrameSorter) (f : Frame) : Decidable (s.Outdated f) :=
  inferInstanceAs (Decidable (_ ∧ _))

/-- Adds a frame of track `i`, giving the frames released. -/
def push (s : FrameSorter) (i : Nat) (f : Frame) : FrameSorter × List (Nat × Frame) :=
  if f.timestamp < s.done ∧ s.options.rule = .drop then (s, [])
  else
    let s := { s with queues := s.queues.modify i (· ++ [f]) }
    flush false s.len s

/-- Releases every frame still waiting, oldest first. -/
def finish (s : FrameSorter) : FrameSorter × List (Nat × Frame) := flush true s.len s

end FrameSorter

end Matroska

end Ebml
