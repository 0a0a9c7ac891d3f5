import Ebml.Matroska.ClusterWriter
import Ebml.Matroska.Sorter

/-!
# The threads of a stream writer

A stream writer is a set of threads handing frames on over rendezvous channels: the track
handles, with a sorter one forwarding thread per handle and the sorter thread, and the writer
thread, which writes the frames it takes, drops its receiver and reports at its first error,
closes the stream when its channel ends, and exits. A step is one move of one party, the user's
calls on the handles included (`Threads.step`), so a run is any interleaving of calls and moves;
`Threads.settle` lets the threads move in a fixed order until none can.
-/

namespace Ebml

namespace Matroska

/-! ## Parties -/

/-- What a track handle is doing: nothing, writing a frame until it is taken, closing until the
writer thread has exited, or nothing more, once closed or dropped. -/
inductive HandleState where
  | idle
  | writing (f : Frame)
  | closing
  | closed
  | dropped
  deriving Inhabited

/-- A track handle: the track number it puts on its frames, and what it is doing. -/
structure Handle where
  number : UInt64
  state : HandleState := .idle
  deriving Inhabited

/-- Whether a handle still holds its sender: it is neither closing nor done. -/
def Handle.sending (h : Handle) : Bool :=
  match h.state with
  | .idle | .writing _ => true
  | .closing | .closed | .dropped => false

/-- A forwarding thread: waiting for its handle's next frame, offering a frame to the sorter
thread, or ended. -/
inductive Forwarder where
  | receiving
  | offering (f : Frame)
  | ended
  deriving Inhabited

/-- Whether a forwarding thread has ended. -/
def Forwarder.isEnded : Forwarder → Bool
  | .ended => true
  | .receiving | .offering _ => false

/-- The sorter thread: receiving frames from the forwarding threads, handing frames the sorter
released to the writer thread (the sorter's last ones when `last`), or returned. -/
inductive SorterThread where
  | receiving (s : FrameSorter)
  | handing (s : FrameSorter) (out : List (Nat × Frame)) (last : Bool)
  | returned
  deriving Inhabited

/-- How frames reach the writer thread: straight from the handles, or through a forwarding
thread per track and the sorter thread. -/
inductive Route where
  | direct
  | sorted (forwarders : List Forwarder) (sorter : SorterThread)
  deriving Inhabited

/-- The number of forwarding threads. -/
def Route.forwarderCount : Route → Nat
  | .direct => 0
  | .sorted fws _ => fws.length

/-- The writer thread, running with its writer, or exited. A running writer thread whose writer
has failed has dropped its receiver and has still to report the error. -/
inductive WriterThread where
  | running (p : Pipeline)
  | exited (p : Pipeline)
  deriving Inhabited

/-- The threads of a stream writer. -/
structure Threads where
  handles : List Handle
  route : Route
  writer : WriterThread
  deriving Inhabited

/-- A move of one party: a call the user makes on a handle, or a step of a handle's pending
call or of a thread. -/
inductive Move where
  | write (h : Nat) (f : Frame)
  | close (h : Nat)
  | drop (h : Nat)
  | handle (h : Nat)
  | forwarder (i : Nat)
  | sorter
  | writer
  deriving DecidableEq, Inhabited

/-- Whether a move is a call the user makes on a handle. -/
def Move.isCall : Move → Bool
  | .write _ _ | .close _ | .drop _ => true
  | .handle _ | .forwarder _ | .sorter | .writer => false

/-- What a move makes observable: a write returns, handing its frame over or failing with
`pipelineClosed`; the writer thread takes a frame of a track; the sorter drops an outdated
frame; the sorter thread's write of a frame fails and is logged; the writer thread reports the
error that stopped it. -/
inductive Event where
  | handed (h : Nat) (f : Frame)
  | refused (h : Nat) (f : Frame)
  | took (h : Nat) (f : Frame)
  | outdated (h : Nat) (f : Frame)
  | lost (h : Nat) (f : Frame)
  | fatal (e : Error)
  deriving DecidableEq, Inhabited

namespace WriterThread

/-- The writer of the writer thread. -/
def pipeline : WriterThread → Pipeline
  | running p | exited p => p

/-- Whether the writer thread takes frames: it runs, and its writer has not failed. -/
def receiving : WriterThread → Bool
  | running p => p.failed.isNone
  | exited _ => false

/-- The writer thread after taking a frame. -/
def take : WriterThread → Frame → WriterThread
  | running p, f => running (p.deliver f)
  | exited p, _ => exited p

end WriterThread

/-! ## What is left to do -/

/-- What is left for a handle's pending call: a write counts four, a close one. -/
def Handle.load (hd : Handle) : Nat :=
  match hd.state with
  | .writing _ => 4
  | .closing => 1
  | .idle | .closed | .dropped => 0

/-- What is left for a forwarding thread: a frame it offers counts four, waiting one. -/
def Forwarder.load : Forwarder → Nat
  | .offering _ => 4
  | .receiving => 1
  | .ended => 0

/-- What is left for the sorter thread: each frame it holds counts one, and what it does one
to three. -/
def SorterThread.load : SorterThread → Nat
  | .receiving so => 2 + so.len
  | .handing so out last => (if last then 1 else 3) + so.len + out.length
  | .returned => 0

/-- What is left for the writer thread: two while it takes frames, one once its writer has
failed. -/
def WriterThread.load : WriterThread → Nat
  | .running p => if p.failed.isSome then 1 else 2
  | .exited _ => 0

/-- What is left for the forwarding threads and the sorter thread. -/
def Route.load : Route → Nat
  | .direct => 0
  | .sorted fws t => (fws.map Forwarder.load).foldr (· + ·) 0 + t.load

namespace Threads

/-! ## Moves -/

/-- The threads with handle `h` doing something else. -/
def setHandle (s : Threads) (h : Nat) (st : HandleState) : Threads :=
  { s with handles := s.handles.modify h fun hd => { hd with state := st } }

/-- Whether the writer thread's channel has a sender left: a handle that holds its sender, or,
with a sorter, the sorter thread until it returns. -/
def senders (s : Threads) : Bool :=
  match s.route with
  | .direct => s.handles.any Handle.sending
  | .sorted _ .returned => false
  | .sorted _ (.receiving _) | .sorted _ (.handing _ _ _) => true

/-- A user's call on an idle handle: it starts to write a frame, stamped with its track number,
closes, or is dropped. -/
def call (s : Threads) (h : Nat) (next : UInt64 → HandleState) : Option (Threads × List Event) :=
  match s.handles[h]? with
  | some { number, state := .idle } => some (s.setHandle h (next number), [])
  | _ => none

/-- A step of handle `h`'s pending call. A write ends when the receiver of its channel takes the
frame, which is the writer thread or the track's forwarding thread, or fails once that receiver
is gone. A close returns once the writer thread has exited. -/
def handleStep (s : Threads) (h : Nat) : Option (Threads × List Event) :=
  match s.handles[h]?, s.route with
  | some { state := .writing f, .. }, .direct =>
    if s.writer.receiving then
      some ({ s.setHandle h .idle with writer := s.writer.take f }, [.handed h f, .took h f])
    else some (s.setHandle h .idle, [.refused h f])
  | some { state := .writing f, .. }, .sorted fws t =>
    match fws[h]? with
    | some .receiving =>
      some ({ s.setHandle h .idle with route := .sorted (fws.set h (.offering f)) t }, [.handed h f])
    | some .ended => some (s.setHandle h .idle, [.refused h f])
    | some (.offering _) | none => none
  | some { state := .closing, .. }, _ =>
    match s.writer with
    | .exited _ => some (s.setHandle h .closed, [])
    | .running _ => none
  | _, _ => none

/-- A step of forwarding thread `i`. It offers its frame to the sorter thread, which pushes it
into the sorter and goes on to hand over what the sorter released; a frame the sorter drops as
outdated is logged. It ends once its handle has let go of its sender, or once the sorter thread
is gone. -/
def forwarderStep (s : Threads) (i : Nat) : Option (Threads × List Event) :=
  match s.route with
  | .direct => none
  | .sorted fws t =>
    match fws[i]?, t with
    | some (.offering f), .receiving so =>
      some ({ s with route := .sorted (fws.set i .receiving) (.handing (so.push i f).1 (so.push i f).2 false) },
        if so.Outdated f then [.outdated i f] else [])
    | some (.offering _), .returned => some ({ s with route := .sorted (fws.set i .ended) .returned }, [])
    | some .receiving, _ =>
      if (s.handles[i]?.map Handle.sending).getD false then none
      else some ({ s with route := .sorted (fws.set i .ended) t }, [])
    | some (.offering _), .handing _ _ _ | some .ended, _ | none, _ => none

/-- A step of the sorter thread. It hands its next frame to the writer thread, or logs it once
the writer thread takes no more; with nothing left to hand over it receives again, or returns
after the sorter's last frames. It finishes the sorter once every forwarding thread has
ended. -/
def sorterStep (s : Threads) : Option (Threads × List Event) :=
  match s.route with
  | .direct => none
  | .sorted fws (.handing so ((i, f) :: out) last) =>
    if s.writer.receiving then
      some ({ s with route := .sorted fws (.handing so out last), writer := s.writer.take f }, [.took i f])
    else some ({ s with route := .sorted fws (.handing so out last) }, [.lost i f])
  | .sorted fws (.handing so [] false) => some ({ s with route := .sorted fws (.receiving so) }, [])
  | .sorted fws (.handing _ [] true) => some ({ s with route := .sorted fws .returned }, [])
  | .sorted fws (.receiving so) =>
    if fws.all Forwarder.isEnded then
      some ({ s with route := .sorted fws (.handing so.finish.1 so.finish.2 true) }, [])
    else none
  | .sorted _ .returned => none

/-- A step of the writer thread: once its writer has failed it reports the error and exits;
once its channel has no sender left it closes the stream and exits, unless closing fails. -/
def writerStep (s : Threads) : Option (Threads × List Event) :=
  match s.writer with
  | .exited _ => none
  | .running p =>
    match p.failed with
    | some e => some ({ s with writer := .exited p }, [.fatal e])
    | none =>
      if s.senders then none
      else
        match p.writer.finish with
        | (w, none) => some ({ s with writer := .exited { writer := w } }, [])
        | (w, some e) => some ({ s with writer := .running { writer := w, failed := some e } }, [])

/-- Makes a move, if the party can make it, giving the threads after it and its events. -/
def step (s : Threads) : Move → Option (Threads × List Event)
  | .write h f => s.call h fun number => .writing { f with track := number }
  | .close h => s.call h fun _ => .closing
  | .drop h => s.call h fun _ => .dropped
  | .handle h => s.handleStep h
  | .forwarder i => s.forwarderStep i
  | .sorter => s.sorterStep
  | .writer => s.writerStep

/-- Makes moves one after another, as long as each can be made, giving the threads after the
last and the events of all. -/
def run : Threads → List Move → Option (Threads × List Event)
  | s, [] => some (s, [])
  | s, m :: ms =>
    match s.step m with
    | none => none
    | some (t, es) => (t.run ms).map fun r => (r.1, es ++ r.2)

/-! ## Scheduling -/

/-- The threads' moves, in the order a scheduler tries them: the handles' pending calls, the
forwarding threads, the sorter thread and the writer thread. -/
def threadMoves (s : Threads) : List Move :=
  (List.range s.handles.length).map .handle ++ (List.range s.route.forwarderCount).map .forwarder ++
    [.sorter, .writer]

/-- The first move of a thread that can be made, and what it does. -/
def next (s : Threads) : Option (Threads × List Event) := s.threadMoves.findSome? s.step

/-- What is left for the threads to do: every move of a thread lowers it. -/
def load (s : Threads) : Nat :=
  (s.handles.map Handle.load).foldr (· + ·) 0 + s.route.load + s.writer.load

/-- Lets the threads move, the first that can each time, until none can or `fuel` moves are
made. -/
def settle : Nat → Threads → Threads × List Event
  | 0, s => (s, [])
  | fuel + 1, s =>
    match s.next with
    | none => (s, [])
    | some (s', es) =>
      let r := settle fuel s'
      (r.1, es ++ r.2)

/-- Makes a user's call, then lets the threads move until none can. -/
def perform (s : Threads) (m : Move) : Threads × List Event :=
  match s.step m with
  | none => (s, [])
  | some (s', es) =>
    let r := s'.settle s'.load
    (r.1, es ++ r.2)

/-- Makes a user's calls one after another, each once the threads can no longer move. -/
def performAll : Threads → List Move → Threads × List Event
  | s, [] => (s, [])
  | s, m :: ms =>
    let r := s.perform m
    let r' := performAll r.1 ms
    (r'.1, r.2 ++ r'.2)

/-- The threads of a stream writer once its header is written: a handle for each track number,
with a forwarding thread each and the sorter thread when frames are sorted, and the writer
thread with its writer. -/
def start (numbers : List UInt64) (sorter : Option SorterOptions) (p : Pipeline) : Threads :=
  { handles := numbers.map fun n => { number := n }
    route := match sorter with
      | none => .direct
      | some o => .sorted (numbers.map fun _ => .receiving) (.receiving (FrameSorter.new numbers.length o))
    writer := .running p }

end Threads

namespace Event

/-- What a write returns, for an event that ends one: the octets handed over, or
`pipelineClosed`. -/
def writeResult : Event → Option (Except Error Nat)
  | handed _ f => some (.ok f.data.length)
  | refused _ _ => some (.error .pipelineClosed)
  | took _ _ | outdated _ _ | lost _ _ | fatal _ => none

/-- The error reported, for the writer thread's report. -/
def fatalError : Event → Option Error
  | fatal e => some e
  | handed _ _ | refused _ _ | took _ _ | outdated _ _ | lost _ _ => none

end Event

end Matroska

end Ebml
