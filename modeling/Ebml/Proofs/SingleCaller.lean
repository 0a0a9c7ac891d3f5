import Mathlib.Tactic.Set
import Ebml.Proofs.Stopping
import Ebml.Proofs.ThreadSteps

/-!
# A stream written by a single caller

`writeStream` makes the calls of a single caller: the handle writes in order, each once the
threads have stopped moving, then it drops every handle but the last and closes the last.
Between two writes the threads rest with every handle idle, and the writer thread has taken the
frames of the writes so far, as they came or as the sorter released them. So the stream is what
the writer makes of those frames, closed once the last handle is closed, and the writes return
what the writer thread or the sorter made of them (`writeStream_ok`).
-/

namespace Ebml

namespace Matroska

/-- The writer thread between two calls of a single caller: running while its writer has not
failed, and exited, after reporting the error, once it has. -/
def WriterThread.atRest (p : Pipeline) : WriterThread :=
  match p.failed with
  | none => .running p
  | some _ => .exited p

namespace WriterThread

/-- A writer thread that no longer takes frames stays as it is. -/
theorem take_of_receiving_false {w : WriterThread} (h : w.receiving = false)
    (f : Frame) : w.take f = w := by
  cases w with
  | running q =>
    cases hq : q.failed with
    | none => simp [WriterThread.receiving, hq] at h
    | some e => rw [WriterThread.take, Pipeline.deliver_of_failed (by simp [hq])]
  | exited q => rfl

/-- A running writer thread takes the frames handed to it one by one. -/
theorem foldl_take_running (out : List (Nat × Frame)) (q : Pipeline) :
    out.foldl (fun (w : WriterThread) (x : Nat × Frame) => w.take x.2) (.running q) = .running (q.deliverAll (out.map (·.2))) := by
  induction out generalizing q with
  | nil => rfl
  | cons x out ih => exact ih (q.deliver x.2)

/-- An exited writer thread takes nothing. -/
theorem foldl_take_exited (out : List (Nat × Frame)) (q : Pipeline) :
    out.foldl (fun (w : WriterThread) (x : Nat × Frame) => w.take x.2) (.exited q) = .exited q := by
  induction out with
  | nil => rfl
  | cons x out ih => exact ih

end WriterThread

/-- The forwarding thread of a handle between two calls of a single caller: waiting while the
handle holds its sender, and ended once it has let go of it. -/
def Forwarder.following (hd : Handle) : Forwarder :=
  if hd.sending then .receiving else .ended

namespace Pipeline

/-- The writer once its stream is closed: as it stopped, or with the closing cluster written and
the error closing met, if any. -/
def closed (p : Pipeline) : Pipeline :=
  match p.failed with
  | some _ => p
  | none => { writer := p.writer.finish.1, failed := p.writer.finish.2 }

theorem closed_of_failed {p : Pipeline} (h : p.failed.isSome) : p.closed = p := by
  unfold closed
  cases hp : p.failed with
  | none => simp [hp] at h
  | some e => rfl

/-- A stream ends as its closed writer left it. -/
theorem ends_of_closed {p : Pipeline} {r : WriteResult} (hfatal : r.fatal = p.closed.failed)
    (hstream : r.stream = p.closed.writer.sink.written) : p.Ends r := by
  unfold closed at hfatal hstream
  refine ⟨fun e he => ?_, fun he => ?_⟩
  · simp only [he] at hfatal hstream
    exact ⟨hfatal, hstream⟩
  · simp only [he] at hfatal hstream
    exact ⟨hfatal, hstream⟩

/-- A stream that ends as a writer left it reports the error its closed writer keeps. -/
theorem Ends.fatal_eq {p : Pipeline} {r : WriteResult} (h : p.Ends r) : r.fatal = p.closed.failed := by
  cases hf : p.failed with
  | some e =>
    rw [closed_of_failed (by simp [hf]), hf]
    exact (h.1 e hf).1
  | none =>
    simp only [closed, hf]
    exact (h.2 hf).1

end Pipeline

/-- The frame of a handle write, stamped with its track's number. -/
theorem HandleWrite.stamp {numbers : List UInt64} {hw : HandleWrite} {n : UInt64}
    (hn : numbers[hw.track]? = some n) : { hw.frame with track := n } = hw.toFrame numbers := by
  simp [HandleWrite.frame, HandleWrite.toFrame, List.getD_eq_getElem?_getD, hn]

namespace Threads

/-- The threads of a single caller's stream between two calls: the handles, each idle or let go,
the sorter thread, if any, receiving with its sorter, and the writer thread at rest. -/
def resting (H : List Handle) (so : Option FrameSorter) (p : Pipeline) : Threads :=
  { handles := H
    route := match so with
      | none => .direct
      | some so => .sorted (H.map Forwarder.following) (.receiving so)
    writer := .atRest p }

/-- An entry set to what it is leaves a list as it is. -/
theorem set_self_of_getElem? {α : Type} {l : List α} {i : Nat} {a : α} (h : l[i]? = some a) :
    l.set i a = l := by
  obtain ⟨hi, rfl⟩ := List.getElem?_eq_some_iff.mp h
  exact List.set_getElem_self hi

/-- Changing an entry to what it is leaves a list as it is. -/
theorem modify_self {α : Type} {l : List α} {i : Nat} {g : α → α}
    (h : ∀ a, l[i]? = some a → g a = a) : l.modify i g = l := by
  apply List.ext_getElem?
  intro j
  rw [List.getElem?_modify]
  split
  · next hij =>
    subst hij
    cases ha : l[i]? with
    | none => rfl
    | some a => simp [h a ha]
  · simp

/-- A handle back to idle is the handle it was. -/
theorem setHandle_setHandle_idle {s : Threads} {h : Nat} {hd : Handle}
    (hh : s.handles[h]? = some hd) (hidle : hd.state = .idle) (st : HandleState) :
    (s.setHandle h st).setHandle h .idle = s := by
  obtain ⟨handles, route, writer⟩ := s
  simp only [setHandle, Threads.mk.injEq, and_true]
  apply List.ext_getElem?
  intro j
  simp only [List.getElem?_modify]
  split
  · next hj =>
    subst hj
    obtain ⟨number, state⟩ := hd
    simp only at hidle
    subst hidle
    simp [hh]
  · simp

/-! ## Parties that wait -/

section Waiting

variable {H : List Handle} {r : Route} {p : Pipeline}

/-- Handles that do not move while the writer thread is `w`: idle, done, or closing while the
writer thread runs. -/
def HandlesWait (H : List Handle) (w : WriterThread) : Prop :=
  ∀ hd ∈ H, hd.state = .idle ∨ hd.state = .closed ∨ hd.state = .dropped ∨
    (hd.state = .closing ∧ ∀ q, w ≠ .exited q)

theorem HandlesWait.of_quiet (hH : ∀ hd ∈ H, hd.state = .idle ∨ hd.state = .closed ∨ hd.state = .dropped)
    (w : WriterThread) : HandlesWait H w := by
  intro hd hmem
  rcases hH hd hmem with h | h | h
  · exact .inl h
  · exact .inr (.inl h)
  · exact .inr (.inr (.inl h))

theorem HandlesWait.take {w : WriterThread} (hH : HandlesWait H w) (f : Frame) :
    HandlesWait H (w.take f) := by
  intro hd hmem
  rcases hH hd hmem with h | h | h | ⟨hc, hw⟩
  · exact .inl h
  · exact .inr (.inl h)
  · exact .inr (.inr (.inl h))
  · refine .inr (.inr (.inr ⟨hc, fun q => ?_⟩))
    cases w with
    | running q' => simp [WriterThread.take]
    | exited q' => exact absurd rfl (hw q')

theorem HandlesWait.step_none {w : WriterThread} (hH : HandlesWait H w) (j : Nat) :
    (Threads.mk H r w).step (.handle j) = none := by
  cases hh : H[j]? with
  | none => simp [step, handleStep, hh]
  | some hd => exact step_handle_eq_none hh (hH hd (List.mem_of_getElem? hh))

/-- A call on one of handles that wait leaves the others waiting. -/
theorem step_handle_of_ne {s : Threads} (hH : HandlesWait s.handles s.writer) {h j : Nat}
    (st : HandleState) (hj : j ≠ h) : (s.setHandle h st).step (.handle j) = none := by
  cases hj' : s.handles[j]? with
  | none => simp [step, handleStep, getElem?_setHandle, Ne.symm hj, hj']
  | some hd =>
    refine step_handle_eq_none ?_ (by simpa using hH hd (List.mem_of_getElem? hj'))
    rw [getElem?_setHandle, if_neg (Ne.symm hj)]
    exact hj'

/-- Forwarding threads that do not move: ended, or waiting on a handle that holds its sender. -/
def ForwardersWait (H : List Handle) (F : List Forwarder) : Prop :=
  ∀ (i : Nat) (fw : Forwarder), F[i]? = some fw →
    fw = .ended ∨ (fw = .receiving ∧ (H[i]?.map Handle.sending).getD false = true)

/-- The forwarding threads that follow their handles wait. -/
theorem forwardersWait_following (H : List Handle) : ForwardersWait H (H.map Forwarder.following) := by
  intro i fw hfw
  rw [List.getElem?_map] at hfw
  cases hh : H[i]? with
  | none => simp [hh] at hfw
  | some hd =>
    simp only [hh, Option.map_some, Option.some.injEq, Forwarder.following] at hfw
    subst hfw
    cases hs : hd.sending
    · exact .inl (by simp)
    · exact .inr ⟨by simp, by simp [hs]⟩

/-- A forwarding thread that is as it is among forwarding threads that wait does not move. -/
theorem ForwardersWait.step_none_at {F F' : List Forwarder} (hF : ForwardersWait H F) {i : Nat}
    (hi : F'[i]? = F[i]?) (t : SorterThread) (w : WriterThread) :
    (Threads.mk H (.sorted F' t) w).step (.forwarder i) = none := by
  cases hfw : F[i]? with
  | none => simp [step, forwarderStep, hi, hfw]
  | some fw =>
    rw [hfw] at hi
    rcases hF i fw hfw with rfl | ⟨rfl, hsend⟩
    · exact step_forwarder_eq_none rfl (.inl hi)
    · exact step_forwarder_eq_none rfl (.inr ⟨hi, hsend⟩)

theorem ForwardersWait.step_none {F : List Forwarder} (hF : ForwardersWait H F) (t : SorterThread)
    (w : WriterThread) (i : Nat) : (Threads.mk H (.sorted F t) w).step (.forwarder i) = none :=
  hF.step_none_at rfl t w

/-- What the route does while the handles wait: its threads do not move, and it holds a sender
of the writer thread's channel, or not. -/
def Waits (H : List Handle) (r : Route) (senders : Bool) : Prop :=
  ∀ w : WriterThread, (∀ i, (Threads.mk H r w).step (.forwarder i) = none) ∧
    (Threads.mk H r w).step .sorter = none ∧ (Threads.mk H r w).senders = senders

/-- Without a sorter, the writer thread's channel has a sender while a handle holds one. -/
theorem waits_direct {b : Bool} (hsend : H.any Handle.sending = b) : Waits H .direct b :=
  fun _ => ⟨step_forwarder_direct rfl, step_sorter_direct rfl, hsend⟩

/-- A receiving sorter thread waits while a forwarding thread is left, and holds its sender. -/
theorem waits_receiving {F : List Forwarder} (hF : ForwardersWait H F)
    (hlive : F.all Forwarder.isEnded = false) (so : FrameSorter) :
    Waits H (.sorted F (.receiving so)) true :=
  fun w => ⟨hF.step_none _ w, step_sorter_receiving rfl hlive, rfl⟩

/-- A returned sorter thread has let go of its sender. -/
theorem waits_returned {F : List Forwarder} (hF : ForwardersWait H F) :
    Waits H (.sorted F .returned) false :=
  fun w => ⟨hF.step_none _ w, step_sorter_returned rfl, rfl⟩

/-- Threads at rest between two calls do not move. -/
theorem next_atRest (hH : HandlesWait H (.atRest p)) (hwaits : Waits H r true) :
    (Threads.mk H r (.atRest p)).next = none := by
  obtain ⟨hfws, hsorter, hsend⟩ := hwaits (.atRest p)
  rw [next_of_threads_blocked (fun j _ => hH.step_none j) (fun i _ => hfws i), hsorter,
    Option.none_or]
  cases hp : p.failed with
  | none => exact step_writer_waits (by simp [WriterThread.atRest, hp]) hp hsend
  | some e => exact step_writer_exited (p := p) (by simp [WriterThread.atRest, hp])

/-- A running writer thread comes to rest: it reports the error its writer met, if any. -/
theorem settles_running (hH : ∀ w, HandlesWait H w) (hwaits : Waits H r true) (q : Pipeline) :
    ∃ es, Settles (Threads.mk H r (.running q)) (Threads.mk H r (.atRest q)) es ∧
      es.filterMap Event.writeResult = [] ∧ es.filterMap Event.fatalError = q.failed.toList := by
  cases hq : q.failed with
  | none =>
    have hrest : WriterThread.running q = .atRest q := by simp [WriterThread.atRest, hq]
    refine ⟨[], ?_, rfl, rfl⟩
    rw [← hrest]
    exact settles_of_next_none (hrest ▸ next_atRest (hH _) hwaits)
  | some e =>
    have hrest : WriterThread.exited q = .atRest q := by simp [WriterThread.atRest, hq]
    obtain ⟨hfws, hsorter, -⟩ := hwaits (.running q)
    have hnext : (Threads.mk H r (.running q)).next =
        some (Threads.mk H r (.exited q), [.fatal e]) := by
      rw [next_of_threads_blocked (fun j _ => (hH _).step_none j) (fun i _ => hfws i),
        hsorter, Option.none_or]
      exact step_of_transition (.report rfl hq)
    refine ⟨[.fatal e] ++ [], Settles.cons hnext ?_, rfl, rfl⟩
    rw [hrest]
    exact settles_of_next_none (next_atRest (hH _) hwaits)

/-- The sorter thread hands its frames to the writer thread one by one, or logs those the writer
thread no longer takes; no write returns meanwhile, and nothing is reported. -/
theorem leads_handing {F : List Forwarder} (hF : ForwardersWait H F) (so : FrameSorter)
    (last : Bool) :
    ∀ (out : List (Nat × Frame)) (w : WriterThread), HandlesWait H w →
      ∃ es, Leads ⟨H, .sorted F (.handing so out last), w⟩
          ⟨H, .sorted F (.handing so [] last),
            out.foldl (fun (w : WriterThread) (x : Nat × Frame) => w.take x.2) w⟩ es ∧
        es.filterMap Event.writeResult = [] ∧ es.filterMap Event.fatalError = []
  | [], w, _ => ⟨[], Leads.refl _, rfl, rfl⟩
  | (i, f) :: out, w, hH => by
    have hnext : next ⟨H, .sorted F (.handing so ((i, f) :: out) last), w⟩ =
        some (⟨H, .sorted F (.handing so out last), w.take f⟩,
          [if w.receiving then .took i f else .lost i f]) := by
      rw [next_of_threads_blocked (fun j _ => hH.step_none j) (fun k _ => hF.step_none _ w k)]
      cases hrecv : w.receiving
      · rw [step_of_transition (.lose rfl hrecv), Option.some_or,
          WriterThread.take_of_receiving_false hrecv]
        rfl
      · rw [step_of_transition (.handOut rfl hrecv), Option.some_or]
        rfl
    obtain ⟨es, hlead, hres, hfatal⟩ := leads_handing hF so last out (w.take f) (hH.take f)
    refine ⟨_ ++ es, (leads_of_next hnext).trans hlead, ?_, ?_⟩
    · rw [List.filterMap_append, hres]
      split <;> rfl
    · rw [List.filterMap_append, hfatal]
      split <;> rfl

end Waiting

/-! ## Writes -/

section Writes

variable {H : List Handle} {p : Pipeline}

/-- A write on an idle handle without a sorter, from threads at rest: the writer thread takes
the frame, stamped with the handle's track number, unless its writer has failed, and the write
returns the octets handed over, or `pipelineClosed`. -/
theorem perform_write_direct (hidle : ∀ hd ∈ H, hd.state = .idle) {h : Nat} {hd : Handle}
    (hh : H[h]? = some hd) (f : Frame) {f' : Frame} (hf' : { f with track := hd.number } = f') :
    ∃ es, (resting H none p).perform (.write h f) = (resting H none (p.deliver f'), es) ∧
      es.filterMap Event.writeResult =
        [if p.failed.isSome then .error .pipelineClosed else .ok f.data.length] ∧
      p.failed.toList ++ es.filterMap Event.fatalError = (p.deliver f').failed.toList := by
  subst hf'
  have hwait : ∀ w, HandlesWait H w := HandlesWait.of_quiet fun hd hmem => .inl (hidle hd hmem)
  have hne : H ≠ [] := by rintro rfl; simp at hh
  obtain ⟨hd₀, hmem₀⟩ := List.exists_mem_of_ne_nil H hne
  have hwaits : Waits H .direct true :=
    waits_direct (List.any_eq_true.mpr ⟨hd₀, hmem₀, by simp [Handle.sending, hidle hd₀ hmem₀]⟩)
  have hlt : h < H.length := (List.getElem?_eq_some_iff.mp hh).1
  have hhd : hd.state = .idle := hidle hd (List.mem_of_getElem? hh)
  set s₀ : Threads := resting H none p
  set f' : Frame := { f with track := hd.number }
  have hh₀ : s₀.handles[h]? = some hd := hh
  have hstep : s₀.step (.write h f) = some (s₀.setHandle h (.writing f'), []) :=
    step_of_transition (.write f hh₀ hhd)
  have hwriting : (s₀.setHandle h (.writing f')).handles[h]? = some { hd with state := .writing f' } := by
    rw [getElem?_setHandle, if_pos rfl, hh₀]
    rfl
  cases hp : p.failed with
  | none =>
    have hw : WriterThread.atRest p = .running p := by simp [WriterThread.atRest, hp]
    have hmove : (s₀.setHandle h (.writing f')).step (.handle h) =
        some (⟨H, .direct, .running (p.deliver f')⟩, [.handed h f', .took h f']) := by
      rw [step_of_transition (.handOver hwriting rfl rfl (by simp [s₀, resting, hw, WriterThread.receiving, hp])),
        setHandle_setHandle_idle hh₀ hhd]
      simp [s₀, resting, hw, WriterThread.take]
    obtain ⟨es, hsettle, hres, hfatal⟩ := settles_running hwait hwaits (p.deliver f')
    refine ⟨[] ++ ([.handed h f', .took h f'] ++ es),
      perform_of_settles hstep (Settles.cons (next_of_handle (by simpa [s₀, resting] using hlt)
        (fun j _ hj => step_handle_of_ne (hwait _) _ hj) hmove) hsettle), ?_, ?_⟩
    · rw [List.nil_append, List.filterMap_append, hres, List.append_nil]
      rfl
    · rw [List.nil_append, List.filterMap_append, hfatal]
      rfl
  | some e =>
    have hw : WriterThread.atRest p = .exited p := by simp [WriterThread.atRest, hp]
    have hmove : (s₀.setHandle h (.writing f')).step (.handle h) = some (s₀, [.refused h f']) := by
      rw [step_of_transition (.refuse hwriting rfl rfl (by simp [s₀, resting, hw, WriterThread.receiving])),
        setHandle_setHandle_idle hh₀ hhd]
    have hrest : s₀ = resting H none (p.deliver f') := by
      rw [Pipeline.deliver_of_failed (by simp [hp])]
    refine ⟨[] ++ ([.refused h f'] ++ []),
      perform_of_settles hstep (Settles.cons (next_of_handle (by simpa [s₀, resting] using hlt)
        (fun j _ hj => step_handle_of_ne (hwait _) _ hj) hmove) ?_), ?_, ?_⟩
    · rw [← hrest]
      exact settles_of_next_none (next_atRest (hwait _) hwaits)
    · rfl
    · rw [Pipeline.deliver_of_failed (by simp [hp]), hp]
      rfl

/-- A write on an idle handle with a sorter, from threads at rest: the handle hands the frame,
stamped with its track number, to its forwarding thread, which pushes it into the sorter; the
writer thread takes what the sorter releases, unless its writer has failed, and the write
returns the octets handed over. -/
theorem perform_write_sorted (hidle : ∀ hd ∈ H, hd.state = .idle) {h : Nat} {hd : Handle}
    (hh : H[h]? = some hd) (so : FrameSorter) (f : Frame) {f' : Frame}
    (hf' : { f with track := hd.number } = f') :
    ∃ es, (resting H (some so) p).perform (.write h f) =
        (resting H (some (so.push h f').1) (p.deliverAll ((so.push h f').2.map (·.2))), es) ∧
      es.filterMap Event.writeResult = [.ok f.data.length] ∧
      p.failed.toList ++ es.filterMap Event.fatalError =
        (p.deliverAll ((so.push h f').2.map (·.2))).failed.toList := by
  subst hf'
  have hwait : ∀ w, HandlesWait H w := HandlesWait.of_quiet fun hd hmem => .inl (hidle hd hmem)
  have hlt : h < H.length := (List.getElem?_eq_some_iff.mp hh).1
  have hhd : hd.state = .idle := hidle hd (List.mem_of_getElem? hh)
  set F : List Forwarder := H.map Forwarder.following
  set f' : Frame := { f with track := hd.number }
  set s₀ : Threads := resting H (some so) p
  have hFh : F[h]? = some .receiving := by
    simp [F, hh, Forwarder.following, Handle.sending, hhd]
  have hh₀ : s₀.handles[h]? = some hd := hh
  have hstep : s₀.step (.write h f) = some (s₀.setHandle h (.writing f'), []) :=
    step_of_transition (.write f hh₀ hhd)
  have hwriting : (s₀.setHandle h (.writing f')).handles[h]? = some { hd with state := .writing f' } := by
    rw [getElem?_setHandle, if_pos rfl, hh₀]
    rfl
  have hforward : (s₀.setHandle h (.writing f')).step (.handle h) =
      some (⟨H, .sorted (F.set h (.offering f')) (.receiving so), .atRest p⟩, [.handed h f']) := by
    rw [step_of_transition (.forward hwriting rfl rfl hFh), setHandle_setHandle_idle hh₀ hhd]
    rfl
  have hpush : next ⟨H, .sorted (F.set h (.offering f')) (.receiving so), .atRest p⟩ =
      some (⟨H, .sorted F (.handing (so.push h f').1 (so.push h f').2 false), .atRest p⟩,
        if so.Outdated f' then [.outdated h f'] else []) := by
    refine next_of_forwarder (fun j _ => (hwait _).step_none j) (by simp [F, Route.forwarderCount, hlt])
      (fun k _ hk => (forwardersWait_following H).step_none_at (List.getElem?_set_ne (Ne.symm hk)) _ _) ?_
    rw [step_of_transition (.push rfl (List.getElem?_set_self (by simp [F, hlt]))), List.set_set,
      set_self_of_getElem? hFh]
  obtain ⟨es, hlead, hres, hfatal⟩ := leads_handing (forwardersWait_following H) (so.push h f').1 false
    (so.push h f').2 (.atRest p) (hwait _)
  set q := p.deliverAll ((so.push h f').2.map (·.2))
  have hresume : ∀ w, next ⟨H, .sorted F (.handing (so.push h f').1 [] false), w⟩ =
      some (⟨H, .sorted F (.receiving (so.push h f').1), w⟩, []) := by
    intro w
    rw [next_of_threads_blocked (fun j _ => (hwait _).step_none j)
      (fun k _ => (forwardersWait_following H).step_none _ w k)]
    rw [step_of_transition (s := ⟨H, .sorted F (.handing (so.push h f').1 [] false), w⟩) (.resume rfl),
      Option.some_or]
  have hlive : F.all Forwarder.isEnded = false := by
    simp only [List.all_eq_false]
    exact ⟨.receiving, List.mem_of_getElem? hFh, by simp [Forwarder.isEnded]⟩
  have hwaits := waits_receiving (forwardersWait_following H) hlive (so.push h f').1
  cases hp : p.failed with
  | none =>
    have hw : WriterThread.atRest p = .running p := by simp [WriterThread.atRest, hp]
    obtain ⟨es', hsettle, hres', hfatal'⟩ := settles_running hwait hwaits q
    have hwriter : (so.push h f').2.foldl (fun (w : WriterThread) (x : Nat × Frame) => w.take x.2)
        (.atRest p) = .running q := by
      rw [hw, WriterThread.foldl_take_running]
    rw [hwriter] at hlead
    refine ⟨[] ++ ([.handed h f'] ++ ((if so.Outdated f' then [.outdated h f'] else []) ++
      ((es ++ []) ++ es'))), perform_of_settles hstep (Settles.cons (next_of_handle
        (by simpa [s₀, resting] using hlt) (fun j _ hj => step_handle_of_ne (hwait _) _ hj) hforward)
        (Settles.cons hpush ((hlead.trans (leads_of_next (hresume _))) _ _ hsettle))), ?_, ?_⟩
    · simp only [List.nil_append, List.filterMap_append, hres, hres', List.append_nil]
      split <;> rfl
    · simp only [List.nil_append, List.filterMap_append, hfatal, hfatal', List.append_nil]
      split <;> rfl
  | some e =>
    have hw : WriterThread.atRest p = .exited p := by simp [WriterThread.atRest, hp]
    have hq : q = p := Pipeline.deliverAll_of_failed (by simp [hp]) _
    have hwriter : (so.push h f').2.foldl (fun (w : WriterThread) (x : Nat × Frame) => w.take x.2)
        (.atRest p) = .atRest q := by
      rw [hw, WriterThread.foldl_take_exited, hq, hw]
    rw [hwriter] at hlead
    refine ⟨[] ++ ([.handed h f'] ++ ((if so.Outdated f' then [.outdated h f'] else []) ++
      ((es ++ []) ++ []))), perform_of_settles hstep (Settles.cons (next_of_handle
        (by simpa [s₀, resting] using hlt) (fun j _ hj => step_handle_of_ne (hwait _) _ hj) hforward)
        (Settles.cons hpush ((hlead.trans (leads_of_next (hresume _))) _ _
          (settles_of_next_none (next_atRest (hwait _) hwaits))))), ?_, ?_⟩
    · simp only [List.nil_append, List.filterMap_append, hres, List.append_nil]
      split <;> rfl
    · simp only [List.nil_append, List.filterMap_append, hfatal, List.append_nil, hq, hp]
      split <;> rfl

/-- The calls of a single caller, one after the other. -/
theorem performAll_cons {s t : Threads} {m : Move} {es : List Event} (h : s.perform m = (t, es))
    (ms : List Move) : s.performAll (m :: ms) = ((t.performAll ms).1, es ++ (t.performAll ms).2) := by
  simp only [performAll, h]

theorem performAll_append (s : Threads) (ms ms' : List Move) :
    s.performAll (ms ++ ms') =
      (((s.performAll ms).1.performAll ms').1, (s.performAll ms).2 ++ ((s.performAll ms).1.performAll ms').2) := by
  induction ms generalizing s with
  | nil => simp [performAll]
  | cons m ms ih => simp only [List.cons_append, performAll, ih, List.append_assoc]

/-- A call on a handle there is not is not made. -/
theorem step_call_none {s : Threads} {h : Nat} (hh : s.handles.length ≤ h) (next : UInt64 → HandleState) :
    s.call h next = none := by
  simp [call, List.getElem?_eq_none hh]

/-- The handles of a stream writer's tracks, idle. -/
theorem getElem?_handles {numbers : List UInt64} {j : Nat} (hj : j < numbers.length) :
    (numbers.map fun n => ({ number := n } : Handle))[j]? = some { number := numbers[j] } := by
  simp [hj]

section Runs

variable (numbers : List UInt64)

/-- The handle writes of a single caller without a sorter: the writer thread takes the frames of
the writes on a handle, as they come, and they return what `directResults` says; a write on no
handle is not made. -/
theorem performAll_writes_direct :
    ∀ (ws : List HandleWrite) (p : Pipeline),
      ∃ es, (resting (numbers.map fun n => { number := n }) none p).performAll
            (ws.map fun hw => .write hw.track hw.frame) =
          (resting (numbers.map fun n => { number := n }) none
            (p.deliverAll ((ws.filter (·.track < numbers.length)).map (HandleWrite.toFrame numbers))), es) ∧
        es.filterMap Event.writeResult =
          p.directResults ((ws.filter (·.track < numbers.length)).map (HandleWrite.toFrame numbers)) ∧
        p.failed.toList ++ es.filterMap Event.fatalError =
          (p.deliverAll ((ws.filter (·.track < numbers.length)).map
            (HandleWrite.toFrame numbers))).failed.toList
  | [], p => ⟨[], rfl, rfl, List.append_nil _⟩
  | hw :: ws, p => by
    by_cases hin : hw.track < numbers.length
    · have hn : numbers[hw.track]? = some numbers[hw.track] := List.getElem?_eq_getElem hin
      obtain ⟨es₁, h₁, hres₁, hfatal₁⟩ := perform_write_direct (p := p) (by simp)
        (getElem?_handles hin) hw.frame (HandleWrite.stamp hn)
      obtain ⟨es₂, h₂, hres₂, hfatal₂⟩ :=
        performAll_writes_direct ws (p.deliver (hw.toFrame numbers))
      have hfilter : (hw :: ws).filter (·.track < numbers.length) =
          hw :: ws.filter (·.track < numbers.length) :=
        List.filter_cons_of_pos (by simpa using hin)
      refine ⟨es₁ ++ es₂, ?_, ?_, ?_⟩
      · rw [List.map_cons, performAll_cons h₁, h₂, hfilter, List.map_cons, Pipeline.deliverAll_cons]
      · rw [List.filterMap_append, hres₁, hres₂, hfilter, List.map_cons, Pipeline.directResults]
        rfl
      · rw [List.filterMap_append, ← List.append_assoc, hfatal₁, hfatal₂, hfilter, List.map_cons,
          Pipeline.deliverAll_cons]
    · have hnone : (resting (numbers.map fun n => { number := n }) none p).perform
          (.write hw.track hw.frame) = (resting (numbers.map fun n => { number := n }) none p, []) :=
        perform_of_none (step_call_none (by simpa [resting] using hin) _)
      obtain ⟨es, h, hres, hfatal⟩ := performAll_writes_direct ws p
      have hfilter : (hw :: ws).filter (·.track < numbers.length) =
          ws.filter (·.track < numbers.length) :=
        List.filter_cons_of_neg (by simpa using hin)
      refine ⟨[] ++ es, ?_, ?_, ?_⟩
      · rw [List.map_cons, performAll_cons hnone, h, hfilter]
      · rw [List.nil_append, hres, hfilter]
      · rw [List.nil_append, hfatal, hfilter]

/-- The handle writes of a single caller with a sorter: every write on a handle pushes its frame
into the sorter and returns the octets handed over, and the writer thread takes what the sorter
releases; a write on no handle is not made. -/
theorem performAll_writes_sorted :
    ∀ (ws : List HandleWrite) (so : FrameSorter) (p : Pipeline),
      ∃ es, (resting (numbers.map fun n => { number := n }) (some so) p).performAll
            (ws.map fun hw => .write hw.track hw.frame) =
          (resting (numbers.map fun n => { number := n })
            (some (so.pushAll ((ws.filter (·.track < numbers.length)).map
              fun hw => (hw.track, hw.toFrame numbers))).1)
            (p.deliverAll ((so.pushAll ((ws.filter (·.track < numbers.length)).map
              fun hw => (hw.track, hw.toFrame numbers))).2.flatten.map (·.2))), es) ∧
        es.filterMap Event.writeResult =
          (ws.filter (·.track < numbers.length)).map (fun hw => .ok hw.data.length) ∧
        p.failed.toList ++ es.filterMap Event.fatalError =
          (p.deliverAll ((so.pushAll ((ws.filter (·.track < numbers.length)).map
            fun hw => (hw.track, hw.toFrame numbers))).2.flatten.map (·.2))).failed.toList
  | [], so, p => ⟨[], rfl, rfl, List.append_nil _⟩
  | hw :: ws, so, p => by
    by_cases hin : hw.track < numbers.length
    · have hn : numbers[hw.track]? = some numbers[hw.track] := List.getElem?_eq_getElem hin
      obtain ⟨es₁, h₁, hres₁, hfatal₁⟩ := perform_write_sorted (p := p) (by simp)
        (getElem?_handles hin) so hw.frame (HandleWrite.stamp hn)
      obtain ⟨es₂, h₂, hres₂, hfatal₂⟩ := performAll_writes_sorted ws
        (so.push hw.track (hw.toFrame numbers)).1
        (p.deliverAll ((so.push hw.track (hw.toFrame numbers)).2.map (·.2)))
      have hfilter : (hw :: ws).filter (·.track < numbers.length) =
          hw :: ws.filter (·.track < numbers.length) :=
        List.filter_cons_of_pos (by simpa using hin)
      refine ⟨es₁ ++ es₂, ?_, ?_, ?_⟩
      · rw [List.map_cons, performAll_cons h₁, h₂, hfilter, List.map_cons]
        simp only [FrameSorter.pushAll, List.flatten_cons, List.map_append,
          Pipeline.deliverAll_append]
      · rw [List.filterMap_append, hres₁, hres₂, hfilter, List.map_cons]
        rfl
      · rw [List.filterMap_append, ← List.append_assoc, hfatal₁, hfatal₂, hfilter, List.map_cons]
        simp only [FrameSorter.pushAll, List.flatten_cons, List.map_append,
          Pipeline.deliverAll_append]
    · have hnone : (resting (numbers.map fun n => { number := n }) (some so) p).perform
          (.write hw.track hw.frame) = (resting (numbers.map fun n => { number := n }) (some so) p, []) :=
        perform_of_none (step_call_none (by simpa [resting] using hin) _)
      obtain ⟨es, h, hres, hfatal⟩ := performAll_writes_sorted ws so p
      have hfilter : (hw :: ws).filter (·.track < numbers.length) =
          ws.filter (·.track < numbers.length) :=
        List.filter_cons_of_neg (by simpa using hin)
      refine ⟨[] ++ es, ?_, ?_, ?_⟩
      · rw [List.map_cons, performAll_cons hnone, h, hfilter]
      · rw [List.nil_append, hres, hfilter]
      · rw [List.nil_append, hfatal, hfilter]

end Runs

end Writes

/-! ## Letting go of the handles -/

section Ending

variable {H : List Handle} {r : Route} {q : Pipeline}

/-- What holds of every entry, and of every entry changed, holds after one entry changed. -/
theorem forall_mem_modify {α : Type} {P : α → Prop} {l : List α} {i : Nat} {g : α → α}
    (hl : ∀ a ∈ l, P a) (hg : ∀ a ∈ l, P (g a)) : ∀ a ∈ l.modify i g, P a := by
  intro a ha
  obtain ⟨k, hk⟩ := List.mem_iff_getElem?.mp ha
  rw [List.getElem?_modify] at hk
  split at hk
  · obtain ⟨b, hb, rfl⟩ := Option.map_eq_some_iff.mp hk
    exact hg b (List.mem_of_getElem? hb)
  · rw [id_map'] at hk
    exact hl a (List.mem_of_getElem? hk)

/-- A handle that lets go of its sender ends the forwarding thread that follows it. -/
theorem map_following_modify (j : Nat) {st : HandleState}
    (hst : ∀ hd : Handle, ({ hd with state := st } : Handle).sending = false) :
    (H.modify j fun hd => { hd with state := st }).map Forwarder.following =
      (H.map Forwarder.following).set j .ended := by
  apply List.ext_getElem?
  intro k
  simp only [List.getElem?_map, List.getElem?_modify, List.getElem?_set, List.length_map]
  by_cases hjk : j = k
  · subst hjk
    cases hh : H[j]? with
    | none => simp [List.getElem?_eq_none_iff.mp hh]
    | some hd =>
      have hlt : j < H.length := (List.getElem?_eq_some_iff.mp hh).1
      simp [hlt, Forwarder.following, hst hd]
  · simp [hjk]

/-- Once its writer has stopped, a running writer thread reports the error and exits; while it
runs and its channel has no sender left, it closes the stream and exits, reporting the error
closing met, if any. -/
theorem leads_exit (hH : ∀ q, HandlesWait H (.running q)) (hwaits : Waits H r false) (q : Pipeline) :
    ∃ es, Leads ⟨H, r, .running q⟩ ⟨H, r, .exited q.closed⟩ es ∧
      es.filterMap Event.writeResult = [] ∧ es.filterMap Event.fatalError = q.closed.failed.toList := by
  have hnext : ∀ q', next ⟨H, r, .running q'⟩ = step ⟨H, r, .running q'⟩ .writer := by
    intro q'
    obtain ⟨hfws, hsorter, -⟩ := hwaits (.running q')
    rw [next_of_threads_blocked (fun j _ => (hH q').step_none j) (fun i _ => hfws i), hsorter,
      Option.none_or]
  have hsend : ∀ q', (Threads.mk H r (.running q')).senders = false := fun q' => (hwaits _).2.2
  cases hq : q.failed with
  | some e =>
    have hclosed : q.closed = q := Pipeline.closed_of_failed (by simp [hq])
    refine ⟨[.fatal e], leads_of_next ?_, rfl, by rw [hclosed, hq]; rfl⟩
    rw [hnext, hclosed]
    exact step_of_transition (.report rfl hq)
  | none =>
    rcases hfin : q.writer.finish with ⟨w, err⟩
    have hclosed : q.closed = { writer := w, failed := err } := by
      simp [Pipeline.closed, hq, hfin]
    cases err with
    | none =>
      refine ⟨[], leads_of_next ?_, rfl, by rw [hclosed]; rfl⟩
      rw [hnext, hclosed]
      exact step_of_transition (.closeStream rfl hq (hsend q) hfin)
    | some e =>
      have hfail : next ⟨H, r, .running q⟩ = some (⟨H, r, .running { writer := w, failed := some e }⟩, []) := by
        rw [hnext]
        exact step_of_transition (.closeFails rfl hq (hsend q) hfin)
      have hreport : next ⟨H, r, .running { writer := w, failed := some e }⟩ =
          some (⟨H, r, .exited { writer := w, failed := some e }⟩, [.fatal e]) := by
        rw [hnext]
        exact step_of_transition (.report rfl rfl)
      refine ⟨[] ++ [.fatal e], ?_, rfl, by rw [hclosed]; rfl⟩
      rw [hclosed]
      exact (leads_of_next hfail).trans (leads_of_next hreport)

/-- Once the writer thread has exited, the closing handle returns. -/
theorem next_return {c : Nat} {hdc : Handle} (hc : H[c]? = some hdc) (hclosing : hdc.state = .closing)
    (hothers : ∀ j hd, H[j]? = some hd → j ≠ c → hd.state = .dropped) (q : Pipeline) :
    next ⟨H, r, .exited q⟩ =
      some (⟨H.modify c fun hd => { hd with state := .closed }, r, .exited q⟩, []) := by
  have hlt : c < H.length := (List.getElem?_eq_some_iff.mp hc).1
  refine next_of_handle hlt (fun j _ hj => ?_) (step_of_transition (.returnClose hc hclosing rfl))
  cases hj' : H[j]? with
  | none => simp [step, handleStep, hj']
  | some hd => exact step_handle_eq_none hj' (.inr (.inr (.inl (hothers j hd hj' hj))))

/-- A handle changed while every other is dropped. -/
theorem state_modify_of_dropped {c : Nat} (st : HandleState)
    (hothers : ∀ j hd, H[j]? = some hd → j ≠ c → hd.state = .dropped) :
    ∀ hd ∈ H.modify c (fun hd => { hd with state := st }), hd.state = st ∨ hd.state = .dropped := by
  intro hd hmem
  obtain ⟨k, hk⟩ := List.mem_iff_getElem?.mp hmem
  rw [List.getElem?_modify] at hk
  split at hk
  · obtain ⟨b, -, rfl⟩ := Option.map_eq_some_iff.mp hk
    exact .inl rfl
  · next hck =>
    rw [id_map'] at hk
    exact .inr (hothers k hd hk (Ne.symm hck))

/-- Once the writer thread has exited, handles that are done and a route that waits do not
move. -/
theorem next_exited (hH : HandlesWait H (.exited q)) {b : Bool} (hwaits : Waits H r b) :
    next ⟨H, r, .exited q⟩ = none := by
  obtain ⟨hfws, hsorter, -⟩ := hwaits (.exited q)
  rw [next_of_threads_blocked (fun j _ => hH.step_none j) (fun i _ => hfws i), hsorter,
    Option.none_or]
  exact step_writer_exited rfl

/-- Once the writer thread has exited, the closing handle returns, and nothing moves after. -/
theorem settles_return {c : Nat} {hdc : Handle} (hc : H[c]? = some hdc) (hclosing : hdc.state = .closing)
    (hothers : ∀ j hd, H[j]? = some hd → j ≠ c → hd.state = .dropped)
    (hwaits : Waits (H.modify c fun hd => { hd with state := .closed }) r false) (q : Pipeline) :
    Settles ⟨H, r, .exited q⟩ ⟨H.modify c fun hd => { hd with state := .closed }, r, .exited q⟩ [] :=
  Settles.cons (next_return hc hclosing hothers q) (settles_of_next_none (next_exited
    (HandlesWait.of_quiet (fun hd hmem =>
      (state_modify_of_dropped .closed hothers hd hmem).elim (.inr ∘ .inl) (.inr ∘ .inr)) _) hwaits))

/-- The handle the single caller drops lets go of its sender, and its forwarding thread, if any,
ends; a drop of a handle already dropped, or of no handle, is not made. While another handle is
idle, nothing else moves. -/
theorem perform_drop (hH : ∀ hd ∈ H, hd.state = .idle ∨ hd.state = .dropped) {c j : Nat}
    {hdc : Handle} (hc : H[c]? = some hdc) (hcidle : hdc.state = .idle) (hj : j ≠ c)
    (so : Option FrameSorter) (p : Pipeline) :
    (resting H so p).perform (.drop j) =
      (resting (H.modify j fun hd => { hd with state := .dropped }) so p, []) := by
  cases hjh : H[j]? with
  | none =>
    rw [modify_self (by simp [hjh])]
    exact perform_of_none (by simp [step, call, resting, hjh])
  | some hd =>
    rcases hH hd (List.mem_of_getElem? hjh) with hidle | hdropped
    · have hstep : (resting H so p).step (.drop j) =
          some ((resting H so p).setHandle j .dropped, []) :=
        step_of_transition (.drop hjh hidle)
      have hH' := forall_mem_modify (P := fun hd : Handle => hd.state = .idle ∨ hd.state = .dropped)
        (i := j) (g := fun hd => { hd with state := .dropped }) hH fun _ _ => .inr rfl
      have hc' : (H.modify j fun hd => { hd with state := .dropped })[c]? = some hdc := by
        simp [hj, hc]
      have hquiet : ∀ w, HandlesWait (H.modify j fun hd => { hd with state := .dropped }) w :=
        HandlesWait.of_quiet fun hd hmem => (hH' hd hmem).imp_right .inr
      have hsend : (H.modify j fun hd => { hd with state := .dropped }).any Handle.sending = true :=
        List.any_eq_true.mpr ⟨hdc, List.mem_of_getElem? hc', by simp [Handle.sending, hcidle]⟩
      cases so with
      | none =>
        exact perform_of_settles hstep
          (settles_of_next_none (next_atRest (hquiet _) (waits_direct hsend)))
      | some so =>
        set H' := H.modify j fun hd => { hd with state := .dropped }
        have hF : H'.map Forwarder.following = (H.map Forwarder.following).set j .ended :=
          map_following_modify j fun _ => rfl
        have hlt : j < H.length := (List.getElem?_eq_some_iff.mp hjh).1
        have hFj : (H.map Forwarder.following)[j]? = some .receiving := by
          simp [hjh, Forwarder.following, Handle.sending, hidle]
        have hhang : next ⟨H', .sorted (H.map Forwarder.following) (.receiving so), .atRest p⟩ =
            some (resting H' (some so) p, []) := by
          refine next_of_forwarder (i := j) (fun k _ => (hquiet _).step_none k)
            (by simp [Route.forwarderCount, hlt]) (fun k _ hk => ?_) ?_
          · refine (forwardersWait_following H').step_none_at ?_ _ _
            rw [hF, List.getElem?_set_ne (Ne.symm hk)]
          · rw [step_of_transition (.hangUp rfl hFj (by simp [H', Handle.sending, hjh])), ← hF]
            rfl
        have hlive : (H'.map Forwarder.following).all Forwarder.isEnded = false := by
          simp only [List.all_eq_false]
          refine ⟨.receiving, List.mem_map.mpr ⟨hdc, List.mem_of_getElem? hc', ?_⟩, by simp [Forwarder.isEnded]⟩
          simp [Forwarder.following, Handle.sending, hcidle]
        exact perform_of_settles hstep (Settles.cons hhang (settles_of_next_none
          (next_atRest (hquiet _) (waits_receiving (forwardersWait_following H') hlive so))))
    · obtain ⟨number, state⟩ := hd
      simp only at hdropped
      subst hdropped
      have hstep : (resting H so p).step (.drop j) = none := by
        simp [step, call, resting, hjh]
      rw [modify_self fun hd' hd'' => ?_]
      · exact perform_of_none hstep
      · rw [hjh, Option.some.injEq] at hd''
        subst hd''
        rfl

/-- The drops of a single caller, all of handles other than an idle one: each lets go of its
handle's sender, and nothing else moves. -/
theorem performAll_drops {c : Nat} {hdc : Handle} (so : Option FrameSorter) (p : Pipeline) :
    ∀ (D : List Nat) (H : List Handle), (∀ j ∈ D, j ≠ c) →
      (∀ hd ∈ H, hd.state = .idle ∨ hd.state = .dropped) → H[c]? = some hdc → hdc.state = .idle →
      (resting H so p).performAll (D.map .drop) =
        (resting (D.foldl (fun H j => H.modify j fun hd => { hd with state := .dropped }) H) so p, [])
  | [], _, _, _, _, _ => rfl
  | j :: D, H, hD, hH, hc, hcidle => by
    have hj : j ≠ c := hD j List.mem_cons_self
    have hc' : (H.modify j fun hd => { hd with state := .dropped })[c]? = some hdc := by
      simp [hj, hc]
    rw [List.map_cons, performAll_cons (perform_drop hH hc hcidle hj so p),
      performAll_drops so p D _ (fun k hk => hD k (List.mem_cons_of_mem _ hk))
        (forall_mem_modify (P := fun hd : Handle => hd.state = .idle ∨ hd.state = .dropped) hH
          fun _ _ => .inr rfl) hc' hcidle]
    rfl

/-- The handles once the first ones are dropped. -/
theorem getElem?_foldl_drop (k : Nat) :
    ∀ (D : List Nat) (H : List Handle),
      (D.foldl (fun H j => H.modify j fun hd => { hd with state := .dropped }) H)[k]? =
        if k ∈ D then H[k]?.map fun hd => { hd with state := .dropped } else H[k]?
  | [], H => by simp
  | j :: D, H => by
    rw [List.foldl_cons, getElem?_foldl_drop k D, List.getElem?_modify]
    by_cases hjk : j = k
    · subst hjk
      cases H[j]? <;> simp
    · by_cases hk : k ∈ D
      · simp [hjk, hk]
      · simp [hjk, hk, Ne.symm hjk]

/-- Handles that wait go on waiting whatever frames the writer thread takes. -/
theorem HandlesWait.foldl_take {w : WriterThread} (hH : HandlesWait H w) :
    ∀ out : List (Nat × Frame),
      HandlesWait H (out.foldl (fun (w : WriterThread) (x : Nat × Frame) => w.take x.2) w)
  | [] => hH
  | x :: out => (hH.take x.2).foldl_take out

/-- Every forwarding thread has ended once the last one has. -/
theorem ended_of_set {F : List Forwarder} {c : Nat}
    (hF : ∀ i fw, F[i]? = some fw → i ≠ c → fw = .ended) (hlt : c < F.length) :
    ∀ (i : Nat) (fw : Forwarder), (F.set c .ended)[i]? = some fw → fw = .ended := by
  intro i fw hfw
  by_cases hic : c = i
  · subst hic
    rw [List.getElem?_set_self hlt, Option.some.injEq] at hfw
    exact hfw.symm
  · rw [List.getElem?_set_ne hic] at hfw
    exact hF i fw hfw (Ne.symm hic)

/-- Once the last forwarding thread's handle lets go of its sender, the forwarding thread ends,
and the sorter thread hands over what the sorter still holds and returns. -/
theorem leads_sorter_return {F : List Forwarder} {c : Nat} {w : WriterThread}
    (hF : ∀ i fw, F[i]? = some fw → i ≠ c → fw = .ended) (hFc : F[c]? = some .receiving)
    (hHc : (H[c]?.map Handle.sending).getD false = false) (hH : HandlesWait H w) (so : FrameSorter) :
    ∃ es, Leads ⟨H, .sorted F (.receiving so), w⟩
        ⟨H, .sorted (F.set c .ended) .returned,
          so.finish.2.foldl (fun (w : WriterThread) (x : Nat × Frame) => w.take x.2) w⟩ es ∧
      es.filterMap Event.writeResult = [] ∧ es.filterMap Event.fatalError = [] := by
  have hlt : c < F.length := (List.getElem?_eq_some_iff.mp hFc).1
  have hended := ended_of_set hF hlt
  have hFe : ForwardersWait H (F.set c .ended) := fun i fw hfw => .inl (hended i fw hfw)
  have hall : (F.set c .ended).all Forwarder.isEnded = true := by
    rw [List.all_eq_true]
    intro fw hmem
    obtain ⟨i, hi⟩ := List.mem_iff_getElem?.mp hmem
    rw [hended i fw hi]
    rfl
  have hhang : next ⟨H, .sorted F (.receiving so), w⟩ =
      some (⟨H, .sorted (F.set c .ended) (.receiving so), w⟩, []) := by
    refine next_of_forwarder (i := c) (fun j _ => hH.step_none j) hlt (fun k _ hk => ?_)
      (step_of_transition (.hangUp rfl hFc hHc))
    cases hk' : F[k]? with
    | none => simp [step, forwarderStep, hk']
    | some fw => exact step_forwarder_eq_none rfl (.inl (by rw [hk', hF k fw hk' hk]))
  have hfinish : next ⟨H, .sorted (F.set c .ended) (.receiving so), w⟩ =
      some (⟨H, .sorted (F.set c .ended) (.handing so.finish.1 so.finish.2 true), w⟩, []) := by
    rw [next_of_threads_blocked (fun j _ => hH.step_none j) (fun i _ => hFe.step_none _ w i),
      step_of_transition (.finish rfl hall), Option.some_or]
  obtain ⟨es, hlead, hres, hfatal⟩ := leads_handing hFe so.finish.1 true so.finish.2 w hH
  set w' := so.finish.2.foldl (fun (w : WriterThread) (x : Nat × Frame) => w.take x.2) w
  have hleave : next ⟨H, .sorted (F.set c .ended) (.handing so.finish.1 [] true), w'⟩ =
      some (⟨H, .sorted (F.set c .ended) .returned, w'⟩, []) := by
    rw [next_of_threads_blocked (fun j _ => (hH.foldl_take _).step_none j)
      (fun i _ => hFe.step_none _ w' i), step_of_transition (.leave rfl), Option.some_or]
  refine ⟨[] ++ ([] ++ (es ++ [])), (leads_of_next hhang).trans ((leads_of_next hfinish).trans
    (hlead.trans (leads_of_next hleave))), ?_, ?_⟩
  · simp only [List.nil_append, List.append_nil, hres]
  · simp only [List.nil_append, List.append_nil, hfatal]

/-- The single caller closes the last handle while every other is dropped: the sorter thread,
if any, hands over what the sorter still holds and returns, the writer thread closes the stream
unless its writer has stopped, reports the error it met and exits, and the close returns. -/
theorem perform_close {c : Nat} {hdc : Handle} (hc : H[c]? = some hdc) (hcidle : hdc.state = .idle)
    (hothers : ∀ j hd, H[j]? = some hd → j ≠ c → hd.state = .dropped) (so : Option FrameSorter)
    (p : Pipeline) :
    ∃ t es, (resting H so p).perform (.close c) = (t, es) ∧
      t.writer = .exited (so.elim p fun so => p.deliverAll (so.finish.2.map (·.2))).closed ∧
      es.filterMap Event.writeResult = [] ∧
      p.failed.toList ++ es.filterMap Event.fatalError =
        (so.elim p fun so => p.deliverAll (so.finish.2.map (·.2))).closed.failed.toList := by
  set Hcl := H.modify c fun hd => { hd with state := .closing }
  set Hcd := Hcl.modify c fun hd => { hd with state := .closed }
  have hstep : (resting H so p).step (.close c) = some ((resting H so p).setHandle c .closing, []) :=
    step_of_transition (.close hc hcidle)
  have hcl : Hcl[c]? = some { hdc with state := .closing } := by simp [Hcl, hc]
  have hothers' : ∀ j hd, Hcl[j]? = some hd → j ≠ c → hd.state = .dropped := by
    intro j hd hj hjc
    simp only [Hcl, List.getElem?_modify, Ne.symm hjc, if_false, id_map'] at hj
    exact hothers j hd hj hjc
  have hclosing := state_modify_of_dropped .closing hothers
  have hclosed := state_modify_of_dropped .closed hothers'
  have hwait : ∀ q, HandlesWait Hcl (.running q) := fun q hd hmem =>
    (hclosing hd hmem).elim (fun h => .inr (.inr (.inr ⟨h, fun _ => WriterThread.noConfusion⟩)))
      (.inr ∘ .inr ∘ .inl)
  have hquiet : ∀ w, HandlesWait Hcd w :=
    HandlesWait.of_quiet fun hd hmem => (hclosed hd hmem).elim (.inr ∘ .inl) (.inr ∘ .inr)
  cases so with
  | none =>
    have hsendCl : Hcl.any Handle.sending = false := List.any_eq_false.mpr fun hd hmem => by
      rcases hclosing hd hmem with h | h <;> simp [Handle.sending, h]
    have hsendCd : Hcd.any Handle.sending = false := List.any_eq_false.mpr fun hd hmem => by
      rcases hclosed hd hmem with h | h <;> simp [Handle.sending, h]
    cases hp : p.failed with
    | some e =>
      have hs₁ : (resting H none p).setHandle c .closing = ⟨Hcl, .direct, .exited p⟩ := by
        simp [resting, setHandle, WriterThread.atRest, hp, Hcl]
      have hpc : p.closed = p := Pipeline.closed_of_failed (by simp [hp])
      have hsettle : Settles ((resting H none p).setHandle c .closing) ⟨Hcd, .direct, .exited p⟩ [] := by
        rw [hs₁]
        exact settles_return hcl rfl hothers' (waits_direct hsendCd) p
      refine ⟨_, _, perform_of_settles hstep hsettle, ?_, rfl, ?_⟩
      · simp only [Option.elim_none, hpc]
      · simp only [Option.elim_none, hpc, hp, List.append_nil, List.filterMap_nil]
    | none =>
      have hs₁ : (resting H none p).setHandle c .closing = ⟨Hcl, .direct, .running p⟩ := by
        simp [resting, setHandle, WriterThread.atRest, hp, Hcl]
      obtain ⟨es, hlead, hres, hfatal⟩ := leads_exit hwait (waits_direct hsendCl) p
      have hsettle : Settles ((resting H none p).setHandle c .closing)
          ⟨Hcd, .direct, .exited p.closed⟩ (es ++ []) := by
        rw [hs₁]
        exact hlead _ _ (settles_return hcl rfl hothers' (waits_direct hsendCd) p.closed)
      refine ⟨_, _, perform_of_settles hstep hsettle, rfl, ?_, ?_⟩
      · simp only [List.nil_append, hres, List.append_nil]
      · simp only [List.nil_append, hfatal, List.append_nil, Option.toList_none, Option.elim_none]
  | some so =>
    set F := H.map Forwarder.following
    have hFc : F[c]? = some .receiving := by
      simp [F, hc, Forwarder.following, Handle.sending, hcidle]
    have hlt : c < F.length := (List.getElem?_eq_some_iff.mp hFc).1
    have hF : ∀ i fw, F[i]? = some fw → i ≠ c → fw = .ended := by
      intro i fw hfw hic
      simp only [F, List.getElem?_map] at hfw
      cases hi : H[i]? with
      | none => simp [hi] at hfw
      | some hd =>
        simp only [hi, Option.map_some, Option.some.injEq] at hfw
        simp [← hfw, Forwarder.following, Handle.sending, hothers i hd hi hic]
    have hFe : ∀ H', ForwardersWait H' (F.set c .ended) :=
      fun _ i fw hfw => .inl (ended_of_set hF hlt i fw hfw)
    cases hp : p.failed with
    | some e =>
      have hs₁ : (resting H (some so) p).setHandle c .closing =
          ⟨Hcl, .sorted F (.receiving so), .exited p⟩ := by
        simp [resting, setHandle, WriterThread.atRest, hp, Hcl, F]
      have hpc : (p.deliverAll (so.finish.2.map (·.2))).closed = p := by
        rw [Pipeline.deliverAll_of_failed (by simp [hp]), Pipeline.closed_of_failed (by simp [hp])]
      obtain ⟨es, hlead, hres, hfatal⟩ := leads_sorter_return (H := Hcd) hF hFc
        (by simp [Hcd, hcl, Handle.sending]) (hquiet (.exited p)) so
      rw [WriterThread.foldl_take_exited] at hlead
      have hsettle : Settles ((resting H (some so) p).setHandle c .closing)
          ⟨Hcd, .sorted (F.set c .ended) .returned, .exited p⟩ ([] ++ (es ++ [])) := by
        rw [hs₁]
        exact Settles.cons (next_return hcl rfl hothers' p)
          (hlead _ _ (settles_of_next_none (next_exited (hquiet _) (waits_returned (hFe Hcd)))))
      refine ⟨_, _, perform_of_settles hstep hsettle, ?_, ?_, ?_⟩
      · simp only [Option.elim_some, hpc]
      · simp only [List.nil_append, hres, List.append_nil]
      · simp only [Option.elim_some, hpc, hp, List.nil_append, hfatal, List.append_nil]
    | none =>
      have hs₁ : (resting H (some so) p).setHandle c .closing =
          ⟨Hcl, .sorted F (.receiving so), .running p⟩ := by
        simp [resting, setHandle, WriterThread.atRest, hp, Hcl, F]
      set q := p.deliverAll (so.finish.2.map (·.2))
      obtain ⟨es, hlead, hres, hfatal⟩ := leads_sorter_return (H := Hcl) hF hFc
        (by simp [hcl, Handle.sending]) (hwait p) so
      rw [WriterThread.foldl_take_running] at hlead
      obtain ⟨es', hlead', hres', hfatal'⟩ := leads_exit hwait (waits_returned (hFe Hcl)) q
      have hsettle : Settles ((resting H (some so) p).setHandle c .closing)
          ⟨Hcd, .sorted (F.set c .ended) .returned, .exited q.closed⟩ (es ++ (es' ++ [])) := by
        rw [hs₁]
        exact hlead _ _ (hlead' _ _ (settles_return hcl rfl hothers' (waits_returned (hFe Hcd)) q.closed))
      refine ⟨_, _, perform_of_settles hstep hsettle, rfl, ?_, ?_⟩
      · simp only [List.nil_append, List.filterMap_append, hres, hres', List.append_nil]
      · simp only [List.nil_append, List.filterMap_append, hfatal, hfatal', List.append_nil,
          Option.toList_none, Option.elim_some]
        rfl

end Ending

/-- The threads of a stream writer start at rest. -/
theorem start_eq_resting (numbers : List UInt64) (sorter : Option SorterOptions) {p : Pipeline}
    (hp : p.failed = none) :
    start numbers sorter p =
      resting (numbers.map fun n => { number := n }) (sorter.map (FrameSorter.new numbers.length)) p := by
  cases sorter with
  | none => simp [start, resting, WriterThread.atRest, hp]
  | some o => simp [start, resting, WriterThread.atRest, hp, Function.comp_def, Forwarder.following,
      Handle.sending]

/-- A single caller's drops leave the last handle idle and every other dropped. -/
theorem drops_done {numbers : List UInt64} (hne : numbers ≠ []) :
    let H := (List.range (numbers.length - 1)).foldl
      (fun H j => H.modify j fun hd => { hd with state := .dropped })
      (numbers.map fun n => ({ number := n } : Handle))
    (∃ hdc, H[numbers.length - 1]? = some hdc ∧ hdc.state = .idle) ∧
      ∀ j hd, H[j]? = some hd → j ≠ numbers.length - 1 → hd.state = .dropped := by
  have hlen := List.length_pos_iff.mpr hne
  refine ⟨?_, fun j hd hj hjc => ?_⟩
  · rw [getElem?_foldl_drop, if_neg (by simp), getElem?_handles (by omega)]
    exact ⟨_, rfl, rfl⟩
  · rw [getElem?_foldl_drop] at hj
    split at hj
    · obtain ⟨hd', -, rfl⟩ := Option.map_eq_some_iff.mp hj
      rfl
    · next hmem =>
      rw [List.getElem?_eq_none (by simp at hmem ⊢; omega)] at hj
      cases hj

end Threads

/-! ## Streams -/

section Stream

variable {sink : Sink} {tracks : List TrackDescription} {opts : WriterOptions}
  {writes : List HandleWrite}

/-- Without a sorter, the writer is handed the frames of the handle writes as they come. -/
theorem writerFrames_direct (hs : opts.sorter = none) :
    writerFrames tracks opts writes =
      writes.map (HandleWrite.toFrame (tracks.map (·.number))) := by
  rw [writerFrames, hs]
  rfl

/-- Valid tracks are not none. -/
theorem validateTracks_ne_nil {main : Option MainTrack} (h : validateTracks tracks main = .ok ()) :
    tracks ≠ [] := by
  rintro rfl
  simp [validateTracks] at h
  cases h

/-- The calls of a single caller on a stream writer's threads, from the writer after the
header: the writer thread ends exited, with its writer closed after it took the frames of the
writes on a handle; the writes return the direct results, or in a sorted stream the octets they
hand over, and the writer thread reports the error its writer met, if any. -/
theorem performAll_calls (opts : WriterOptions) (writes : List HandleWrite) (hne : tracks ≠ [])
    {p : Pipeline} (hp : p.failed = none) :
    ∃ t es, (Threads.start (tracks.map (·.number)) opts.sorter p).performAll
          (calls (tracks.map (·.number)).length writes) = (t, es) ∧
      t.writer = .exited (p.deliverAll
        (writerFrames tracks opts (writes.filter (·.track < tracks.length)))).closed ∧
      es.filterMap Event.writeResult = opts.sorter.elim
        (p.directResults (writerFrames tracks opts (writes.filter (·.track < tracks.length))))
        (fun _ => (writes.filter (·.track < tracks.length)).map fun hw => .ok hw.data.length) ∧
      es.filterMap Event.fatalError = (p.deliverAll
        (writerFrames tracks opts (writes.filter (·.track < tracks.length)))).closed.failed.toList := by
  set numbers := tracks.map (·.number)
  have hlen : numbers.length = tracks.length := List.length_map _
  have hne' : numbers ≠ [] := by simpa [numbers] using hne
  obtain ⟨⟨hdc, hc, hcidle⟩, hothers⟩ := Threads.drops_done hne'
  have hquiet : ∀ hd ∈ numbers.map (fun n => ({ number := n } : Handle)),
      hd.state = .idle ∨ hd.state = .dropped := by
    simp
  have hcalls : ∀ j ∈ List.range (numbers.length - 1), j ≠ numbers.length - 1 := by
    intro j hj
    simp only [List.mem_range] at hj
    omega
  have hc₀ := Threads.getElem?_handles (j := numbers.length - 1)
    (show numbers.length - 1 < numbers.length by have := List.length_pos_iff.mpr hne'; omega)
  have hdrops := fun so q => Threads.performAll_drops so q (List.range (numbers.length - 1)) _ hcalls
    hquiet hc₀ rfl
  rw [calls, Threads.performAll_append, Threads.performAll_append,
    Threads.start_eq_resting numbers opts.sorter hp]
  cases hs : opts.sorter with
  | none =>
    obtain ⟨es₁, h₁, hres₁, hfatal₁⟩ := Threads.performAll_writes_direct numbers writes p
    obtain ⟨t, es₃, h₃, hw₃, hres₃, hfatal₃⟩ := Threads.perform_close hc hcidle hothers none
      (p.deliverAll ((writes.filter (·.track < numbers.length)).map (HandleWrite.toFrame numbers)))
    simp only [Option.map_none, h₁, hdrops, Threads.performAll_cons h₃]
    rw [hp, Option.toList_none, List.nil_append] at hfatal₁
    rw [writerFrames_direct hs, ← hlen, Option.elim_none]
    refine ⟨t, es₁ ++ [] ++ (es₃ ++ []), rfl, hw₃, ?_, ?_⟩
    · simp only [List.append_nil, List.filterMap_append, hres₁, hres₃]
      rfl
    · simp only [List.append_nil, List.filterMap_append, hfatal₁, hfatal₃, Option.elim_none]
      rfl
  | some so =>
    obtain ⟨es₁, h₁, hres₁, hfatal₁⟩ :=
      Threads.performAll_writes_sorted numbers writes (FrameSorter.new numbers.length so) p
    obtain ⟨t, es₃, h₃, hw₃, hres₃, hfatal₃⟩ := Threads.perform_close hc hcidle hothers
      (some ((FrameSorter.new numbers.length so).pushAll
        ((writes.filter (·.track < numbers.length)).map fun hw => (hw.track, hw.toFrame numbers))).1)
      (p.deliverAll (((FrameSorter.new numbers.length so).pushAll
        ((writes.filter (·.track < numbers.length)).map
          fun hw => (hw.track, hw.toFrame numbers))).2.flatten.map (·.2)))
    simp only [Option.map_some, h₁, hdrops, Threads.performAll_cons h₃]
    rw [hp, Option.toList_none, List.nil_append] at hfatal₁
    rw [writerFrames, hs, ← hlen, Option.elim_some, Option.elim_some, List.map_append,
      Pipeline.deliverAll_append]
    refine ⟨t, es₁ ++ [] ++ (es₃ ++ []), rfl, hw₃, ?_, ?_⟩
    · simp only [List.append_nil, List.filterMap_append, hres₁, hres₃]
    · simp only [List.append_nil, List.filterMap_append, hfatal₁, hfatal₃, Option.elim_some]
      rfl

/-- A stream is written exactly when its tracks are valid and its header goes into the sink. -/
theorem writeStream_isOk_iff :
    (∃ r, writeStream sink tracks opts writes = .ok r) ↔
      validateTracks tracks opts.mainTrack = .ok () ∧
        ∃ sink' n, writeHeader sink tracks opts = (sink', .ok n) := by
  unfold writeStream
  split
  · rename_i err hv
    simp [hv]
  · rename_i hv
    split
    · rename_i sink' err hw
      simp [hv, hw]
    · rename_i sink' n hw
      simp [hv, hw]

/-- What a written stream gives, read off its writer: the header went into the sink, the writer
then took the frames of the handle writes on a handle, and the stream ends as it left them; those
writes return the direct results, or in a sorted stream the octets they hand over. -/
theorem writeStream_ok {r : WriteResult} (h : writeStream sink tracks opts writes = .ok r) :
    ∃ sink' n, writeHeader sink tracks opts = (sink', .ok n) ∧
      ((Pipeline.afterHeader sink' n opts).deliverAll
        (writerFrames tracks opts (writes.filter (·.track < tracks.length)))).Ends r ∧
      r.writes = opts.sorter.elim
        ((Pipeline.afterHeader sink' n opts).directResults
          (writerFrames tracks opts (writes.filter (·.track < tracks.length))))
        fun _ => (writes.filter (·.track < tracks.length)).map fun hw => .ok hw.data.length := by
  unfold writeStream at h
  split at h
  · cases h
  next hv =>
  split at h
  · cases h
  next sink' n hw =>
  refine ⟨sink', n, hw, ?_⟩
  obtain ⟨t, es, hrun, hwriter, hres, hfatal⟩ := performAll_calls opts writes
    (validateTracks_ne_nil hv) (p := Pipeline.afterHeader sink' n opts) rfl
  have hstart : Pipeline.afterHeader sink' n opts =
      { writer :=
          { sink := sink', position := n, mainTrack := opts.mainTrack, options := opts.marshal } } :=
    rfl
  simp only [← hstart, hrun, Except.ok.injEq] at h
  subst h
  refine ⟨Pipeline.ends_of_closed ?_ ?_, hres⟩
  · -- the writer thread reports at most one error, the one its closed writer keeps
    rw [← List.head?_filterMap, hfatal]
    cases (Pipeline.deliverAll _ _).closed.failed <;> rfl
  · rw [hwriter]
    rfl

/-- A stream that was written starts with the header written first, after what the sink held. -/
theorem writeStream_extends_header {r : WriteResult}
    (h : writeStream sink tracks opts writes = .ok r) :
    ∃ sink' n, writeHeader sink tracks opts = (sink', .ok n) ∧ sink'.written <+: r.stream := by
  obtain ⟨sink', n, hw, hends, -⟩ := writeStream_ok h
  refine ⟨sink', n, hw, ?_⟩
  have hrun : sink'.written <+: ((Pipeline.afterHeader sink' n opts).deliverAll
      (writerFrames tracks opts (writes.filter (·.track < tracks.length)))).writer.sink.written :=
    prefix_foldl (fun p : Pipeline => p.writer.sink.written) Pipeline.written_prefix_deliver _
      (List.prefix_refl _)
  cases hf : ((Pipeline.afterHeader sink' n opts).deliverAll
      (writerFrames tracks opts (writes.filter (·.track < tracks.length)))).failed with
  | some e => exact (hends.1 e hf).2 ▸ hrun
  | none => exact (hends.2 hf).2 ▸ hrun.trans (ClusterWriter.written_prefix_finish _)

end Stream

end Matroska

end Ebml
