import Ebml.Proofs.ThreadSteps
import Ebml.Proofs.WriterFailures

/-!
# Every run of the threads of a stream writer

Along every interleaving of the user's calls and the threads' moves, the frames handed over are
accounted for (taken by the writer thread, dropped as outdated, lost once it takes no more, or
still held on the way), the writer thread's writer is the one after the header handed the frames
it took, it reports its error once, and a close returns only once it has exited: the `Invariant`,
preserved by every move (`Invariant.run`).
-/

namespace Ebml

namespace Matroska

/-! ## Frames on the move -/

namespace Event

/-- The frame a write handed over, with its handle. -/
def handedFrame : Event → Option (Nat × Frame)
  | handed h f => some (h, f)
  | refused _ _ | took _ _ | outdated _ _ | lost _ _ | fatal _ => none

/-- The frame the writer thread took, with its track. -/
def takenFrame : Event → Option (Nat × Frame)
  | took h f => some (h, f)
  | handed _ _ | refused _ _ | outdated _ _ | lost _ _ | fatal _ => none

/-- The frame the sorter dropped as outdated, with its track. -/
def outdatedFrame : Event → Option (Nat × Frame)
  | outdated h f => some (h, f)
  | handed _ _ | refused _ _ | took _ _ | lost _ _ | fatal _ => none

/-- The frame the sorter thread could no longer hand over, with its track. -/
def lostFrame : Event → Option (Nat × Frame)
  | lost h f => some (h, f)
  | handed _ _ | refused _ _ | took _ _ | outdated _ _ | fatal _ => none

end Event

/-- The frame a forwarding thread offers to the sorter thread, if any. -/
def Forwarder.offered : Forwarder → Option Frame
  | .offering f => some f
  | .receiving | .ended => none

@[simp] theorem Forwarder.isEnded_iff {fw : Forwarder} : fw.isEnded = true ↔ fw = .ended := by
  cases fw <;> simp [Forwarder.isEnded]

/-- The frames offered by the forwarding threads from number `i` on, with their tracks. -/
def Forwarder.offeredFrom : Nat → List Forwarder → List (Nat × Frame)
  | _, [] => []
  | i, fw :: fws => (fw.offered.map (i, ·)).toList ++ offeredFrom (i + 1) fws

/-- The frames waiting in the queues of the tracks from `i` on, with their tracks. -/
def FrameSorter.waitingFrom : Nat → List (List Frame) → List (Nat × Frame)
  | _, [] => []
  | i, q :: qs => q.map (i, ·) ++ waitingFrom (i + 1) qs

/-- The frames the sorter thread holds: those waiting in its sorter, and those released and not
yet handed over. -/
def SorterThread.held : SorterThread → List (Nat × Frame)
  | .receiving so => FrameSorter.waitingFrom 0 so.queues
  | .handing so out _ => FrameSorter.waitingFrom 0 so.queues ++ out
  | .returned => []

/-- The frames on their way to the writer thread: none without a sorter; with one, those the
forwarding threads offer and those the sorter thread holds. -/
def Route.held : Route → List (Nat × Frame)
  | .direct => []
  | .sorted fws t => Forwarder.offeredFrom 0 fws ++ t.held

/-! ## Counting frames on the move -/

section Held

/-- Changing one forwarding thread changes what they offer by what it offered. -/
theorem Forwarder.offeredFrom_set {a : Forwarder} (b : Forwarder) :
    ∀ {fws : List Forwarder} {i k : Nat}, fws[k]? = some a →
      (offeredFrom i (fws.set k b) ++ (a.offered.map (i + k, ·)).toList).Perm
        (offeredFrom i fws ++ (b.offered.map (i + k, ·)).toList)
  | [], _, _, h => by simp at h
  | fw :: fws, i, 0, h => by
    simp only [List.getElem?_cons_zero, Option.some.injEq] at h
    subst h
    simp only [List.set_cons_zero, offeredFrom, Nat.add_zero, List.append_assoc]
    exact List.perm_iff_count.mpr fun x => by simp only [List.count_append]; omega
  | fw :: fws, i, k + 1, h => by
    simp only [List.getElem?_cons_succ] at h
    have ih := offeredFrom_set b (i := i + 1) h
    rw [show i + 1 + k = i + (k + 1) by omega] at ih
    simp only [List.set_cons_succ, offeredFrom, List.append_assoc]
    exact ih.append_left _

/-- The frames of a track among those waiting are that track's queue. -/
theorem FrameSorter.framesOf_waitingFrom (j : Nat) :
    ∀ (i : Nat) (qs : List (List Frame)),
      framesOf j (waitingFrom i qs) = if i ≤ j then qs.getD (j - i) [] else []
  | _, [] => by simp [waitingFrom]
  | i, q :: qs => by
    have hq : framesOf j (q.map (i, ·)) = if i = j then q else [] := by
      induction q with
      | nil => simp
      | cons f q ih =>
        rw [List.map_cons, framesOf_cons, ih]
        by_cases hij : i = j <;> simp [hij]
    rw [waitingFrom, framesOf_append, hq, framesOf_waitingFrom j (i + 1) qs]
    by_cases hij : i = j
    · subst hij
      simp [show ¬ i + 1 ≤ i by omega]
    · by_cases hle : i ≤ j
      · have hsub : j - i = (j - (i + 1)) + 1 := by omega
        simp [hij, hle, show i + 1 ≤ j by omega, hsub]
      · simp [hij, hle, show ¬ i + 1 ≤ j by omega]

theorem FrameSorter.framesOf_waiting (j : Nat) (qs : List (List Frame)) :
    framesOf j (waitingFrom 0 qs) = qs.getD j [] := by
  rw [framesOf_waitingFrom, if_pos (Nat.zero_le j), Nat.sub_zero]

/-- Queues that are all empty hold nothing. -/
theorem FrameSorter.waitingFrom_of_empty :
    ∀ {i : Nat} {qs : List (List Frame)}, (∀ q ∈ qs, q = []) → waitingFrom i qs = []
  | _, [], _ => rfl
  | i, q :: qs, h => by
    rw [waitingFrom, h q List.mem_cons_self,
      waitingFrom_of_empty fun q' hq' => h q' (List.mem_cons_of_mem _ hq')]
    rfl

/-- A push that keeps its frame releases, and leaves waiting, what was waiting and the frame. -/
theorem FrameSorter.push_perm {so : FrameSorter} {i : Nat} {f : Frame} (hi : i < so.queues.length)
    (hkeep : ¬so.Outdated f) :
    ((so.push i f).2 ++ waitingFrom 0 (so.push i f).1.queues).Perm
      (waitingFrom 0 so.queues ++ [(i, f)]) := by
  apply perm_of_framesOf
  intro j
  rw [framesOf_append, framesOf_waiting, push_conserves hi hkeep, framesOf_append, framesOf_waiting]

/-- Finishing releases everything waiting, and leaves nothing. -/
theorem FrameSorter.finish_perm (so : FrameSorter) :
    (waitingFrom 0 so.finish.1.queues = []) ∧ so.finish.2.Perm (waitingFrom 0 so.queues) :=
  ⟨waitingFrom_of_empty (finish_empties so),
    perm_of_framesOf fun j => by rw [finish_conserves, framesOf_waiting]⟩

end Held

/-! ## What holds along every run -/

/-- A sorter thread's sorter has a queue for each of `n` tracks and the options `o`. -/
def SorterThread.Sized (n : Nat) (o : SorterOptions) : SorterThread → Prop
  | .receiving so | .handing so _ _ => so.queues.length = n ∧ so.options = o
  | .returned => True

/-- Whether the sorter thread has finished its sorter. -/
def SorterThread.done : SorterThread → Bool
  | .handing _ _ last => last
  | .returned => true
  | .receiving _ => false

/-- Whether the sorter thread has yet to return. -/
def SorterThread.live : SorterThread → Bool
  | .returned => false
  | .receiving _ | .handing _ _ _ => true

/-- The frames waiting in the sorter thread's sorter. -/
def SorterThread.waiting : SorterThread → List (Nat × Frame)
  | .receiving so | .handing so _ _ => FrameSorter.waitingFrom 0 so.queues
  | .returned => []

/-- The route of the threads of a stream writer with `n` handles: direct without a sorter, and
with one a forwarding thread for each handle and a sorter with a queue for each. -/
def Route.Shaped (n : Nat) (sorter : Option SorterOptions) : Route → Prop
  | .direct => sorter = none
  | .sorted fws t => fws.length = n ∧ ∃ o, sorter = some o ∧ t.Sized n o

/-- A forwarding thread ends only once its handle has let go of its sender. -/
def Route.EndedBehind (H : List Handle) : Route → Prop
  | .direct => True
  | .sorted fws _ => ∀ (i : Nat), fws[i]? = some Forwarder.ended →
    (H[i]?.map Handle.sending).getD false = false

/-- The sorter thread finishes its sorter only once every forwarding thread has ended, and
nothing is left waiting in it then. -/
def Route.Finished : Route → Prop
  | .direct => True
  | .sorted fws t => t.done = true → (∀ fw ∈ fws, fw = .ended) ∧ t.waiting = []

/-- The writer thread runs with the writer `q`, runs with `q` closed while it has still to
report that closing failed, or has exited with `q` closed. -/
def WriterThread.Follows (w : WriterThread) (q : Pipeline) : Prop :=
  w = .running q ∨ (q.failed = none ∧ q.closed.failed.isSome ∧ w = .running q.closed) ∨
    w = .exited q.closed

/-- The error the writer thread has reported: the one its writer keeps, once it has exited. -/
def WriterThread.reported : WriterThread → List Error
  | .running _ => []
  | .exited p => p.failed.toList

/-- Whether the writer thread has exited. -/
def WriterThread.isExited : WriterThread → Bool
  | .running _ => false
  | .exited _ => true

namespace WriterThread

variable {w : WriterThread} {p q : Pipeline}

/-- A writer thread that still takes frames runs with the writer `q`. -/
theorem Follows.eq_of_receiving (hw : w.Follows q) (hrecv : w.receiving = true) :
    w = .running q := by
  rcases hw with rfl | ⟨-, hc, rfl⟩ | rfl
  · rfl
  · simp only [receiving, Option.isNone_iff_eq_none] at hrecv
    simp [hrecv] at hc
  · simp [receiving] at hrecv

theorem Follows.take (hw : w.Follows q) (hrecv : w.receiving = true) (f : Frame) :
    (w.take f).Follows (q.deliver f) := by
  rw [hw.eq_of_receiving hrecv]
  exact .inl rfl

/-- A writer thread whose writer has not failed runs with `q` itself. -/
theorem Follows.running_eq (hw : w.Follows q) (hrun : w = .running p) (hp : p.failed = none) :
    p = q := by
  rcases hw with h | ⟨-, hc, h⟩ | h <;> rw [hrun] at h <;> cases h
  · rfl
  · simp [hp] at hc

/-- A writer thread whose writer has failed exits with it. -/
theorem Follows.report (hw : w.Follows q) (hrun : w = .running p) (hp : p.failed.isSome) :
    (exited p).Follows q := by
  rcases hw with h | ⟨-, -, h⟩ | h <;> rw [hrun] at h <;> cases h
  · exact .inr (.inr (by rw [Pipeline.closed_of_failed hp]))
  · exact .inr (.inr rfl)

end WriterThread

namespace Threads

/-- The frames the writer thread took, in order. -/
def taken (es : List Event) : List Frame := (es.filterMap Event.takenFrame).map (·.2)

/-- The frames that left the threads: those the writer thread took, those dropped as outdated and
those lost. -/
def settled (es : List Event) : List (Nat × Frame) :=
  es.filterMap Event.takenFrame ++ es.filterMap Event.outdatedFrame ++ es.filterMap Event.lostFrame

/-- What holds after every run of moves from the threads of a stream writer with a handle for
each of `numbers`, sorted by `sorter`, whose writer started as `p₀`, with the events `es`. The
handles keep their numbers and the route its shape; a forwarding thread ends only behind its
handle, and the sorter finishes only once they all have. Every frame handed over was taken by
the writer thread, dropped as outdated, lost, or is still on its way. The writer thread's writer
is `p₀` handed the frames it took, closed only once no sender is left; it has reported the
error it keeps once it has exited; a close has returned only once it has exited; nothing is lost
while its writer has not failed, and only the sorter's rule for outdated frames drops any. -/
structure Invariant (numbers : List UInt64) (sorter : Option SorterOptions) (p₀ : Pipeline)
    (t : Threads) (es : List Event) : Prop where
  numbered : t.handles.map (·.number) = numbers
  shaped : t.route.Shaped numbers.length sorter
  ended : t.route.EndedBehind t.handles
  finished : t.route.Finished
  conserves : (es.filterMap Event.handedFrame).Perm (settled es ++ t.route.held)
  follows : t.writer.Follows (p₀.deliverAll (taken es))
  closes : t.writer ≠ .running (p₀.deliverAll (taken es)) →
    (p₀.deliverAll (taken es)).failed = none → t.senders = false
  reports : es.filterMap Event.fatalError = t.writer.reported
  returns : ∀ hd ∈ t.handles, hd.state = .closed → t.writer.isExited = true
  lost : (p₀.deliverAll (taken es)).failed = none → es.filterMap Event.lostFrame = []
  outdated : es.filterMap Event.outdatedFrame ≠ [] → ∃ o, sorter = some o ∧ o.rule = .drop

section Step

variable {t u : Threads} {m : Move} {es' : List Event}

theorem map_number_setHandle (s : Threads) (h : Nat) (st : HandleState) :
    (s.setHandle h st).handles.map (·.number) = s.handles.map (·.number) := by
  apply List.ext_getElem?
  intro j
  rw [List.getElem?_map, List.getElem?_map, getElem?_setHandle]
  split <;> cases s.handles[j]? <;> rfl

/-- A handle after a call starts or returns is the one changed, in its new state, or one that
was there before. -/
theorem mem_setHandle {s : Threads} {h : Nat} {st : HandleState} {hd : Handle}
    (hmem : hd ∈ (s.setHandle h st).handles) : hd.state = st ∨ hd ∈ s.handles := by
  obtain ⟨j, hj⟩ := List.mem_iff_getElem?.mp hmem
  rw [getElem?_setHandle] at hj
  split at hj
  · cases hh : s.handles[j]? <;> simp only [hh, Option.map_none, Option.map_some] at hj
    · cases hj
    · cases hj
      exact .inl rfl
  · exact .inr (List.mem_of_getElem? hj)

/-- No move renumbers a handle. -/
theorem Transition.numbers_eq (ht : Transition t m u es') :
    u.handles.map (·.number) = t.handles.map (·.number) := by
  cases ht <;> simp only [map_number_setHandle]

/-- Replacing the forwarding threads by as many, and the sorter thread by one whose sorter has
the same shape, keeps the route's shape. -/
theorem Route.Shaped.resort {n : Nat} {sorter : Option SorterOptions} {fws fws' : List Forwarder}
    {st st' : SorterThread} (h : (Route.sorted fws st).Shaped n sorter)
    (hlen : fws'.length = fws.length) (hsize : ∀ o, st.Sized n o → st'.Sized n o) :
    (Route.sorted fws' st').Shaped n sorter := by
  obtain ⟨hfws, o, hs, hsz⟩ := h
  exact ⟨hlen.trans hfws, o, hs, hsize o hsz⟩

/-- No move changes the route's shape. -/
theorem Transition.shaped {n : Nat} {sorter : Option SorterOptions} (ht : Transition t m u es')
    (hs : t.route.Shaped n sorter) : u.route.Shaped n sorter := by
  cases ht with
  | forward _ _ hr _ | abandon hr _ | hangUp hr _ _ =>
    rw [hr] at hs
    exact Route.Shaped.resort hs (List.length_set ..) fun _ h => h
  | push hr _ =>
    rw [hr] at hs
    exact Route.Shaped.resort hs (List.length_set ..) fun o ⟨hlen, hopts⟩ =>
      ⟨(FrameSorter.push_keeps ..).2.trans hlen, (FrameSorter.push_keeps ..).1.trans hopts⟩
  | handOut hr _ | lose hr _ | resume hr =>
    rw [hr] at hs
    exact Route.Shaped.resort hs rfl fun _ h => h
  | @finish fws so hr _ =>
    rw [hr] at hs
    obtain ⟨hopts, hlen⟩ := FrameSorter.flush_keeps (FrameSorter.flush_eq true so.len so)
    exact Route.Shaped.resort hs rfl fun o ⟨hlen', hopts'⟩ => ⟨hlen.trans hlen', hopts.trans hopts'⟩
  | leave hr =>
    rw [hr] at hs
    exact Route.Shaped.resort hs rfl fun _ _ => trivial
  | _ => exact hs

/-- A call or a return changes one handle, and keeps each forwarding thread behind its handle
when that handle's forwarding thread has not ended or the handle lets go. -/
theorem Route.endedBehind_setHandle {fws : List Forwarder} {st : SorterThread} {s : Threads}
    {h : Nat} {hd : Handle} {st' : HandleState}
    (hend : (Route.sorted fws st).EndedBehind s.handles) (hh : s.handles[h]? = some hd)
    (hst : fws[h]? = some .ended → ({ hd with state := st' } : Handle).sending = false) :
    (Route.sorted fws st).EndedBehind (s.setHandle h st').handles := by
  intro i hi
  rw [getElem?_setHandle]
  split
  · rename_i hhi
    subst hhi
    rw [hh]
    exact hst hi
  · exact hend i hi

/-- A forwarding thread that changes stays behind its handle when it has not ended, or when its
handle has let go. -/
theorem Route.endedBehind_set {fws : List Forwarder} {st st' : SorterThread} {H : List Handle}
    {i : Nat} {fw : Forwarder} (hend : (Route.sorted fws st).EndedBehind H)
    (hfw : fw = .ended → (H[i]?.map Handle.sending).getD false = false) :
    (Route.sorted (fws.set i fw) st').EndedBehind H := by
  intro j hj
  rw [List.getElem?_set] at hj
  split at hj
  · rename_i hij
    subst hij
    exact hfw (by split at hj <;> simp_all)
  · exact hend j hj

/-- A sorter thread that has finished its sorter sees no forwarding thread still running. -/
theorem Route.Finished.not_done {fws : List Forwarder} {st : SorterThread} {i : Nat}
    {fw : Forwarder} (hfin : (Route.sorted fws st).Finished) (hi : fws[i]? = some fw)
    (hfw : fw ≠ .ended) : st.done = false := by
  cases hd : st.done
  · rfl
  · exact absurd ((hfin hd).1 fw (List.mem_of_getElem? hi)) hfw

/-- Every move keeps each forwarding thread behind its handle. -/
theorem Transition.endedBehind (ht : Transition t m u es') (hend : t.route.EndedBehind t.handles)
    (hfin : t.route.Finished) : u.route.EndedBehind u.handles := by
  cases ht with
  | write _ hh hidle | close hh hidle | drop hh hidle =>
    show t.route.EndedBehind (t.setHandle _ _).handles
    cases hr : t.route with
    | direct => trivial
    | sorted fws st =>
      rw [hr] at hend
      exact Route.endedBehind_setHandle hend hh fun hi =>
        absurd (hend _ hi) (by simp [hh, Handle.sending, hidle])
  | handOver _ _ hr _ | refuse _ _ hr _ =>
    show t.route.EndedBehind _
    rw [hr]
    trivial
  | forward hh _ hr hfw =>
    rw [hr] at hend
    exact Route.endedBehind_setHandle (Route.endedBehind_set hend (by simp)) hh
      fun hi => by simp [List.getElem?_set] at hi
  | refuseSorted hh hw hr hfw =>
    rw [hr] at hend
    exact absurd (hend _ hfw) (by simp [hh, Handle.sending, hw])
  | returnClose hh hclosing _ =>
    show t.route.EndedBehind (t.setHandle _ _).handles
    cases hr : t.route with
    | direct => trivial
    | sorted fws st =>
      rw [hr] at hend
      exact Route.endedBehind_setHandle hend hh fun _ => rfl
  | push hr _ =>
    rw [hr] at hend
    exact Route.endedBehind_set hend (by simp)
  | abandon hr hfw =>
    rw [hr] at hfin
    exact absurd (Route.Finished.not_done hfin hfw (by simp)) (by simp [SorterThread.done])
  | hangUp hr _ hsend =>
    rw [hr] at hend
    exact Route.endedBehind_set hend fun _ => hsend
  | handOut hr _ | lose hr _ | resume hr | finish hr _ | leave hr =>
    rw [hr] at hend
    exact hend
  | _ => exact hend

theorem taken_append (es es' : List Event) : taken (es ++ es') = taken es ++ taken es' := by
  simp [taken]

/-- A push hands nothing to the writer thread. -/
theorem taken_pushed (c : Prop) [Decidable c] (i : Nat) (f : Frame) :
    taken (if c then [Event.outdated i f] else []) = [] := by
  split <;> rfl

theorem settled_append (es es' : List Event) :
    (settled (es ++ es')).Perm (settled es ++ settled es') :=
  List.perm_iff_count.mpr fun x => by simp only [settled, List.filterMap_append, List.count_append]; omega

/-- What one move hands over, and what leaves the threads in it, changes what they hold by as
much. -/
theorem Transition.held_perm {n : Nat} {sorter : Option SorterOptions} (ht : Transition t m u es')
    (hs : t.route.Shaped n sorter) (hfin : t.route.Finished) :
    (u.route.held ++ settled es').Perm (t.route.held ++ es'.filterMap Event.handedFrame) := by
  cases ht with
  | handOver _ _ hr _ =>
    simp [hr, settled, Route.held, List.filterMap_cons, Event.handedFrame, Event.takenFrame,
      Event.outdatedFrame, Event.lostFrame]
  | @forward h hd f fws st _ _ hr hfw =>
    have hset := Forwarder.offeredFrom_set (.offering f) (i := 0) hfw
    simp only [Forwarder.offered, Option.map_none, Option.map_some, Option.toList,
      Nat.zero_add, List.append_nil] at hset
    simp only [hr, Route.held, settled, Event.handedFrame, Event.takenFrame,
      Event.outdatedFrame, Event.lostFrame, List.filterMap_cons, List.filterMap_nil,
      List.append_nil]
    exact List.perm_iff_count.mpr fun x => by
      have := hset.count_eq x
      simp only [List.count_append] at this ⊢
      omega
  | @push i f fws so hr hfw =>
    have hset := Forwarder.offeredFrom_set .receiving (i := 0) hfw
    simp only [Forwarder.offered, Option.map_none, Option.map_some, Option.toList,
      Nat.zero_add, List.append_nil] at hset
    rw [hr] at hs
    obtain ⟨hlen, o, -, hq, -⟩ := hs
    have hi : i < so.queues.length := by
      rw [hq, ← hlen]
      exact (List.getElem?_eq_some_iff.mp hfw).1
    simp only [hr, Route.held, SorterThread.held]
    by_cases hout : so.Outdated f
    · simp only [FrameSorter.push_outdated hout, hout, if_true, settled, Event.handedFrame,
        Event.takenFrame, Event.outdatedFrame, Event.lostFrame, List.filterMap_cons,
        List.filterMap_nil]
      exact List.perm_iff_count.mpr fun x => by
        have hoff := hset.count_eq x
        simp only [List.count_append, List.append_nil, List.nil_append] at hoff ⊢
        omega
    · have hpush := FrameSorter.push_perm hi hout
      simp only [hout, if_false, settled, List.filterMap_nil, List.append_nil]
      exact List.perm_iff_count.mpr fun x => by
        have hoff := hset.count_eq x
        have hsort := hpush.count_eq x
        simp only [List.count_append] at hoff hsort ⊢
        omega
  | abandon hr hfw =>
    rw [hr] at hfin
    exact absurd (Route.Finished.not_done hfin hfw (by simp)) (by simp [SorterThread.done])
  | @hangUp i fws st hr hfw _ =>
    have hset := Forwarder.offeredFrom_set .ended (i := 0) hfw
    simp only [Forwarder.offered, Option.map_none, Option.toList, List.append_nil] at hset
    simp only [hr, Route.held, settled, List.filterMap_nil, List.append_nil]
    exact hset.append_right _
  | handOut hr _ | lose hr _ =>
    simp only [hr, Route.held, SorterThread.held, settled, Event.handedFrame, Event.takenFrame,
      Event.outdatedFrame, Event.lostFrame, List.filterMap_cons, List.filterMap_nil]
    exact List.perm_iff_count.mpr fun x => by
      simp only [List.count_append, List.count_cons, List.count_nil]
      omega
  | resume hr =>
    simp [hr, Route.held, SorterThread.held, settled]
  | @finish fws so hr _ =>
    have hfinish := FrameSorter.finish_perm so
    simp only [hr, Route.held, SorterThread.held, hfinish.1, settled, List.filterMap_nil,
      List.append_nil, List.nil_append]
    exact hfinish.2.append_left _
  | leave hr =>
    rw [hr] at hfin
    have hempty := (hfin rfl).2
    simp only [SorterThread.waiting] at hempty
    simp [hr, Route.held, SorterThread.held, hempty, settled]
  | _ =>
    simp [settled, List.filterMap_cons, Event.handedFrame, Event.takenFrame, Event.outdatedFrame,
      Event.lostFrame]

/-- Every move keeps the sorter thread from finishing before the forwarding threads end. -/
theorem Transition.finished (ht : Transition t m u es') (hfin : t.route.Finished) :
    u.route.Finished := by
  cases ht with
  | forward _ _ hr hfw | hangUp hr hfw _ =>
    rw [hr] at hfin
    have hnot := Route.Finished.not_done hfin hfw (by simp)
    exact fun hd => absurd hd (by simp [hnot])
  | push _ _ | resume _ => exact fun hd => absurd hd (by simp [SorterThread.done])
  | abandon hr hfw =>
    rw [hr] at hfin
    exact absurd (Route.Finished.not_done hfin hfw (by simp)) (by simp [SorterThread.done])
  | handOut hr _ | lose hr _ =>
    rw [hr] at hfin
    exact hfin
  | @finish fws so _ hall =>
    exact fun _ => ⟨by simpa using hall, (FrameSorter.finish_perm so).1⟩
  | leave hr =>
    rw [hr] at hfin
    exact fun _ => ⟨(hfin rfl).1, rfl⟩
  | _ => exact hfin

/-! ## The writer thread -/

section Writer

variable {q : Pipeline}

theorem senders_sorted {s : Threads} {fws : List Forwarder} {st : SorterThread}
    (hr : s.route = .sorted fws st) : s.senders = st.live := by
  cases st <;> simp [senders, hr, SorterThread.live]

/-- With no sender left, a handle whose call starts or returns leaves none, when it holds its
sender after the move only if it held it before. -/
theorem senders_setHandle {s : Threads} {h : Nat} {hd : Handle} {st : HandleState}
    (hsend : s.senders = false) (hh : s.handles[h]? = some hd)
    (hst : ({ hd with state := st } : Handle).sending = true → hd.sending = true) :
    (s.setHandle h st).senders = false := by
  cases hr : s.route with
  | direct =>
    simp only [senders, hr, setHandle_route, List.any_eq_false] at hsend ⊢
    intro hd' hmem
    rcases mem_setHandle hmem with hst' | hmem'
    · intro hs
      simp only [Handle.sending, hst'] at hs hst
      exact hsend hd (List.mem_of_getElem? hh) (hst hs)
    · exact hsend hd' hmem'
  | sorted fws t' =>
    rw [senders_sorted hr] at hsend
    rw [senders_sorted (by rw [setHandle_route, hr]), hsend]

/-- Once no sender is left, none comes back. -/
theorem Transition.senders_false (ht : Transition t m u es') (hsend : t.senders = false) :
    u.senders = false := by
  cases ht with
  | write _ hh hidle | close hh hidle | drop hh hidle =>
    exact senders_setHandle hsend hh fun _ => by simp [Handle.sending, hidle]
  | handOver hh hw _ _ | refuse hh hw _ _ | refuseSorted hh hw _ _ =>
    exact senders_setHandle hsend hh fun _ => by simp [Handle.sending, hw]
  | returnClose hh _ _ =>
    exact senders_setHandle hsend hh fun h => by simp [Handle.sending] at h
  | forward _ _ hr _ | abandon hr _ | hangUp hr _ _ =>
    rw [senders_sorted hr] at hsend
    rw [senders_sorted rfl]
    exact hsend
  | push hr _ | handOut hr _ | lose hr _ | resume hr | finish hr _ =>
    simp [senders_sorted hr, SorterThread.live] at hsend
  | leave _ => rfl
  | _ => exact hsend

/-- Every move keeps the writer thread's writer the first writer handed the frames it took. -/
theorem Transition.follows (ht : Transition t m u es') (hw : t.writer.Follows q) :
    u.writer.Follows (q.deliverAll (taken es')) := by
  cases ht with
  | handOver _ _ _ hrecv | handOut _ hrecv => exact hw.take hrecv _
  | report hrun hp => exact hw.report hrun (by simp [hp])
  | closeStream hrun hp _ hfin =>
    obtain rfl := hw.running_eq hrun hp
    exact .inr (.inr (by simp [taken, Pipeline.deliverAll, Pipeline.closed, hp, hfin]))
  | @closeFails p w e hrun hp _ hfin =>
    obtain rfl := hw.running_eq hrun hp
    have hclosed : (p.deliverAll (taken [])).closed = { writer := w, failed := some e } := by
      simp [taken, Pipeline.deliverAll, Pipeline.closed, hp, hfin]
    exact .inr (.inl ⟨hp, by simp [hclosed], by rw [hclosed]⟩)
  | push _ _ => split <;> exact hw
  | _ => exact hw

/-- Every move keeps the writer thread running with its writer until that writer fails or no
sender is left. -/
theorem Transition.closes (ht : Transition t m u es') (hw : t.writer.Follows q)
    (hc : t.writer ≠ .running q → q.failed = none → t.senders = false) :
    u.writer ≠ .running (q.deliverAll (taken es')) → (q.deliverAll (taken es')).failed = none →
      u.senders = false := by
  have hsend := ht.senders_false
  intro hne hq
  cases ht with
  | handOver _ _ _ hrecv | handOut _ hrecv =>
    exact absurd (by rw [hw.eq_of_receiving hrecv]; rfl) hne
  | @report p e hrun hp =>
    refine hc (fun h => ?_) hq
    rw [hrun] at h
    cases h
    simp [taken, Pipeline.deliverAll, List.filterMap_cons, Event.takenFrame, hp] at hq
  | closeStream _ _ hs _ | closeFails _ _ hs _ => exact hs
  | push _ _ =>
    rw [taken_pushed] at hne hq
    exact hsend (hc hne hq)
  | _ => exact hsend (hc hne hq)

/-- The writer thread reports an error once, as it exits. -/
theorem Transition.reports {es : List Event} (ht : Transition t m u es')
    (hr : es.filterMap Event.fatalError = t.writer.reported) :
    (es ++ es').filterMap Event.fatalError = u.writer.reported := by
  rw [List.filterMap_append, hr]
  cases ht with
  | handOver _ _ _ hrecv | handOut _ hrecv =>
    cases hw : t.writer <;> simp_all [WriterThread.receiving, WriterThread.reported,
      WriterThread.take, List.filterMap_cons, Event.fatalError]
  | report hrun hp =>
    simp [hrun, hp, WriterThread.reported, Event.fatalError]
  | closeStream hrun _ _ _ | closeFails hrun _ _ _ => simp [hrun, WriterThread.reported]
  | push _ _ => split <;> simp [List.filterMap_cons, Event.fatalError]
  | _ => simp [List.filterMap_cons, Event.fatalError]

/-- A handle closed by a move that does not close it was closed before. -/
theorem mem_setHandle_closed {s : Threads} {h : Nat} {st : HandleState} {hd : Handle}
    (hst : st ≠ .closed) (hmem : hd ∈ (s.setHandle h st).handles) (hc : hd.state = .closed) :
    hd ∈ s.handles :=
  (mem_setHandle hmem).resolve_left fun h => hst (h.symm.trans hc)

/-- A close returns only once the writer thread has exited. -/
theorem Transition.returns (ht : Transition t m u es')
    (hr : ∀ hd ∈ t.handles, hd.state = .closed → t.writer.isExited = true) :
    ∀ hd ∈ u.handles, hd.state = .closed → u.writer.isExited = true := by
  intro hd hmem hc
  cases ht with
  | write _ _ _ | close _ _ | drop _ _ | refuse _ _ _ _ | forward _ _ _ _ | refuseSorted _ _ _ _ =>
    exact hr hd (mem_setHandle_closed (by simp) hmem hc) hc
  | handOver _ _ _ hrecv =>
    have := hr hd (mem_setHandle_closed (by simp) hmem hc) hc
    cases hw : t.writer <;> simp_all [WriterThread.receiving, WriterThread.isExited]
  | handOut _ hrecv =>
    have := hr hd hmem hc
    cases hw : t.writer <;> simp_all [WriterThread.receiving, WriterThread.isExited]
  | closeFails hrun _ _ _ =>
    have := hr hd hmem hc
    simp [hrun, WriterThread.isExited] at this
  | returnClose _ _ hw | report hw _ | closeStream hw _ _ _ =>
    simp [hw, WriterThread.isExited]
  | _ => exact hr hd hmem hc

theorem Pipeline.failed_of_deliver {p : Pipeline} {f : Frame} (h : (p.deliver f).failed = none) :
    p.failed = none := by
  cases hp : p.failed with
  | none => rfl
  | some e =>
    rw [Pipeline.deliver_of_failed (by simp [hp]), hp] at h
    cases h

/-- Nothing is lost while the writer thread's writer has not failed. -/
theorem Transition.lost {es : List Event} (ht : Transition t m u es')
    (hc : t.writer ≠ .running q → q.failed = none → t.senders = false)
    (hl : q.failed = none → es.filterMap Event.lostFrame = []) :
    (q.deliverAll (taken es')).failed = none → (es ++ es').filterMap Event.lostFrame = [] := by
  intro hq
  cases ht with
  | lose hr hrecv =>
    -- the writer thread stops taking frames only once its writer has failed or no sender is
    -- left, and the sorter thread handing frames over is a sender
    exfalso
    have hsend : t.senders = true := by simp [senders_sorted hr, SorterThread.live]
    by_cases hrun : t.writer = .running q
    · rw [hrun] at hrecv
      simp [WriterThread.receiving, show q.failed = none from hq] at hrecv
    · exact absurd (hc hrun hq) (by simp [hsend])
  | handOver _ _ _ _ | handOut _ _ =>
    simp [hl (Pipeline.failed_of_deliver hq), List.filterMap_cons, Event.lostFrame]
  | push _ _ =>
    rw [taken_pushed] at hq
    split <;> simp [hl hq, List.filterMap_cons, Event.lostFrame]
  | _ => simp [hl hq, List.filterMap_cons, Event.lostFrame]

/-- Only the sorter's rule for outdated frames drops any. -/
theorem Transition.outdated {es : List Event} {n : Nat} {sorter : Option SorterOptions}
    (ht : Transition t m u es') (hs : t.route.Shaped n sorter)
    (ho : es.filterMap Event.outdatedFrame ≠ [] → ∃ o, sorter = some o ∧ o.rule = .drop) :
    (es ++ es').filterMap Event.outdatedFrame ≠ [] → ∃ o, sorter = some o ∧ o.rule = .drop := by
  cases ht with
  | @push i f fws so hr _ =>
    by_cases hout : so.Outdated f
    · rw [hr] at hs
      obtain ⟨-, o, hso, -, hopts⟩ := hs
      exact fun _ => ⟨o, hso, hopts ▸ hout.2⟩
    · simpa [hout] using ho
  | _ => simpa [List.filterMap_cons, Event.outdatedFrame] using ho

end Writer

/-! ## Runs -/

section Run

variable {numbers : List UInt64} {sorter : Option SorterOptions} {p₀ : Pipeline} {es : List Event}

/-- Every move keeps the invariant. -/
theorem Invariant.step (hI : Invariant numbers sorter p₀ t es) (ht : Transition t m u es') :
    Invariant numbers sorter p₀ u (es ++ es') where
  numbered := ht.numbers_eq.trans hI.numbered
  shaped := ht.shaped hI.shaped
  ended := ht.endedBehind hI.ended hI.finished
  finished := ht.finished hI.finished
  conserves := by
    -- what left the threads in the move, and what they hold after it, is what they held and
    -- what the move handed over
    have hheld := ht.held_perm hI.shaped hI.finished
    rw [List.filterMap_append]
    refine (hI.conserves.append_right _).trans (List.perm_iff_count.mpr fun x => ?_)
    have hmove := hheld.count_eq x
    have hsplit := (settled_append es es').count_eq x
    simp only [List.count_append] at hmove hsplit ⊢
    omega
  follows := by
    rw [taken_append, Pipeline.deliverAll_append]
    exact ht.follows hI.follows
  closes := by
    rw [taken_append, Pipeline.deliverAll_append]
    exact ht.closes hI.follows hI.closes
  reports := ht.reports hI.reports
  returns := ht.returns hI.returns
  lost := by
    rw [taken_append, Pipeline.deliverAll_append]
    exact ht.lost hI.closes hI.lost
  outdated := ht.outdated hI.shaped hI.outdated

theorem run_cons_eq_some {m : Move} {ms : List Move} (h : t.run (m :: ms) = some (u, es')) :
    ∃ t' es₁ es₂, t.step m = some (t', es₁) ∧ t'.run ms = some (u, es₂) ∧ es' = es₁ ++ es₂ := by
  simp only [run] at h
  split at h
  · cases h
  · rename_i t' es₁ hs
    obtain ⟨⟨u', es₂⟩, hr, he⟩ := Option.map_eq_some_iff.mp h
    simp only [Prod.mk.injEq] at he
    obtain ⟨rfl, rfl⟩ := he
    exact ⟨t', es₁, es₂, hs, hr, rfl⟩

/-- Every run keeps the invariant. -/
theorem Invariant.run (hI : Invariant numbers sorter p₀ t es) {ms : List Move}
    (hrun : t.run ms = some (u, es')) : Invariant numbers sorter p₀ u (es ++ es') := by
  induction ms generalizing t es es' with
  | nil =>
    simp only [Threads.run, Option.some.injEq, Prod.mk.injEq] at hrun
    obtain ⟨rfl, rfl⟩ := hrun
    rwa [List.append_nil]
  | cons m ms ih =>
    obtain ⟨t', es₁, es₂, hstep, hrest, rfl⟩ := run_cons_eq_some hrun
    rw [← List.append_assoc]
    exact ih (hI.step (transition_of_step hstep)) hrest

end Run

/-! ## Frames that fit -/

section Carries

variable (P : Frame → Prop)

/-- Every frame a handle is writing, and every frame handed over, has the property `P`. -/
def Carries (t : Threads) (es : List Event) : Prop :=
  (∀ hd ∈ t.handles, ∀ f, hd.state = .writing f → P f) ∧ ∀ x ∈ es.filterMap Event.handedFrame, P x.2

variable {P} {es : List Event}

/-- A move keeps every frame in hand with the property `P` when a write it starts stamps its
frame into one with `P`. -/
theorem Transition.carries (ht : Transition t m u es') (hc : Carries P t es)
    (hw : ∀ h f, m = .write h f → ∀ n ∈ t.handles.map (·.number), P { f with track := n }) :
    Carries P u (es ++ es') := by
  obtain ⟨hwriting, hhanded⟩ := hc
  have hkeep : ∀ {h : Nat} {st : HandleState}, (∀ f, st = .writing f → P f) →
      ∀ hd ∈ (t.setHandle h st).handles, ∀ f, hd.state = .writing f → P f := by
    intro h st hst hd hmem f hf
    rcases mem_setHandle hmem with hst' | hmem'
    · exact hst f (hst' ▸ hf)
    · exact hwriting hd hmem' f hf
  have hidle : ∀ f, HandleState.idle = .writing f → P f := fun _ h => by cases h
  have hfrom : ∀ {h : Nat} {hd : Handle} {f : Frame}, t.handles[h]? = some hd →
      hd.state = .writing f → P f := fun hh hs => hwriting _ (List.mem_of_getElem? hh) _ hs
  simp only [Carries, List.filterMap_append]
  cases ht with
  | @write h hd f hh _ =>
    refine ⟨hkeep fun f' hf' => ?_, by simpa using hhanded⟩
    cases hf'
    exact hw h f rfl _ (List.mem_map.mpr ⟨hd, List.mem_of_getElem? hh, rfl⟩)
  | close _ _ | drop _ _ | returnClose _ _ _ =>
    exact ⟨hkeep (fun _ h => by cases h), by simpa using hhanded⟩
  | handOver hh hs _ _ | forward hh hs _ _ =>
    refine ⟨hkeep hidle, fun x hx => ?_⟩
    simp only [List.mem_append, List.filterMap_cons, Event.handedFrame, List.filterMap_nil,
      List.mem_cons, List.mem_nil_iff, or_false] at hx
    rcases hx with hx | rfl
    · exact hhanded x hx
    · exact hfrom hh hs
  | refuse _ _ _ _ | refuseSorted _ _ _ _ =>
    exact ⟨hkeep hidle, by simpa [List.filterMap_cons, Event.handedFrame] using hhanded⟩
  | push _ _ =>
    refine ⟨hwriting, ?_⟩
    split <;> simpa [List.filterMap_cons, Event.handedFrame] using hhanded
  | _ => exact ⟨hwriting, by simpa [List.filterMap_cons, Event.handedFrame] using hhanded⟩

/-- Every run keeps every frame in hand with the property `P` when each write it makes stamps its
frame into one with `P`. -/
theorem Carries.run (hc : Carries P t es) {ms : List Move} (hrun : t.run ms = some (u, es'))
    (hw : ∀ h f, Move.write h f ∈ ms → ∀ n ∈ t.handles.map (·.number), P { f with track := n }) :
    Carries P u (es ++ es') := by
  induction ms generalizing t es es' with
  | nil =>
    simp only [Threads.run, Option.some.injEq, Prod.mk.injEq] at hrun
    obtain ⟨rfl, rfl⟩ := hrun
    rwa [List.append_nil]
  | cons m ms ih =>
    obtain ⟨t', es₁, es₂, hstep, hrest, rfl⟩ := run_cons_eq_some hrun
    have ht := transition_of_step hstep
    rw [← List.append_assoc]
    refine ih (ht.carries hc fun h f hm => hw h f (hm ▸ List.mem_cons_self)) hrest fun h f hm => ?_
    rw [ht.numbers_eq]
    exact hw h f (List.mem_cons_of_mem _ hm)

end Carries

/-! ## After the writer thread exits -/

section Exited

end Exited

end Step

end Threads

end Matroska

end Ebml
