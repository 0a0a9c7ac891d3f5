import Ebml.Matroska.Threads
import Ebml.Proofs.Sorting

/-!
# One move of the threads of a stream writer

Every move a party of a stream writer can make is one of the transitions of
`Threads.Transition`, and a move can be made exactly when one of them applies
(`step_eq_some_iff`). Every move of a thread lowers what is left for the threads to do
(`Transition.load_lt`), so between two calls of the user the threads make finitely many moves,
and a scheduler that lets them move until none can stops with them at rest (`Settles`).
-/

namespace Ebml

namespace Matroska

namespace Threads

/-! ## Handles -/

section Handles

variable (s : Threads) (h : Nat) (st : HandleState)

@[simp] theorem setHandle_route : (s.setHandle h st).route = s.route := rfl

@[simp] theorem setHandle_writer : (s.setHandle h st).writer = s.writer := rfl

@[simp] theorem length_setHandle : (s.setHandle h st).handles.length = s.handles.length := by
  simp [setHandle]

theorem getElem?_setHandle (j : Nat) :
    (s.setHandle h st).handles[j]? =
      if h = j then s.handles[j]?.map (fun hd => { hd with state := st }) else s.handles[j]? := by
  simp only [setHandle, List.getElem?_modify]
  split <;> simp

end Handles

/-! ## Transitions -/

/-- The moves of the parties of a stream writer from `s`, one constructor for each way a party
moves. -/
inductive Transition (s : Threads) : Move → Threads → List Event → Prop
  | write {h : Nat} {hd : Handle} (f : Frame) :
      s.handles[h]? = some hd → hd.state = .idle →
      Transition s (.write h f) (s.setHandle h (.writing { f with track := hd.number })) []
  | close {h : Nat} {hd : Handle} :
      s.handles[h]? = some hd → hd.state = .idle → Transition s (.close h) (s.setHandle h .closing) []
  | drop {h : Nat} {hd : Handle} :
      s.handles[h]? = some hd → hd.state = .idle → Transition s (.drop h) (s.setHandle h .dropped) []
  | handOver {h : Nat} {hd : Handle} {f : Frame} :
      s.handles[h]? = some hd → hd.state = .writing f → s.route = .direct →
      s.writer.receiving = true →
      Transition s (.handle h) { s.setHandle h .idle with writer := s.writer.take f }
        [.handed h f, .took h f]
  | refuse {h : Nat} {hd : Handle} {f : Frame} :
      s.handles[h]? = some hd → hd.state = .writing f → s.route = .direct →
      s.writer.receiving = false → Transition s (.handle h) (s.setHandle h .idle) [.refused h f]
  | forward {h : Nat} {hd : Handle} {f : Frame} {fws : List Forwarder} {t : SorterThread} :
      s.handles[h]? = some hd → hd.state = .writing f → s.route = .sorted fws t →
      fws[h]? = some .receiving →
      Transition s (.handle h) { s.setHandle h .idle with route := .sorted (fws.set h (.offering f)) t }
        [.handed h f]
  | refuseSorted {h : Nat} {hd : Handle} {f : Frame} {fws : List Forwarder} {t : SorterThread} :
      s.handles[h]? = some hd → hd.state = .writing f → s.route = .sorted fws t →
      fws[h]? = some .ended → Transition s (.handle h) (s.setHandle h .idle) [.refused h f]
  | returnClose {h : Nat} {hd : Handle} {p : Pipeline} :
      s.handles[h]? = some hd → hd.state = .closing → s.writer = .exited p →
      Transition s (.handle h) (s.setHandle h .closed) []
  | push {i : Nat} {f : Frame} {fws : List Forwarder} {so : FrameSorter} :
      s.route = .sorted fws (.receiving so) → fws[i]? = some (.offering f) →
      Transition s (.forwarder i)
        { s with route := .sorted (fws.set i .receiving) (.handing (so.push i f).1 (so.push i f).2 false) }
        (if so.Outdated f then [.outdated i f] else [])
  | abandon {i : Nat} {f : Frame} {fws : List Forwarder} :
      s.route = .sorted fws .returned → fws[i]? = some (.offering f) →
      Transition s (.forwarder i) { s with route := .sorted (fws.set i .ended) .returned } []
  | hangUp {i : Nat} {fws : List Forwarder} {t : SorterThread} :
      s.route = .sorted fws t → fws[i]? = some .receiving →
      (s.handles[i]?.map Handle.sending).getD false = false →
      Transition s (.forwarder i) { s with route := .sorted (fws.set i .ended) t } []
  | handOut {fws : List Forwarder} {so : FrameSorter} {i : Nat} {f : Frame}
      {out : List (Nat × Frame)} {last : Bool} :
      s.route = .sorted fws (.handing so ((i, f) :: out) last) → s.writer.receiving = true →
      Transition s .sorter
        { s with route := .sorted fws (.handing so out last), writer := s.writer.take f } [.took i f]
  | lose {fws : List Forwarder} {so : FrameSorter} {i : Nat} {f : Frame}
      {out : List (Nat × Frame)} {last : Bool} :
      s.route = .sorted fws (.handing so ((i, f) :: out) last) → s.writer.receiving = false →
      Transition s .sorter { s with route := .sorted fws (.handing so out last) } [.lost i f]
  | resume {fws : List Forwarder} {so : FrameSorter} :
      s.route = .sorted fws (.handing so [] false) →
      Transition s .sorter { s with route := .sorted fws (.receiving so) } []
  | finish {fws : List Forwarder} {so : FrameSorter} :
      s.route = .sorted fws (.receiving so) → fws.all Forwarder.isEnded = true →
      Transition s .sorter { s with route := .sorted fws (.handing so.finish.1 so.finish.2 true) } []
  | leave {fws : List Forwarder} {so : FrameSorter} :
      s.route = .sorted fws (.handing so [] true) →
      Transition s .sorter { s with route := .sorted fws .returned } []
  | report {p : Pipeline} {e : Error} :
      s.writer = .running p → p.failed = some e →
      Transition s .writer { s with writer := .exited p } [.fatal e]
  | closeStream {p : Pipeline} {w : ClusterWriter} :
      s.writer = .running p → p.failed = none → s.senders = false → p.writer.finish = (w, none) →
      Transition s .writer { s with writer := .exited { writer := w } } []
  | closeFails {p : Pipeline} {w : ClusterWriter} {e : Error} :
      s.writer = .running p → p.failed = none → s.senders = false →
      p.writer.finish = (w, some e) →
      Transition s .writer { s with writer := .running { writer := w, failed := some e } } []

variable {s t : Threads} {m : Move} {es : List Event}

/-- A move that can be made is one of the transitions. -/
theorem transition_of_step (hstep : s.step m = some (t, es)) : Transition s m t es := by
  cases m with
  | write h f =>
    simp only [step, call] at hstep
    split at hstep
    · rename_i number hh
      cases hstep
      exact .write f hh rfl
    · cases hstep
  | close h =>
    simp only [step, call] at hstep
    split at hstep
    · rename_i number hh
      cases hstep
      exact .close hh rfl
    · cases hstep
  | drop h =>
    simp only [step, call] at hstep
    split at hstep
    · rename_i number hh
      cases hstep
      exact .drop hh rfl
    · cases hstep
  | handle h =>
    simp only [step, handleStep] at hstep
    split at hstep
    · rename_i f hh hr
      split at hstep
      · rename_i hrecv
        cases hstep
        exact .handOver hh rfl hr hrecv
      · rename_i hrecv
        cases hstep
        exact .refuse hh rfl hr (by simpa using hrecv)
    · rename_i f fws t hh hr
      split at hstep
      · rename_i hfw
        cases hstep
        exact .forward hh rfl hr hfw
      · rename_i hfw
        cases hstep
        exact .refuseSorted hh rfl hr hfw
      all_goals cases hstep
    · rename_i hh
      split at hstep
      · rename_i p hw
        cases hstep
        exact .returnClose hh rfl hw
      · cases hstep
    · cases hstep
  | forwarder i =>
    simp only [step, forwarderStep] at hstep
    split at hstep
    · cases hstep
    · rename_i fws t hr
      split at hstep
      · rename_i f so hfw
        cases hstep
        exact .push hr hfw
      · rename_i f hfw
        cases hstep
        exact .abandon hr hfw
      · rename_i hfw
        split at hstep
        · cases hstep
        · rename_i hsend
          cases hstep
          exact .hangUp hr hfw (by simpa using hsend)
      all_goals cases hstep
  | sorter =>
    simp only [step, sorterStep] at hstep
    split at hstep
    · cases hstep
    · rename_i fws so i f out last hr
      split at hstep
      · rename_i hrecv
        cases hstep
        exact .handOut hr hrecv
      · rename_i hrecv
        cases hstep
        exact .lose hr (by simpa using hrecv)
    · rename_i fws so hr
      cases hstep
      exact .resume hr
    · rename_i fws so hr
      cases hstep
      exact .leave hr
    · rename_i fws so hr
      split at hstep
      · rename_i hall
        cases hstep
        exact .finish hr hall
      · cases hstep
    · cases hstep
  | writer =>
    simp only [step, writerStep] at hstep
    split at hstep
    · cases hstep
    · rename_i p hw
      split at hstep
      · rename_i e he
        cases hstep
        exact .report hw he
      · rename_i he
        split at hstep
        · cases hstep
        · rename_i hsend
          split at hstep
          · rename_i w hfin
            cases hstep
            exact .closeStream hw he (by simpa using hsend) hfin
          · rename_i w e hfin
            cases hstep
            exact .closeFails hw he (by simpa using hsend) hfin

/-- Each transition is a move that can be made. -/
theorem step_of_transition (ht : Transition s m t es) : s.step m = some (t, es) := by
  cases ht with
  | @write h hd f hh hidle =>
    obtain ⟨number, state⟩ := hd
    cases hidle
    simp [step, call, hh]
  | @close h hd hh hidle =>
    obtain ⟨number, state⟩ := hd
    cases hidle
    simp [step, call, hh]
  | @drop h hd hh hidle =>
    obtain ⟨number, state⟩ := hd
    cases hidle
    simp [step, call, hh]
  | @handOver h hd f hh hw hr hrecv =>
    obtain ⟨number, state⟩ := hd
    cases hw
    simp [step, handleStep, hh, hr, hrecv]
  | @refuse h hd f hh hw hr hrecv =>
    obtain ⟨number, state⟩ := hd
    cases hw
    simp [step, handleStep, hh, hr, hrecv]
  | @forward h hd f fws t hh hw hr hfw =>
    obtain ⟨number, state⟩ := hd
    cases hw
    simp [step, handleStep, hh, hr, hfw]
  | @refuseSorted h hd f fws t hh hw hr hfw =>
    obtain ⟨number, state⟩ := hd
    cases hw
    simp [step, handleStep, hh, hr, hfw]
  | @returnClose h hd p hh hc hw =>
    obtain ⟨number, state⟩ := hd
    cases hc
    simp [step, handleStep, hh, hw]
  | push hr hfw => simp [step, forwarderStep, hr, hfw]
  | abandon hr hfw => simp [step, forwarderStep, hr, hfw]
  | hangUp hr hfw hsend => simp [step, forwarderStep, hr, hfw, hsend]
  | handOut hr hrecv => simp [step, sorterStep, hr, hrecv]
  | lose hr hrecv => simp [step, sorterStep, hr, hrecv]
  | resume hr => simp [step, sorterStep, hr]
  | finish hr hall => simp [step, sorterStep, hr, hall]
  | leave hr => simp [step, sorterStep, hr]
  | report hw he => simp [step, writerStep, hw, he]
  | closeStream hw he hsend hfin => simp [step, writerStep, hw, he, hsend, hfin]
  | closeFails hw he hsend hfin => simp [step, writerStep, hw, he, hsend, hfin]

/-- A move can be made exactly when one of the transitions applies. -/
theorem step_eq_some_iff : s.step m = some (t, es) ↔ Transition s m t es :=
  ⟨transition_of_step, step_of_transition⟩

/-! ## What is left to do -/

/-- A sum over a list after one entry changed, by what the entry counted. -/
theorem foldr_add_set {α : Type} (F : α → Nat) (y : α) :
    ∀ {l : List α} {h : Nat} {x : α}, l[h]? = some x →
      ((l.set h y).map F).foldr (· + ·) 0 + F x = (l.map F).foldr (· + ·) 0 + F y
  | [], _, _, hx => by simp at hx
  | z :: l, 0, x, hx => by
    simp only [List.getElem?_cons_zero, Option.some.injEq] at hx
    subst hx
    simp only [List.set_cons_zero, List.map_cons, List.foldr_cons]
    omega
  | z :: l, h + 1, x, hx => by
    simp only [List.getElem?_cons_succ] at hx
    have ih := foldr_add_set F y hx
    simp only [List.set_cons_succ, List.map_cons, List.foldr_cons]
    omega

/-- What a handle's pending call left to do, in the sum over the handles. -/
theorem load_setHandle {h : Nat} {hd : Handle} (hh : s.handles[h]? = some hd) (st : HandleState) :
    (s.setHandle h st).load + hd.load = s.load + ({ hd with state := st } : Handle).load := by
  have hsum := foldr_add_set Handle.load { hd with state := st } hh
  simp only [load, setHandle, List.modify_eq_set, hh, Option.getD_some]
  omega

/-- What the forwarding threads left to do, after one of them changed. -/
theorem foldr_load_set {fws : List Forwarder} {i : Nat} {fw : Forwarder} (hfw : fws[i]? = some fw)
    (fw' : Forwarder) :
    ((fws.set i fw').map Forwarder.load).foldr (· + ·) 0 + fw.load =
      (fws.map Forwarder.load).foldr (· + ·) 0 + fw'.load :=
  foldr_add_set Forwarder.load fw' hfw

/-- The threads' load is the handles', the route's and the writer thread's. -/
theorem load_eq (s : Threads) :
    s.load = (s.handles.map Handle.load).foldr (· + ·) 0 + s.route.load + s.writer.load := rfl

/-- Taking a frame never adds to what the writer thread has left to do. -/
theorem WriterThread.load_take (w : WriterThread) (f : Frame) : (w.take f).load ≤ w.load := by
  cases w with
  | running p =>
    simp only [WriterThread.take, WriterThread.load]
    cases hf : p.failed with
    | none => split <;> simp
    | some e => simp [Pipeline.deliver, hf]
  | exited p => exact Nat.le_refl _

/-- A flush releases the frames it takes from the queues. -/
theorem FrameSorter.flush_len {force : Bool} {fuel : Nat} {so so' : FrameSorter}
    {out : List (Nat × Frame)} (h : FrameSorter.flush force fuel so = (so', out)) :
    so'.len + out.length = so.len := by
  induction out generalizing fuel so with
  | nil =>
    obtain ⟨rfl, -⟩ := FrameSorter.flush_eq_nil h
    rfl
  | cons p out ih =>
    obtain ⟨fuel', rest, -, -, hq, h'⟩ := FrameSorter.flush_eq_cons h
    have hlen := ih h'
    have hset := FrameSorter.foldl_length_set hq
    simp only [FrameSorter.len] at hlen hset ⊢
    simp only [List.length_cons]
    omega

/-- Adding a frame to a queue adds at most one frame waiting. -/
theorem FrameSorter.foldl_length_modify_append (f : Frame) :
    ∀ (qs : List (List Frame)) (i : Nat),
      (qs.modify i (· ++ [f])).foldl (fun n q => n + q.length) 0 ≤
        qs.foldl (fun n q => n + q.length) 0 + 1
  | [], _ => by simp
  | q :: qs, 0 => by
    simp only [List.modify_zero_cons, List.foldl_cons, Nat.zero_add, List.length_append,
      List.length_singleton]
    rw [FrameSorter.foldl_length_add _ (q.length + 1), FrameSorter.foldl_length_add _ q.length]
    omega
  | q :: qs, i + 1 => by
    have ih := FrameSorter.foldl_length_modify_append f qs i
    simp only [List.modify_succ_cons, List.foldl_cons, Nat.zero_add]
    rw [FrameSorter.foldl_length_add _ q.length, FrameSorter.foldl_length_add _ q.length]
    omega

/-- A push holds at most the frame pushed more, between what it releases and what it keeps. -/
theorem FrameSorter.push_len_le (so : FrameSorter) (i : Nat) (f : Frame) :
    (so.push i f).1.len + (so.push i f).2.length ≤ so.len + 1 := by
  by_cases hout : so.Outdated f
  · rw [FrameSorter.push_outdated hout]
    simp
  · rw [FrameSorter.push_current hout,
      FrameSorter.flush_len (FrameSorter.flush_eq false (so.enqueue i f).len (so.enqueue i f))]
    exact FrameSorter.foldl_length_modify_append f so.queues i

/-- Finishing releases every frame waiting. -/
theorem FrameSorter.finish_len_add (so : FrameSorter) : so.finish.1.len + so.finish.2.length = so.len :=
  FrameSorter.flush_len (FrameSorter.flush_eq true so.len so)

/-- Every move of a thread lowers what is left for the threads to do. -/
theorem Transition.load_lt (ht : Transition s m t es) (hcall : m.isCall = false) :
    t.load < s.load := by
  cases ht with
  | write | close | drop => cases hcall
  | @handOver h hd f hh hw hr hrecv =>
    have hset := load_setHandle hh .idle
    have htake := WriterThread.load_take s.writer f
    simp only [Handle.load, hw] at hset
    simp only [load_eq, setHandle_route, setHandle_writer] at hset ⊢
    omega
  | @refuse h hd f hh hw hr hrecv =>
    have hset := load_setHandle hh .idle
    simp only [Handle.load, hw] at hset
    omega
  | @forward h hd f fws t hh hw hr hfw =>
    have hset := load_setHandle hh .idle
    have hfws := foldr_load_set hfw (.offering f)
    simp only [Handle.load, hw] at hset
    simp only [load_eq, Route.load, hr, Forwarder.load] at hset hfws ⊢
    simp only [setHandle_route, setHandle_writer, hr] at hset ⊢
    omega
  | @refuseSorted h hd f fws t hh hw hr hfw =>
    have hset := load_setHandle hh .idle
    simp only [Handle.load, hw] at hset
    omega
  | @returnClose h hd p hh hc hw =>
    have hset := load_setHandle hh .closed
    simp only [Handle.load, hc] at hset
    omega
  | @push i f fws so hr hfw =>
    have hfws := foldr_load_set hfw .receiving
    have hlen := FrameSorter.push_len_le so i f
    simp only [load_eq, Route.load, hr, SorterThread.load, Forwarder.load] at hfws ⊢
    simp only [Bool.false_eq_true, if_false]
    omega
  | @abandon i f fws hr hfw =>
    have hfws := foldr_load_set hfw .ended
    simp only [load_eq, Route.load, hr, Forwarder.load] at hfws ⊢
    omega
  | @hangUp i fws t hr hfw hsend =>
    have hfws := foldr_load_set hfw .ended
    simp only [load_eq, Route.load, hr, Forwarder.load] at hfws ⊢
    omega
  | @handOut fws so i f out last hr hrecv =>
    have htake := WriterThread.load_take s.writer f
    simp only [load_eq, Route.load, hr, SorterThread.load, List.length_cons] at htake ⊢
    omega
  | @lose fws so i f out last hr hrecv =>
    simp only [load_eq, Route.load, hr, SorterThread.load, List.length_cons]
    omega
  | @resume fws so hr =>
    simp only [load_eq, Route.load, hr, SorterThread.load]
    simp
  | @finish fws so hr hall =>
    have hlen := FrameSorter.finish_len_add so
    simp only [load_eq, Route.load, hr, SorterThread.load, if_true]
    omega
  | @leave fws so hr =>
    simp only [load_eq, Route.load, hr, SorterThread.load, if_true]
    omega
  | @report p e hw he =>
    simp only [load_eq, WriterThread.load, hw, he, Option.isSome_some, if_true]
    omega
  | @closeStream p w hw he hsend hfin =>
    simp only [load_eq, WriterThread.load, hw, he, Option.isSome_none]
    simp
  | @closeFails p w e hw he hsend hfin =>
    simp only [load_eq, WriterThread.load, hw, he, Option.isSome_none, Option.isSome_some]
    simp

/-! ## Letting the threads move -/

/-- The threads' moves are none of the user's calls. -/
theorem isCall_of_mem_threadMoves {m : Move} (hm : m ∈ s.threadMoves) : m.isCall = false := by
  simp only [threadMoves, List.mem_append, List.mem_map, List.mem_range, List.mem_cons,
    List.not_mem_nil, or_false] at hm
  rcases hm with (⟨h, -, rfl⟩ | ⟨i, -, rfl⟩) | rfl | rfl <;> rfl

/-- The first move of a thread that can be made is one of the transitions. -/
theorem transition_of_next (h : s.next = some (t, es)) :
    ∃ m, m.isCall = false ∧ Transition s m t es := by
  obtain ⟨pre, m, post, hmoves, hstep, -⟩ := List.findSome?_eq_some_iff.mp h
  have hm : m ∈ s.threadMoves := by
    rw [hmoves]
    exact List.mem_append_right _ List.mem_cons_self
  exact ⟨m, isCall_of_mem_threadMoves hm, transition_of_step hstep⟩

/-- Each move the scheduler makes lowers what is left to do. -/
theorem next_load_lt (h : s.next = some (t, es)) : t.load < s.load := by
  obtain ⟨m, hcall, ht⟩ := transition_of_next h
  exact ht.load_lt hcall

/-- The scheduler makes the first of the threads' moves that can be made. -/
theorem next_eq_of_first {pre post : List Move} {m : Move} {r : Threads × List Event}
    (hmoves : s.threadMoves = pre ++ m :: post) (hpre : ∀ m' ∈ pre, s.step m' = none)
    (hm : s.step m = some r) : s.next = some r :=
  List.findSome?_eq_some_iff.mpr ⟨pre, m, post, hmoves, hm, hpre⟩

/-- Letting the threads move from `s`, with as much fuel as is left to do or more, ends with
them at `t` and gives the events `es`. -/
def Settles (s t : Threads) (es : List Event) : Prop :=
  ∀ fuel, s.load ≤ fuel → s.settle fuel = (t, es)

/-- Threads at rest stay as they are. -/
theorem settles_of_next_none (h : s.next = none) : Settles s s [] := by
  intro fuel _
  cases fuel with
  | zero => rfl
  | succ fuel => simp [settle, h]

/-- The scheduler makes the first move that can be made, then lets the threads move on. -/
theorem Settles.cons {u : Threads} {es' : List Event} (h : s.next = some (t, es))
    (ht : Settles t u es') : Settles s u (es ++ es') := by
  intro fuel hfuel
  have hlt := next_load_lt h
  obtain ⟨fuel', rfl⟩ : ∃ fuel', fuel = fuel' + 1 := ⟨fuel - 1, by omega⟩
  simp only [settle, h, ht fuel' (by omega)]

/-- A call that can be made is made, and the threads then move until none can. -/
theorem perform_of_settles {u : Threads} {es' : List Event} (hstep : s.step m = some (t, es))
    (ht : Settles t u es') : s.perform m = (u, es ++ es') := by
  simp only [perform, hstep, ht t.load (Nat.le_refl _)]

/-- A call that cannot be made changes nothing. -/
theorem perform_of_none (hstep : s.step m = none) : s.perform m = (s, []) := by
  simp only [perform, hstep]

/-- The scheduler takes the threads from `s` to `t`, giving `es` on the way: wherever they
come to rest from `t`, they come to rest there from `s`. -/
def Leads (s t : Threads) (es : List Event) : Prop :=
  ∀ u es', Settles t u es' → Settles s u (es ++ es')

theorem Leads.refl (s : Threads) : Leads s s [] := fun _ _ h => h

theorem Leads.trans {u : Threads} {es' : List Event} (h₁ : Leads s t es) (h₂ : Leads t u es') :
    Leads s u (es ++ es') := by
  intro v es'' hv
  rw [List.append_assoc]
  exact h₁ v _ (h₂ v es'' hv)

theorem leads_of_next (h : s.next = some (t, es)) : Leads s t es :=
  fun _ _ ht => Settles.cons h ht

theorem Leads.settles (h : Leads s t es) (ht : t.next = none) : Settles s t es := by
  have := h t [] (settles_of_next_none ht)
  rwa [List.append_nil] at this

/-- The scheduler's choice, spelled out: the first handle whose pending call can move, then
the first forwarding thread that can, then the sorter thread, then the writer thread. -/
theorem next_eq (s : Threads) :
    s.next = ((List.range s.handles.length).findSome? fun j => s.step (.handle j)).or
      (((List.range s.route.forwarderCount).findSome? fun i => s.step (.forwarder i)).or
        ((s.step .sorter).or (s.step .writer))) := by
  simp only [next, threadMoves, List.findSome?_append, List.findSome?_map, List.findSome?_cons,
    List.findSome?_nil, Option.or_assoc]
  congr 2
  cases s.step .sorter <;> cases s.step .writer <;> rfl

/-- The first of the numbers below `n` at which `g` gives something, when only `h` can. -/
theorem findSome?_range_of_unique {β : Type} {g : Nat → Option β} {h : Nat} :
    ∀ {n : Nat}, h < n → (∀ j < n, j ≠ h → g j = none) → (List.range n).findSome? g = g h
  | 0, hlt, _ => absurd hlt (Nat.not_lt_zero _)
  | n + 1, hlt, hother => by
    rw [List.range_succ, List.findSome?_append, List.findSome?_singleton]
    rcases Nat.lt_succ_iff_lt_or_eq.mp hlt with hlt' | rfl
    · rw [findSome?_range_of_unique hlt' fun j hj hne => hother j (by omega) hne,
        hother n (Nat.lt_succ_self n) (by omega), Option.or_none]
    · rw [List.findSome?_eq_none_iff.mpr fun j hj => hother j (by simp at hj; omega)
        (by simp at hj; omega), Option.none_or]

/-- When a handle's pending call is the only one that can move, the scheduler moves it. -/
theorem next_of_handle {h : Nat} {r : Threads × List Event} (hlt : h < s.handles.length)
    (hother : ∀ j < s.handles.length, j ≠ h → s.step (.handle j) = none)
    (hm : s.step (.handle h) = some r) : s.next = some r := by
  rw [next_eq, findSome?_range_of_unique hlt hother, hm, Option.some_or]

/-- When no handle's pending call can move, the scheduler moves a forwarding thread, the sorter
thread or the writer thread. -/
theorem next_of_handles_blocked (hblocked : ∀ j < s.handles.length, s.step (.handle j) = none) :
    s.next = ((List.range s.route.forwarderCount).findSome? fun i => s.step (.forwarder i)).or
      ((s.step .sorter).or (s.step .writer)) := by
  rw [next_eq, List.findSome?_eq_none_iff.mpr fun j hj => hblocked j (by simpa using hj),
    Option.none_or]

/-- When only one forwarding thread can move, and no handle's pending call, the scheduler moves
that forwarding thread. -/
theorem next_of_forwarder {i : Nat} {r : Threads × List Event}
    (hblocked : ∀ j < s.handles.length, s.step (.handle j) = none) (hlt : i < s.route.forwarderCount)
    (hother : ∀ k < s.route.forwarderCount, k ≠ i → s.step (.forwarder k) = none)
    (hm : s.step (.forwarder i) = some r) : s.next = some r := by
  rw [next_of_handles_blocked hblocked, findSome?_range_of_unique hlt hother, hm, Option.some_or]

/-- When neither a handle's pending call nor a forwarding thread can move, the scheduler moves
the sorter thread, or else the writer thread. -/
theorem next_of_threads_blocked (hblocked : ∀ j < s.handles.length, s.step (.handle j) = none)
    (hfws : ∀ i < s.route.forwarderCount, s.step (.forwarder i) = none) :
    s.next = (s.step .sorter).or (s.step .writer) := by
  rw [next_of_handles_blocked hblocked,
    List.findSome?_eq_none_iff.mpr fun i hi => hfws i (by simpa using hi), Option.none_or]

/-! ## Moves that cannot be made -/

section Blocked

variable {j : Nat} {hd : Handle}

/-- An idle, closed or dropped handle has no pending call, and a closing one returns only once
the writer thread has exited. -/
theorem step_handle_eq_none (hh : s.handles[j]? = some hd)
    (hstate : hd.state = .idle ∨ hd.state = .closed ∨ hd.state = .dropped ∨
      (hd.state = .closing ∧ ∀ p, s.writer ≠ .exited p)) :
    s.step (.handle j) = none := by
  rcases hs : s.step (.handle j) with _ | ⟨t, es⟩
  · rfl
  · exfalso
    cases transition_of_step hs with
    | handOver hh' hw => simp_all
    | refuse hh' hw => simp_all
    | forward hh' hw => simp_all
    | refuseSorted hh' hw => simp_all
    | returnClose hh' hc hw => simp_all

/-- A forwarding thread that has ended does nothing, and one that waits for its handle's next
frame waits as long as the handle holds its sender. -/
theorem step_forwarder_eq_none {i : Nat} {fws : List Forwarder} {t : SorterThread}
    (hr : s.route = .sorted fws t)
    (hfw : fws[i]? = some .ended ∨
      (fws[i]? = some .receiving ∧ (s.handles[i]?.map Handle.sending).getD false = true)) :
    s.step (.forwarder i) = none := by
  rcases hs : s.step (.forwarder i) with _ | ⟨t', es⟩
  · rfl
  · exfalso
    cases transition_of_step hs with
    | push hr' hfw' => simp_all
    | abandon hr' hfw' => simp_all
    | hangUp hr' hfw' hsend => simp_all

/-- Without a sorter there is no sorter thread. -/
theorem step_sorter_direct (hr : s.route = .direct) : s.step .sorter = none := by
  simp [step, sorterStep, hr]

/-- Without a sorter there are no forwarding threads. -/
theorem step_forwarder_direct (hr : s.route = .direct) (i : Nat) : s.step (.forwarder i) = none := by
  simp [step, forwarderStep, hr]

/-- A receiving sorter thread waits while a forwarding thread is left. -/
theorem step_sorter_receiving {fws : List Forwarder} {so : FrameSorter}
    (hr : s.route = .sorted fws (.receiving so)) (hall : fws.all Forwarder.isEnded = false) :
    s.step .sorter = none := by
  simp [step, sorterStep, hr, hall]

/-- A returned sorter thread does nothing. -/
theorem step_sorter_returned {fws : List Forwarder} (hr : s.route = .sorted fws .returned) :
    s.step .sorter = none := by
  simp [step, sorterStep, hr]

/-- An exited writer thread does nothing. -/
theorem step_writer_exited {p : Pipeline} (hw : s.writer = .exited p) : s.step .writer = none := by
  simp [step, writerStep, hw]

/-- A writer thread that has not failed waits while its channel has a sender. -/
theorem step_writer_waits {p : Pipeline} (hw : s.writer = .running p) (hp : p.failed = none)
    (hsend : s.senders = true) : s.step .writer = none := by
  simp [step, writerStep, hw, hp, hsend]

end Blocked

end Threads

end Matroska

end Ebml
