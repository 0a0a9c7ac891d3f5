import Ebml.Proofs.Flushing

/-!
# Sorting frames

Over a run of pushes into a new sorter and its finish, every frame is released once, in push
order within its track, unless it is dropped as outdated (`pushAll_finish_conserves`); after each
push some track is empty and no limit is passed (`pushAll_bounds_buffering`); and frames come out
oldest first (`sorter_releases_oldest_first`). Each is an invariant carried from push to push.
-/

namespace Ebml

namespace Matroska

namespace FrameSorter

/-! ## Pushes and finishing -/

section Push

variable {s : FrameSorter} {i : Nat} {f : Frame}

/-- The sorter with a frame added to the end of track `i`'s queue. -/
def enqueue (s : FrameSorter) (i : Nat) (f : Frame) : FrameSorter :=
  { s with queues := s.queues.modify i (· ++ [f]) }

theorem push_outdated (h : Outdated s f) : s.push i f = (s, []) := if_pos h

theorem push_current (h : ¬Outdated s f) :
    s.push i f = flush false (s.enqueue i f).len (s.enqueue i f) := if_neg h

theorem getD_modify_append {qs : List (List Frame)} (hi : i < qs.length) (j : Nat) :
    (qs.modify i (· ++ [f])).getD j [] = qs.getD j [] ++ framesOf j [(i, f)] := by
  by_cases hj : i = j
  · subst hj
    simp [framesOf, List.getElem?_eq_getElem hi]
  · simp [framesOf, hj]

/-- A push that keeps its frame adds it to the end of its track; everything it releases comes
from the front of the queues. -/
theorem push_conserves (hi : i < s.queues.length) (h : ¬Outdated s f) (j : Nat) :
    framesOf j (s.push i f).2 ++ (s.push i f).1.queues.getD j [] =
      s.queues.getD j [] ++ framesOf j [(i, f)] := by
  rw [push_current h, flush_conserves (flush_eq _ _ _) j]
  exact getD_modify_append hi j

end Push

theorem finish_empties (s : FrameSorter) : ∀ q ∈ s.finish.1.queues, q = [] := by
  rw [finish]
  rcases flush_atRest (flush_eq true s.len s) (Nat.le_refl _) with hempty | hrest
  · exact hempty
  · have hnone := List.countP_eq_zero.1 (Nat.lt_one_iff.1 hrest.waiting)
    intro q hq
    simpa using hnone q hq

/-- Finishing releases every frame waiting, track by track in queue order. -/
theorem finish_conserves (s : FrameSorter) (j : Nat) :
    framesOf j s.finish.2 = s.queues.getD j [] := by
  have h := flush_conserves (flush_eq true s.len s) j
  have hempty := finish_empties s
  rw [finish] at hempty ⊢
  rcases Nat.lt_or_ge j (flush true s.len s).1.queues.length with hj | hj
  · rwa [hempty _ (getD_mem hj), List.append_nil] at h
  · rwa [List.getD_eq_default _ _ hj, List.append_nil] at h

theorem finish_len (s : FrameSorter) : s.finish.1.len = 0 :=
  foldl_length_eq_zero.2 (finish_empties s)

/-! ## Runs -/

/-- Pushes frames into a sorter one after another, giving the sorter after the last push and the
frames each push released. -/
def pushAll (s : FrameSorter) : List (Nat × Frame) → FrameSorter × List (List (Nat × Frame))
  | [] => (s, [])
  | p :: ps =>
    let r := s.push p.1 p.2
    ((r.1.pushAll ps).1, r.2 :: (r.1.pushAll ps).2)

/-- The pushes of a run that the rule for outdated frames keeps, given what each push released
and the timestamp `last` of the last frame released before the run: under `drop`, a push whose
frame is older than the last frame released before it is left out. -/
def keptPushes (rule : OutdatedRule) (last : Option Int) :
    List (Nat × Frame) → List (List (Nat × Frame)) → List (Nat × Frame)
  | p :: ps, out :: outs =>
    let rest := keptPushes rule ((out.getLast?.map (·.2.timestamp)).or last) ps outs
    if rule = .drop ∧ last.any (p.2.timestamp < ·) then rest else p :: rest
  | _, _ => []

section Run

variable {s : FrameSorter} {i : Nat} {f : Frame}

theorem push_keeps (s : FrameSorter) (i : Nat) (f : Frame) :
    (s.push i f).1.options = s.options ∧ (s.push i f).1.queues.length = s.queues.length := by
  by_cases h : Outdated s f
  · rw [push_outdated h]
    exact ⟨rfl, rfl⟩
  · rw [push_current h]
    obtain ⟨hopts, hlen⟩ := flush_keeps (flush_eq false (s.enqueue i f).len (s.enqueue i f))
    exact ⟨hopts, hlen.trans (List.length_modify _ _ _)⟩

/-- After a push, the last frame released is the last one it released, if any. -/
theorem push_done (s : FrameSorter) (i : Nat) (f : Frame) :
    (s.push i f).1.done = ((s.push i f).2.getLast?.map (·.2.timestamp)).getD s.done := by
  by_cases h : Outdated s f
  · rw [push_outdated h]
    rfl
  · rw [push_current h]
    exact flush_done (s := s.enqueue i f) (flush_eq false (s.enqueue i f).len (s.enqueue i f))

theorem pushAll_keeps (s : FrameSorter) (ps : List (Nat × Frame)) :
    (s.pushAll ps).1.options = s.options ∧ (s.pushAll ps).1.queues.length = s.queues.length := by
  induction ps generalizing s with
  | nil => exact ⟨rfl, rfl⟩
  | cons p ps ih =>
    obtain ⟨hopts, hlen⟩ := ih (s.push p.1 p.2).1
    exact ⟨hopts.trans (push_keeps s p.1 p.2).1, hlen.trans (push_keeps s p.1 p.2).2⟩

/-- With `last` the last frame released, if any, a frame no older than any timestamp can be is
outdated exactly when the rule drops outdated frames and it is older than `last`. -/
theorem outdated_iff {last : Option Int} (hdone : s.done = last.getD minTimestamp)
    (hf : minTimestamp ≤ f.timestamp) :
    Outdated s f ↔ s.options.rule = .drop ∧ last.any (f.timestamp < ·) := by
  cases last with
  | none =>
    simp only [Option.getD_none] at hdone
    simp only [Outdated, hdone, Option.any_none, Bool.false_eq_true, and_false, iff_false]
    omega
  | some t =>
    simp only [Option.getD_some] at hdone
    simp [Outdated, hdone, and_comm]

/-- Along a run, what was released of a track, then what it still holds, is what it held and
then the frames kept of those pushed to it. -/
theorem pushAll_conserves {last : Option Int} (hdone : s.done = last.getD minTimestamp)
    {ps : List (Nat × Frame)}
    (hps : ∀ p ∈ ps, p.1 < s.queues.length ∧ minTimestamp ≤ p.2.timestamp)
    (j : Nat) :
    framesOf j (s.pushAll ps).2.flatten ++ (s.pushAll ps).1.queues.getD j [] =
      s.queues.getD j [] ++ framesOf j (keptPushes s.options.rule last ps (s.pushAll ps).2) := by
  induction ps generalizing s last with
  | nil => simp [pushAll, keptPushes]
  | cons p ps ih =>
    have hp := hps p List.mem_cons_self
    have hrest : ∀ q ∈ ps,
        q.1 < (s.push p.1 p.2).1.queues.length ∧ minTimestamp ≤ q.2.timestamp :=
      fun q hq => (push_keeps s p.1 p.2).2 ▸ hps q (List.mem_cons_of_mem _ hq)
    have hdone' : (s.push p.1 p.2).1.done =
        (((s.push p.1 p.2).2.getLast?.map (·.2.timestamp)).or last).getD minTimestamp := by
      rw [push_done, hdone]
      cases (s.push p.1 p.2).2.getLast? <;> rfl
    have ih' := ih hdone' hrest
    rw [(push_keeps s p.1 p.2).1] at ih'
    simp only [pushAll, keptPushes, List.flatten_cons, framesOf_append, List.append_assoc]
    by_cases hold : Outdated s p.2
    · -- a dropped frame changes nothing
      have hkeep := (outdated_iff hdone hp.2).1 hold
      rw [if_pos hkeep]
      rw [push_outdated hold] at ih' ⊢
      simpa using ih'
    · have hkeep := mt (outdated_iff hdone hp.2).2 hold
      rw [if_neg hkeep, ih', ← List.append_assoc, push_conserves hp.1 hold j, List.append_assoc,
        ← framesOf_append]
      rfl

end Run

/-! ## Every frame comes out once -/

/-- The frames of a list tagged with track `j` are its frames of track `j`, tagged. -/
theorem filter_track (l : List (Nat × Frame)) (j : Nat) :
    l.filter (·.1 == j) = (framesOf j l).map (Prod.mk j) := by
  induction l with
  | nil => rfl
  | cons p l ih =>
    rw [framesOf_cons, List.filter_cons]
    by_cases h : p.1 = j
    · subst h
      simp [ih]
    · simp [h, ih]

/-- Lists of tagged frames with the same frames on every track are permutations of each other. -/
theorem perm_of_framesOf {l l' : List (Nat × Frame)} (h : ∀ j, framesOf j l = framesOf j l') :
    l.Perm l' := by
  rw [List.perm_iff_count]
  intro a
  have hl := List.count_filter (l := l) (p := (·.1 == a.1)) (a := a) (by simp)
  have hl' := List.count_filter (l := l') (p := (·.1 == a.1)) (a := a) (by simp)
  rw [← hl, ← hl', filter_track, filter_track, h]

@[simp] theorem new_getD (n : Nat) (o : SorterOptions) (j : Nat) :
    (new n o).queues.getD j [] = [] := by
  simp [new]

/-- Every frame pushed into a new sorter and kept comes out of the run or of the finish, track
by track in push order. -/
theorem pushAll_finish_framesOf {n : Nat} {o : SorterOptions} {ps : List (Nat × Frame)}
    (hps : ∀ p ∈ ps, p.1 < n ∧ minTimestamp ≤ p.2.timestamp) (j : Nat) :
    framesOf j (((new n o).pushAll ps).2.flatten ++ ((new n o).pushAll ps).1.finish.2) =
      framesOf j (keptPushes o.rule none ps ((new n o).pushAll ps).2) := by
  have hdone : (new n o).done = (none : Option Int).getD minTimestamp := rfl
  have h := pushAll_conserves hdone (by simpa [new] using hps) j
  rw [new_getD, List.nil_append] at h
  rw [framesOf_append, finish_conserves]
  exact h

/-- Every frame pushed into a new sorter, on a track it has, and not dropped comes out once
the sorter is finished, exactly once and with its track, in push order within its track; a
push drops its frame exactly when the rule drops outdated frames and the frame is older than
the last frame released before the push. Nothing is left waiting. -/
theorem pushAll_finish_conserves (n : Nat) (o : SorterOptions) (ps : List (Nat × Frame))
    (hps : ∀ p ∈ ps, p.1 < n ∧ minTimestamp ≤ p.2.timestamp) :
    let run := (new n o).pushAll ps
    let out := run.2.flatten ++ run.1.finish.2
    let kept := keptPushes o.rule none ps run.2
    out.Perm kept ∧ (∀ j, out.filter (·.1 == j) = kept.filter (·.1 == j)) ∧
      run.1.finish.1.len = 0 := by
  intro run out kept
  have hframes : ∀ j, framesOf j out = framesOf j kept := pushAll_finish_framesOf hps
  refine ⟨perm_of_framesOf hframes, fun j => ?_, finish_len _⟩
  rw [filter_track, filter_track, hframes]

/-- Two tracks with a backlog limit of two frames: the frame of track 1 at 15 comes after the
frame of track 0 at 18 was released, and is dropped. -/
theorem conserves_late_frame :
    let ps : List (Nat × Frame) := [(0, { timestamp := 10 }), (0, { timestamp := 11 }),
      (1, { timestamp := 9 }), (0, { timestamp := 16 }), (0, { timestamp := 17 }),
      (0, { timestamp := 18 }), (1, { timestamp := 15 }), (1, { timestamp := 18 })]
    let o : SorterOptions := { maxDelayedPackets := 2 }
    (∀ p ∈ ps, p.1 < 2 ∧ minTimestamp ≤ p.2.timestamp) ∧
      let run := (new 2 o).pushAll ps
      let out := run.2.flatten ++ run.1.finish.2
      let kept := keptPushes o.rule none ps run.2
      out.Perm kept ∧ (∀ j, out.filter (·.1 == j) = kept.filter (·.1 == j)) ∧
        run.1.finish.1.len = 0 := by
  intro ps o
  have h : ∀ p ∈ ps, p.1 < 2 ∧ minTimestamp ≤ p.2.timestamp := by decide
  exact ⟨h, pushAll_finish_conserves 2 o ps h⟩

/-- The run of the witness above: the frame of track 1 at 15 is the one left out. -/
example :
    let ps : List (Nat × Frame) := [(0, { timestamp := 10 }), (0, { timestamp := 11 }),
      (1, { timestamp := 9 }), (0, { timestamp := 16 }), (0, { timestamp := 17 }),
      (0, { timestamp := 18 }), (1, { timestamp := 15 }), (1, { timestamp := 18 })]
    let run := (new 2 { maxDelayedPackets := 2 }).pushAll ps
    (run.2.flatten ++ run.1.finish.2).map (fun p => (p.1, p.2.timestamp)) =
      [(1, 9), (0, 10), (0, 11), (0, 16), (0, 17), (0, 18), (1, 18)] := by decide

/-! ## Bounded buffering -/

section Rest

variable {s : FrameSorter}

theorem atRest_of_empty (hn : 0 < s.queues.length) (h : ∀ q ∈ s.queues, q = []) :
    AtRest s.queues.length s where
  waiting := by
    rw [List.countP_eq_zero.2 (fun q hq => by simp [h q hq])]
    exact hn
  backlog := fun _ q hq => by simp [h q hq]
  spread := fun _ q hq => by simp [h q hq]

/-- A push leaves the sorter at rest, so long as it has a track. -/
theorem push_atRest (hn : 0 < s.queues.length) (hs : AtRest s.queues.length s) (i : Nat)
    (f : Frame) :
    AtRest (s.push i f).1.queues.length (s.push i f).1 := by
  by_cases h : Outdated s f
  · rw [push_outdated h]
    exact hs
  · rw [push_current h]
    have hlen := (flush_keeps (flush_eq false (s.enqueue i f).len (s.enqueue i f))).2
    have henq : (s.enqueue i f).queues.length = s.queues.length := List.length_modify _ _ _
    rcases flush_atRest (flush_eq false (s.enqueue i f).len (s.enqueue i f)) (Nat.le_refl _) with
      hempty | hrest
    · exact atRest_of_empty (by omega) hempty
    · rwa [hlen]

theorem pushAll_atRest (hn : 0 < s.queues.length) (hs : AtRest s.queues.length s)
    (ps : List (Nat × Frame)) : AtRest (s.pushAll ps).1.queues.length (s.pushAll ps).1 := by
  induction ps generalizing s with
  | nil => exact hs
  | cons p ps ih =>
    have hlen := (push_keeps s p.1 p.2).2
    exact ih (by omega) (push_atRest hn hs p.1 p.2)

theorem nil_mem_of_atRest (h : AtRest s.queues.length s) : [] ∈ s.queues :=
  Classical.byContradiction fun hnil => by
    -- with no empty queue, every track would have frames waiting
    have hall : s.queues.countP (fun q => !q.isEmpty) = s.queues.length :=
      List.countP_eq_length.2 fun q hq => by
        cases q with
        | nil => exact absurd hq hnil
        | cons => rfl
    exact Nat.lt_irrefl _ (hall ▸ h.waiting)

end Rest

/-- Queues of at most `k` frames hold at most `k` frames for each queue. -/
theorem foldl_length_le {qs : List (List Frame)} {k : Nat} (h : ∀ q ∈ qs, q.length ≤ k) :
    qs.foldl (fun n q => n + q.length) 0 ≤ qs.length * k := by
  induction qs with
  | nil => simp
  | cons q qs ih =>
    simp only [List.foldl_cons, Nat.zero_add, List.length_cons]
    rw [foldl_length_add]
    have hq := h q List.mem_cons_self
    have := ih fun q' hq' => h q' (List.mem_cons_of_mem _ hq')
    rw [Nat.succ_mul]
    omega

/-- When one of them is empty, queues of at most `k` frames hold at most `k` frames for each
other queue. -/
theorem foldl_length_le_of_nil_mem {qs : List (List Frame)} {k : Nat} (hnil : [] ∈ qs)
    (h : ∀ q ∈ qs, q.length ≤ k) :
    qs.foldl (fun n q => n + q.length) 0 ≤ (qs.length - 1) * k := by
  induction qs with
  | nil => simp at hnil
  | cons q qs ih =>
    simp only [List.foldl_cons, Nat.zero_add, List.length_cons, Nat.add_sub_cancel]
    rw [foldl_length_add]
    have hrest : ∀ q' ∈ qs, q'.length ≤ k := fun q' hq' => h q' (List.mem_cons_of_mem _ hq')
    rcases List.mem_cons.1 hnil with rfl | hnil
    · simpa using foldl_length_le hrest
    · have hq := h q List.mem_cons_self
      have := ih hnil hrest
      cases qs with
      | nil => simp at hnil
      | cons q' qs =>
        simp only [List.length_cons, Nat.add_sub_cancel] at this ⊢
        rw [Nat.succ_mul]
        omega

/-- After each push into a new sorter with a track or more, some track has nothing waiting; with
a limit of `k` frames a queue, no queue holds more than `k` frames, so at most `k` for each other
track wait; and with a limit of `d` on the span of the waiting frames, no last frame waiting is
more than `d` (saturating) newer than any first frame waiting. -/
theorem pushAll_bounds_buffering (n : Nat) (hn : 0 < n) (o : SorterOptions)
    (ps : List (Nat × Frame)) :
    let s := ((new n o).pushAll ps).1
    [] ∈ s.queues ∧
      (o.maxDelayedPackets ≠ 0 → (∀ q ∈ s.queues, q.length ≤ o.maxDelayedPackets) ∧
        s.len ≤ (n - 1) * o.maxDelayedPackets) ∧
      (o.maxTimescaleDelay ≠ 0 → ∀ q ∈ s.queues, ∀ q' ∈ s.queues, ∀ h ∈ q.head?,
        ∀ t ∈ q'.getLast?, saturatingSub t.timestamp h.timestamp ≤ o.maxTimescaleDelay) := by
  intro s
  have hlen0 : (new n o).queues.length = n := by simp [new]
  obtain ⟨hopts, hlen⟩ := pushAll_keeps (new n o) ps
  have hrest := pushAll_atRest (s := new n o) (by omega)
    (atRest_of_empty (by omega) (by simp [new])) ps
  have hnil := nil_mem_of_atRest hrest
  obtain ⟨-, hbacklog, hspread⟩ := hrest
  rw [hopts] at hbacklog hspread
  refine ⟨hnil, fun hk => ⟨hbacklog hk, ?_⟩, hspread⟩
  have := foldl_length_le_of_nil_mem hnil (hbacklog hk)
  rw [hlen, hlen0] at this
  exact this

/-- Two tracks with a span limit of 100, and frames at 0, 50, 100 and 101 pushed to the first
while the second stays silent. -/
theorem bounds_timescale_run :
    let s := ((new 2 { maxTimescaleDelay := 100 }).pushAll [(0, { timestamp := 0 }),
      (0, { timestamp := 50 }), (0, { timestamp := 100 }), (0, { timestamp := 101 })]).1
    0 < 2 ∧ [] ∈ s.queues ∧
      ((0 : Nat) ≠ 0 → (∀ q ∈ s.queues, q.length ≤ 0) ∧ s.len ≤ (2 - 1) * 0) ∧
      ((100 : Int) ≠ 0 → ∀ q ∈ s.queues, ∀ q' ∈ s.queues, ∀ h ∈ q.head?,
        ∀ t ∈ q'.getLast?, saturatingSub t.timestamp h.timestamp ≤ 100) :=
  ⟨by decide, pushAll_bounds_buffering 2 (by decide) _ _⟩

/-! ## Frames come out in order -/

theorem mem_modify {qs : List (List Frame)} {i : Nat} {g : List Frame → List Frame}
    {q : List Frame} (h : q ∈ qs.modify i g) : q ∈ qs ∨ q = g (qs.getD i []) := by
  rw [List.modify_eq_set] at h
  rcases List.mem_or_eq_of_mem_set h with h | h
  · exact .inl h
  · exact .inr (by rw [h, List.getD_eq_getElem?_getD]; rfl)

theorem mem_getD {qs : List (List Frame)} {i : Nat} {g : Frame} (h : g ∈ qs.getD i []) :
    qs.getD i [] ∈ qs := by
  rcases Nat.lt_or_ge i qs.length with hi | hi
  · exact getD_mem hi
  · rw [List.getD_eq_default _ _ hi] at h
    simp at h

/-- A frame added in order to its queue, and no older than the last frame released, keeps the
queues ordered. -/
theorem Ordered.enqueue {s : FrameSorter} (hs : Ordered s) {i : Nat} {f : Frame}
    (hsorted : ((s.queues.getD i [] ++ [f]).map (·.timestamp)).Pairwise (· ≤ ·))
    (hf : s.done ≤ f.timestamp) : Ordered (s.enqueue i f) where
  sorted q hq := by
    rcases mem_modify hq with hq | rfl
    · exact hs.sorted q hq
    · exact hsorted
  current q hq g hg := by
    rcases mem_modify hq with hq | rfl
    · exact hs.current q hq g hg
    · rcases List.mem_append.1 hg with hg | hg
      · exact hs.current _ (mem_getD hg) g hg
      · rw [List.mem_singleton.1 hg]
        exact hf

/-- A sorter ready for the pushes `ps`: on every track, the frames waiting and then the frames
still to be pushed are in timestamp order, and nothing waiting is older than the last frame
released. -/
structure ReadyFor (s : FrameSorter) (ps : List (Nat × Frame)) : Prop where
  sorted : ∀ j, ((s.queues.getD j [] ++ framesOf j ps).map (·.timestamp)).Pairwise (· ≤ ·)
  current : ∀ q ∈ s.queues, ∀ g ∈ q, s.done ≤ g.timestamp

section Ready

variable {s : FrameSorter} {ps : List (Nat × Frame)}

theorem ReadyFor.ordered (h : ReadyFor s ps) : Ordered s where
  sorted q hq := by
    obtain ⟨j, hj, rfl⟩ := List.mem_iff_getElem.1 hq
    have := h.sorted j
    rw [List.getD_eq_getElem _ _ hj, List.map_append] at this
    exact (List.pairwise_append.1 this).1
  current := h.current

theorem framesOf_sublist_cons (j : Nat) (p : Nat × Frame) (l : List (Nat × Frame)) :
    (framesOf j l).Sublist (framesOf j (p :: l)) := by
  rw [framesOf_cons]
  split
  · exact List.sublist_cons_self _ _
  · exact List.Sublist.refl _

/-- A sorter ready for a push is ready for the pushes after it, if that one drops its frame. -/
theorem ReadyFor.skip {p : Nat × Frame} (h : ReadyFor s (p :: ps)) : ReadyFor s ps where
  sorted j :=
    (h.sorted j).sublist (List.Sublist.map _ ((framesOf_sublist_cons j p ps).append_left _))
  current := h.current

/-- Adding a frame to its queue keeps the frames waiting, then those to come, in order. -/
theorem enqueue_sublist {i : Nat} {f : Frame} (j : Nat) :
    ((s.enqueue i f).queues.getD j [] ++ framesOf j ps).Sublist
      (s.queues.getD j [] ++ framesOf j ((i, f) :: ps)) := by
  rcases Nat.lt_or_ge i s.queues.length with hi | hi
  · rw [enqueue, getD_modify_append hi, List.append_assoc, ← framesOf_append]
    exact List.Sublist.refl _
  · rw [enqueue, List.modify_eq_self hi]
    exact (framesOf_sublist_cons j (i, f) ps).append_left _

/-- Under the rule that drops outdated frames, a push into a ready sorter releases frames in
timestamp order, none older than the last frame released before it and none newer than the last
it releases, and leaves the sorter ready for the pushes after it. -/
theorem push_ordered (hrule : s.options.rule = .drop) {p : Nat × Frame}
    (h : ReadyFor s (p :: ps)) :
    ReadyFor (s.push p.1 p.2).1 ps ∧ s.done ≤ (s.push p.1 p.2).1.done ∧
      ((s.push p.1 p.2).2.map (·.2.timestamp)).Pairwise (· ≤ ·) ∧
      ∀ x ∈ (s.push p.1 p.2).2,
        s.done ≤ x.2.timestamp ∧ x.2.timestamp ≤ (s.push p.1 p.2).1.done := by
  by_cases hold : Outdated s p.2
  · rw [push_outdated hold]
    exact ⟨h.skip, Int.le_refl _, List.Pairwise.nil, by simp⟩
  · have hcur : s.done ≤ p.2.timestamp := by
      simp only [Outdated, hrule, and_true] at hold
      omega
    have hsorted : ((s.queues.getD p.1 [] ++ [p.2]).map (·.timestamp)).Pairwise (· ≤ ·) := by
      refine (h.sorted p.1).sublist (List.Sublist.map _ (List.Sublist.append_left ?_ _))
      rw [framesOf_cons, if_pos rfl]
      exact List.cons_sublist_cons.2 (List.nil_sublist _)
    have hflush := flush_eq false (s.enqueue p.1 p.2).len (s.enqueue p.1 p.2)
    obtain ⟨hs', hdone, hout, hbounds⟩ := flush_ordered hflush (h.ordered.enqueue hsorted hcur)
    rw [push_current hold]
    refine ⟨⟨fun j => ?_, hs'.current⟩, hdone, hout, hbounds⟩
    have hsuffix :
        ((flush false (s.enqueue p.1 p.2).len (s.enqueue p.1 p.2)).1.queues.getD j []).Sublist
          ((s.enqueue p.1 p.2).queues.getD j []) := by
      rw [← flush_conserves hflush j]
      exact List.sublist_append_right _ _
    exact (h.sorted j).sublist
      (List.Sublist.map _ ((hsuffix.append_right _).trans (enqueue_sublist j)))

/-- Under the rule that drops outdated frames, a run of pushes into a ready sorter releases
frames in timestamp order, none older than the last frame released before it and none newer
than the last it releases, and leaves the queues ordered. -/
theorem pushAll_ordered (hrule : s.options.rule = .drop) (h : ReadyFor s ps) :
    Ordered (s.pushAll ps).1 ∧ s.done ≤ (s.pushAll ps).1.done ∧
      ((s.pushAll ps).2.flatten.map (·.2.timestamp)).Pairwise (· ≤ ·) ∧
      ∀ x ∈ (s.pushAll ps).2.flatten,
        s.done ≤ x.2.timestamp ∧ x.2.timestamp ≤ (s.pushAll ps).1.done := by
  induction ps generalizing s with
  | nil => exact ⟨h.ordered, Int.le_refl _, List.Pairwise.nil, by simp [pushAll]⟩
  | cons p ps ih =>
    obtain ⟨hready, hdone, hout, hbounds⟩ := push_ordered hrule h
    obtain ⟨hs', hdone', hout', hbounds'⟩ :=
      ih (by rw [(push_keeps s p.1 p.2).1]; exact hrule) hready
    simp only [pushAll, List.flatten_cons, List.map_append, List.pairwise_append, List.mem_append]
    refine ⟨hs', Int.le_trans hdone hdone', ⟨hout, hout', ?_⟩, ?_⟩
    · simp only [List.mem_map]
      rintro _ ⟨x, hx, rfl⟩ _ ⟨y, hy, rfl⟩
      exact Int.le_trans (hbounds x hx).2 (hbounds' y hy).1
    · rintro x (hx | hx)
      · exact ⟨(hbounds x hx).1, Int.le_trans (hbounds x hx).2 hdone'⟩
      · exact ⟨Int.le_trans hdone (hbounds' x hx).1, (hbounds' x hx).2⟩

/-- Under the rule that drops outdated frames, when the frames pushed to each track come in
timestamp order, a new sorter releases every frame, through its pushes and then its finish, in
timestamp order. -/
theorem pushAll_finish_sorted {n : Nat} {o : SorterOptions} (hrule : o.rule = .drop)
    (hsorted : ∀ j, ((ps.filter (·.1 == j)).map (·.2.timestamp)).Pairwise (· ≤ ·)) :
    ((((new n o).pushAll ps).2.flatten ++ ((new n o).pushAll ps).1.finish.2).map
      (·.2.timestamp)).Pairwise (· ≤ ·) := by
  have hready : ReadyFor (new n o) ps := by
    refine ⟨fun j => ?_, fun q hq => ?_⟩
    · rw [new_getD, List.nil_append, framesOf, List.map_map]
      exact hsorted j
    · simp only [new, List.mem_replicate] at hq
      simp [hq.2]
  obtain ⟨hs, -, hout, hbounds⟩ := pushAll_ordered hrule hready
  obtain ⟨-, -, hfin, hfinBounds⟩ := flush_ordered (flush_eq true _ _) hs
  rw [List.map_append, List.pairwise_append]
  refine ⟨hout, hfin, ?_⟩
  simp only [List.mem_map]
  rintro _ ⟨x, hx, rfl⟩ _ ⟨y, hy, rfl⟩
  exact Int.le_trans (hbounds x hx).2 (hfinBounds y hy).1

end Ready

/-- Each frame a push releases is, when released, the oldest first frame waiting, on the first
track that holds one that old. -/
theorem push_oldestFirst (s : FrameSorter) (i : Nat) (f : Frame) :
    OldestFirst (s.queues.modify i (· ++ [f])) (s.push i f).2 := by
  by_cases hold : Outdated s f
  · rw [push_outdated hold]
    trivial
  · rw [push_current hold]
    exact flush_oldestFirst (s := s.enqueue i f) (flush_eq false _ _)

theorem finish_oldestFirst (s : FrameSorter) : OldestFirst s.queues s.finish.2 :=
  flush_oldestFirst (flush_eq true s.len s)

/-- Under the rule that drops outdated frames, when the frames pushed to each track come in
timestamp order, every frame a new sorter releases, through its pushes and then its finish,
comes out in timestamp order. In every run, each frame released is, when released, the oldest
first frame waiting, on the first track that holds one that old. -/
theorem sorter_releases_oldest_first :
    (∀ (n : Nat) (o : SorterOptions) (ps : List (Nat × Frame)), o.rule = .drop →
      (∀ j, ((ps.filter (·.1 == j)).map (·.2.timestamp)).Pairwise (· ≤ ·)) →
      ((((new n o).pushAll ps).2.flatten ++ ((new n o).pushAll ps).1.finish.2).map
        (·.2.timestamp)).Pairwise (· ≤ ·)) ∧
    (∀ (s : FrameSorter) (i : Nat) (f : Frame),
      OldestFirst (s.queues.modify i (· ++ [f])) (s.push i f).2) ∧
    ∀ s : FrameSorter, OldestFirst s.queues s.finish.2 :=
  ⟨fun _ _ _ hrule hsorted => pushAll_finish_sorted hrule hsorted, push_oldestFirst,
    finish_oldestFirst⟩

/-- Two tracks with at most one frame held back, the first track's frames pushed in order around
the second's: everything released comes out in timestamp order. -/
theorem interleaved_tracks_release_sorted :
    let ps : List (Nat × Frame) :=
      [(0, { timestamp := 1 }), (1, { timestamp := 2 }), (0, { timestamp := 3 })]
    (∀ j, ((ps.filter (·.1 == j)).map (·.2.timestamp)).Pairwise (· ≤ ·)) ∧
      ((((new 2 { maxDelayedPackets := 1 }).pushAll ps).2.flatten ++
        ((new 2 { maxDelayedPackets := 1 }).pushAll ps).1.finish.2).map
          (·.2.timestamp)).Pairwise (· ≤ ·) := by
  intro ps
  have hsorted : ∀ j, ((ps.filter (·.1 == j)).map (·.2.timestamp)).Pairwise (· ≤ ·) := by
    intro j
    rcases j with _ | _ | j <;> simp [ps]
  exact ⟨hsorted, sorter_releases_oldest_first.1 2 _ ps rfl hsorted⟩

/-- Frames of equal timestamps pushed to the last track first come out from the first track on. -/
example :
    let run := (new 3 { maxDelayedPackets := 8 }).pushAll
      [(2, { timestamp := 5 }), (1, { timestamp := 5 }), (0, { timestamp := 5 })]
    (run.2.flatten ++ run.1.finish.2).map (fun p => (p.1, p.2.timestamp)) =
      [(0, 5), (1, 5), (2, 5)] := by
  decide

end FrameSorter

end Matroska

end Ebml
