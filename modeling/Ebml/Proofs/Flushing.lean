import Ebml.Matroska.Sorter
import Mathlib.Data.List.GetD

/-!
# Flushing a sorter

A flush releases frames one round at a time: each round scans the queues for the oldest first
frame, the tracks waiting, the longest queue and the span, and releases that frame unless too few
tracks wait and no limit is passed. What the scan finds is an invariant of its fold, each round
is stated by two inversion lemmas (`flush_eq_nil`, `flush_eq_cons`), and a whole flush follows by
induction on the frames it releases.
-/

namespace Ebml

namespace Matroska

namespace FrameSorter

/-! ## Scanning the queues -/

theorem scan_cons (i : Nat) (q : List Frame) (qs : List (List Frame)) (acc : Scan) :
    scan i (q :: qs) acc = scan (i + 1) qs (scan i [q] acc) := by
  cases q <;> rfl

@[simp] theorem scan_empty_queue (i : Nat) (acc : Scan) : scan i [[]] acc = acc := rfl

section Visit

variable (i : Nat) (f : Frame) (r : List Frame) (acc : Scan)

@[simp] theorem scan_single_nonEmpty : (scan i [f :: r] acc).nonEmpty = acc.nonEmpty + 1 := rfl

@[simp] theorem scan_single_backlog :
    (scan i [f :: r] acc).backlog = max acc.backlog (r.length + 1) := rfl

@[simp] theorem scan_single_minHead :
    (scan i [f :: r] acc).minHead = min acc.minHead f.timestamp := rfl

@[simp] theorem scan_single_maxTail :
    (scan i [f :: r] acc).maxTail = max acc.maxTail (r.getLast?.getD f).timestamp := by
  simp [scan, List.getLast?_cons]

theorem scan_single_oldest_none (h : acc.oldest = none) :
    (scan i [f :: r] acc).oldest = some (i, f.timestamp) := by
  simp [scan, h, List.getLast?_cons]

theorem scan_single_oldest_some {j : Nat} {t : Int} (h : acc.oldest = some (j, t)) :
    (scan i [f :: r] acc).oldest =
      if f.timestamp < t then some (i, f.timestamp) else some (j, t) := by
  simp [scan, h, List.getLast?_cons]

end Visit

theorem scan_nonEmpty (i : Nat) (qs : List (List Frame)) (acc : Scan) :
    (scan i qs acc).nonEmpty = acc.nonEmpty + qs.countP (fun q => !q.isEmpty) := by
  induction qs generalizing i acc with
  | nil => simp [scan]
  | cons q qs ih =>
    rw [scan_cons, ih]
    cases q with
    | nil => simp
    | cons f r =>
      simp only [scan_single_nonEmpty, List.countP_cons, List.isEmpty_cons, Bool.not_false,
        if_true]
      omega

/-- The longest queue the scan reports is at least as long as every queue it passed. -/
theorem length_le_scan_backlog (i : Nat) (qs : List (List Frame)) (acc : Scan) :
    acc.backlog ≤ (scan i qs acc).backlog ∧
      ∀ q ∈ qs, q.length ≤ (scan i qs acc).backlog := by
  induction qs generalizing i acc with
  | nil => simp [scan]
  | cons q qs ih =>
    rw [scan_cons]
    obtain ⟨hacc, hqs⟩ := ih (i + 1) (scan i [q] acc)
    cases q with
    | nil => simpa using ⟨hacc, hqs⟩
    | cons f r =>
      simp only [scan_single_backlog] at hacc
      refine ⟨by omega, fun p hp => ?_⟩
      rcases List.mem_cons.1 hp with rfl | hp
      · simp only [List.length_cons]; omega
      · exact hqs p hp

/-- The oldest first frame the scan reports is no newer than any first frame it passed. -/
theorem scan_minHead_le (i : Nat) (qs : List (List Frame)) (acc : Scan) :
    (scan i qs acc).minHead ≤ acc.minHead ∧
      ∀ q ∈ qs, ∀ g ∈ q.head?, (scan i qs acc).minHead ≤ g.timestamp := by
  induction qs generalizing i acc with
  | nil => simp [scan]
  | cons q qs ih =>
    rw [scan_cons]
    obtain ⟨hacc, hqs⟩ := ih (i + 1) (scan i [q] acc)
    cases q with
    | nil => simpa using ⟨hacc, hqs⟩
    | cons f r =>
      simp only [scan_single_minHead] at hacc
      refine ⟨by omega, fun p hp g hg => ?_⟩
      rcases List.mem_cons.1 hp with rfl | hp
      · simp only [List.head?_cons, Option.mem_def, Option.some.injEq] at hg
        subst hg
        omega
      · exact hqs p hp g hg

/-- The newest last frame the scan reports is no older than any last frame it passed. -/
theorem le_scan_maxTail (i : Nat) (qs : List (List Frame)) (acc : Scan) :
    acc.maxTail ≤ (scan i qs acc).maxTail ∧
      ∀ q ∈ qs, ∀ g ∈ q.getLast?, g.timestamp ≤ (scan i qs acc).maxTail := by
  induction qs generalizing i acc with
  | nil => simp [scan]
  | cons q qs ih =>
    rw [scan_cons]
    obtain ⟨hacc, hqs⟩ := ih (i + 1) (scan i [q] acc)
    cases q with
    | nil => simpa using ⟨hacc, hqs⟩
    | cons f r =>
      simp only [scan_single_maxTail] at hacc
      refine ⟨by omega, fun p hp g hg => ?_⟩
      rcases List.mem_cons.1 hp with rfl | hp
      · simp only [List.getLast?_cons, Option.mem_def, Option.some.injEq] at hg
        subst hg
        omega
      · exact hqs p hp g hg

/-! ## What a scan finds -/

/-- Track `i` holds the oldest first frame, `f`: no queue starts with an older frame, and every
queue before track `i` starts with a newer one. -/
structure IsOldest (qs : List (List Frame)) (i : Nat) (f : Frame) : Prop where
  head : (qs.getD i []).head? = some f
  le : ∀ q ∈ qs, ∀ g ∈ q.head?, f.timestamp ≤ g.timestamp
  lt : ∀ j < i, ∀ g ∈ (qs.getD j []).head?, f.timestamp < g.timestamp

/-- What a scan reports as oldest is right for the queues `qs`: nothing only when every queue
is empty, and otherwise the track and timestamp of the oldest first frame. -/
def FindsOldest (qs : List (List Frame)) (o : Option (Nat × Int)) : Prop :=
  (o = none → ∀ q ∈ qs, q = []) ∧
    ∀ i t, o = some (i, t) → ∃ f, IsOldest qs i f ∧ f.timestamp = t

theorem lt_length_of_head {qs : List (List Frame)} {i : Nat} {f : Frame}
    (h : (qs.getD i []).head? = some f) : i < qs.length := by
  rcases Nat.lt_or_ge i qs.length with hi | hi
  · exact hi
  · rw [List.getD_eq_default _ _ hi] at h
    simp at h

theorem getD_mem {qs : List (List Frame)} {i : Nat} (hi : i < qs.length) : qs.getD i [] ∈ qs := by
  rw [List.getD_eq_getElem _ _ hi]
  exact List.getElem_mem hi

/-- A new queue whose first frame is not older leaves the oldest where it was. -/
theorem IsOldest.append {pre : List (List Frame)} {i : Nat} {f : Frame} (h : IsOldest pre i f)
    {q : List Frame} (hq : ∀ g ∈ q.head?, f.timestamp ≤ g.timestamp) :
    IsOldest (pre ++ [q]) i f where
  head := by rw [List.getD_append _ _ _ _ (lt_length_of_head h.head)]; exact h.head
  le := by
    intro p hp
    rcases List.mem_append.1 hp with hp | hp
    · exact h.le p hp
    · rw [List.mem_singleton.1 hp]; exact hq
  lt := by
    intro j hj
    rw [List.getD_append _ _ _ _ (by have := lt_length_of_head h.head; omega)]
    exact h.lt j hj

/-- A new queue whose first frame is older than every first frame before it holds the oldest. -/
theorem isOldest_last {pre : List (List Frame)} {f : Frame} (r : List Frame)
    (hpre : ∀ p ∈ pre, ∀ g ∈ p.head?, f.timestamp < g.timestamp) :
    IsOldest (pre ++ [f :: r]) pre.length f where
  head := by rw [List.getD_append_right _ _ _ _ (Nat.le_refl _)]; simp
  le := by
    intro p hp g hg
    rcases List.mem_append.1 hp with hp | hp
    · exact Int.le_of_lt (hpre p hp g hg)
    · rw [List.mem_singleton.1 hp] at hg
      simp only [List.head?_cons, Option.mem_def, Option.some.injEq] at hg
      subst hg
      exact Int.le_refl _
  lt := by
    intro j hj
    rw [List.getD_append _ _ _ _ hj]
    exact hpre _ (getD_mem hj)

theorem FindsOldest.of_isOldest {qs : List (List Frame)} {i : Nat} {g : Frame}
    (h : IsOldest qs i g) : FindsOldest qs (some (i, g.timestamp)) := by
  refine ⟨fun he => (by cases he), fun i' t he => ?_⟩
  obtain ⟨rfl, rfl⟩ := Prod.mk.inj (Option.some.inj he)
  exact ⟨g, h, rfl⟩

/-- One step of the scan keeps its find right. -/
theorem findsOldest_scan_single {pre : List (List Frame)} {acc : Scan}
    (h : FindsOldest pre acc.oldest) (q : List Frame) :
    FindsOldest (pre ++ [q]) (scan pre.length [q] acc).oldest := by
  obtain ⟨hnone, hsome⟩ := h
  cases q with
  | nil =>
    rw [scan_empty_queue]
    refine ⟨fun he p hp => ?_, fun i t he => ?_⟩
    · rcases List.mem_append.1 hp with hp | hp
      · exact hnone he p hp
      · exact List.mem_singleton.1 hp
    · obtain ⟨g, hg, rfl⟩ := hsome i t he
      exact ⟨g, hg.append (by simp), rfl⟩
  | cons f r =>
    cases ho : acc.oldest with
    | none =>
      rw [scan_single_oldest_none _ _ _ _ ho]
      refine .of_isOldest (isOldest_last r fun p hp g hg => ?_)
      simp [hnone ho p hp] at hg
    | some found =>
      obtain ⟨j, t⟩ := found
      obtain ⟨g, hg, rfl⟩ := hsome j t ho
      rw [scan_single_oldest_some _ _ _ _ ho]
      split
      · next hlt =>
        exact .of_isOldest (isOldest_last r fun p hp g' hg' =>
          Int.lt_of_lt_of_le hlt (hg.le p hp g' hg'))
      · next hge =>
        refine .of_isOldest (hg.append fun g' hg' => ?_)
        simp only [List.head?_cons, Option.mem_def, Option.some.injEq] at hg'
        subst hg'
        omega

/-- The scan's find is right for every list of queues, whatever it found before them. -/
theorem findsOldest_scan {pre : List (List Frame)} {acc : Scan} (h : FindsOldest pre acc.oldest)
    (qs : List (List Frame)) : FindsOldest (pre ++ qs) (scan pre.length qs acc).oldest := by
  induction qs generalizing pre acc with
  | nil => simpa [scan] using h
  | cons q qs ih =>
    have hstep := findsOldest_scan_single h q
    rw [scan_cons]
    simpa using ih hstep

theorem findsOldest_queues (qs : List (List Frame)) : FindsOldest qs (scan 0 qs {}).oldest := by
  have hstart : FindsOldest [] ({} : Scan).oldest := ⟨fun _ => by simp, by simp⟩
  simpa using findsOldest_scan hstart qs

/-! ## One round of a flush -/

/-- How many tracks need frames waiting for a round of `flush` to release one. -/
def required (force : Bool) (s : FrameSorter) : Nat := if force then 1 else s.queues.length

/-- A sorter at rest: fewer than `required` tracks have frames waiting, no queue holds more
frames than allowed, and the waiting frames span no more than allowed. -/
structure AtRest (required : Nat) (s : FrameSorter) : Prop where
  waiting : s.queues.countP (fun q => !q.isEmpty) < required
  backlog : s.options.maxDelayedPackets ≠ 0 →
    ∀ q ∈ s.queues, q.length ≤ s.options.maxDelayedPackets
  spread : s.options.maxTimescaleDelay ≠ 0 → ∀ q ∈ s.queues, ∀ q' ∈ s.queues,
    ∀ h ∈ q.head?, ∀ t ∈ q'.getLast?,
      saturatingSub t.timestamp h.timestamp ≤ s.options.maxTimescaleDelay

theorem saturatingSub_le_saturatingSub {a a' b b' : Int} (ha : a ≤ a') (hb : b' ≤ b) :
    saturatingSub a b ≤ saturatingSub a' b' := by
  unfold saturatingSub
  omega

/-- A scan that finds too few tracks with frames and no limit passed finds the sorter at rest. -/
theorem atRest_of_scan {s : FrameSorter} {required : Nat}
    (hwaiting : (scan 0 s.queues {}).nonEmpty < required)
    (hbacklog : ¬(s.options.maxDelayedPackets ≠ 0 ∧
      (scan 0 s.queues {}).backlog > s.options.maxDelayedPackets))
    (hdelay : ¬(s.options.maxTimescaleDelay ≠ 0 ∧
      saturatingSub (scan 0 s.queues {}).maxTail (scan 0 s.queues {}).minHead >
        s.options.maxTimescaleDelay)) :
    AtRest required s where
  waiting := by simpa [scan_nonEmpty] using hwaiting
  backlog := by
    intro hk q hq
    have := (length_le_scan_backlog 0 s.queues {}).2 q hq
    omega
  spread := by
    intro hd q hq q' hq' h hh t ht
    have hmin := (scan_minHead_le 0 s.queues {}).2 q hq h hh
    have hmax := (le_scan_maxTail 0 s.queues {}).2 q' hq' t ht
    have := saturatingSub_le_saturatingSub hmax hmin
    omega

/-- A flush that releases nothing leaves the sorter as it was, and stopped for want of fuel,
because every queue is empty, or because the sorter is at rest. -/
theorem flush_eq_nil {force : Bool} {fuel : Nat} {s s' : FrameSorter}
    (h : flush force fuel s = (s', [])) :
    s' = s ∧ (fuel = 0 ∨ (∀ q ∈ s.queues, q = []) ∨ AtRest (required force s) s) := by
  have hfind := findsOldest_queues s.queues
  cases fuel with
  | zero =>
    simp only [flush, Prod.mk.injEq] at h
    exact ⟨h.1.symm, .inl rfl⟩
  | succ fuel =>
    rw [flush] at h
    dsimp only at h
    generalize hreq : (if force = true then 1 else s.queues.length) = req at h
    have hreq' : required force s = req := hreq
    rw [hreq']
    split at h
    · next ho =>
      simp only [Prod.mk.injEq] at h
      exact ⟨h.1.symm, .inr (.inl (hfind.1 ho))⟩
    · next i t ho =>
      split at h
      · next hstop =>
        simp only [Prod.mk.injEq] at h
        exact ⟨h.1.symm, .inr (.inr (atRest_of_scan hstop.1 hstop.2.1 hstop.2.2))⟩
      · split at h
        · next hq =>
          obtain ⟨f, hf, -⟩ := hfind.2 i t ho
          have hhead := hf.head
          rw [hq] at hhead
          simp at hhead
        · simp at h

/-- A flush that releases something released the first frame of the track that holds the
oldest first frame, and went on from the sorter without it. -/
theorem flush_eq_cons {force : Bool} {fuel : Nat} {s s' : FrameSorter} {p : Nat × Frame}
    {out : List (Nat × Frame)} (h : flush force fuel s = (s', p :: out)) :
    ∃ fuel' rest, fuel = fuel' + 1 ∧ IsOldest s.queues p.1 p.2 ∧
      s.queues.getD p.1 [] = p.2 :: rest ∧
      flush force fuel' { s with queues := s.queues.set p.1 rest, done := p.2.timestamp } =
        (s', out) := by
  have hfind := findsOldest_queues s.queues
  cases fuel with
  | zero => simp [flush] at h
  | succ fuel =>
    rw [flush] at h
    dsimp only at h
    generalize (if force = true then 1 else s.queues.length) = req at h
    split at h
    · simp at h
    · next i t ho =>
      split at h
      · simp at h
      · split at h
        · simp at h
        · next f rest hq =>
          simp only [Prod.mk.injEq, List.cons.injEq] at h
          obtain ⟨h1, rfl, h2⟩ := h
          obtain ⟨g, hg, -⟩ := hfind.2 i t ho
          have hgf : g = f := by
            have hhead := hg.head
            rw [hq] at hhead
            simpa using hhead.symm
          subst hgf
          exact ⟨fuel, rest, rfl, hg, hq, Prod.ext h1 h2⟩

/-! ## Queues after a release -/

section Queues

variable {qs : List (List Frame)} {i j : Nat} {f : Frame} {rest : List Frame}

theorem getD_set_self (hi : i < qs.length) : (qs.set i rest).getD i [] = rest := by
  simp [hi]

theorem getD_set_ne (h : i ≠ j) : (qs.set i rest).getD j [] = qs.getD j [] := by
  simp [h]

/-- Releasing the first frame of a queue is taking the queue's tail. -/
theorem modify_tail_eq_set (hq : qs.getD i [] = f :: rest) :
    qs.modify i List.tail = qs.set i rest := by
  have hi : i < qs.length := lt_length_of_head (f := f) (by rw [hq]; rfl)
  apply List.ext_getElem?
  intro j
  simp only [List.getElem?_modify, List.getElem?_set, hi, if_true]
  by_cases hj : i = j
  · subst hj
    rw [List.getD_eq_getElem _ _ hi] at hq
    simp [List.getElem?_eq_getElem hi, hq]
  · simp [hj]

/-- `len` counts on from any start. -/
theorem foldl_length_add (qs : List (List Frame)) (a : Nat) :
    qs.foldl (fun n q => n + q.length) a = a + qs.foldl (fun n q => n + q.length) 0 := by
  induction qs generalizing a with
  | nil => simp
  | cons q qs ih => simp only [List.foldl_cons, Nat.zero_add, ih (a + q.length), ih q.length]; omega

/-- Releasing a frame leaves one frame less waiting. -/
theorem foldl_length_set (hq : qs.getD i [] = f :: rest) :
    (qs.set i rest).foldl (fun n q => n + q.length) 0 + 1 =
      qs.foldl (fun n q => n + q.length) 0 := by
  induction qs generalizing i with
  | nil => simp at hq
  | cons q qs ih =>
    cases i with
    | zero =>
      simp only [List.getD_cons_zero] at hq
      subst hq
      simp only [List.set_cons_zero, List.foldl_cons, Nat.zero_add, List.length_cons]
      rw [foldl_length_add _ rest.length, foldl_length_add _ (rest.length + 1)]
      omega
    | succ i =>
      simp only [List.getD_cons_succ] at hq
      simp only [List.set_cons_succ, List.foldl_cons, Nat.zero_add]
      rw [foldl_length_add _ q.length, foldl_length_add _ q.length, ← ih hq]
      omega

/-- Nothing waits exactly when `len` is zero. -/
theorem foldl_length_eq_zero :
    qs.foldl (fun n q => n + q.length) 0 = 0 ↔ ∀ q ∈ qs, q = [] := by
  induction qs with
  | nil => simp
  | cons q qs ih =>
    simp only [List.foldl_cons, Nat.zero_add, List.mem_cons, forall_eq_or_imp]
    rw [foldl_length_add, ← ih, ← List.length_eq_zero_iff]
    omega

end Queues

/-! ## What a flush does -/

/-- The frames of track `j` in a list of frames tagged with their tracks, in order. -/
def framesOf (j : Nat) (l : List (Nat × Frame)) : List Frame := (l.filter (·.1 == j)).map (·.2)

@[simp] theorem framesOf_nil (j : Nat) : framesOf j [] = [] := rfl

theorem framesOf_cons (j : Nat) (p : Nat × Frame) (l : List (Nat × Frame)) :
    framesOf j (p :: l) = if p.1 = j then p.2 :: framesOf j l else framesOf j l := by
  by_cases h : p.1 = j <;> simp [framesOf, h]

@[simp] theorem framesOf_append (j : Nat) (l l' : List (Nat × Frame)) :
    framesOf j (l ++ l') = framesOf j l ++ framesOf j l' := by
  simp [framesOf]

theorem flush_eq (force : Bool) (fuel : Nat) (s : FrameSorter) :
    flush force fuel s = ((flush force fuel s).1, (flush force fuel s).2) := rfl

section Flush

variable {force : Bool} {fuel : Nat} {s s' : FrameSorter} {out : List (Nat × Frame)}

/-- A flush changes neither the options nor the number of tracks. -/
theorem flush_keeps (h : flush force fuel s = (s', out)) :
    s'.options = s.options ∧ s'.queues.length = s.queues.length := by
  induction out generalizing fuel s with
  | nil =>
    obtain ⟨rfl, -⟩ := flush_eq_nil h
    exact ⟨rfl, rfl⟩
  | cons p out ih =>
    obtain ⟨fuel', rest, -, -, -, h'⟩ := flush_eq_cons h
    obtain ⟨hopts, hlen⟩ := ih h'
    exact ⟨hopts, by simpa using hlen⟩

/-- A flush releases frames from the front of the queues: what it releases of a track, then
what the track still holds, is what the track held. -/
theorem flush_conserves (h : flush force fuel s = (s', out)) (j : Nat) :
    framesOf j out ++ s'.queues.getD j [] = s.queues.getD j [] := by
  induction out generalizing fuel s with
  | nil =>
    obtain ⟨rfl, -⟩ := flush_eq_nil h
    simp
  | cons p out ih =>
    obtain ⟨fuel', rest, -, hold, hq, h'⟩ := flush_eq_cons h
    have hrest := ih h'
    rw [framesOf_cons]
    by_cases hj : p.1 = j
    · subst hj
      rw [getD_set_self (lt_length_of_head hold.head)] at hrest
      rw [if_pos rfl, List.cons_append, hrest, hq]
    · rw [getD_set_ne hj] at hrest
      rw [if_neg hj, hrest]

/-- The last frame released by a flush is the sorter's last frame released. -/
theorem flush_done (h : flush force fuel s = (s', out)) :
    s'.done = (out.getLast?.map (·.2.timestamp)).getD s.done := by
  induction out generalizing fuel s with
  | nil =>
    obtain ⟨rfl, -⟩ := flush_eq_nil h
    rfl
  | cons p out ih =>
    obtain ⟨fuel', rest, -, -, -, h'⟩ := flush_eq_cons h
    rw [ih h', List.getLast?_cons]
    cases out.getLast? <;> rfl

/-- With fuel for every frame waiting, a flush stops with every queue empty or at rest. -/
theorem flush_atRest (h : flush force fuel s = (s', out)) (hfuel : s.len ≤ fuel) :
    (∀ q ∈ s'.queues, q = []) ∨ AtRest (required force s) s' := by
  induction out generalizing fuel s with
  | nil =>
    obtain ⟨rfl, hstop⟩ := flush_eq_nil h
    rcases hstop with rfl | hempty | hrest
    · exact .inl (foldl_length_eq_zero.1 (Nat.le_zero.1 hfuel))
    · exact .inl hempty
    · exact .inr hrest
  | cons p out ih =>
    obtain ⟨fuel', rest, rfl, -, hq, h'⟩ := flush_eq_cons h
    have hpop := foldl_length_set hq
    have hreq : required force { s with queues := s.queues.set p.1 rest, done := p.2.timestamp } =
        required force s := by simp [required]
    rw [← hreq]
    exact ih h' (by simp only [len] at hfuel ⊢; omega)

end Flush

/-- Each frame of `out` is, when its turn comes, the oldest first frame waiting in `qs`, on the
first track that holds one that old; the queues then lose that frame. -/
def OldestFirst : List (List Frame) → List (Nat × Frame) → Prop
  | _, [] => True
  | qs, p :: out => IsOldest qs p.1 p.2 ∧ OldestFirst (qs.modify p.1 List.tail) out

/-- Every queue is in timestamp order and holds nothing older than the last frame released. -/
structure Ordered (s : FrameSorter) : Prop where
  sorted : ∀ q ∈ s.queues, (q.map (·.timestamp)).Pairwise (· ≤ ·)
  current : ∀ q ∈ s.queues, ∀ g ∈ q, s.done ≤ g.timestamp

section Release

variable {force : Bool} {fuel : Nat} {s s' : FrameSorter} {out : List (Nat × Frame)}

/-- A flush releases the oldest first frame waiting, round after round. -/
theorem flush_oldestFirst (h : flush force fuel s = (s', out)) : OldestFirst s.queues out := by
  induction out generalizing fuel s with
  | nil => trivial
  | cons p out ih =>
    obtain ⟨fuel', rest, -, hold, hq, h'⟩ := flush_eq_cons h
    exact ⟨hold, by rw [modify_tail_eq_set hq]; exact ih h'⟩

/-- In a queue in timestamp order, the first frame is the oldest. -/
theorem head_le_of_sorted {q : List Frame} (hq : (q.map (·.timestamp)).Pairwise (· ≤ ·))
    {h g : Frame} (hh : q.head? = some h) (hg : g ∈ q) : h.timestamp ≤ g.timestamp := by
  cases q with
  | nil => simp at hh
  | cons h' r =>
    simp only [List.head?_cons, Option.some.injEq] at hh
    subst hh
    rcases List.mem_cons.1 hg with rfl | hg
    · exact Int.le_refl _
    · simp only [List.map_cons, List.pairwise_cons, List.mem_map] at hq
      exact hq.1 _ ⟨g, hg, rfl⟩

/-- Releasing the oldest first frame keeps the queues ordered: what is left is no older. -/
theorem Ordered.release (hs : Ordered s) {i : Nat} {f : Frame} {rest : List Frame}
    (hold : IsOldest s.queues i f) (hq : s.queues.getD i [] = f :: rest) :
    Ordered { s with queues := s.queues.set i rest, done := f.timestamp } := by
  have hmem : f :: rest ∈ s.queues := hq ▸ getD_mem (lt_length_of_head hold.head)
  have hfront := hs.sorted _ hmem
  simp only [List.map_cons, List.pairwise_cons, List.mem_map] at hfront
  constructor
  · intro q hq'
    rcases List.mem_or_eq_of_mem_set hq' with hq' | rfl
    · exact hs.sorted q hq'
    · exact hfront.2
  · intro q hq' g hg
    rcases List.mem_or_eq_of_mem_set hq' with hq' | rfl
    · -- every queue starts no earlier than the oldest first frame
      cases hhead : q.head? with
      | none => simp [List.head?_eq_none_iff.1 hhead] at hg
      | some h =>
        exact Int.le_trans (hold.le q hq' h hhead) (head_le_of_sorted (hs.sorted q hq') hhead hg)
    · exact hfront.1 _ ⟨g, hg, rfl⟩

/-- A flush of ordered queues keeps them ordered and releases frames in timestamp order, none
older than the last frame released before it and none newer than the last it releases. -/
theorem flush_ordered (h : flush force fuel s = (s', out)) (hs : Ordered s) :
    Ordered s' ∧ s.done ≤ s'.done ∧ (out.map (·.2.timestamp)).Pairwise (· ≤ ·) ∧
      ∀ p ∈ out, s.done ≤ p.2.timestamp ∧ p.2.timestamp ≤ s'.done := by
  induction out generalizing fuel s with
  | nil =>
    obtain ⟨rfl, -⟩ := flush_eq_nil h
    exact ⟨hs, Int.le_refl _, List.Pairwise.nil, by simp⟩
  | cons p out ih =>
    obtain ⟨fuel', rest, -, hold, hq, h'⟩ := flush_eq_cons h
    obtain ⟨hs', hdone, hsorted, hbounds⟩ := ih h' (hs.release hold hq)
    have hmem : p.2 ∈ s.queues.getD p.1 [] := by rw [hq]; exact List.mem_cons_self
    have hp : s.done ≤ p.2.timestamp :=
      hs.current _ (getD_mem (lt_length_of_head hold.head)) _ hmem
    refine ⟨hs', Int.le_trans hp hdone, ?_, ?_⟩
    · simp only [List.map_cons, List.pairwise_cons, List.mem_map]
      exact ⟨fun _ ⟨q, hq, he⟩ => he ▸ (hbounds q hq).1, hsorted⟩
    · intro q hq'
      rcases List.mem_cons.1 hq' with rfl | hq'
      · exact ⟨hp, hdone⟩
      · exact ⟨Int.le_trans hp (hbounds q hq').1, (hbounds q hq').2⟩

end Release

end FrameSorter

end Matroska

end Ebml
