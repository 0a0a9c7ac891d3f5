import Ebml.Proofs.Advancing
import Ebml.Proofs.Decoding

/-!
# Decoding always ends

Decoding spends one unit of fuel per master, children or skipped element, and the budget
`unmarshal` starts with is always enough: `unmarshal_terminates` compares the decoder with an
open one that takes running out of fuel as a parameter, and shows that from the budget on both
read to the same end. The bound is a simulation (`EndsAlike`) kept by one step
(`readElement_endsAlike`) and carried by induction on the fuel.
-/

namespace Ebml

namespace Decoder

section Open

variable {τ : Type} (stuck : Error)
  (beyond : τ → Extent → DecodeM (τ × Except Error MasterEnd))

mutual
/-- `readMaster`, with what running out of fuel gives (`stuck`) and what a master entered
more than one level past the nesting limit does (`beyond`) left open. -/
def readMasterOr (opts : DecodeOptions) (T : Target τ) :
    Nat → τ → Extent → DecodeM (τ × Except Error MasterEnd)
  | 0, t, _ => pure (t, .error stuck)
  | fuel + 1, t, ext =>
    if ext.depth > maxDepth + 1 then beyond t ext
    else if ext.depth > maxDepth then pure (t, .error .maxDepthExceeded)
    else readChildrenOr opts T fuel t ext none

/-- `readChildren`, with the same two left open. -/
def readChildrenOr (opts : DecodeOptions) (T : Target τ) :
    Nat → τ → Extent → Option Header → DecodeM (τ × Except Error MasterEnd)
  | 0, t, _, _ => pure (t, .error stuck)
  | fuel + 1, t, ext, pending => do
    let start ← DecodeM.position
    if ext.stop.any (start ≥ ·) then return (t, .ok .exhausted)
    let header ← match pending with
      | some h => pure (.ok (some h))
      | none => DecodeM.read (Header.read opts)
    match header with
    | .error err => return (t, .error err)
    | .ok none => return (t, if ext.stop.isSome then .error (.io .masterCut) else .ok .eof)
    | .ok (some h) =>
      readElement opts T (fun t p => readChildrenOr opts T fuel t ext p) (readMasterOr opts T fuel)
        (skipElementOr opts fuel) t ext h

/-- `skipElement`, with the same two left open. -/
def skipElementOr (opts : DecodeOptions) :
    Nat → τ → Element → Option Nat → Extent →
      DecodeM (τ × Except Error (Option Header))
  | 0, t, _, _, _ => pure (t, .error stuck)
  | fuel + 1, t, e, dataEnd, ext => do
    match dataEnd with
    | some d =>
      let pos ← DecodeM.position
      match ← DecodeM.read (ReadM.skip (d - pos)) with
      | .error err => return (t, .error err)
      | .ok () => return (t, .ok none)
    | none =>
      if !e.isMaster then return (t, .error .sizeMismatch)
      let (t, r) ←
        readMasterOr opts Target.ignoring fuel t ⟨ext.stop, e.isTopLevel, ext.depth + 1⟩
      match r with
      | .error err => return (t, .error err)
      | .ok (.handoff h) => return (t, .ok (some h))
      | .ok _ => return (t, .ok none)
end

end Open

/-- What the decoder does with a master nested past the limit: it fails. -/
def tooDeep {τ : Type} (t : τ) (_ : Extent) : DecodeM (τ × Except Error MasterEnd) :=
  pure (t, .error .maxDepthExceeded)

/-- The decoder is the open one that fails with `tooMuchData` once out of fuel and with
`maxDepthExceeded` at every master past the limit. -/
theorem readMaster_eq_readMasterOr {τ : Type} (opts : DecodeOptions) (fuel : Nat) :
    (∀ (T : Target τ),
      readMaster opts T fuel = readMasterOr .tooMuchData tooDeep opts T fuel) ∧
    (∀ (T : Target τ),
      readChildren opts T fuel = readChildrenOr .tooMuchData tooDeep opts T fuel) ∧
    skipElement (τ := τ) opts fuel = skipElementOr .tooMuchData tooDeep opts fuel := by
  induction fuel with
  | zero =>
    refine ⟨fun T => ?_, fun T => ?_, ?_⟩ <;> funext <;> rfl
  | succ fuel ih =>
    obtain ⟨hm, hc, hs⟩ := ih
    refine ⟨fun T => ?_, fun T => ?_, ?_⟩
    · funext t ext
      rw [readMaster, readMasterOr, hc T]
      by_cases h1 : ext.depth > maxDepth + 1
      · rewrite [if_pos h1, if_pos (by omega)]
        rfl
      · rw [if_neg h1]
    · funext t ext p
      rewrite [readChildren, readChildrenOr, hc T, hm T, hs]
      rfl
    · funext t e n ext
      cases n with
      | some i =>
        rewrite [skipElement.eq_2, skipElementOr.eq_2]
        rfl
      | none =>
        rewrite [skipElement.eq_3, skipElementOr.eq_3, hm Target.ignoring]
        rfl

/-! ## Moving on through the octets -/

/-- The octets a decoder has yet to read. -/
def remaining (d : Decoder) : Nat := d.source.ahead.length

/-- `d'` is `d` read further: no octet came back, and the position moved by the octets read. -/
def Moves (d d' : Decoder) : Prop :=
  d'.remaining ≤ d.remaining ∧
    d'.source.position + d'.remaining = d.source.position + d.remaining

theorem Moves.refl (d : Decoder) : Moves d d := ⟨Nat.le_refl _, rfl⟩

theorem Moves.trans {d₁ d₂ d₃ : Decoder} (h₁ : Moves d₁ d₂) (h₂ : Moves d₂ d₃) :
    Moves d₁ d₃ :=
  ⟨Nat.le_trans h₂.1 h₁.1, h₂.2.trans h₁.2⟩

/-- A decoding step that reads the decoder further on every run. -/
def Advances {α : Type} (x : DecodeM α) : Prop := ∀ d, Moves d (x.run d).2

theorem advances_pure {α : Type} (a : α) : Advances (pure a : DecodeM α) := Moves.refl

theorem advances_position : Advances DecodeM.position := Moves.refl

theorem advances_note (r : Record) : Advances (DecodeM.note r) := Moves.refl

theorem advances_read {α : Type} {r : ReadM α} (hr : ReadM.Advances r) :
    Advances (DecodeM.read r) :=
  fun d => hr d.source

variable {τ : Type}

/-- What the way a master ended stands for: a header handed back to the parent was read, two
octets or more. -/
def endCredit : MasterEnd → Nat
  | .handoff _ => 2
  | _ => 0

/-- What a pending header stands for: the two octets or more read for it. -/
def headerCredit : Option Header → Nat
  | some _ => 2
  | none => 0

/-- A header read from the source took two octets or more. -/
theorem read_header_takes_two {opts : DecodeOptions} {d d' : Decoder} {h : Header}
    (hrun : (DecodeM.read (Header.read opts)).run d = (.ok (some h), d')) :
    d'.remaining + 2 ≤ d.remaining := by
  rw [DecodeM.run_read] at hrun
  obtain ⟨hread, hsource⟩ := Prod.mk.inj hrun
  exact Header.read_takes_two (Prod.ext hread (by rw [← hsource]))

/-- From every decoder with at most `k` octets left, `c` of credit counted, `y` ends as `x`
does; `x` reads the decoder further, and a success of `x` with `a` leaves `w a` octets fewer
than it found, credit counted. -/
def EndsAlike {α : Type} (k c : Nat) (w : α → Nat) (x y : DecodeM (τ × Except Error α)) :
    Prop :=
  ∀ d, d.remaining + c ≤ k → y.run d = x.run d ∧ Moves d (x.run d).2 ∧
    ∀ t a d', x.run d = ((t, .ok a), d') → d'.remaining + w a ≤ d.remaining + c

namespace EndsAlike

variable {α : Type} {k c : Nat} {w : α → Nat}

/-- A success given back at once, standing for no more than the credit. -/
theorem ok (t : τ) (a : α) (ha : w a ≤ c) :
    EndsAlike k c w (pure (t, .ok a)) (pure (t, .ok a)) := by
  intro d _
  refine ⟨rfl, Moves.refl d, fun t' a' d' h => ?_⟩
  simp only [DecodeM.run_pure] at h
  obtain ⟨⟨-, rfl⟩, rfl⟩ := h
  omega

/-- A failure given back at once. -/
theorem error (t : τ) (e : Error) : EndsAlike k c w (pure (t, .error e)) (pure (t, .error e)) :=
  fun d _ => ⟨rfl, Moves.refl d, fun _ _ _ h => by cases h⟩

/-- The same step, then decodings alike. -/
theorem bind_same {β : Type} {x : DecodeM β} {f g : β → DecodeM (τ × Except Error α)}
    (hx : Advances x) (hf : ∀ b, EndsAlike k c w (f b) (g b)) :
    EndsAlike k c w (x >>= f) (x >>= g) := by
  intro d hd
  have hmove := hx d
  obtain ⟨heq, hmv, hok⟩ := hf (x.run d).1 (x.run d).2 (by have := hmove.1; omega)
  refine ⟨by rw [DecodeM.run_bind, DecodeM.run_bind, heq], ?_, fun t a d' h => ?_⟩
  · rw [DecodeM.run_bind]
    exact hmove.trans hmv
  · rw [DecodeM.run_bind] at h
    have := hok t a d' h
    have := hmove.1
    omega

/-- Decodings alike, then what is done with their results: alike after a success, counting what
the success stands for, and alike after a failure. -/
theorem bind {γ : Type} {w₁ : γ → Nat} {x x' : DecodeM (τ × Except Error γ)}
    {f f' : τ × Except Error γ → DecodeM (τ × Except Error α)}
    (hx : EndsAlike k c w₁ x x')
    (hok : ∀ t a, EndsAlike k (w₁ a) w (f (t, .ok a)) (f' (t, .ok a)))
    (herr : ∀ t e, EndsAlike k c w (f (t, .error e)) (f' (t, .error e))) :
    EndsAlike k c w (x >>= f) (x' >>= f') := by
  intro d hd
  obtain ⟨heq, hmove, hcredit⟩ := hx d hd
  rw [DecodeM.run_bind, DecodeM.run_bind, heq]
  rcases hrun : x.run d with ⟨⟨u, _ | a⟩, d₂⟩
  · simp only [hrun] at hmove
    obtain ⟨heq', hmv, hok'⟩ := herr u _ d₂ (by have := hmove.1; omega)
    refine ⟨heq', hmove.trans hmv, fun t b d' h => ?_⟩
    have := hok' t b d' h
    have := hmove.1
    omega
  · have hc := hcredit u a d₂ hrun
    simp only [hrun] at hmove
    obtain ⟨heq', hmv, hok'⟩ := hok u a d₂ (by omega)
    refine ⟨heq', hmove.trans hmv, fun t b d' h => ?_⟩
    have := hok' t b d' h
    omega

/-- Decodings alike without credit are alike with any credit, over as many more octets. -/
theorem lift {x y : DecodeM (τ × Except Error α)} (h : EndsAlike k 0 w x y) (c : Nat) :
    EndsAlike (k + c) c w x y := by
  intro d hd
  obtain ⟨heq, hmove, hok⟩ := h d (by omega)
  exact ⟨heq, hmove, fun t a d' hx => by have := hok t a d' hx; omega⟩

/-- No decoder has fewer octets left than none. -/
theorem of_lt {x y : DecodeM (τ × Except Error α)} (h : k < c) : EndsAlike k c w x y :=
  fun _ hd => absurd hd (by omega)

/-- Reading a header, then decodings alike: a header read counts two octets more. -/
theorem bind_header {opts : DecodeOptions}
    {f g : Except Error (Option Header) → DecodeM (τ × Except Error α)}
    (hsome : ∀ h, EndsAlike k (c + 2) w (f (.ok (some h))) (g (.ok (some h))))
    (hother : ∀ r, (∀ h, r ≠ .ok (some h)) → EndsAlike k c w (f r) (g r)) :
    EndsAlike k c w (DecodeM.read (Header.read opts) >>= f)
      (DecodeM.read (Header.read opts) >>= g) := by
  intro d hd
  have hmove := advances_read (Header.advances_read opts) d
  rcases hrun : (DecodeM.read (Header.read opts)).run d with ⟨r, d₂⟩
  simp only [hrun] at hmove
  -- only a header read counts for more than the octets it moved over
  have hnext : ∃ c', d₂.remaining + c' ≤ d.remaining + c ∧
      EndsAlike k c' w (f r) (g r) := by
    by_cases hh : ∃ h, r = .ok (some h)
    · obtain ⟨h, rfl⟩ := hh
      have := read_header_takes_two hrun
      exact ⟨c + 2, by omega, hsome h⟩
    · exact ⟨c, by have := hmove.1; omega, hother r fun h he => hh ⟨h, he⟩⟩
  obtain ⟨c', hc', hfg⟩ := hnext
  obtain ⟨heq, hmv, hok⟩ := hfg d₂ (by omega)
  refine ⟨by rw [DecodeM.run_bind, DecodeM.run_bind, hrun, heq], ?_, fun t a d' hx => ?_⟩
  · rw [DecodeM.run_bind, hrun]
    exact hmove.trans hmv
  · rw [DecodeM.run_bind, hrun] at hx
    have := hok t a d' hx
    omega

end EndsAlike

section Step

variable {opts : DecodeOptions} {T : Target τ} {k : Nat}

/-- One decoding step, after its header was read, keeps decodings alike when the readings it
goes on with are alike: each of those starts with the header's two octets spent, so a step over
at most `k + 2` octets, header counted, calls them over at most `k`. -/
theorem readElement_endsAlike
    {children children' : τ → Option Header → DecodeM (τ × Except Error MasterEnd)}
    {master master' : τ → Extent → DecodeM (τ × Except Error MasterEnd)}
    {skip skip' : τ → Element → Option Nat → Extent →
      DecodeM (τ × Except Error (Option Header))}
    {ext : Extent}
    (hc : ∀ t p, EndsAlike k (headerCredit p) endCredit (children t p) (children' t p))
    (hm : ∀ t inner, inner.depth = ext.depth + 1 →
      EndsAlike k 0 endCredit (master t inner) (master' t inner))
    (hs : ∀ t e n, EndsAlike k 0 headerCredit (skip t e n ext) (skip' t e n ext))
    (t : τ) (h : Header) :
    EndsAlike (k + 2) 2 endCredit (readElement opts T children master skip t ext h)
      (readElement opts T children' master' skip' t ext h) := by
  unfold readElement
  refine EndsAlike.bind_same advances_position fun pos => ?_
  dsimp only
  by_cases hover : overruns ext.stop (h.size.map (pos + ·)) = true
  · rw [if_pos hover, if_pos hover]
    exact EndsAlike.error _ _
  rw [if_neg hover, if_neg hover]
  cases he : h.element with
  | none =>
    dsimp only
    by_cases hrel : opts.mode = .relaxed
    · rw [if_pos hrel, if_pos hrel]
      split
      · exact EndsAlike.error _ _
      · refine EndsAlike.lift
          (EndsAlike.bind_same (advances_read (ReadM.advances_closed.of_skip _)) fun r => ?_) 2
        split
        · exact EndsAlike.error _ _
        · exact hc t none
    · rw [if_neg hrel, if_neg hrel]
      exact EndsAlike.error _ _
  | some e =>
    dsimp only
    split
    · -- a top-level element inside a master of unknown size goes back to the parent
      exact EndsAlike.ok _ _ (Nat.le_refl _)
    refine EndsAlike.bind_same (advances_note _) fun _ => ?_
    split
    · by_cases hstrict : opts.mode = .strict
      · rw [if_pos hstrict, if_pos hstrict]
        exact EndsAlike.error _ _
      rw [if_neg hstrict, if_neg hstrict]
      refine EndsAlike.lift ?_ 2
      exact EndsAlike.bind (hs _ _ _) (fun u next => hc u next) fun u err => EndsAlike.error _ _
    · split
      · -- a master: its children are read, then reading goes on after it
        split
        · exact EndsAlike.error _ _
        · refine EndsAlike.lift ?_ 2
          refine EndsAlike.bind (hm _ _ rfl) ?_ fun u err => EndsAlike.error _ _
          intro u ending
          cases ending with
          | stopped => exact EndsAlike.ok _ _ (Nat.le_refl _)
          | eof =>
            dsimp only
            split
            · exact EndsAlike.error _ _
            · split
              · exact EndsAlike.ok _ _ (Nat.le_refl _)
              · exact EndsAlike.ok _ _ (Nat.le_refl _)
          | exhausted =>
            dsimp only
            split
            · exact EndsAlike.error _ _
            · split
              · exact EndsAlike.ok _ _ (Nat.le_refl _)
              · exact hc _ none
          | handoff next =>
            dsimp only
            split
            · exact EndsAlike.error _ _
            · split
              · exact EndsAlike.ok _ _ (Nat.zero_le _)
              · exact hc _ (some next)
      · -- a scalar: its data is read and stored, then reading goes on after it
        split
        · exact EndsAlike.error _ _
        · refine EndsAlike.lift (EndsAlike.bind_same
            (advances_read (ReadM.advances_closed.of_payloadRead _ _ _)) fun r => ?_) 2
          split
          · exact EndsAlike.error _ _
          · split
            · exact EndsAlike.error _ _
            · split
              · exact EndsAlike.ok _ _ (Nat.zero_le _)
              · exact hc _ none

end Step

section Fuel

variable (stuck : Error) (beyond : τ → Extent → DecodeM (τ × Except Error MasterEnd))
  (opts : DecodeOptions)

/-- Fuel `n` is enough for every master over fewer than `n / 2` octets: the decoder with fuel `n`
and the open readings with any more fuel end alike. Induction on the fuel; each reading spends
one unit and, a master entered apart, two octets or a pending header's two-octet credit, so the
octets left, pending header counted, halve what the fuel must cover. -/
theorem endsAlike_at_fuel (n : Nat) : ∀ f, n ≤ f →
    (∀ (T : Target τ) t ext k, ext.depth ≤ maxDepth + 1 → 2 * k + 2 ≤ n →
      EndsAlike k 0 endCredit (readMaster opts T n t ext)
        (readMasterOr stuck beyond opts T f t ext)) ∧
    (∀ (T : Target τ) t ext p k, ext.depth ≤ maxDepth → 2 * k + 1 ≤ n →
      EndsAlike k (headerCredit p) endCredit (readChildren opts T n t ext p)
        (readChildrenOr stuck beyond opts T f t ext p)) ∧
    (∀ t e m ext k, ext.depth ≤ maxDepth → 2 * k + 3 ≤ n →
      EndsAlike k 0 headerCredit (skipElement opts n t e m ext)
        (skipElementOr stuck beyond opts f t e m ext)) := by
  induction n with
  | zero =>
    intro f _
    refine ⟨fun T t ext k _ hk => ?_, fun T t ext p k _ hk => ?_,
      fun t e m ext k _ hk => ?_⟩ <;> omega
  | succ n ih =>
    intro f hf
    obtain ⟨g, rfl⟩ : ∃ g, f = g + 1 := ⟨f - 1, by omega⟩
    obtain ⟨hmaster, hchildren, hskip⟩ := ih g (by omega)
    refine ⟨fun T t ext k hdepth hk => ?_, fun T t ext p k hdepth hk => ?_,
      fun t e m ext k hdepth hk => ?_⟩
    · -- a master within the limit checks its depth, then reads its children
      rw [readMaster, readMasterOr, if_neg (show ¬ext.depth > maxDepth + 1 by omega)]
      by_cases hdeep : ext.depth > maxDepth
      · rw [if_pos hdeep, if_pos hdeep]
        exact EndsAlike.error _ _
      · rw [if_neg hdeep, if_neg hdeep]
        exact hchildren T t ext none k (by omega) (by omega)
    · -- the element a header starts, with the readings after it at two octets fewer
      have hstep : ∀ t h, EndsAlike k 2 endCredit
          (readElement opts T (fun t p => readChildren opts T n t ext p) (readMaster opts T n)
            (skipElement opts n) t ext h)
          (readElement opts T (fun t p => readChildrenOr stuck beyond opts T g t ext p)
            (readMasterOr stuck beyond opts T g) (skipElementOr stuck beyond opts g) t ext h) := by
        intro t h
        rcases Nat.lt_or_ge k 2 with hsmall | hbig
        · exact EndsAlike.of_lt hsmall
        obtain ⟨k', rfl⟩ : ∃ k', k = k' + 2 := ⟨k - 2, by omega⟩
        exact readElement_endsAlike (fun t p => hchildren T t ext p k' hdepth (by omega))
          (fun t inner hinner => hmaster T t inner k' (by omega) (by omega))
          (fun t e m => hskip t e m ext k' hdepth (by omega)) t h
      rw [readChildren, readChildrenOr]
      refine EndsAlike.bind_same advances_position fun start => ?_
      by_cases hstop : ext.stop.any (start ≥ ·) = true
      · rw [if_pos hstop, if_pos hstop]
        exact EndsAlike.ok _ _ (Nat.zero_le _)
      rw [if_neg hstop, if_neg hstop]
      cases p with
      | some h =>
        dsimp only
        rw [pure_bind, pure_bind]
        exact hstep t h
      | none =>
        refine EndsAlike.bind_header (fun h => hstep t h) fun r hr => ?_
        rcases r with err | _ | h
        · exact EndsAlike.error _ _
        · dsimp only
          split
          · exact EndsAlike.error _ _
          · exact EndsAlike.ok _ _ (Nat.zero_le _)
        · exact absurd rfl (hr h)
    · -- skipping: the data of a sized element, otherwise a master into a target that keeps nothing
      cases m with
      | some dataEnd =>
        rw [skipElement.eq_2, skipElementOr.eq_2]
        refine EndsAlike.bind_same advances_position fun pos => ?_
        refine EndsAlike.bind_same (advances_read (ReadM.advances_closed.of_skip _)) fun r => ?_
        split
        · exact EndsAlike.error _ _
        · exact EndsAlike.ok _ _ (Nat.le_refl _)
      | none =>
        rw [skipElement.eq_3, skipElementOr.eq_3]
        split
        · exact EndsAlike.error _ _
        refine EndsAlike.bind (hmaster Target.ignoring t _ k (by dsimp only; omega) (by omega))
          (fun u ending => ?_) fun u err => EndsAlike.error _ _
        cases ending with
        | handoff h => exact EndsAlike.ok _ _ (Nat.le_refl _)
        | stopped => exact EndsAlike.ok _ _ (Nat.zero_le _)
        | eof => exact EndsAlike.ok _ _ (Nat.zero_le _)
        | exhausted => exact EndsAlike.ok _ _ (Nat.zero_le _)

/-- The budget covers a top-level master over every octet of the source. -/
theorem twice_remaining_le_budget (d : Decoder) : 2 * d.remaining + 2 ≤ budget d := by
  unfold budget maxDepth remaining
  omega

end Fuel

/-- The decoder reads a top-level master to the same end with any fuel from the budget on. -/
theorem readMaster_fuel_beyond_budget (opts : DecodeOptions) (T : Target τ) (t : τ) (d : Decoder)
    {fuel : Nat} (hfuel : budget d ≤ fuel) :
    (readMaster opts T fuel t ⟨none, false, 0⟩).run d =
      (readMaster opts T (budget d) t ⟨none, false, 0⟩).run d := by
  have hends := (endsAlike_at_fuel .tooMuchData tooDeep opts (budget d) fuel hfuel).1 T t
    ⟨none, false, 0⟩ d.remaining (Nat.zero_le _) (twice_remaining_le_budget d) d (Nat.le_refl _)
  rw [(readMaster_eq_readMasterOr opts fuel).1 T]
  exact hends.1

/-- Decoding stops on every input before it runs out of fuel and without entering a master more
than one level past the nesting limit: whatever running out of fuel and such a master would do,
and with any fuel from the budget on, the top-level master reads to the same end. The octets
read are exactly those the position moved over. -/
theorem unmarshal_terminates (opts : DecodeOptions) (T : Target τ) (t : τ) (d : Decoder) :
    (∀ (stuck : Error) (beyond : τ → Extent → DecodeM (τ × Except Error MasterEnd))
      (fuel : Nat),
      budget d ≤ fuel →
      (readMasterOr stuck beyond opts T fuel t ⟨none, false, 0⟩).run d =
        (readMaster opts T (budget d) t ⟨none, false, 0⟩).run d) ∧
    ((unmarshal opts T t).run d).2.source.position +
        ((unmarshal opts T t).run d).2.source.ahead.length =
      d.source.position + d.source.ahead.length := by
  have hbudget := twice_remaining_le_budget d
  have hdepth : (⟨none, false, 0⟩ : Extent).depth ≤ maxDepth + 1 := Nat.zero_le _
  refine ⟨fun stuck beyond fuel hfuel => ?_, ?_⟩
  · have := (endsAlike_at_fuel stuck beyond opts (budget d) fuel hfuel).1 T t _ d.remaining hdepth
      hbudget d (Nat.le_refl _)
    exact this.1
  · have := (endsAlike_at_fuel .tooMuchData tooDeep opts (budget d) (budget d) (Nat.le_refl _)).1
      T t _ d.remaining hdepth hbudget d (Nat.le_refl _)
    rw [unmarshal_run]
    exact this.2.1.2

/-- An empty EBML header is read to the same end with a thousand units of fuel as with its
budget, which is below that. -/
theorem empty_header_within_budget :
    budget (ofSource (.ofBytes [0x1A, 0x45, 0xDF, 0xA3, 0x80])) ≤ 1000 ∧
      (readMasterOr .tooMuchData tooDeep {} Target.ignoring 1000 () ⟨none, false, 0⟩).run
          (ofSource (.ofBytes [0x1A, 0x45, 0xDF, 0xA3, 0x80])) =
        (readMaster {} Target.ignoring (budget (ofSource (.ofBytes [0x1A, 0x45, 0xDF, 0xA3, 0x80])))
          () ⟨none, false, 0⟩).run (ofSource (.ofBytes [0x1A, 0x45, 0xDF, 0xA3, 0x80])) :=
  ⟨by decide, (unmarshal_terminates {} Target.ignoring () _).1 _ _ 1000 (by decide)⟩

end Decoder

end Ebml
