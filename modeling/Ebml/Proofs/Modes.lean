import Ebml.Proofs.Decoding

/-!
# Parsing modes

The parsing mode matters for identifiers outside the schema and for elements the target has no
field for, and a more lenient mode differs from a stricter one only where the stricter one fails.
So a decoding that succeeds in a mode ends the same in every more lenient mode, proved as a
simulation one step of fuel at a time (`Reproduces`, `readElement_reproduces`).
-/

namespace Ebml

namespace ParsingMode

/-- How much a mode lets through, in the order the modes are declared: strict, best attempt,
relaxed. -/
def lenience : ParsingMode → Nat
  | strict => 0
  | bestAttempt => 1
  | relaxed => 2

end ParsingMode

namespace Decoder

variable {τ α β : Type}

/-- Whenever `x` succeeds, `y` ends just as it does: the same target, the same result and the
same decoder afterwards. -/
def Reproduces (x y : DecodeM (τ × Except Error α)) : Prop :=
  ∀ d t a d', x.run d = ((t, .ok a), d') → y.run d = ((t, .ok a), d')

/-- A decoding step that never succeeds. -/
def NeverOk (x : DecodeM (τ × Except Error α)) : Prop :=
  ∀ d t a d', x.run d ≠ ((t, .ok a), d')

theorem neverOk_error (t : τ) (e : Error) :
    NeverOk (pure (t, .error e) : DecodeM (τ × Except Error α)) :=
  fun _ _ _ _ h => by cases h

namespace Reproduces

theorem refl (x : DecodeM (τ × Except Error α)) : Reproduces x x := fun _ _ _ _ h => h

theorem of_neverOk {x y : DecodeM (τ × Except Error α)} (hx : NeverOk x) : Reproduces x y :=
  fun d t a d' h => absurd h (hx d t a d')

/-- A step that fails is reproduced by anything. -/
theorem error (t : τ) (e : Error) (y : DecodeM (τ × Except Error α)) :
    Reproduces (pure (t, .error e)) y :=
  of_neverOk (neverOk_error t e)

/-- The same reading, followed by steps that reproduce each other. -/
theorem bind {x : DecodeM β} {f f' : β → DecodeM (τ × Except Error α)}
    (h : ∀ b, Reproduces (f b) (f' b)) : Reproduces (x >>= f) (x >>= f') :=
  fun _ t a d' hx => h _ _ t a d' hx

/-- A step followed by what is done with its result: reproduced when the step is, when what
follows a success is, and when what follows a failure fails. -/
theorem bind_result {γ : Type} {x x' : DecodeM (τ × Except Error γ)}
    {f f' : τ × Except Error γ → DecodeM (τ × Except Error α)} (hx : Reproduces x x')
    (hok : ∀ t c, Reproduces (f (t, .ok c)) (f' (t, .ok c)))
    (herr : ∀ t e, NeverOk (f (t, .error e))) : Reproduces (x >>= f) (x' >>= f') := by
  intro d t a d' h
  rw [DecodeM.run_bind] at h ⊢
  rcases hrun : x.run d with ⟨⟨u, _ | c⟩, d₁⟩
  · rw [hrun] at h
    exact absurd h (herr u _ d₁ t a d')
  · rw [hx d u c d₁ hrun]
    rw [hrun] at h
    exact hok u c d₁ t a d' h

end Reproduces

variable {opts : DecodeOptions} {m : ParsingMode}

/-- One decoding step in a mode at least as lenient reproduces every success of the step,
given readings that reproduce those it goes on with. The two mode tests are the only places
the steps differ: where the stricter mode goes on, so does the more lenient one. -/
theorem readElement_reproduces {T : Target τ} (hm : opts.mode.lenience ≤ m.lenience)
    {children children' : τ → Option Header → DecodeM (τ × Except Error MasterEnd)}
    {master master' : τ → Extent → DecodeM (τ × Except Error MasterEnd)}
    {skip skip' : τ → Element → Option Nat → Extent → DecodeM (τ × Except Error (Option Header))}
    (hc : ∀ t p, Reproduces (children t p) (children' t p))
    (hmaster : ∀ t ext, Reproduces (master t ext) (master' t ext))
    (hskip : ∀ t e n ext, Reproduces (skip t e n ext) (skip' t e n ext))
    (t : τ) (ext : Extent) (h : Header) :
    Reproduces (readElement opts T children master skip t ext h)
      (readElement { opts with mode := m } T children' master' skip' t ext h) := by
  unfold readElement
  refine Reproduces.bind fun pos => ?_
  dsimp only
  by_cases hover : overruns ext.stop (h.size.map (pos + ·)) = true
  · rw [if_pos hover]
    exact Reproduces.error _ _ _
  rw [if_neg hover, if_neg hover]
  cases he : h.element with
  | none =>
    dsimp only
    by_cases hrel : opts.mode = .relaxed
    · have hrel' : m = .relaxed := by
        rw [hrel] at hm
        cases m <;> simp_all [ParsingMode.lenience]
      rw [if_pos hrel, if_pos hrel']
      split
      · exact Reproduces.error _ _ _
      · refine Reproduces.bind fun r => ?_
        split
        · exact Reproduces.error _ _ _
        · exact hc t none
    · rw [if_neg hrel]
      exact Reproduces.error _ _ _
  | some e =>
    dsimp only
    split
    · exact Reproduces.refl _
    refine Reproduces.bind fun _ => ?_
    split
    · -- no field: a strict decoder fails, the others skip the element
      by_cases hstrict : opts.mode = .strict
      · rw [if_pos hstrict]
        exact Reproduces.error _ _ _
      have hstrict' : ¬m = .strict := by
        intro hs
        subst hs
        cases hmode : opts.mode <;> simp_all [ParsingMode.lenience]
      rw [if_neg hstrict, if_neg hstrict']
      exact Reproduces.bind_result (hskip _ _ _ _) (fun u next => hc u next)
        (fun u err => neverOk_error u err)
    · split
      · -- a master: its children are read, then reading goes on after it
        split
        · exact Reproduces.error _ _ _
        · refine Reproduces.bind_result (hmaster _ _) ?_ (fun u err => neverOk_error _ _)
          intro u ending
          cases ending with
          | stopped => exact Reproduces.refl _
          | eof =>
            dsimp only
            split
            · exact Reproduces.error _ _ _
            · split
              · exact Reproduces.refl _
              · exact Reproduces.refl _
          | exhausted =>
            dsimp only
            split
            · exact Reproduces.error _ _ _
            · split
              · exact Reproduces.refl _
              · exact hc _ none
          | handoff next =>
            dsimp only
            split
            · exact Reproduces.error _ _ _
            · split
              · exact Reproduces.refl _
              · exact hc _ (some next)
      · -- a scalar: its data is read and stored, then reading goes on after it
        split
        · exact Reproduces.error _ _ _
        · refine Reproduces.bind fun r => ?_
          split
          · exact Reproduces.error _ _ _
          · split
            · exact Reproduces.error _ _ _
            · split
              · exact Reproduces.refl _
              · exact hc _ none

/-- With any fuel, reading a master, reading children and skipping an element in a mode at
least as lenient reproduce every success, for every target. -/
theorem reproduces_at_fuel (hm : opts.mode.lenience ≤ m.lenience) (fuel : Nat) :
    (∀ {τ : Type} (T : Target τ) (t : τ) (ext : Extent),
      Reproduces (readMaster opts T fuel t ext) (readMaster { opts with mode := m } T fuel t ext)) ∧
    (∀ {τ : Type} (T : Target τ) (t : τ) (ext : Extent) (p : Option Header),
      Reproduces (readChildren opts T fuel t ext p)
        (readChildren { opts with mode := m } T fuel t ext p)) ∧
    (∀ {τ : Type} (t : τ) (e : Element) (n : Option Nat) (ext : Extent),
      Reproduces (skipElement opts fuel t e n ext)
        (skipElement { opts with mode := m } fuel t e n ext)) := by
  induction fuel with
  | zero =>
    refine ⟨fun T t ext => ?_, fun T t ext p => ?_, fun t e n ext => ?_⟩ <;>
      exact Reproduces.error _ _ _
  | succ fuel ih =>
    obtain ⟨hmaster, hchildren, hskip⟩ := ih
    refine ⟨fun T t ext => ?_, fun T t ext p => ?_, fun t e n ext => ?_⟩
    · -- a master checks its depth, then reads its children
      unfold readMaster
      split
      · exact Reproduces.error _ _ _
      · exact hchildren T t ext none
    · -- headers are read alike in every mode; the element a header starts is one step
      have hread : Header.read { opts with mode := m } = Header.read opts := rfl
      unfold readChildren
      rw [hread]
      refine Reproduces.bind fun start => ?_
      split
      · exact Reproduces.refl _
      -- a pending header or a header read: the same continuation follows either
      dsimp only
      cases p
      all_goals
        refine Reproduces.bind fun header => ?_
        rcases header with err | _ | h
        · exact Reproduces.error _ _ _
        · exact Reproduces.refl _
        · exact readElement_reproduces hm (fun t p => hchildren T t ext p) (hmaster T)
            (fun t e n ext => hskip t e n ext) t ext h
    · -- a skipped element of unknown size is read into a target that keeps nothing
      unfold skipElement
      split
      · exact Reproduces.refl _
      · split
        · exact Reproduces.error _ _ _
        · refine Reproduces.bind_result (hmaster Target.ignoring t _) ?_
            (fun u err => neverOk_error u err)
          intro u ending
          cases ending <;> exact Reproduces.refl _

/-- A decoding in a mode at least as lenient reproduces every successful decoding. -/
theorem unmarshal_reproduces (hm : opts.mode.lenience ≤ m.lenience) (T : Target τ) (t : τ) :
    Reproduces (unmarshal opts T t) (unmarshal { opts with mode := m } T t) := by
  unfold unmarshal
  refine Reproduces.bind fun d => ?_
  exact Reproduces.bind_result ((reproduces_at_fuel hm _).1 T t _) (fun u r => Reproduces.refl _)
    (fun u err => neverOk_error u err)

/-- Parsing modes are monotone: a decoding that succeeds in strict mode ends the same in best
attempt mode, and one that succeeds in best attempt mode ends the same in relaxed mode, with
the same outcome, target, source position and records. -/
theorem unmarshal_parsingMode_monotone (opts : DecodeOptions) (T : Target τ) (t : τ)
    (d : Decoder) :
    (∀ t' o d', (unmarshal { opts with mode := .strict } T t).run d = ((t', .ok o), d') →
      (unmarshal { opts with mode := .bestAttempt } T t).run d = ((t', .ok o), d')) ∧
    (∀ t' o d', (unmarshal { opts with mode := .bestAttempt } T t).run d = ((t', .ok o), d') →
      (unmarshal { opts with mode := .relaxed } T t).run d = ((t', .ok o), d')) :=
  ⟨unmarshal_reproduces (by simp [ParsingMode.lenience]) T t d,
    unmarshal_reproduces (by simp [ParsingMode.lenience]) T t d⟩

/-- An `EBMLVersion` element read into a map in strict mode reads the same in the other two
modes. -/
theorem version_reads_alike_in_every_mode :
    (unmarshal { mode := .bestAttempt } Slot.target (Slot.map [])).run
        (ofSource (Source.ofBytes [0x42, 0x86, 0x81, 0x01])) =
      ((Slot.map [(.ebmlVersion, [.uint 1])], .ok .finished),
        { source := { ahead := [], position := 4 }, records := [⟨.ebmlVersion, 0, 3, some 1⟩] }) ∧
    (unmarshal { mode := .relaxed } Slot.target (Slot.map [])).run
        (ofSource (Source.ofBytes [0x42, 0x86, 0x81, 0x01])) =
      ((Slot.map [(.ebmlVersion, [.uint 1])], .ok .finished),
        { source := { ahead := [], position := 4 }, records := [⟨.ebmlVersion, 0, 3, some 1⟩] }) :=
  have strict := (unmarshal_parsingMode_monotone {} Slot.target (Slot.map [])
    (ofSource (Source.ofBytes [0x42, 0x86, 0x81, 0x01]))).1 _ _ _ rfl
  ⟨strict, (unmarshal_parsingMode_monotone {} Slot.target (Slot.map [])
    (ofSource (Source.ofBytes [0x42, 0x86, 0x81, 0x01]))).2 _ _ _ strict⟩

end Decoder

end Ebml
