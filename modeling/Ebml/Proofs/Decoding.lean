import Ebml.Decoder
import Ebml.Proofs.Reading
import Ebml.Proofs.ElementMap

/-!
# Decoding steps

What one step of the decoder does, for any target, where it goes on reading: an element whose
data is stored, a master whose children are read to the end of its data, and the two ends of a
reading. The step lemmas take the pieces a step is made of as hypotheses, so each is proved once,
where it is defined.
-/

namespace Ebml

namespace DecodeM

@[simp] theorem run_position (d : Decoder) : position.run d = (d.source.position, d) := rfl

@[simp] theorem run_read {α : Type} (r : ReadM α) (d : Decoder) :
    (read r).run d = ((r.run d.source).1, { d with source := (r.run d.source).2 }) := rfl

@[simp] theorem run_note (r : Record) (d : Decoder) :
    (note r).run d = ((), { d with records := d.records ++ [r] }) := rfl

theorem run_bind {α β : Type} (x : DecodeM α) (f : α → DecodeM β) (d : Decoder) :
    (x >>= f).run d = (f (x.run d).1).run (x.run d).2 := rfl

@[simp] theorem run_pure {α : Type} (a : α) (d : Decoder) :
    (pure a : DecodeM α).run d = (a, d) := rfl

@[simp] theorem run_get (d : Decoder) : (get : DecodeM Decoder).run d = (d, d) := rfl

end DecodeM

/-- A source that ends cleanly has no header. -/
theorem Header.read_end {opts : DecodeOptions} {s : Source} (h : s.ahead = [])
    (hb : s.breaks = false) : (Header.read opts).run s = (.ok none, s) := by
  simp only [Header.read, ReadM.run_bind, ReadM.run_position, ReadM.byte?_nil h hb,
    ReadM.run_pure]

namespace Decoder

/-- The decoder once `n` more octets of its source have been read, leaving `rest`, and the
records `recs` noted. -/
def advance (d : Decoder) (rest : Bytes) (n : Nat) (recs : List Record) : Decoder :=
  { source := { d.source with ahead := rest, position := d.source.position + n },
    records := d.records ++ recs }

@[simp] theorem advance_advance (d : Decoder) (r r' : Bytes) (n n' : Nat) (recs recs' : List Record) :
    (d.advance r n recs).advance r' n' recs' = d.advance r' (n + n') (recs ++ recs') := by
  simp [advance, Nat.add_assoc]

theorem advance_zero {d : Decoder} {rest : Bytes} (h : d.source.ahead = rest) :
    d.advance rest 0 [] = d := by
  obtain ⟨⟨ahead, held, breaks, position⟩, records⟩ := d
  simp only at h
  subst h
  simp [advance]

/-- Nothing ends before an element that fits: its first octet is read before any end. -/
theorem start_of_fits {stop : Option Nat} {pos k : Nat} (hfit : ∀ E ∈ stop, pos + k ≤ E)
    (hk : 0 < k) : stop.any (fun E => decide (pos ≥ E)) = false := by
  cases stop with
  | none => rfl
  | some E =>
    have := hfit E rfl
    simp only [Option.any_some, decide_eq_false_iff_not]
    omega

theorem overruns_of_fits {stop : Option Nat} {dataEnd : Nat} (hfit : ∀ E ∈ stop, dataEnd ≤ E) :
    overruns stop (some dataEnd) = false := by
  cases stop with
  | none => rfl
  | some E =>
    have := hfit E rfl
    simp only [overruns, decide_eq_false_iff_not]
    omega

/-- An element of unknown size never passes the end of its parent. -/
theorem overruns_none (stop : Option Nat) : overruns stop none = false := by
  cases stop <;> rfl

section Steps

variable {τ : Type} (opts : DecodeOptions) (T : Target τ)

/-- A master whose depth is allowed reads its children with one step less. -/
theorem readMaster_succ {fuel : Nat} {t : τ} {ext : Extent} (hdepth : ext.depth ≤ maxDepth) :
    readMaster opts T (fuel + 1) t ext = readChildren opts T fuel t ext none := by
  rw [readMaster, if_neg (Nat.not_lt.mpr hdepth)]

/-- A master ends once its data has been read. -/
theorem readChildren_exhausted {fuel : Nat} {t : τ} {ext : Extent} {pending : Option Header}
    {d : Decoder} {E : Nat} (hstop : ext.stop = some E) (hpos : E ≤ d.source.position) :
    (readChildren opts T (fuel + 1) t ext pending).run d = ((t, .ok .exhausted), d) := by
  rw [readChildren]
  simp only [DecodeM.run_bind, DecodeM.run_position, hstop, Option.any_some, ge_iff_le, hpos,
    decide_true, if_true, DecodeM.run_pure]

/-- A master of unknown extent ends with its source. -/
theorem readChildren_eof {fuel : Nat} {t : τ} {ext : Extent} {d : Decoder} {s : Source}
    (hstop : ext.stop = none) (hh : (Header.read opts).run d.source = (.ok none, s)) :
    (readChildren opts T (fuel + 1) t ext none).run d =
      ((t, .ok .eof), { d with source := s }) := by
  rw [readChildren]
  simp only [DecodeM.run_bind, DecodeM.run_position, hstop, Option.any_none, Bool.false_eq_true,
    if_false, DecodeM.run_read, hh, Option.isSome_none, DecodeM.run_pure]

/-- A master whose data goes on reads the next header and reads the element it starts. -/
theorem readChildren_header {fuel : Nat} {t : τ} {ext : Extent} {d : Decoder} {s : Source}
    {h : Header} (hstart : ext.stop.any (fun E => decide (d.source.position ≥ E)) = false)
    (hh : (Header.read opts).run d.source = (.ok (some h), s)) :
    (readChildren opts T (fuel + 1) t ext none).run d =
      (readElement opts T (fun t p => readChildren opts T fuel t ext p) (readMaster opts T fuel)
        (skipElement opts fuel) t ext h).run { d with source := s } := by
  -- the start test is decided on the position read first: rewrite it everywhere before simp
  rw [readChildren, DecodeM.run_bind, DecodeM.run_position]
  simp only [hstart, Bool.false_eq_true, if_false, DecodeM.run_bind, DecodeM.run_read, hh]

/-- A master read from a header already at hand reads the element it starts, unless its data
has been read. -/
theorem readChildren_pending {fuel : Nat} {t : τ} {ext : Extent} {d : Decoder} {h : Header}
    (hstart : ext.stop.any (fun E => decide (d.source.position ≥ E)) = false) :
    (readChildren opts T (fuel + 1) t ext (some h)).run d =
      (readElement opts T (fun t p => readChildren opts T fuel t ext p) (readMaster opts T fuel)
        (skipElement opts fuel) t ext h).run d := by
  rw [readChildren, DecodeM.run_bind, DecodeM.run_position]
  simp only [hstart, Bool.false_eq_true, if_false, DecodeM.run_bind, DecodeM.run_pure]

section Element

variable {children : τ → Option Header → DecodeM (τ × Except Error MasterEnd)}
  {master : τ → Extent → DecodeM (τ × Except Error MasterEnd)}
  {skip : τ → Element → Option Nat → Extent → DecodeM (τ × Except Error (Option Header))}

/-- An element stored in its field: it is noted, its data read and assigned, and reading goes on
after it. The element is one its master keeps: a master of unknown size at the top level hands
the top-level elements back to its parent. -/
theorem readElement_scalar_of_kept {t u t' : τ} {ext : Extent} {d : Decoder} {s' : Source}
    {h : Header} {e : Element} {n p : Nat} {tag : Tag} {v : Value} (he : h.element = some e)
    (hn : h.size = some n) (hp : d.source.position - h.length = p)
    (hover : overruns ext.stop (some (d.source.position + n)) = false)
    (hkeep : (ext.unknownTop && e.isTopLevel) = false) (hsel : T.select t e = some (tag, u))
    (hm : e.isMaster = false) (hread : (Payload.read opts e.dataType n).run d.source = (.ok v, s'))
    (hassign : T.assign u e v = (t', none)) (hstop : tag.stop = false) :
    (readElement opts T children master skip t ext h).run d =
      (children t' none).run { source := s', records := d.records ++ [⟨e, p, h.length, some n⟩] } := by
  simp only [readElement, DecodeM.run_bind, DecodeM.run_position, hn, Option.map_some, hover,
    Bool.false_eq_true, if_false, he, hkeep, DecodeM.run_note, hp, hsel, hm,
    Nat.add_sub_cancel_left, DecodeM.run_read, hread, hassign, hstop]

theorem readElement_scalar {t u t' : τ} {ext : Extent} {d : Decoder} {s' : Source} {h : Header}
    {e : Element} {n p : Nat} {tag : Tag} {v : Value} (he : h.element = some e)
    (hn : h.size = some n) (hp : d.source.position - h.length = p) (hover : overruns ext.stop (some (d.source.position + n)) = false)
    (htop : ext.unknownTop = false) (hsel : T.select t e = some (tag, u))
    (hm : e.isMaster = false) (hread : (Payload.read opts e.dataType n).run d.source = (.ok v, s'))
    (hassign : T.assign u e v = (t', none)) (hstop : tag.stop = false) :
    (readElement opts T children master skip t ext h).run d =
      (children t' none).run { source := s', records := d.records ++ [⟨e, p, h.length, some n⟩] } :=
  readElement_scalar_of_kept opts T he hn hp hover (by rw [htop, Bool.false_and]) hsel hm hread
    hassign hstop

/-- An element whose value its field refuses ends the reading with the refusal, in the context
of the element, and with the target that the refusal gave back. -/
theorem readElement_refused_of_kept {t u t' : τ} {ext : Extent} {d : Decoder} {s' : Source}
    {h : Header} {e : Element} {n p : Nat} {tag : Tag} {v : Value} {err : Error}
    (he : h.element = some e) (hn : h.size = some n) (hp : d.source.position - h.length = p)
    (hover : overruns ext.stop (some (d.source.position + n)) = false)
    (hkeep : (ext.unknownTop && e.isTopLevel) = false) (hsel : T.select t e = some (tag, u))
    (hm : e.isMaster = false) (hread : (Payload.read opts e.dataType n).run d.source = (.ok v, s'))
    (hassign : T.assign u e v = (t', some err)) :
    (readElement opts T children master skip t ext h).run d =
      ((t', .error (.context (.assigning e) err)),
        { source := s', records := d.records ++ [⟨e, p, h.length, some n⟩] }) := by
  simp only [readElement, DecodeM.run_bind, DecodeM.run_position, hn, Option.map_some, hover,
    Bool.false_eq_true, if_false, he, hkeep, DecodeM.run_note, hp, hsel, hm,
    Nat.add_sub_cancel_left, DecodeM.run_read, hread, hassign, DecodeM.run_pure]

/-- A master element read into its field: it is noted, its children read until its data is
exhausted, the field closed, and reading goes on after it. -/
theorem readElement_master_of_kept {t u u' child child' child'' : τ} {ext : Extent}
    {d d' : Decoder} {h : Header} {e : Element} {n p : Nat} {tag : Tag} (he : h.element = some e)
    (hn : h.size = some n) (hp : d.source.position - h.length = p)
    (hover : overruns ext.stop (some (d.source.position + n)) = false)
    (hkeep : (ext.unknownTop && e.isTopLevel) = false) (hsel : T.select t e = some (tag, u))
    (hm : e.isMaster = true) (henter : T.enter u e = (u', some child))
    (hinner : (master child ⟨some (d.source.position + n), false, ext.depth + 1⟩).run
        { source := d.source, records := d.records ++ [⟨e, p, h.length, some n⟩] } =
      ((child', .ok .exhausted), d'))
    (hfinish : T.finish child' = (child'', none)) (hstop : tag.stop = false) :
    (readElement opts T children master skip t ext h).run d =
      (children (T.close u' e child'') none).run d' := by
  simp only [readElement, DecodeM.run_bind, DecodeM.run_position, hn, Option.map_some, hover,
    Bool.false_eq_true, if_false, he, hkeep, DecodeM.run_note, hp, hsel, hm,
    if_true, henter, Option.orElse_eq_orElse, Option.orElse_eq_or, Option.some_or, Option.isNone_some,
    Bool.false_and, hinner]
  -- the finished child is taken apart by a projection of the target: open the target to reach it
  cases T
  dsimp only at hfinish ⊢
  rw [hfinish]
  simp only [hstop, Bool.false_eq_true, if_false]

theorem readElement_master {t u u' child child' child'' : τ} {ext : Extent} {d d' : Decoder}
    {h : Header} {e : Element} {n p : Nat} {tag : Tag} (he : h.element = some e)
    (hn : h.size = some n) (hp : d.source.position - h.length = p) (hover : overruns ext.stop (some (d.source.position + n)) = false)
    (htop : ext.unknownTop = false) (hsel : T.select t e = some (tag, u))
    (hm : e.isMaster = true) (henter : T.enter u e = (u', some child))
    (hinner : (master child ⟨some (d.source.position + n), false, ext.depth + 1⟩).run
        { source := d.source, records := d.records ++ [⟨e, p, h.length, some n⟩] } =
      ((child', .ok .exhausted), d'))
    (hfinish : T.finish child' = (child'', none)) (hstop : tag.stop = false) :
    (readElement opts T children master skip t ext h).run d =
      (children (T.close u' e child'') none).run d' :=
  readElement_master_of_kept opts T he hn hp hover (by rw [htop, Bool.false_and]) hsel hm henter
    hinner hfinish hstop

/-- A master whose children are read to the end of its data, but that its target refuses to
finish, ends the reading with the target's error, put back into its field. -/
theorem readElement_master_unfinished {t u u' child child' child'' : τ} {ext : Extent}
    {d d' : Decoder} {h : Header} {e : Element} {n p : Nat} {tag : Tag} {err : Error}
    (he : h.element = some e) (hn : h.size = some n) (hp : d.source.position - h.length = p)
    (hover : overruns ext.stop (some (d.source.position + n)) = false)
    (hkeep : (ext.unknownTop && e.isTopLevel) = false) (hsel : T.select t e = some (tag, u))
    (hm : e.isMaster = true) (henter : T.enter u e = (u', some child))
    (hinner : (master child ⟨some (d.source.position + n), false, ext.depth + 1⟩).run
        { source := d.source, records := d.records ++ [⟨e, p, h.length, some n⟩] } =
      ((child', .ok .exhausted), d'))
    (hfinish : T.finish child' = (child'', some err)) :
    (readElement opts T children master skip t ext h).run d =
      ((T.close u' e child'', .error err), d') := by
  simp only [readElement, DecodeM.run_bind, DecodeM.run_position, hn, Option.map_some, hover,
    Bool.false_eq_true, if_false, he, hkeep, DecodeM.run_note, hp, hsel, hm,
    if_true, henter, Option.orElse_eq_orElse, Option.orElse_eq_or, Option.some_or, Option.isNone_some,
    Bool.false_and, hinner]
  cases T
  dsimp only at hfinish ⊢
  rw [hfinish]
  rfl

/-- A master under a tag that stops the reading: once its children are read to the end of its
data and the field is finished and closed, the reading stops after it. -/
theorem readElement_master_stop {t u u' child child' child'' : τ} {ext : Extent}
    {d d' : Decoder} {h : Header} {e : Element} {n p : Nat} {tag : Tag} (he : h.element = some e)
    (hn : h.size = some n) (hp : d.source.position - h.length = p)
    (hover : overruns ext.stop (some (d.source.position + n)) = false)
    (htop : ext.unknownTop = false) (hsel : T.select t e = some (tag, u))
    (hm : e.isMaster = true) (henter : T.enter u e = (u', some child))
    (hinner : (master child ⟨some (d.source.position + n), false, ext.depth + 1⟩).run
        { source := d.source, records := d.records ++ [⟨e, p, h.length, some n⟩] } =
      ((child', .ok .exhausted), d'))
    (hfinish : T.finish child' = (child'', none)) (hstop : tag.stop = true) :
    (readElement opts T children master skip t ext h).run d =
      ((T.close u' e child'', .ok .stopped), d') := by
  simp only [readElement, DecodeM.run_bind, DecodeM.run_position, hn, Option.map_some, hover,
    Bool.false_eq_true, if_false, he, htop, Bool.false_and, DecodeM.run_note, hp, hsel, hm,
    if_true, henter, Option.orElse_eq_orElse, Option.orElse_eq_or, Option.some_or,
    Option.isNone_some, hinner]
  cases T
  dsimp only at hfinish ⊢
  rw [hfinish]
  simp only [hstop, if_true]
  rfl

/-- A master of unknown size reads its children within its parent's end, as a master of unknown
size at the top level when it is a top-level element. When its children end with the source,
so does the reading, once the field is finished and closed. -/
theorem readElement_unsized_eof {t u u' child child' child'' : τ} {ext : Extent}
    {d d' : Decoder} {h : Header} {e : Element} {p : Nat} {tag : Tag} (he : h.element = some e)
    (hn : h.size = none) (hp : d.source.position - h.length = p)
    (hkeep : (ext.unknownTop && e.isTopLevel) = false) (hsel : T.select t e = some (tag, u))
    (hm : e.isMaster = true) (henter : T.enter u e = (u', some child))
    (hinner : (master child ⟨ext.stop, e.isTopLevel, ext.depth + 1⟩).run
        { source := d.source, records := d.records ++ [⟨e, p, h.length, none⟩] } =
      ((child', .ok .eof), d'))
    (hfinish : T.finish child' = (child'', none)) (hstop : tag.stop = false) :
    (readElement opts T children master skip t ext h).run d =
      ((T.close u' e child'', .ok .eof), d') := by
  simp only [readElement, DecodeM.run_bind, DecodeM.run_position, hn, Option.map_none, overruns_none,
    Bool.false_eq_true, if_false, he, hkeep, DecodeM.run_note, hp, hsel, hm,
    if_true, henter, Option.orElse_eq_orElse, Option.orElse_eq_or, Option.none_or,
    Option.isNone_none, Bool.true_and, hinner]
  cases T
  dsimp only at hfinish ⊢
  rw [hfinish]
  simp only [hstop, Bool.false_eq_true, if_false]
  rfl

/-- A master of unknown size whose children end at a header that belongs to a parent goes on
with that header, once the field is finished and closed. -/
theorem readElement_unsized_handoff {t u u' child child' child'' : τ} {ext : Extent}
    {d d' : Decoder} {h next : Header} {e : Element} {p : Nat} {tag : Tag}
    (he : h.element = some e) (hn : h.size = none) (hp : d.source.position - h.length = p)
    (hkeep : (ext.unknownTop && e.isTopLevel) = false) (hsel : T.select t e = some (tag, u))
    (hm : e.isMaster = true) (henter : T.enter u e = (u', some child))
    (hinner : (master child ⟨ext.stop, e.isTopLevel, ext.depth + 1⟩).run
        { source := d.source, records := d.records ++ [⟨e, p, h.length, none⟩] } =
      ((child', .ok (.handoff next)), d'))
    (hfinish : T.finish child' = (child'', none)) (hstop : tag.stop = false) :
    (readElement opts T children master skip t ext h).run d =
      (children (T.close u' e child'') (some next)).run d' := by
  simp only [readElement, DecodeM.run_bind, DecodeM.run_position, hn, Option.map_none, overruns_none,
    Bool.false_eq_true, if_false, he, hkeep, DecodeM.run_note, hp, hsel, hm,
    if_true, henter, Option.orElse_eq_orElse, Option.orElse_eq_or, Option.none_or,
    Option.isNone_none, Bool.true_and, hinner]
  cases T
  dsimp only at hfinish ⊢
  rw [hfinish]
  simp only [hstop, Bool.false_eq_true, if_false]

/-- A master of unknown size whose children end in an error ends the reading with that error,
in the context of the master. -/
theorem readElement_unsized_error {t u u' child child' : τ} {ext : Extent} {d d' : Decoder}
    {h : Header} {e : Element} {p : Nat} {tag : Tag} {err : Error} (he : h.element = some e)
    (hn : h.size = none) (hp : d.source.position - h.length = p)
    (hkeep : (ext.unknownTop && e.isTopLevel) = false) (hsel : T.select t e = some (tag, u))
    (hm : e.isMaster = true) (henter : T.enter u e = (u', some child))
    (hinner : (master child ⟨ext.stop, e.isTopLevel, ext.depth + 1⟩).run
        { source := d.source, records := d.records ++ [⟨e, p, h.length, none⟩] } =
      ((child', .error err), d')) :
    (readElement opts T children master skip t ext h).run d =
      ((T.close u' e child', .error (.context (.reading e) err)), d') := by
  simp only [readElement, DecodeM.run_bind, DecodeM.run_position, hn, Option.map_none, overruns_none,
    Bool.false_eq_true, if_false, he, hkeep, DecodeM.run_note, hp, hsel, hm,
    if_true, henter, Option.orElse_eq_orElse, Option.orElse_eq_or, Option.none_or,
    Option.isNone_none, Bool.true_and, hinner, DecodeM.run_pure]

/-- A master of unknown size whose children stop the reading stops it too, once the field is
closed. -/
theorem readElement_unsized_stopped {t u u' child child' : τ} {ext : Extent} {d d' : Decoder}
    {h : Header} {e : Element} {p : Nat} {tag : Tag} (he : h.element = some e)
    (hn : h.size = none) (hp : d.source.position - h.length = p)
    (hkeep : (ext.unknownTop && e.isTopLevel) = false) (hsel : T.select t e = some (tag, u))
    (hm : e.isMaster = true) (henter : T.enter u e = (u', some child))
    (hinner : (master child ⟨ext.stop, e.isTopLevel, ext.depth + 1⟩).run
        { source := d.source, records := d.records ++ [⟨e, p, h.length, none⟩] } =
      ((child', .ok .stopped), d')) :
    (readElement opts T children master skip t ext h).run d =
      ((T.close u' e child', .ok .stopped), d') := by
  simp only [readElement, DecodeM.run_bind, DecodeM.run_position, hn, Option.map_none, overruns_none,
    Bool.false_eq_true, if_false, he, hkeep, DecodeM.run_note, hp, hsel, hm,
    if_true, henter, Option.orElse_eq_orElse, Option.orElse_eq_or, Option.none_or,
    Option.isNone_none, Bool.true_and, hinner, DecodeM.run_pure]

/-- A master of unknown size at the top level ends at the header of a top-level element, which
it hands to its parent unread. -/
theorem readElement_handoff {t : τ} {ext : Extent} {d : Decoder} {h : Header} {e : Element}
    (he : h.element = some e) (hover : overruns ext.stop (h.size.map (d.source.position + ·)) = false)
    (htop : (ext.unknownTop && e.isTopLevel) = true) :
    (readElement opts T children master skip t ext h).run d = ((t, .ok (.handoff h)), d) := by
  simp only [readElement, DecodeM.run_bind, DecodeM.run_position, hover, Bool.false_eq_true,
    if_false, he, htop, if_true, DecodeM.run_pure]

/-- An element whose data cannot be read ends the reading with that error, in the context of
the element. -/
theorem readElement_scalar_error {t u : τ} {ext : Extent} {d : Decoder} {s' : Source}
    {h : Header} {e : Element} {n p : Nat} {tag : Tag} {err : Error} (he : h.element = some e)
    (hn : h.size = some n) (hp : d.source.position - h.length = p)
    (hover : overruns ext.stop (some (d.source.position + n)) = false)
    (htop : ext.unknownTop = false) (hsel : T.select t e = some (tag, u))
    (hm : e.isMaster = false)
    (hread : (Payload.read opts e.dataType n).run d.source = (.error err, s')) :
    (readElement opts T children master skip t ext h).run d =
      ((u, .error (.context (.reading e) err)),
        { source := s', records := d.records ++ [⟨e, p, h.length, some n⟩] }) := by
  simp only [readElement, DecodeM.run_bind, DecodeM.run_position, hn, Option.map_some, hover,
    Bool.false_eq_true, if_false, he, htop, Bool.false_and, DecodeM.run_note, hp, hsel, hm,
    Nat.add_sub_cancel_left, DecodeM.run_read, hread, DecodeM.run_pure]

/-- A master whose children end in an error ends the reading with that error, in the context of
the master, with what its children had stored put back into its field. -/
theorem readElement_master_error {t u u' child child' : τ} {ext : Extent} {d d' : Decoder}
    {h : Header} {e : Element} {n p : Nat} {tag : Tag} {err : Error} (he : h.element = some e)
    (hn : h.size = some n) (hp : d.source.position - h.length = p)
    (hover : overruns ext.stop (some (d.source.position + n)) = false)
    (htop : ext.unknownTop = false) (hsel : T.select t e = some (tag, u))
    (hm : e.isMaster = true) (henter : T.enter u e = (u', some child))
    (hinner : (master child ⟨some (d.source.position + n), false, ext.depth + 1⟩).run
        { source := d.source, records := d.records ++ [⟨e, p, h.length, some n⟩] } =
      ((child', .error err), d')) :
    (readElement opts T children master skip t ext h).run d =
      ((T.close u' e child', .error (.context (.reading e) err)), d') := by
  simp only [readElement, DecodeM.run_bind, DecodeM.run_position, hn, Option.map_some, hover,
    Bool.false_eq_true, if_false, he, htop, Bool.false_and, DecodeM.run_note, hp, hsel, hm,
    if_true, henter, Option.orElse_eq_orElse, Option.orElse_eq_or, Option.some_or,
    Option.isNone_some, hinner, DecodeM.run_pure]

end Element

/-- Decoding a stream reads its top level as a master with no end, with fuel for all the octets
ahead. -/
theorem unmarshal_run (t : τ) (d : Decoder) :
    (unmarshal opts T t).run d =
      ((((readMaster opts T (budget d) t ⟨none, false, 0⟩).run d).1.1,
        ((readMaster opts T (budget d) t ⟨none, false, 0⟩).run d).1.2.map
          fun r : MasterEnd => match r with
            | .stopped => Outcome.stopped
            | _ => Outcome.finished),
        ((readMaster opts T (budget d) t ⟨none, false, 0⟩).run d).2) := rfl

end Steps

end Decoder

namespace Slot

/-- A map takes every element, opening a fresh value for it. -/
@[simp] theorem target_select_map (m : ElementMap) (e : Element) :
    target.select (map m) e = some (Tag.plain e, map (m.push e (Value.fresh e))) := rfl

@[simp] theorem target_assign_map (m : ElementMap) (e : Element) (v : Value) :
    target.assign (map m) e v = (map (m.setLast e v), none) := rfl

/-- The master a map has just opened for an element is read into an empty map. -/
theorem target_enter_fresh (m : ElementMap) {e : Element} (hm : e.isMaster = true) :
    target.enter (map (m.push e (Value.fresh e))) e =
      (map (m.push e (Value.fresh e)), some (map [])) := by
  simp only [target, enterField, ElementMap.getLast_getAll_push, Value.fresh, hm, if_true]

@[simp] theorem target_close_map (m inner : ElementMap) (e : Element) :
    target.close (map m) e (map inner) = map (m.setLast e (.master inner)) := rfl

@[simp] theorem target_finish (t : Slot) : target.finish t = (t, none) := rfl

end Slot

end Ebml
