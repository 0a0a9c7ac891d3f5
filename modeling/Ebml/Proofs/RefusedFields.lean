import Ebml.Proofs.RecordReading

/-!
# Refused fields

Storing a value and entering a master change a field in place. A field that refuses leaves
itself as it was, however its lists and optional items are nested: a list or an optional field
stores into a fresh item and probes a fresh item before it takes one, and a field that has been
entered once can be entered again, so the probe that succeeded is never followed by a refusal.
The decoder then ends its reading with the refusal and the record as it was
(`refused_field_keeps_record`).
-/

namespace Ebml

namespace Slot

/-! ## Storing -/

/-- A scalar that refuses a value keeps the one it held. -/
theorem store_refused {α : Type} {s : Slot} {mk : α → Slot} {r : Except Error α} {err : Error}
    (h : (s.store mk r).2 = some err) : (s.store mk r).1 = s := by
  cases r with
  | ok a => cases h
  | error e => rfl

/-- A refused store leaves the slot as it was: a list or an optional field takes no item when
its fresh item refuses the value. -/
theorem assign_refused {s : Slot} {v : Value} {err : Error} (h : (s.assign v).2 = some err) :
    (s.assign v).1 = s := by
  cases s with
  | list fresh items =>
    simp only [assign] at h ⊢
    rcases hf : fresh.assign v with ⟨item, _ | e⟩
    · simp [hf] at h
    · rfl
  | option fresh item =>
    simp only [assign] at h ⊢
    rcases hf : fresh.assign v with ⟨new, _ | e⟩
    · simp [hf] at h
    · rfl
  | value x => cases h
  | map m => rfl
  | record fs => rfl
  | _ => exact store_refused h

/-! ## Entering

`enterTimes k` is entering `k + 1` times in a row. A list's target does not depend on how often
it was entered, and an optional item is entered as often as the optional field. -/

/-- Entering succeeds as often as it succeeds once. -/
theorem enterTimes_isSome : ∀ (k : Nat) (s : Slot),
    (enterTimes k s).2.isSome = (enterTimes 0 s).2.isSome
  | _, value (.master _) | _, map _ | _, record _ => rfl
  | k, list fresh items => by
    simp only [enterTimes]
    split <;> rfl
  | k, option fresh none => by
    simp only [enterTimes]
    split
    · rfl
    · rw [enterTimes_isSome (k + 1) fresh, enterTimes_isSome 1 fresh]
  | k, option fresh (some item) => enterTimes_isSome k item
  | _, value (.int _) | _, value (.uint _) | _, value (.float32 _) | _, value (.float64 _)
  | _, value (.string _) | _, value (.date _) | _, value (.binary _) | _, value (.block _)
  | _, uint _ | _, int _ | _, flag _ | _, float32 _ | _, float64 _ | _, text _ | _, binary _
  | _, date _ | _, block _ => rfl

/-- A refused entering leaves the field as it was: a list or an optional field takes no item
when the probe of its fresh item is refused, and the probe once through, entering again is not
refused. -/
theorem enterTimes_refused : ∀ (k : Nat) (s : Slot), (enterTimes k s).2 = none →
    (enterTimes k s).1 = s
  | _, value (.master _), h | _, map _, h | _, record _, h => nomatch h
  | k, list fresh items, h => by
    simp only [enterTimes] at h ⊢
    split at h
    · rfl
    · next target hprobe =>
      have hagain := enterTimes_isSome 1 fresh
      rw [h, hprobe] at hagain
      cases hagain
  | k, option fresh none, h => by
    simp only [enterTimes] at h ⊢
    split at h
    · rfl
    · next target hprobe =>
      have hagain := enterTimes_isSome (k + 1) fresh
      rw [h, hprobe] at hagain
      cases hagain
  | k, option fresh (some item), h => by
    simp only [enterTimes] at h ⊢
    rw [enterTimes_refused k item h]
  | _, value (.int _), _ | _, value (.uint _), _ | _, value (.float32 _), _
  | _, value (.float64 _), _ | _, value (.string _), _ | _, value (.date _), _
  | _, value (.binary _), _ | _, value (.block _), _ | _, uint _, _ | _, int _, _ | _, flag _, _
  | _, float32 _, _ | _, float64 _, _ | _, text _, _ | _, binary _, _ | _, date _, _
  | _, block _, _ => rfl

/-- Entering once more from where entering left the field is entering one time more. -/
theorem enterTimes_succ : ∀ (k : Nat) (s : Slot), enterTimes (k + 1) s = enter (enterTimes k s).1
  | _, value (.master _) | _, map _ | _, record _ => rfl
  | k, list fresh items => by
    simp only [enter, enterTimes]
    split
    · next hprobe => simp only [enterTimes, hprobe]
    · next target hprobe =>
      simp only [enterTimes, hprobe, List.replicate_succ', List.append_assoc, List.replicate_zero,
        List.nil_append]
  | k, option fresh none => by
    simp only [enter, enterTimes]
    split
    · next hprobe => simp only [enterTimes, hprobe]
    · next target hprobe =>
      simp only [enterTimes]
      rw [enterTimes_succ (k + 1) fresh]
      rfl
  | k, option fresh (some item) => by
    simp only [enter, enterTimes]
    rw [enterTimes_succ k item]
    rfl
  | _, value (.int _) | _, value (.uint _) | _, value (.float32 _) | _, value (.float64 _)
  | _, value (.string _) | _, value (.date _) | _, value (.binary _) | _, value (.block _)
  | _, uint _ | _, int _ | _, flag _ | _, float32 _ | _, float64 _ | _, text _ | _, binary _
  | _, date _ | _, block _ => rfl

/-- A refused entering leaves the field as it was. -/
theorem enter_refused {s : Slot} (h : s.enter.2 = none) : s.enter.1 = s :=
  enterTimes_refused 0 s h

/-- A field that has been entered can be entered again. -/
theorem enter_again {s : Slot} (h : s.enter.2.isSome) : s.enter.1.enter.2.isSome := by
  have hsucc : s.enter.1.enter = enterTimes 1 s := (enterTimes_succ 0 s).symm
  rw [hsucc, enterTimes_isSome 1 s]
  exact h

/-- How a list enters its master: it probes a fresh item, and once the probe succeeds it
appends the probed item and enters it again, in place. -/
theorem enter_list (fresh : Slot) (items : List Slot) :
    (list fresh items).enter =
      if fresh.enter.2.isSome then (list fresh (items ++ [fresh.enter.1.enter.1]), fresh.enter.1.enter.2)
      else (list fresh items, none) := by
  have hsucc : fresh.enter.1.enter = enterTimes 1 fresh := (enterTimes_succ 0 fresh).symm
  rw [hsucc]
  simp only [enter, enterTimes]
  split
  · next hprobe => simp [hprobe]
  · next target hprobe => simp [hprobe]

/-- How an optional field without an item enters its master: it probes a fresh item, and once
the probe succeeds it takes the probed item and enters it again, in place. -/
theorem enter_option_none (fresh : Slot) :
    (option fresh none).enter =
      if fresh.enter.2.isSome then (option fresh (some fresh.enter.1.enter.1), fresh.enter.1.enter.2)
      else (option fresh none, none) := by
  have hsucc : fresh.enter.1.enter = enterTimes 1 fresh := (enterTimes_succ 0 fresh).symm
  rw [hsucc]
  simp only [enter, enterTimes]
  split
  · next hprobe => simp [hprobe]
  · next target hprobe => simp [hprobe]

/-- An optional field with an item enters its item, in place. -/
theorem enter_option_some (fresh item : Slot) :
    (option fresh (some item)).enter = (option fresh (some item.enter.1), item.enter.2) := rfl

/-- A list of lists probes a fresh inner list, which takes an item, and enters the inner list
again, which takes another: the first inner item stays behind as it started. -/
example : (list (list (record []) []) []).enter =
    (list (list (record []) []) [list (record []) [record [], record []]], some (record [])) := by
  rfl

/-! ## Refusals in records -/

section Target

variable {fs : List (Tag × Slot)} {e : Element} {i : Nat} {tag : Tag} {s : Slot}
  (hi : fieldIndex fs e = some i) (hs : fs[i]? = some (tag, s))
include hi hs

/-- A field that refuses a value leaves its record as it was. -/
theorem target_assign_refused {v : Value} {err : Error} (ha : (s.assign v).2 = some err) :
    target.assign (record fs) e v = (record fs, some err) := by
  have hkeep := assign_refused ha
  rw [target_assign_record hi hs (Prod.ext hkeep ha), modifyField_eq_self hs]

/-- A field that cannot hold a master leaves its record as it was, and gives no target. -/
theorem target_enter_refused (he : s.enter.2 = none) : target.enter (record fs) e = (record fs, none) := by
  have hkeep := enter_refused he
  rw [target_enter_record hi hs (Prod.ext hkeep he), modifyField_eq_self hs]

end Target

end Slot

namespace Decoder

section Refusals

variable {τ : Type} (opts : DecodeOptions) (T : Target τ)
  {children : τ → Option Header → DecodeM (τ × Except Error MasterEnd)}
  {master : τ → Extent → DecodeM (τ × Except Error MasterEnd)}
  {skip : τ → Element → Option Nat → Extent → DecodeM (τ × Except Error (Option Header))}

/-- An element whose value the target refuses ends the reading with the refusal, in the context
of the element, and with the target as the refusal left it. -/
theorem readElement_assign_refused {t u t' : τ} {ext : Extent} {d : Decoder} {s' : Source}
    {h : Header} {e : Element} {n p : Nat} {tag : Tag} {v : Value} {err : Error}
    (he : h.element = some e) (hn : h.size = some n) (hp : d.source.position - h.length = p)
    (hover : overruns ext.stop (some (d.source.position + n)) = false)
    (htop : ext.unknownTop = false) (hsel : T.select t e = some (tag, u))
    (hm : e.isMaster = false) (hread : (Payload.read opts e.dataType n).run d.source = (.ok v, s'))
    (hassign : T.assign u e v = (t', some err)) :
    (readElement opts T children master skip t ext h).run d =
      ((t', .error (.context (.assigning e) err)),
        { source := s', records := d.records ++ [⟨e, p, h.length, some n⟩] }) := by
  simp only [readElement, DecodeM.run_bind, DecodeM.run_position, hn, Option.map_some, hover,
    Bool.false_eq_true, if_false, he, htop, Bool.false_and, DecodeM.run_note, hp, hsel, hm,
    Nat.add_sub_cancel_left, DecodeM.run_read, hread, hassign, DecodeM.run_pure]

/-- A master element that the target cannot enter ends the reading, before any of its data is
read, with the target as the refusal left it. -/
theorem readElement_enter_refused {t u u' : τ} {ext : Extent} {d : Decoder} {h : Header}
    {e : Element} {n p : Nat} {tag : Tag} (he : h.element = some e) (hn : h.size = some n)
    (hp : d.source.position - h.length = p)
    (hover : overruns ext.stop (some (d.source.position + n)) = false)
    (htop : ext.unknownTop = false) (hsel : T.select t e = some (tag, u))
    (hm : e.isMaster = true) (henter : T.enter u e = (u', none)) :
    (readElement opts T children master skip t ext h).run d =
      ((u', .error (.incompatibleType .master)),
        { d with records := d.records ++ [⟨e, p, h.length, some n⟩] }) := by
  simp only [readElement, DecodeM.run_bind, DecodeM.run_position, hn, Option.map_some, hover,
    Bool.false_eq_true, if_false, he, htop, Bool.false_and, DecodeM.run_note, hp, hsel, hm,
    if_true, henter, DecodeM.run_pure]

end Refusals

end Decoder

/-- A refused field leaves itself, and its record, as they were. Storing a value that a field
refuses, or entering a master that a field cannot hold, leaves the field as it was, whatever its
kind and however its lists and optional items are nested. Reading into a record an element
whose value the field that takes it refuses, or a master element that this field cannot hold,
ends the reading with the refusal and gives back the record unchanged. -/
theorem refused_field_keeps_record :
    (∀ (s : Slot) (v : Value) (err : Error), (s.assign v).2 = some err → (s.assign v).1 = s) ∧
    (∀ s : Slot, s.enter.2 = none → s.enter.1 = s) ∧
    ∀ (opts : DecodeOptions)
      (children : Slot → Option Header → DecodeM (Slot × Except Error MasterEnd))
      (master : Slot → Extent → DecodeM (Slot × Except Error MasterEnd))
      (skip : Slot → Element → Option Nat → Extent → DecodeM (Slot × Except Error (Option Header)))
      (fs : List (Tag × Slot)) (e : Element) (i : Nat) (tag : Tag) (s : Slot) (ext : Extent)
      (d : Decoder) (h : Header) (n p : Nat),
      Slot.fieldIndex fs e = some i → fs[i]? = some (tag, s) → h.element = some e →
      h.size = some n → d.source.position - h.length = p →
      Decoder.overruns ext.stop (some (d.source.position + n)) = false →
      ext.unknownTop = false →
      (∀ v s' err, e.isMaster = false →
        (Payload.read opts e.dataType n).run d.source = (.ok v, s') → (s.assign v).2 = some err →
        (Decoder.readElement opts Slot.target children master skip (.record fs) ext h).run d =
          ((.record fs, .error (.context (.assigning e) err)),
            { source := s', records := d.records ++ [⟨e, p, h.length, some n⟩] })) ∧
      (e.isMaster = true → s.enter.2 = none →
        (Decoder.readElement opts Slot.target children master skip (.record fs) ext h).run d =
          ((.record fs, .error (.incompatibleType .master)),
            { d with records := d.records ++ [⟨e, p, h.length, some n⟩] })) := by
  refine ⟨fun s v err ha => Slot.assign_refused ha, fun s he => Slot.enter_refused he, ?_⟩
  intro opts children master skip fs e i tag s ext d h n p hi hs he hn hp hover htop
  have hsel := Slot.target_select_record hi hs
  refine ⟨fun v s' err hm hread ha => ?_, fun hm henter => ?_⟩
  · exact Decoder.readElement_assign_refused opts Slot.target he hn hp hover htop hsel hm hread
      (Slot.target_assign_refused hi hs ha)
  · exact Decoder.readElement_enter_refused opts Slot.target he hn hp hover htop hsel hm
      (Slot.target_enter_refused hi hs henter)

/-- A list of lists of texts refuses the number 3 and keeps its item, and a record holding it
reads a track number of 3 into nothing: the reading stops with the refusal and the record as it
was. -/
theorem text_list_refuses_number :
    ((Slot.list (.list (.text "") []) [.list (.text "") [.text "a", .text "b"]]).assign (.uint 3)).1 =
      .list (.list (.text "") []) [.list (.text "") [.text "a", .text "b"]] ∧
    (Decoder.readChildren {} Slot.target 1
        (.record [(Tag.plain .trackNumber, .list (.list (.text "") []) [.list (.text "") [.text "a", .text "b"]])])
        ⟨none, false, 0⟩ (some ⟨215, some .trackNumber, some 1, 2⟩)).run
        { source := { ahead := [3], position := 2 } } =
      ((.record [(Tag.plain .trackNumber, .list (.list (.text "") []) [.list (.text "") [.text "a", .text "b"]])],
          .error (.context (.assigning .trackNumber) (.incompatibleType .uint))),
        { source := { ahead := [], position := 3 }, records := [⟨.trackNumber, 0, 2, some 1⟩] }) := by
  refine ⟨refused_field_keeps_record.1 _ (.uint 3) (.incompatibleType .uint) rfl, ?_⟩
  rw [Decoder.readChildren_pending {} Slot.target rfl]
  exact (refused_field_keeps_record.2.2 {} _ _ _ _ .trackNumber 0 _ _ _ _ _ 1 0 rfl rfl rfl rfl rfl
    rfl rfl).1 _ _ (.incompatibleType .uint) rfl rfl rfl

end Ebml
