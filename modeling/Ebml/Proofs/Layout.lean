import Ebml.Proofs.Encoding

/-!
# The layout of an encoding

What the encoder writes for a document, read part by part. An output counts the octets it has
written; the records it keeps name only the elements of the fields written into it. A document
written from the start is its first field written alone and then the rest written alone, and a
master written alone is its header and then its children. These let a proof about a whole
stream header read off where each of its elements starts.
-/

namespace Ebml

namespace Output

/-- The count of octets written matches the octets. -/
def Sized (o : Output) : Prop := o.length = o.bytes.length

theorem sized_empty : Sized {} := rfl

theorem Sized.emit {o : Output} (h : o.Sized) (chunk : Bytes) : (o.emit chunk).Sized := by
  unfold Sized at h ⊢
  unfold Output.emit
  split
  · exact h
  · simp [bytes, h]

theorem Sized.emitEach {o : Output} (h : o.Sized) (bs : Bytes) : (o.emitEach bs).Sized := by
  induction bs generalizing o with
  | nil => exact h
  | cons b bs ih => exact ih (h.emit [b])

theorem Sized.note {o : Output} (h : o.Sized) (r : Record) : (o.note r).Sized := h

@[simp] theorem records_emit (o : Output) (chunk : Bytes) : (o.emit chunk).records = o.records := by
  unfold emit
  split <;> rfl

@[simp] theorem records_emitEach (o : Output) (bs : Bytes) : (o.emitEach bs).records = o.records := by
  induction bs generalizing o with
  | nil => rfl
  | cons b bs ih => exact (ih (o.emit [b])).trans (records_emit o [b])

theorem mem_records_note {o : Output} {rec r : Record} :
    r ∈ (o.note rec).records ↔ r ∈ o.records ∨ r = rec := by
  simp [note]

theorem Sized.withRecords {o : Output} (h : o.Sized) (rs : List Record) :
    ({ o with records := rs } : Output).Sized := h

theorem Sized.append {o o' : Output} (h : o.Sized) (h' : o'.Sized) : (o.append o').Sized := by
  simp only [Sized, length_append, bytes_append, List.length_append] at h h' ⊢
  omega

@[simp] theorem records_append (o o' : Output) :
    (o.append o').records = o.records ++ o'.records.map (Record.shift o.length) := rfl

end Output

theorem Record.map_shift_shift (a b : Nat) (rs : List Record) :
    (rs.map (Record.shift b)).map (Record.shift a) = rs.map (Record.shift (a + b)) := by
  simp [List.map_map, Function.comp_def]

namespace Marshal

theorem header_sized (opts : MarshalOptions) (e : Element) (size : Option Nat) {o : Output}
    (h : o.Sized) : (header opts e size o).1.Sized := by
  unfold header
  split
  · exact h
  · dsimp only
    split
    · exact h.emit _
    · exact (h.emit _).emitEach _

mutual
theorem field_sized (opts : MarshalOptions) (depth : Nat) (tag : Tag) :
    ∀ (v : View) {o : Output}, o.Sized → (field opts depth tag v o).1.Sized
  | .absent z, o, h => by
    unfold field
    split <;> exact h
  | .repeated items z, o, h => by
    unfold field
    dsimp only
    split
    · exact h
    · exact repeated_sized opts depth tag items h
  | .master children z, o, h => by
    unfold field
    dsimp only
    split
    · exact h
    split
    · exact h
    split
    · have hh := header_sized opts tag.element none h
      rcases hr : header opts tag.element none o with ⟨hd, _ | err⟩
      · rw [hr] at hh
        dsimp only
        split
        · exact hh.note _
        · exact fields_sized opts (depth + 1) children (hh.note _)
      · rw [hr] at hh
        exact hh
    split
    · exact h
    have hi := fields_sized opts (depth + 1) children Output.sized_empty
    rcases hr : fields opts (depth + 1) children {} with ⟨inner, _ | err⟩
    · rw [hr] at hi
      dsimp only
      split
      · exact h
      have hh := header_sized opts tag.element (some inner.bytes.length) h
      rcases hr' : header opts tag.element (some inner.bytes.length) o with ⟨hd, _ | err⟩
      · rw [hr'] at hh
        exact ((hh.note _).withRecords _).emit _
      · rw [hr'] at hh
        exact hh
    · exact h
  | .scalar value z, o, h => by
    unfold field
    dsimp only
    split
    · exact h
    split
    · exact h
    rcases Payload.encode tag.element value tag.size with err | data
    · exact h
    · have hh := header_sized opts tag.element (some data.length) h
      dsimp only
      rcases hr : header opts tag.element (some data.length) o with ⟨hd, _ | err⟩
      · rw [hr] at hh
        exact (hh.note _).emit _
      · rw [hr] at hh
        exact hh

theorem fields_sized (opts : MarshalOptions) (depth : Nat) :
    ∀ (fs : List (Tag × View)) {o : Output}, o.Sized → (fields opts depth fs o).1.Sized
  | [], o, h => h
  | (tag, v) :: rest, o, h => by
    simp only [fields]
    have hw := field_sized opts depth tag v h
    rcases hr : field opts depth tag v o with ⟨w, _ | err⟩
    · rw [hr] at hw
      exact fields_sized opts depth rest hw
    · rw [hr] at hw
      exact hw

theorem repeated_sized (opts : MarshalOptions) (depth : Nat) (tag : Tag) :
    ∀ (items : List View) {o : Output}, o.Sized → (repeated opts depth tag items o).1.Sized
  | [], o, h => h
  | v :: vs, o, h => by
    simp only [repeated]
    have hw := field_sized opts depth tag v h
    rcases hr : field opts depth tag v o with ⟨w, _ | err⟩
    · rw [hr] at hw
      exact repeated_sized opts depth tag vs hw
    · rw [hr] at hw
      exact hw
end


theorem header_records (opts : MarshalOptions) (e : Element) (size : Option Nat) (o : Output) :
    (header opts e size o).1.records = o.records := by
  unfold header
  split
  · rfl
  · dsimp only
    split
    · exact Output.records_emit o _
    · rw [Output.records_emitEach, Output.records_emit]

/-- Whatever a header ends with, the records are those it was given. -/
theorem records_of_header {opts : MarshalOptions} {e : Element} {size : Option Nat}
    {o hd : Output} {x : Option Error} (hh : header opts e size o = (hd, x)) :
    hd.records = o.records := by
  rw [← header_records opts e size o, hh]

/-- The record noted after a header is the only one it adds, and it names the header's
element. -/
theorem mem_records_noted {opts : MarshalOptions} {e : Element} {size : Option Nat}
    {o hd : Output} {x : Option Error} (hh : header opts e size o = (hd, x))
    {start len : Nat} {n : Option Nat} {r : Record} (hr : r ∈ (hd.note ⟨e, start, len, n⟩).records) :
    r ∈ o.records ∨ r.element = e := by
  rw [Output.mem_records_note, records_of_header hh] at hr
  rcases hr with hr | rfl
  · exact .inl hr
  · exact .inr rfl

end Marshal

namespace View

mutual
/-- The elements of the tags inside a view, at any depth. -/
def elements : View → List Element
  | master fs _ => fieldElements fs
  | repeated items _ => itemElements items
  | _ => []

/-- The elements of a list of fields: each field's own, then those inside it. -/
def fieldElements : List (Tag × View) → List Element
  | [] => []
  | (tag, v) :: rest => tag.element :: (v.elements ++ fieldElements rest)

/-- The elements inside the items of a repeated field. -/
def itemElements : List View → List Element
  | [] => []
  | v :: rest => v.elements ++ itemElements rest
end

end View

namespace Marshal

mutual
theorem mem_records_field (opts : MarshalOptions) (depth : Nat) (tag : Tag) :
    ∀ (v : View) (o : Output) (r : Record), r ∈ (field opts depth tag v o).1.records →
      r ∈ o.records ∨ r.element = tag.element ∨ r.element ∈ v.elements
  | .absent z, o, r, hr => by
    unfold field at hr
    left
    split at hr <;> exact hr
  | .repeated items z, o, r, hr => by
    unfold field at hr
    dsimp only at hr
    split at hr
    · exact .inl hr
    · exact mem_records_repeated opts depth tag items o r hr
  | .master children z, o, r, hr => by
    unfold field at hr
    dsimp only at hr
    split at hr
    · exact .inl hr
    split at hr
    · exact .inl hr
    split at hr
    · -- streamed: its own record after the header, then the children's
      rcases hh : header opts tag.element none o with ⟨hd, _ | err⟩
      · rw [hh] at hr
        dsimp only at hr
        split at hr
        · exact (mem_records_noted hh hr).imp_right .inl
        · rcases mem_records_fields opts (depth + 1) children _ r hr with hr | hr
          · exact (mem_records_noted hh hr).imp_right .inl
          · exact .inr (.inr hr)
      · rw [hh] at hr
        exact .inl (records_of_header hh ▸ hr)
    split at hr
    · exact .inl hr
    rcases hi : fields opts (depth + 1) children {} with ⟨inner, _ | err⟩
    · rw [hi] at hr
      dsimp only at hr
      split at hr
      · exact .inl hr
      rcases hh : header opts tag.element (some inner.bytes.length) o with ⟨hd, _ | err⟩
      · rw [hh] at hr
        dsimp only at hr
        rw [Output.records_emit, List.mem_append] at hr
        rcases hr with hr | hr
        · exact (mem_records_noted hh hr).imp_right .inl
        · obtain ⟨r', hr', rfl⟩ := List.mem_map.mp hr
          have hinner := mem_records_fields opts (depth + 1) children {} r'
          rw [hi] at hinner
          rcases hinner hr' with hr' | hr'
          · cases hr'
          · exact .inr (.inr hr')
      · rw [hh] at hr
        exact .inl (records_of_header hh ▸ hr)
    · rw [hi] at hr
      exact .inl hr
  | .scalar value z, o, r, hr => by
    unfold field at hr
    dsimp only at hr
    split at hr
    · exact .inl hr
    split at hr
    · exact .inl hr
    rcases hp : Payload.encode tag.element value tag.size with err | data
    · rw [hp] at hr
      exact .inl hr
    · rw [hp] at hr
      dsimp only at hr
      rcases hh : header opts tag.element (some data.length) o with ⟨hd, _ | err⟩
      · rw [hh] at hr
        dsimp only at hr
        rw [Output.records_emit] at hr
        exact (mem_records_noted hh hr).imp_right .inl
      · rw [hh] at hr
        exact .inl (records_of_header hh ▸ hr)

theorem mem_records_fields (opts : MarshalOptions) (depth : Nat) :
    ∀ (fs : List (Tag × View)) (o : Output) (r : Record), r ∈ (fields opts depth fs o).1.records →
      r ∈ o.records ∨ r.element ∈ View.fieldElements fs
  | [], o, r, hr => .inl hr
  | (tag, v) :: rest, o, r, hr => by
    simp only [fields] at hr
    have hfirst : ∀ r, r ∈ (field opts depth tag v o).1.records →
        r ∈ o.records ∨ r.element ∈ View.fieldElements ((tag, v) :: rest) := by
      intro r hr
      rcases mem_records_field opts depth tag v o r hr with hr | hr | hr
      · exact .inl hr
      · exact .inr (by simp [View.fieldElements, hr])
      · exact .inr (by simp [View.fieldElements, hr])
    rcases hw : field opts depth tag v o with ⟨w, _ | err⟩
    · rw [hw] at hr hfirst
      rcases mem_records_fields opts depth rest w r hr with hr | hr
      · exact hfirst r hr
      · exact .inr (by simp [View.fieldElements, hr])
    · rw [hw] at hr hfirst
      exact hfirst r hr

theorem mem_records_repeated (opts : MarshalOptions) (depth : Nat) (tag : Tag) :
    ∀ (items : List View) (o : Output) (r : Record), r ∈ (repeated opts depth tag items o).1.records →
      r ∈ o.records ∨ r.element = tag.element ∨ r.element ∈ View.itemElements items
  | [], o, r, hr => .inl hr
  | v :: vs, o, r, hr => by
    simp only [repeated] at hr
    have hfirst : ∀ r, r ∈ (field opts depth tag v o).1.records →
        r ∈ o.records ∨ r.element = tag.element ∨ r.element ∈ View.itemElements (v :: vs) := by
      intro r hr
      rcases mem_records_field opts depth tag v o r hr with hr | hr | hr
      · exact .inl hr
      · exact .inr (.inl hr)
      · exact .inr (.inr (by simp [View.itemElements, hr]))
    rcases hw : field opts depth tag v o with ⟨w, _ | err⟩
    · rw [hw] at hr hfirst
      rcases mem_records_repeated opts depth tag vs w r hr with hr | hr | hr
      · exact hfirst r hr
      · exact .inr (.inl hr)
      · exact .inr (.inr (by simp [View.itemElements, hr]))
    · rw [hw] at hr hfirst
      exact hfirst r hr
end


/-- Fields written one after another, when the first and the rest are each written alone. -/
theorem fields_cons_of {opts : MarshalOptions} {depth : Nat} {tag : Tag} {v : View}
    {rest : List (Tag × View)} {w o' : Output} (hw : field opts depth tag v {} = (w, none))
    (hr : fields opts depth rest {} = (o', none)) :
    fields opts depth ((tag, v) :: rest) {} = (w.append o', none) := by
  have hrest := fields_append opts depth rest w {}
  rw [Output.append_empty] at hrest
  simp only [fields, hw, hrest, hr]

/-- Two lists of fields written one after the other write the octets of each. -/
theorem fields_append_of {opts : MarshalOptions} {depth : Nat} {ys : List (Tag × View)}
    {o' : Output} (hys : fields opts depth ys {} = (o', none)) :
    ∀ {xs : List (Tag × View)} {o : Output}, fields opts depth xs {} = (o, none) →
      ∃ o'', fields opts depth (xs ++ ys) {} = (o'', none) ∧ o''.bytes = o.bytes ++ o'.bytes
  | [], o, h => by
    obtain ⟨rfl, -⟩ := Prod.mk.inj h
    exact ⟨o', hys, rfl⟩
  | (tag, v) :: xs, o, h => by
    obtain ⟨w, oxs, hw, hxs, rfl⟩ := fields_cons_eq h
    obtain ⟨o₁, h₁, hb₁⟩ := fields_append_of hys hxs
    refine ⟨w.append o₁, fields_cons_of hw h₁, ?_⟩
    rw [Output.bytes_append, Output.bytes_append, hb₁, List.append_assoc]

/-- A scalar not left out as zero is written as its header and its payload. -/
theorem field_scalar_of {opts : MarshalOptions} {depth : Nat} {tag : Tag} {v : Value} {z : Bool}
    {data : Bytes} {hd : Output} (homit : (tag.omitEmpty && z) = false)
    (hm : tag.element.isMaster = false) (hp : Payload.encode tag.element v tag.size = .ok data)
    (hh : header opts tag.element (some data.length) {} = (hd, none)) :
    ∃ w, field opts depth tag (.scalar v z) {} = (w, none) ∧ w.bytes = hd.bytes ++ data := by
  unfold field
  simp only [View.zero, homit, hm, hp, hh, Bool.false_eq_true, if_false]
  exact ⟨_, rfl, by rw [Output.bytes_emit, Output.bytes_note]⟩

/-- A master under its element's plain tag is written as its header and its children. -/
theorem field_master_of {opts : MarshalOptions} {depth : Nat} {e : Element}
    {fs : List (Tag × View)} {z : Bool} {inner hd : Output} (hm : e.isMaster = true)
    (hdepth : depth + 1 ≤ maxDepth) (hinner : fields opts (depth + 1) fs {} = (inner, none))
    (hh : header opts e (some inner.bytes.length) {} = (hd, none)) :
    ∃ w, field opts depth (Tag.plain e) (.master fs z) {} = (w, none) ∧
      w.bytes = hd.bytes ++ inner.bytes := by
  unfold field
  simp only [Tag.plain, Bool.false_and, Bool.false_eq_true, if_false, hm, Bool.not_true,
    reduceCtorEq, Nat.not_lt.mpr hdepth, hinner, hh, bne_self_eq_false]
  exact ⟨_, rfl, by rw [Output.bytes_emit]; rfl⟩

/-- Items written from the start: the first item alone, then the rest alone, after it. -/
theorem repeated_cons_eq {opts : MarshalOptions} {depth : Nat} {tag : Tag} {v : View}
    {vs : List View} {o : Output} (h : repeated opts depth tag (v :: vs) {} = (o, none)) :
    ∃ w o', field opts depth tag v {} = (w, none) ∧ repeated opts depth tag vs {} = (o', none) ∧
      o = w.append o' := by
  simp only [repeated] at h
  rcases hw : field opts depth tag v {} with ⟨w, _ | err⟩
  · rw [hw] at h
    dsimp only at h
    have hrest := repeated_append opts depth tag vs w {}
    rw [Output.append_empty] at hrest
    rw [hrest] at h
    rcases hr : repeated opts depth tag vs {} with ⟨o', _ | err⟩
    · rw [hr] at h
      exact ⟨w, o', rfl, rfl, (Prod.mk.inj h).1.symm⟩
    · rw [hr] at h
      cases h
  · rw [hw] at h
    cases h

/-- A streamed master written alone: its header with the unknown size, its record, then its
children as they are written alone. -/
theorem field_unknown_eq {opts : MarshalOptions} {depth : Nat} {e : Element} {stop : Bool}
    {children : List (Tag × View)} {z : Bool} {w : Output}
    (h : field opts depth { element := e, size := .unknown, stop } (.master children z) {} = (w, none)) :
    ∃ hd inner, header opts e none {} = (hd, none) ∧ fields opts (depth + 1) children {} = (inner, none) ∧
      w = (hd.note ⟨e, 0, hd.length, none⟩).append inner := by
  unfold field at h
  simp only [Bool.false_and, Bool.false_eq_true, if_false, if_true] at h
  split at h
  · cases h
  rcases hh : header opts e none {} with ⟨hd, _ | err⟩
  · rw [hh] at h
    dsimp only at h
    split at h
    · cases h
    have hf := fields_append opts (depth + 1) children
      (hd.note ⟨e, 0, hd.length - 0, none⟩) {}
    rw [Output.append_empty] at hf
    rw [hf] at h
    rcases hi : fields opts (depth + 1) children {} with ⟨inner, _ | err⟩
    · rw [hi] at h
      exact ⟨hd, inner, rfl, rfl, (Prod.mk.inj h).1.symm⟩
    · rw [hi] at h
      cases h
  · rw [hh] at h
    cases h


/-- A master with a known size written alone: its header, then its children's octets; its
record, then theirs, moved past the header. -/
theorem field_master_eq {opts : MarshalOptions} {depth : Nat} {e : Element}
    {fs : List (Tag × View)} {z : Bool} {w : Output}
    (h : field opts depth (Tag.plain e) (.master fs z) {} = (w, none)) :
    ∃ hd inner, fields opts (depth + 1) fs {} = (inner, none) ∧
      header opts e (some inner.bytes.length) {} = (hd, none) ∧ w.bytes = hd.bytes ++ inner.bytes ∧
      w.records = ⟨e, 0, hd.length, some inner.bytes.length⟩ ::
        inner.records.map (Record.shift hd.length) := by
  obtain ⟨-, -, inner, hd, hi, hh, rfl⟩ := field_master_inv h
  have hrec : hd.records = [] := records_of_header hh
  refine ⟨hd, inner, hi, hh, ?_, ?_⟩
  · rewrite [Output.bytes_emit]
    rfl
  · simp [hrec]

/-- A master with a known size written alone starts with its identifier. -/
theorem field_master_starts_with_id {opts : MarshalOptions} {depth : Nat} {e : Element}
    {fs : List (Tag × View)} {z : Bool} {w : Output}
    (h : field opts depth (Tag.plain e) (.master fs z) {} = (w, none)) : e.idBytes <+: w.bytes := by
  obtain ⟨hd, inner, -, hh, hw, -⟩ := field_master_eq h
  obtain ⟨sz, -, hb⟩ := header_ok hh
  rw [hw, hb, List.append_assoc]
  exact List.prefix_append _ _

/-- A document written with no error encodes to the octets and records written. -/
theorem encode_of_run {opts : MarshalOptions} {doc : List (Tag × View)} {o : Output}
    (h : run opts doc = (o, none)) : encode opts doc = .ok (o.bytes, o.records) := by
  rw [encode, h]

/-- A document that encodes completely is written with no error, and gives its octets and
records. -/
theorem encode_eq_ok {opts : MarshalOptions} {doc : List (Tag × View)} {bytes : Bytes}
    {records : List Record} (h : encode opts doc = .ok (bytes, records)) :
    ∃ o, run opts doc = (o, none) ∧ o.bytes = bytes ∧ o.records = records := by
  unfold encode at h
  rcases hr : run opts doc with ⟨o, _ | err⟩
  · rw [hr] at h
    simp only [Except.ok.injEq, Prod.mk.injEq] at h
    exact ⟨o, rfl, h.1, h.2⟩
  · rw [hr] at h
    cases h

end Marshal
end Ebml
