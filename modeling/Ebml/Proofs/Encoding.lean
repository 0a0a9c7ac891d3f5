import Ebml.Marshal
import Ebml.Proofs.Vint

/-!
# Writing appends

What a field writes does not depend on what was written before it: written after some output,
its calls follow that output's, its records move past that output's octets, and its error is the
same. From this the octets of a list of fields are the octets of each field written alone, one
after another, and the octets of a field under its element's plain tag are its header followed by
its data: the value's payload for a scalar, the children's octets for a master.
-/

namespace Ebml

@[simp] theorem Record.shift_shift (a b : Nat) (r : Record) :
    (r.shift b).shift a = r.shift (a + b) := by
  simp only [Record.shift, Nat.add_comm a b, Nat.add_assoc]

namespace Output

/-- Output written after `o`: its calls follow those of `o`, and its records move past the
octets of `o`. -/
def append (o o' : Output) : Output where
  calls := o.calls ++ o'.calls
  length := o.length + o'.length
  records := o.records ++ o'.records.map (Record.shift o.length)

@[simp] theorem append_empty (o : Output) : o.append {} = o := by
  simp [append]

@[simp] theorem length_append (o o' : Output) : (o.append o').length = o.length + o'.length := rfl

@[simp] theorem bytes_append (o o' : Output) : (o.append o').bytes = o.bytes ++ o'.bytes := by
  simp [append, bytes]

theorem append_emit (o o' : Output) (chunk : Bytes) :
    (o.append o').emit chunk = o.append (o'.emit chunk) := by
  unfold emit
  split <;> simp [append, Nat.add_assoc]

theorem append_emitEach (o o' : Output) (bs : Bytes) :
    (o.append o').emitEach bs = o.append (o'.emitEach bs) := by
  induction bs generalizing o' with
  | nil => rfl
  | cons b bs ih =>
    simp only [emitEach, List.foldl_cons] at ih ⊢
    rw [append_emit, ih]

theorem append_note (o o' : Output) (r : Record) :
    (o.append o').note (r.shift o.length) = o.append (o'.note r) := by
  simp [append, note]

/-- The record of an element whose header starts where `o'` ends, written after `o`. -/
theorem append_noteHeader (o o' h : Output) (e : Element) (size : Option Nat) :
    (o.append h).note ⟨e, (o.append o').length, (o.append h).length - (o.append o').length, size⟩ =
      o.append (h.note ⟨e, o'.length, h.length - o'.length, size⟩) := by
  rw [← append_note]
  congr 1
  simp only [length_append, Record.shift, Record.mk.injEq, true_and, and_true]
  omega

/-- Records of children written at an offset into the output, after `o`. -/
theorem append_records (o x : Output) (rs : List Record) (d : Nat) :
    ({ calls := (o.append x).calls, length := (o.append x).length,
       records := (o.append x).records ++ rs.map (Record.shift (o.length + d)) } : Output) =
      o.append { calls := x.calls, length := x.length,
                 records := x.records ++ rs.map (Record.shift d) } := by
  simp [append, List.map_map, Function.comp_def, Nat.add_comm]

@[simp] theorem bytes_emit (o : Output) (chunk : Bytes) : (o.emit chunk).bytes = o.bytes ++ chunk := by
  unfold emit
  split
  · rename_i h
    simp [List.isEmpty_iff.mp h]
  · simp [bytes]

@[simp] theorem bytes_emitEach (o : Output) (bs : Bytes) : (o.emitEach bs).bytes = o.bytes ++ bs := by
  induction bs generalizing o with
  | nil => simp [emitEach]
  | cons b bs ih =>
    simp only [emitEach, List.foldl_cons] at ih ⊢
    rw [ih, bytes_emit, List.append_assoc]
    rfl

@[simp] theorem bytes_note (o : Output) (r : Record) : (o.note r).bytes = o.bytes := rfl

end Output

namespace Marshal

/-- A header is written the same after any output. -/
theorem header_append (opts : MarshalOptions) (e : Element) (size : Option Nat) (o o' : Output) :
    header opts e size (o.append o') = (o.append (header opts e size o').1, (header opts e size o').2) := by
  unfold header
  split
  · rfl
  · cases size with
    | none =>
      cases Vint.encode none (some opts.maxSizeLength) opts.maxSizeLength <;>
        simp [Output.append_emit, Output.append_emitEach]
    | some n =>
      cases h : Vint.encode (some n) opts.sizeLength opts.maxSizeLength <;>
        simp [h, Output.append_emit, Output.append_emitEach]

mutual
/-- Encoding a field appends to whatever was written before: the calls, records and error of a
field do not depend on the output it follows, and its records move past that output. -/
theorem field_append (opts : MarshalOptions) (depth : Nat) (tag : Tag) :
    ∀ (v : View) (o o' : Output), field opts depth tag v (o.append o') =
      (o.append (field opts depth tag v o').1, (field opts depth tag v o').2)
  | .absent z, o, o' => by
    unfold field
    split <;> rfl
  | .repeated items z, o, o' => by
    unfold field
    dsimp only
    split
    · rfl
    · exact repeated_append opts depth tag items o o'
  | .master children z, o, o' => by
    unfold field
    dsimp only
    split
    · rfl
    split
    · rfl
    split
    · -- streamed: the header, then the children after it
      rw [header_append]
      rcases header opts tag.element none o' with ⟨h, _ | err⟩
      · dsimp only
        rw [Output.append_noteHeader]
        split
        · rfl
        · exact fields_append opts (depth + 1) children o _
      · rfl
    split
    · rfl
    rcases fields opts (depth + 1) children {} with ⟨inner, _ | err⟩
    · dsimp only
      split
      · rfl
      rw [header_append]
      rcases header opts tag.element (some inner.bytes.length) o' with ⟨h, _ | err⟩
      · dsimp only
        rw [Output.append_noteHeader, Output.length_append o h, Output.append_records,
          Output.append_emit]
      · rfl
    · rfl
  | .scalar value z, o, o' => by
    unfold field
    dsimp only
    split
    · rfl
    split
    · rfl
    rcases Payload.encode tag.element value tag.size with err | data
    · rfl
    · dsimp only
      rw [header_append]
      rcases header opts tag.element (some data.length) o' with ⟨h, _ | err⟩
      · dsimp only
        rw [Output.append_noteHeader, Output.append_emit]
      · rfl

theorem fields_append (opts : MarshalOptions) (depth : Nat) :
    ∀ (fs : List (Tag × View)) (o o' : Output), fields opts depth fs (o.append o') =
      (o.append (fields opts depth fs o').1, (fields opts depth fs o').2)
  | [], o, o' => rfl
  | (tag, v) :: rest, o, o' => by
    simp only [fields]
    rw [field_append opts depth tag v o o']
    rcases field opts depth tag v o' with ⟨w, _ | err⟩
    · exact fields_append opts depth rest o w
    · rfl

theorem repeated_append (opts : MarshalOptions) (depth : Nat) (tag : Tag) :
    ∀ (items : List View) (o o' : Output), repeated opts depth tag items (o.append o') =
      (o.append (repeated opts depth tag items o').1, (repeated opts depth tag items o').2)
  | [], o, o' => rfl
  | v :: vs, o, o' => by
    simp only [repeated]
    rw [field_append opts depth tag v o o']
    rcases field opts depth tag v o' with ⟨w, _ | err⟩
    · exact repeated_append opts depth tag vs o w
    · rfl
end

/-- Fields written from the start: the first field alone, then the rest alone, after it. -/
theorem fields_cons_eq {opts : MarshalOptions} {depth : Nat} {tag : Tag} {v : View}
    {rest : List (Tag × View)} {o : Output} (h : fields opts depth ((tag, v) :: rest) {} = (o, none)) :
    ∃ w o', field opts depth tag v {} = (w, none) ∧ fields opts depth rest {} = (o', none) ∧
      o = w.append o' := by
  simp only [fields] at h
  rcases hw : field opts depth tag v {} with ⟨w, _ | err⟩
  · rw [hw] at h
    dsimp only at h
    have hrest := fields_append opts depth rest w {}
    rw [Output.append_empty] at hrest
    rw [hrest] at h
    rcases hr : fields opts depth rest {} with ⟨o', _ | err⟩
    · rw [hr] at h
      exact ⟨w, o', rfl, rfl, (Prod.mk.inj h).1.symm⟩
    · rw [hr] at h
      cases h
  · rw [hw] at h
    cases h

/-- Fields are written one after another, each as it would be alone. -/
theorem fields_cons_ok {opts : MarshalOptions} {depth : Nat} {tag : Tag} {v : View}
    {rest : List (Tag × View)} {o : Output} (h : fields opts depth ((tag, v) :: rest) {} = (o, none)) :
    ∃ w, field opts depth tag v {} = (w, none) ∧ ∃ o', fields opts depth rest {} = (o', none) ∧
      o.bytes = w.bytes ++ o'.bytes := by
  obtain ⟨w, o', hw, hr, rfl⟩ := fields_cons_eq h
  exact ⟨w, hw, o', hr, Output.bytes_append w o'⟩

/-- A header is the identifier's octets and then the size's. -/
theorem header_ok {opts : MarshalOptions} {e : Element} {n : Nat} {h : Output}
    (hh : header opts e (some n) {} = (h, none)) :
    ∃ sz, Vint.encode (some n) opts.sizeLength opts.maxSizeLength = .ok sz ∧
      h.bytes = e.idBytes ++ sz := by
  unfold header at hh
  split at hh
  · simp at hh
  · rename_i id hid
    have hid' : id = e.idBytes := by
      unfold Vint.encodeId at hid
      split at hid
      · cases hid
      · cases hid
        rfl
    cases hsz : Vint.encode (some n) opts.sizeLength opts.maxSizeLength with
    | error err => simp [hsz] at hh
    | ok sz =>
      simp only [hsz, Prod.mk.injEq] at hh
      refine ⟨sz, rfl, ?_⟩
      rw [← hh.1, Output.bytes_emitEach, Output.bytes_emit, hid']
      rfl

/-- A scalar written alone, and not left out as zero: its header, then its payload. -/
theorem field_scalar_eq {opts : MarshalOptions} {depth : Nat} {tag : Tag} {v : Value}
    {z : Bool} {w : Output} (homit : (tag.omitEmpty && z) = false)
    (h : field opts depth tag (.scalar v z) {} = (w, none)) :
    ∃ data hd, Payload.encode tag.element v tag.size = .ok data ∧
      header opts tag.element (some data.length) {} = (hd, none) ∧ w.bytes = hd.bytes ++ data := by
  unfold field at h
  simp only [View.zero, homit, Bool.false_eq_true, if_false] at h
  split at h
  · cases h
  rcases hp : Payload.encode tag.element v tag.size with err | data
  · rw [hp] at h
    cases h
  · rw [hp] at h
    dsimp only at h
    rcases hh : header opts tag.element (some data.length) {} with ⟨hd, _ | err⟩
    · rw [hh] at h
      refine ⟨data, hd, rfl, hh, ?_⟩
      rw [← (Prod.mk.inj h).1, Output.bytes_emit, Output.bytes_note]
    · rw [hh] at h
      cases h

/-- A scalar field written under its element alone: header, then data. -/
theorem field_scalar_ok {opts : MarshalOptions} {depth : Nat} {e : Element} {v : Value}
    {z : Bool} {w : Output} (h : field opts depth (Tag.plain e) (.scalar v z) {} = (w, none)) :
    ∃ data sz, Payload.encode e v .natural = .ok data ∧
      Vint.encode (some data.length) opts.sizeLength opts.maxSizeLength = .ok sz ∧
      w.bytes = e.idBytes ++ sz ++ data := by
  obtain ⟨data, hd, hp, hh, hw⟩ := field_scalar_eq rfl h
  obtain ⟨sz, hsz, hbytes⟩ := header_ok hh
  exact ⟨data, sz, hp, hsz, by rewrite [hw, hbytes]; rfl⟩

/-- A master under its element's plain tag written alone, said once: the element is a master
within the nesting limit, its children and then its header were written alone, and the output
is the header with the master's record, the children's records moved past the header, and then
the children's octets. -/
theorem field_master_inv {opts : MarshalOptions} {depth : Nat} {e : Element}
    {fs : List (Tag × View)} {z : Bool} {w : Output}
    (h : field opts depth (Tag.plain e) (.master fs z) {} = (w, none)) :
    e.isMaster = true ∧ depth + 1 ≤ maxDepth ∧ ∃ inner hd,
      fields opts (depth + 1) fs {} = (inner, none) ∧
      header opts e (some inner.bytes.length) {} = (hd, none) ∧
      w = ({ hd with records := hd.records ++ [⟨e, 0, hd.length, some inner.bytes.length⟩] ++
        inner.records.map (Record.shift hd.length) } : Output).emit inner.bytes := by
  unfold field at h
  simp only [Tag.plain, Bool.false_and, Bool.false_eq_true, if_false] at h
  cases hm : e.isMaster
  · simp only [hm, Bool.not_false, if_true] at h
    cases h
  simp only [hm, Bool.not_true, Bool.false_eq_true, if_false, reduceCtorEq] at h
  by_cases hd : depth + 1 > maxDepth
  · simp only [hd, if_true] at h
    cases h
  simp only [hd, if_false] at h
  rcases hi : fields opts (depth + 1) fs {} with ⟨inner, _ | err⟩
  · rw [hi] at h
    simp only [bne_self_eq_false, Bool.false_and, Bool.false_eq_true, if_false] at h
    rcases hh : header opts e (some inner.bytes.length) {} with ⟨hd', _ | err⟩
    · rw [hh] at h
      exact ⟨rfl, by omega, inner, hd', rfl, hh, (Prod.mk.inj h).1.symm⟩
    · rw [hh] at h
      cases h
  · rw [hi] at h
    cases h

/-- A master field written under its element alone: header, then the children's octets. -/
theorem field_master_ok {opts : MarshalOptions} {depth : Nat} {e : Element}
    {fs : List (Tag × View)} {z : Bool} {w : Output}
    (h : field opts depth (Tag.plain e) (.master fs z) {} = (w, none)) :
    e.isMaster = true ∧ depth + 1 ≤ maxDepth ∧ ∃ inner sz, fields opts (depth + 1) fs {} = (inner, none) ∧
      Vint.encode (some inner.bytes.length) opts.sizeLength opts.maxSizeLength = .ok sz ∧
      w.bytes = e.idBytes ++ sz ++ inner.bytes := by
  obtain ⟨hm, hdepth, inner, hd, hi, hh, rfl⟩ := field_master_inv h
  obtain ⟨sz, hsz, hbytes⟩ := header_ok hh
  refine ⟨hm, hdepth, inner, sz, hi, hsz, ?_⟩
  rewrite [Output.bytes_emit, ← hbytes]
  rfl

/-- A field under its element's plain tag writes at least the element's identifier. -/
theorem field_plain_length_pos {opts : MarshalOptions} {depth : Nat} {e : Element} {v : Value}
    {w : Output} (h : field opts depth (Tag.plain e) (View.ofValue v) {} = (w, none)) :
    0 < w.bytes.length := by
  have hid := e.idBytes_length_pos
  cases v with
  | master groups =>
    obtain ⟨-, -, inner, sz, -, -, hw⟩ := field_master_ok h
    rw [hw, List.length_append, List.length_append]
    omega
  | _ =>
    obtain ⟨data, sz, -, -, hw⟩ := field_scalar_ok h
    rw [hw, List.length_append, List.length_append]
    omega

/-- A document that encodes is its fields written at the top, with no error. -/
theorem encode_ok {opts : MarshalOptions} {doc : List (Tag × View)} {bytes : Bytes}
    {records : List Record} (h : encode opts doc = .ok (bytes, records)) :
    ∃ o, fields opts 0 doc {} = (o, none) ∧ o.bytes = bytes := by
  unfold encode run at h
  rcases hf : fields opts 0 doc {} with ⟨o, _ | err⟩
  · rw [hf] at h
    simp only [Except.ok.injEq, Prod.mk.injEq] at h
    exact ⟨o, rfl, h.1⟩
  · rw [hf] at h
    cases h

end Marshal

namespace View

theorem ofGroup_eq_map (e : Element) (vs : List Value) :
    ofGroup e vs = vs.map fun v => (Tag.plain e, ofValue v) := by
  induction vs with
  | nil => simp [ofGroup]
  | cons v vs ih => simp [ofGroup, ih]

/-- The fields of a map are its entries in listing order, each under its element's plain tag. -/
theorem ofGroups_eq_entries (m : ElementMap) :
    ofGroups m = (ElementMap.entries m).map fun x => (Tag.plain x.1, ofValue x.2) := by
  induction m with
  | nil => simp [ofGroups, ElementMap.entries]
  | cons g m ih =>
    obtain ⟨e, vs⟩ := g
    simp only [ofGroups, ofGroup_eq_map, ih, ElementMap.entries, List.flatMap_cons, List.map_append,
      List.map_map]
    rfl

end View

end Ebml
