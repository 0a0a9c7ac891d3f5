import Ebml.Proofs.RecordReading
import Ebml.Proofs.Appending

/-!
# What the encoder's records say

The encoder reports one record per element it writes. Written alone, a field is its header and
then its data: a scalar's payload, or a master's children, themselves written alone. A buffered
master's record counts its children's octets; a streamed one's leaves the size unknown. So the
records of a document, read against its octets, describe them (`Described`): the header of each
record's element stands at its position and spans its header length, a known size of data
follows it, and the records come in the order of the output, each later record inside the data
of an earlier one or after it. Which elements are written, and which of them are streamed, is
read off the document alone (`View.written`).
-/

namespace Ebml

namespace View

mutual
/-- The elements a field writes, in the order they are written, each with whether it is
streamed under the unknown size: nothing for a field left out as zero or absent, the items of a
repeated field each under its tag, and otherwise the field's own element and then, for a master,
the elements of its fields. -/
def written (tag : Tag) : View → List (Element × Bool)
  | scalar _ z => if tag.omitEmpty && z then [] else [(tag.element, false)]
  | master fs z =>
    if tag.omitEmpty && z then [] else (tag.element, decide (tag.size = .unknown)) :: fieldsWritten fs
  | repeated items z => if tag.omitEmpty && z then [] else itemsWritten tag items
  | absent _ => []

/-- The elements the fields of a master write, one field after another. -/
def fieldsWritten : List (Tag × View) → List (Element × Bool)
  | [] => []
  | (tag, v) :: rest => written tag v ++ fieldsWritten rest

/-- The elements the items of a repeated field write under its tag. -/
def itemsWritten (tag : Tag) : List View → List (Element × Bool)
  | [] => []
  | v :: vs => written tag v ++ itemsWritten tag vs
end

end View

namespace Record

/-- What a record says of its element apart from where it is: the element, and whether its size
is unknown. -/
def key (r : Record) : Element × Bool := (r.element, r.size.isNone)

@[simp] theorem key_shift (d : Nat) (r : Record) : (r.shift d).key = r.key := rfl

/-- A record describes an element of `bytes`: the header the encoder writes for the record's
element and size stands at its position and spans its header length, and a known size of data
follows the header. -/
structure Describes (opts : MarshalOptions) (bytes : Bytes) (r : Record) : Prop where
  header : ∃ hd : Output, Marshal.header opts r.element r.size {} = (hd, none) ∧
    r.headerLen = hd.bytes.length ∧ hd.bytes <+: bytes.drop r.position
  data : ∀ n ∈ r.size, r.dataPosition + n ≤ bytes.length

/-- How a record stands to a later one in octets that nest: the later one starts inside the
first one's data, and when both sizes are known it ends by the end of that data; or the first
one's size is known and its data ends before the later one starts. An element of unknown size
holds everything after its header. -/
def Precedes (r s : Record) : Prop :=
  (r.dataPosition ≤ s.position ∧ ∀ n ∈ r.size,
      s.position < r.dataPosition + n ∧ ∀ m ∈ s.size, s.dataPosition + m ≤ r.dataPosition + n) ∨
    ∃ n ∈ r.size, r.dataPosition + n ≤ s.position

theorem precedes_shift {r s : Record} (h : r.Precedes s) (d : Nat) :
    (r.shift d).Precedes (s.shift d) := by
  simp only [Precedes, dataPosition, shift] at h ⊢
  rcases h with ⟨hle, hin⟩ | ⟨n, hn, hend⟩
  · refine .inl ⟨by omega, fun n hn => ?_⟩
    obtain ⟨hlt, hm⟩ := hin n hn
    exact ⟨by omega, fun m hm' => by have := hm m hm'; omega⟩
  · exact .inr ⟨n, hn, by omega⟩

/-- A record comes before every later one in the output. -/
theorem Precedes.position_lt {r s : Record} (h : r.Precedes s) (hr : 0 < r.headerLen) :
    r.position < s.position := by
  simp only [Precedes, dataPosition] at h
  rcases h with ⟨hle, -⟩ | ⟨n, -, hend⟩ <;> omega

end Record

namespace Marshal

/-- A header written alone starts with its element's identifier, whatever its size. -/
theorem header_starts_with_id {opts : MarshalOptions} {e : Element} {size : Option Nat}
    {hd : Output} (hh : Marshal.header opts e size {} = (hd, none)) : e.idBytes <+: hd.bytes := by
  unfold Marshal.header at hh
  split at hh
  · simp at hh
  · rename_i id hid
    have hid' : id = e.idBytes := by
      unfold Vint.encodeId at hid
      split at hid
      · cases hid
      · cases hid
        rfl
    split at hh
    all_goals
      dsimp only at hh
      split at hh
      · simp at hh
      · simp only [Prod.mk.injEq] at hh
        rw [← hh.1, Output.bytes_emitEach, Output.bytes_emit, hid']
        exact List.prefix_append _ _

/-- A header written alone holds at least its element's identifier. -/
theorem header_length_pos {opts : MarshalOptions} {e : Element} {size : Option Nat}
    {hd : Output} (hh : Marshal.header opts e size {} = (hd, none)) : 0 < hd.bytes.length :=
  Nat.lt_of_lt_of_le e.idBytes_length_pos (header_starts_with_id hh).length_le

/-- A header written alone counts its own octets and reports nothing. -/
theorem header_alone {opts : MarshalOptions} {e : Element} {size : Option Nat}
    {hd : Output} (hh : Marshal.header opts e size {} = (hd, none)) :
    hd.length = hd.bytes.length ∧ hd.records = [] := by
  have hsized := header_sized opts e size Output.sized_empty
  have hrec := header_records opts e size {}
  rw [hh] at hsized hrec
  exact ⟨hsized, hrec⟩

end Marshal

namespace Record.Describes

variable {opts : MarshalOptions} {bytes : Bytes} {r : Record}

/-- A described element's header lies within the octets. -/
theorem dataPosition_le (h : r.Describes opts bytes) : r.dataPosition ≤ bytes.length := by
  obtain ⟨hd, hh, hlen, hpre⟩ := h.header
  have hpos := Marshal.header_length_pos hh
  have hle := hpre.length_le
  rw [List.length_drop] at hle
  simp only [dataPosition]
  omega

/-- A described element starts within the octets. -/
theorem position_lt (h : r.Describes opts bytes) : r.position < bytes.length := by
  obtain ⟨hd, hh, hlen, -⟩ := h.header
  have hpos := Marshal.header_length_pos hh
  have := h.dataPosition_le
  simp only [dataPosition] at this
  omega

theorem headerLen_pos (h : r.Describes opts bytes) : 0 < r.headerLen := by
  obtain ⟨hd, hh, hlen, -⟩ := h.header
  rw [hlen]
  exact Marshal.header_length_pos hh

/-- Octets written after those described leave the description standing. -/
theorem append (h : r.Describes opts bytes) (more : Bytes) : r.Describes opts (bytes ++ more) := by
  obtain ⟨hd, hh, hlen, hpre⟩ := h.header
  refine ⟨⟨hd, hh, hlen, ?_⟩, fun n hn => ?_⟩
  · rw [List.drop_append_of_le_length (Nat.le_of_lt h.position_lt)]
    exact hpre.trans (List.prefix_append _ _)
  · have := h.data n hn
    rw [List.length_append]
    omega

/-- Octets written before those described move the description past them. -/
theorem shift (h : r.Describes opts bytes) (pre : Bytes) :
    (r.shift pre.length).Describes opts (pre ++ bytes) := by
  obtain ⟨hd, hh, hlen, hpre⟩ := h.header
  refine ⟨⟨hd, hh, hlen, ?_⟩, fun n hn => ?_⟩
  · simp only [Record.shift]
    rw [Nat.add_comm, List.drop_append, List.drop_eq_nil_of_le (Nat.le_add_right _ _),
      List.nil_append, Nat.add_sub_cancel_left]
    exact hpre
  · have := h.data n hn
    simp only [Record.shift, dataPosition] at this ⊢
    rw [List.length_append]
    omega

end Record.Describes

/-- Records that describe octets: each describes its element, and each comes before every later
one, which starts inside its data or after it. -/
structure Described (opts : MarshalOptions) (bytes : Bytes) (records : List Record) : Prop where
  describes : ∀ r ∈ records, r.Describes opts bytes
  nested : records.Pairwise Record.Precedes

namespace Described

variable {opts : MarshalOptions}

theorem nil (bytes : Bytes) : Described opts bytes [] := ⟨by simp, List.Pairwise.nil⟩

/-- Described records come in the order of the output. -/
theorem ordered {bytes : Bytes} {rs : List Record} (h : Described opts bytes rs) :
    rs.Pairwise fun r s => r.position < s.position :=
  List.Pairwise.imp_of_mem (fun hr _ hp => hp.position_lt (h.describes _ hr).headerLen_pos)
    h.nested

/-- Two described stretches of octets, one after the other: the second's records move past the
first's octets, and come after every record of the first. -/
theorem append {bs bs' : Bytes} {rs rs' : List Record} (h : Described opts bs rs)
    (h' : Described opts bs' rs') :
    Described opts (bs ++ bs') (rs ++ rs'.map (Record.shift bs.length)) := by
  refine ⟨fun r hr => ?_, ?_⟩
  · rcases List.mem_append.mp hr with hr | hr
    · exact (h.describes r hr).append bs'
    · obtain ⟨r', hr', rfl⟩ := List.mem_map.mp hr
      exact (h'.describes r' hr').shift bs
  · refine List.pairwise_append.mpr ⟨h.nested, ?_, ?_⟩
    · exact List.pairwise_map.mpr (h'.nested.imp fun hp => Record.precedes_shift hp _)
    · -- every record of the first stretch holds or ends before the second
      intro r hr s hs
      obtain ⟨s', hs', rfl⟩ := List.mem_map.mp hs
      have hdata := (h.describes r hr).dataPosition_le
      cases hsize : r.size with
      | none =>
        refine .inl ⟨?_, fun n hn => by simp [hsize] at hn⟩
        simp only [Record.shift]
        omega
      | some n =>
        have hend := (h.describes r hr).data n hsize
        refine .inr ⟨n, hsize, ?_⟩
        simp only [Record.shift]
        omega

/-- An element written as its header and then its data, unknown in size or as long as the
data: its record comes first, and the data's records, moved past the header, lie inside it. -/
theorem enclose {e : Element} {size : Option Nat} {hd : Output} {data : Bytes} {rs : List Record}
    (hh : Marshal.header opts e size {} = (hd, none)) (hsize : ∀ n ∈ size, n = data.length)
    (h : Described opts data rs) :
    Described opts (hd.bytes ++ data)
      (⟨e, 0, hd.bytes.length, size⟩ :: rs.map (Record.shift hd.bytes.length)) := by
  have hself : Record.Describes opts (hd.bytes ++ data) ⟨e, 0, hd.bytes.length, size⟩ := by
    refine ⟨⟨hd, hh, rfl, by simp⟩, fun n hn => ?_⟩
    rw [hsize n hn, List.length_append]
    simp [Record.dataPosition]
  refine ⟨fun r hr => ?_, List.pairwise_cons.mpr ⟨fun s hs => ?_, ?_⟩⟩
  · rcases List.mem_cons.mp hr with rfl | hr
    · exact hself
    · obtain ⟨r', hr', rfl⟩ := List.mem_map.mp hr
      exact (h.describes r' hr').shift hd.bytes
  · -- the data's records start inside the element's data and, when sized, end by its end
    obtain ⟨s', hs', rfl⟩ := List.mem_map.mp hs
    have hpos := (h.describes s' hs').position_lt
    refine .inl ⟨by simp [Record.dataPosition, Record.shift], fun n hn => ?_⟩
    rw [hsize n hn]
    refine ⟨by simp only [Record.dataPosition, Record.shift]; omega, fun m hm => ?_⟩
    have hend := (h.describes s' hs').data m hm
    simp only [Record.dataPosition, Record.shift] at hend ⊢
    omega
  · exact List.pairwise_map.mpr (h.nested.imp fun hp => Record.precedes_shift hp _)

end Described

namespace Marshal

variable {opts : MarshalOptions} {depth : Nat} {tag : Tag}

/-- A scalar written alone, and not left out: its header and its payload, and one record for
it. -/
theorem field_scalar_layout {x : Value} {z : Bool} {w : Output}
    (homit : (tag.omitEmpty && z) = false) (h : field opts depth tag (.scalar x z) {} = (w, none)) :
    ∃ data hd, tag.element.isMaster = false ∧ Payload.encode tag.element x tag.size = .ok data ∧
      header opts tag.element (some data.length) {} = (hd, none) ∧ w.bytes = hd.bytes ++ data ∧
      w.records = [⟨tag.element, 0, hd.bytes.length, some data.length⟩] := by
  unfold field at h
  simp only [View.zero, homit, Bool.false_eq_true, if_false] at h
  cases hm : tag.element.isMaster
  · simp only [hm, Bool.false_eq_true, if_false] at h
    rcases hp : Payload.encode tag.element x tag.size with err | data
    · rw [hp] at h
      cases h
    rw [hp] at h
    dsimp only at h
    rcases hh : header opts tag.element (some data.length) {} with ⟨hd, _ | err⟩
    · rw [hh] at h
      obtain ⟨hlen, hrec⟩ := header_alone hh
      obtain ⟨rfl, -⟩ := Prod.mk.inj h
      refine ⟨data, hd, rfl, rfl, hh, by simp, ?_⟩
      simp [Output.note, hrec, hlen]
    · rw [hh] at h
      cases h
  · simp only [hm, if_true] at h
    cases h

/-- The size a master's record and header carry: unknown when it is streamed, otherwise the
length of its children's octets. -/
def masterSize (tag : Tag) (inner : Output) : Option Nat :=
  if tag.size = .unknown then none else some inner.bytes.length

/-- A master written alone, and not left out: its header and its children's octets, its record
and then theirs, moved past the header. Streamed or buffered, only the size differs. -/
theorem field_master_layout {fs : List (Tag × View)} {z : Bool} {w : Output}
    (homit : (tag.omitEmpty && z) = false) (h : field opts depth tag (.master fs z) {} = (w, none)) :
    tag.element.isMaster = true ∧ depth + 1 ≤ maxDepth ∧ ∃ hd inner,
      fields opts (depth + 1) fs {} = (inner, none) ∧
      header opts tag.element (masterSize tag inner) {} = (hd, none) ∧
      w.bytes = hd.bytes ++ inner.bytes ∧
      w.records = ⟨tag.element, 0, hd.bytes.length, masterSize tag inner⟩ ::
        inner.records.map (Record.shift hd.bytes.length) := by
  unfold field at h
  simp only [View.zero, homit, Bool.false_eq_true, if_false] at h
  cases hm : tag.element.isMaster
  · simp only [hm, Bool.not_false, if_true] at h
    cases h
  simp only [hm, Bool.not_true, Bool.false_eq_true, if_false] at h
  by_cases hu : tag.size = .unknown
  · -- streamed: the header, the record, then the children after them
    simp only [hu, if_true] at h
    rcases hh : header opts tag.element none {} with ⟨hd, _ | err⟩
    · rw [hh] at h
      obtain ⟨hlen, hrec⟩ := header_alone hh
      dsimp only at h
      by_cases hd' : depth + 1 > maxDepth
      · simp only [hd', if_true] at h
        cases h
      simp only [hd', if_false] at h
      have hf := fields_append opts (depth + 1) fs (hd.note ⟨tag.element, 0, hd.length - 0, none⟩) {}
      rw [Output.append_empty] at hf
      rw [hf] at h
      rcases hi : fields opts (depth + 1) fs {} with ⟨inner, _ | err⟩
      · rw [hi] at h
        obtain ⟨rfl, -⟩ := Prod.mk.inj h
        have hsize : masterSize tag inner = none := if_pos hu
        refine ⟨rfl, by omega, hd, inner, rfl, by rw [hsize, hh], by simp, ?_⟩
        simp [Output.note, hrec, hlen, hsize]
      · rw [hi] at h
        cases h
    · rw [hh] at h
      cases h
  · -- buffered: the children apart, then the header and the children's octets
    simp only [hu, if_false] at h
    by_cases hd' : depth + 1 > maxDepth
    · simp only [hd', if_true] at h
      cases h
    simp only [hd', if_false] at h
    rcases hi : fields opts (depth + 1) fs {} with ⟨inner, _ | err⟩
    · rw [hi] at h
      dsimp only at h
      split at h
      · cases h
      have hsize : masterSize tag inner = some inner.bytes.length := if_neg hu
      rcases hh : header opts tag.element (some inner.bytes.length) {} with ⟨hd, _ | err⟩
      · rw [hh] at h
        obtain ⟨hlen, hrec⟩ := header_alone hh
        obtain ⟨rfl, -⟩ := Prod.mk.inj h
        refine ⟨rfl, by omega, hd, inner, rfl, by rw [hsize, hh], ?_, ?_⟩
        · rw [Output.bytes_emit]
          rfl
        · simp [Output.note, hrec, hlen, hsize]
      · rw [hh] at h
        cases h
    · rw [hi] at h
      cases h

/-- A field left out as empty writes nothing. -/
theorem field_omitted_alone {v : View} {w : Output} (h : field opts depth tag v {} = (w, none))
    (homit : (tag.omitEmpty && v.zero) = true) : w = {} := by
  rw [field_omitted homit] at h
  exact (Prod.mk.inj h).1.symm

/-- A field written alone counts the octets it writes. -/
theorem field_alone_sized {v : View} {w : Output} (h : field opts depth tag v {} = (w, none)) :
    w.Sized := by
  have := field_sized opts depth tag v Output.sized_empty
  rwa [h] at this

mutual
/-- A field written alone without error: its records describe its octets, and name the elements
it writes, in order, with the streamed ones of unknown size. -/
theorem field_described (opts : MarshalOptions) (depth : Nat) (tag : Tag) :
    ∀ (v : View) (w : Output), field opts depth tag v {} = (w, none) →
      Described opts w.bytes w.records ∧ w.records.map Record.key = View.written tag v
  | .absent z, w, h => by
    rw [field_absent] at h
    obtain ⟨rfl, -⟩ := Prod.mk.inj h
    exact ⟨Described.nil _, by simp [View.written]⟩
  | .scalar x z, w, h => by
    cases homit : tag.omitEmpty && z
    · obtain ⟨data, hd, -, -, hh, hbytes, hrecs⟩ := field_scalar_layout homit h
      have hd' := Described.enclose hh (fun n hn => by cases hn; rfl) (Described.nil data : Described opts data [])
      rw [hbytes, hrecs]
      refine ⟨by simpa using hd', ?_⟩
      simp [View.written, homit, Record.key]
    · obtain rfl := field_omitted_alone h homit
      exact ⟨Described.nil _, by simp [View.written, homit]⟩
  | .master fs z, w, h => by
    cases homit : tag.omitEmpty && z
    · obtain ⟨-, -, hd, inner, hinner, hh, hbytes, hrecs⟩ := field_master_layout homit h
      obtain ⟨hdesc, hkeys⟩ := fields_described opts (depth + 1) fs inner hinner
      have hsize : ∀ n ∈ masterSize tag inner, n = inner.bytes.length := by
        intro n hn
        unfold masterSize at hn
        split at hn
        · cases hn
        · exact (Option.some.inj hn).symm
      rw [hbytes, hrecs]
      refine ⟨Described.enclose hh hsize hdesc, ?_⟩
      -- a master's record is of unknown size exactly when its tag streams it
      have hstreamed : (masterSize tag inner).isNone = decide (tag.size = .unknown) := by
        unfold masterSize
        by_cases hu : tag.size = .unknown <;> simp [hu]
      simp [View.written, homit, Record.key, Record.shift, hstreamed, ← hkeys]
    · obtain rfl := field_omitted_alone h homit
      exact ⟨Described.nil _, by simp [View.written, homit]⟩
  | .repeated items z, w, h => by
    cases homit : tag.omitEmpty && z
    · unfold field at h
      simp only [View.zero, homit, Bool.false_eq_true, if_false] at h
      obtain ⟨hdesc, hkeys⟩ := repeated_described opts depth tag items w h
      exact ⟨hdesc, by rw [hkeys]; simp [View.written, homit]⟩
    · obtain rfl := field_omitted_alone h homit
      exact ⟨Described.nil _, by simp [View.written, homit]⟩

/-- Fields written one after another without error: their records describe their octets and
name the elements they write, in order. -/
theorem fields_described (opts : MarshalOptions) (depth : Nat) :
    ∀ (fs : List (Tag × View)) (o : Output), fields opts depth fs {} = (o, none) →
      Described opts o.bytes o.records ∧ o.records.map Record.key = View.fieldsWritten fs
  | [], o, h => by
    obtain ⟨rfl, -⟩ := Prod.mk.inj h
    exact ⟨Described.nil _, rfl⟩
  | (tag, v) :: rest, o, h => by
    obtain ⟨w, o', hw, hrest, rfl⟩ := fields_cons_eq h
    obtain ⟨hdw, hkw⟩ := field_described opts depth tag v w hw
    obtain ⟨hdr, hkr⟩ := fields_described opts depth rest o' hrest
    have hsized : w.length = w.bytes.length := field_alone_sized hw
    refine ⟨?_, ?_⟩
    · rw [Output.bytes_append, Output.records_append, hsized]
      exact hdw.append hdr
    · simp [View.fieldsWritten, List.map_map, Function.comp_def, ← hkw, ← hkr]

/-- Items written one after another under one tag: their records describe their octets and name
the elements they write, in order. -/
theorem repeated_described (opts : MarshalOptions) (depth : Nat) (tag : Tag) :
    ∀ (items : List View) (o : Output), repeated opts depth tag items {} = (o, none) →
      Described opts o.bytes o.records ∧ o.records.map Record.key = View.itemsWritten tag items
  | [], o, h => by
    obtain ⟨rfl, -⟩ := Prod.mk.inj h
    exact ⟨Described.nil _, rfl⟩
  | v :: vs, o, h => by
    obtain ⟨w, o', hw, hrest, rfl⟩ := repeated_cons_eq h
    obtain ⟨hdw, hkw⟩ := field_described opts depth tag v w hw
    obtain ⟨hdr, hkr⟩ := repeated_described opts depth tag vs o' hrest
    have hsized : w.length = w.bytes.length := field_alone_sized hw
    refine ⟨?_, ?_⟩
    · rw [Output.bytes_append, Output.records_append, hsized]
      exact hdw.append hdr
    · simp [View.itemsWritten, List.map_map, Function.comp_def, ← hkw, ← hkr]
end

end Marshal

namespace Sink

/-- A document that the sink takes whole: the octets taken are the encoding's, and the count
returned is their number. -/
theorem marshal_ok_length {s s' : Sink} {opts : MarshalOptions} {doc : List (Tag × View)}
    {n : Nat} {recs : List Record} (h : s.marshal opts doc = (s', .ok (n, recs))) :
    ∃ o, Marshal.run opts doc = (o, none) ∧ s'.written = s.written ++ o.bytes ∧
      n = o.bytes.length := by
  obtain ⟨o, ho, hw⟩ := marshal_ok h
  refine ⟨o, ho, hw, ?_⟩
  have hsized : o.Sized := by
    have := Marshal.fields_sized opts 0 doc Output.sized_empty
    rwa [← Marshal.run, ho] at this
  unfold marshal at h
  rw [ho] at h
  dsimp only at h
  rcases ht : s.take o.calls with ⟨s₁, _ | refused⟩
  · rw [ht] at h
    simp only [Prod.mk.injEq, Except.ok.injEq] at h
    rw [← h.2.1]
    exact hsized
  · rw [ht] at h
    cases h

/-- A document the sink takes whole, with its records: the octets appended are the encoding's,
the count returned is their number, and the records are the encoding's. -/
theorem marshal_ok_records {s s' : Sink} {opts : MarshalOptions} {doc : List (Tag × View)}
    {n : Nat} {recs : List Record} (h : s.marshal opts doc = (s', .ok (n, recs))) :
    ∃ o, Marshal.run opts doc = (o, none) ∧ s'.written = s.written ++ o.bytes ∧
      n = o.bytes.length ∧ recs = o.records := by
  obtain ⟨o, ho, hw, hn⟩ := marshal_ok_length h
  refine ⟨o, ho, hw, hn, ?_⟩
  unfold marshal at h
  rw [ho] at h
  dsimp only at h
  rcases ht : s.take o.calls with ⟨s₁, _ | refused⟩
  · rw [ht] at h
    simp only [Prod.mk.injEq, Except.ok.injEq] at h
    exact h.2.2.symm
  · rw [ht] at h
    cases h

end Sink

end Ebml
