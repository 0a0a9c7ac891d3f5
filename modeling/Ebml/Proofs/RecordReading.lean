import Ebml.Proofs.RoundTrip
import Ebml.Proofs.Layout

/-!
# Records read back

A restorable record slot (`Slot.Restorable`) encoded as a document decodes from its cleared form
back into itself, except that fields left out as zero keep their cleared value
(`unmarshal_encode_record`). The decoder is followed one element at a time: an item reads in one
step (`ItemReads`), a field in at most as many steps as it has octets (`FieldReads`), and the
fields of a record one after another (`readChildren_fields`).
-/

namespace Ebml

namespace Payload

/-- A number is read the same under any allocation limit: only octet data counts against it. -/
theorem read_number_limit (o p : DecodeOptions) {t : DataType}
    (ht : t = .signedInt ∨ t = .unsignedInt ∨ t = .float) (n : Nat) : read o t n = read p t n := by
  rcases ht with rfl | rfl | rfl <;> rfl

/-- A number written with its natural size reads back under any allocation limit. -/
theorem read_encode_number {opts : DecodeOptions} {e : Element} {v : Value} (hv : v.Restorable e)
    (ht : e.dataType = .signedInt ∨ e.dataType = .unsignedInt ∨ e.dataType = .float)
    {data : Bytes} (h : encode e v .natural = .ok data) (hmax : data.length ≤ Vint.maxUnsigned)
    {s : Source} {rest : Bytes} (hs : s.ahead = data ++ rest) :
    (read opts e.dataType data.length).run s =
      (.ok v, { s with ahead := rest, position := s.position + data.length }) := by
  rw [read_number_limit opts { opts with allocationLimit := data.length } ht]
  exact read_encode hv h hmax (Nat.le_refl _) hs

/-- An unsigned number written in its natural width or in a declared one reads back. -/
theorem read_encodeUnsigned {opts : DecodeOptions} {u : UInt64} {exact : Option Nat}
    {data : Bytes} (h : encodeUnsigned u.toNat exact = .ok data) {s : Source} {rest : Bytes}
    (hs : s.ahead = data ++ rest) :
    (read opts .unsignedInt data.length).run s =
      (.ok (.uint u), { s with ahead := rest, position := s.position + data.length }) := by
  obtain ⟨-, h8, hlt⟩ := unsignedWidth_spec u.toNat_lt
  have hwidth : ∃ len, len ≤ 8 ∧ unsignedWidth u.toNat ≤ len ∧ data = Octets.ofNat len u.toNat := by
    cases exact with
    | none =>
      simp only [encodeUnsigned, integerWidth, bind, Except.bind, pure, Except.pure,
        Except.ok.injEq] at h
      exact ⟨_, h8, Nat.le_refl _, h.symm⟩
    | some n =>
      simp only [encodeUnsigned, integerWidth] at h
      split at h
      · rename_i hn
        simp only [bind, Except.bind, pure, Except.pure, Except.ok.injEq] at h
        exact ⟨n, hn.1, hn.2, h.symm⟩
      · cases h
  obtain ⟨len, hlen, hwl, rfl⟩ := hwidth
  have hlt' : u.toNat < Nat.pow 256 len :=
    Nat.lt_of_lt_of_le hlt (Nat.pow_le_pow_right (by decide) hwl)
  have hexact := ReadM.exact_append hs
  rw [Octets.length_ofNat] at hexact ⊢
  simp only [read, if_neg (Nat.not_lt.mpr hlen), ReadM.run_bind, hexact, ReadM.run_pure,
    Octets.toNat_ofNat_of_lt hlt', Nat.toUInt64_eq, UInt64.ofNat_toNat]

end Payload

namespace Slot

mutual
/-- The slot a field starts from before anything is read into it: numbers, flags and doubles
zero, text and octets empty, the empty block, an empty map, a record with every field cleared,
a list with no items and an optional field with none. A value slot is kept: what is read
replaces it. -/
def cleared : Slot → Slot
  | uint _ => uint 0
  | int _ => int 0
  | flag _ => flag false
  | float32 _ => float32 0
  | float64 _ => float64 0
  | text _ => text ""
  | binary _ => binary []
  | date _ => date 0
  | block _ => block {}
  | value v => value v
  | map _ => map []
  | record fs => record (clearedFields fs)
  | list fresh _ => list fresh []
  | option fresh _ => option fresh none

/-- The fields of a record, each cleared. -/
def clearedFields : List (Tag × Slot) → List (Tag × Slot)
  | [] => []
  | (tag, s) :: rest => (tag, cleared s) :: clearedFields rest
end

/-- Whether a slot holds items of its own: a list or an optional field. -/
def isCollection : Slot → Bool
  | list _ _ | option _ _ => true
  | _ => false

mutual
/-- What a slot reads back as from what it is written as, read into its cleared form: a
record's fields left out as zero keep their cleared value, and everything else comes back. -/
def restored : Slot → Slot
  | record fs => record (restoredFields fs)
  | list fresh items => list fresh (restoredItems items)
  | option fresh (some x) => option fresh (some (restored x))
  | s => s

/-- The fields of a record as they read back. -/
def restoredFields : List (Tag × Slot) → List (Tag × Slot)
  | [] => []
  | (tag, s) :: rest =>
    (tag, if tag.omitEmpty && s.view.zero then cleared s else restored s) :: restoredFields rest

/-- The items of a list as they read back. -/
def restoredItems : List Slot → List Slot
  | [] => []
  | s :: rest => restored s :: restoredItems rest
end

/-- How one field of a record reads back: cleared if it is left out as zero, restored otherwise. -/
def restoredField (tag : Tag) (s : Slot) : Slot :=
  if tag.omitEmpty && s.view.zero then cleared s else restored s

/-- Where an item read for a field goes: a new last item of a list, the item of an optional
field, or the field itself. -/
def place : Slot → Slot → Slot
  | list fresh items, x => list fresh (items ++ [x])
  | option fresh _, x => option fresh (some x)
  | _, x => x

/-- A field opens items from a fresh slot: it is that slot, not a collection, or a list whose
fresh item it is, or an empty optional field whose fresh item it is. -/
def Opens (cur fresh : Slot) : Prop :=
  (cur = fresh ∧ fresh.isCollection = false) ∨ (∃ items, cur = list fresh items) ∨
    cur = option fresh none

/-- A scalar slot whose data reads back under a tag, within an allocation limit: a number, flag
or double of its element's kind, text without trailing zero characters, octets, or a block whose
last frame is not empty. Only unsigned numbers may declare an exact size. -/
inductive ScalarReads (limit : Nat) : Tag → Slot → Prop
  | uint {tag : Tag} {u : UInt64} : tag.element.dataType = .unsignedInt → tag.size ≠ .unknown →
      ScalarReads limit tag (uint u)
  | int {tag : Tag} {i : Int64} : tag.element.dataType = .signedInt → tag.size = .natural →
      ScalarReads limit tag (int i)
  | flag {tag : Tag} {b : Bool} : tag.element.dataType = .unsignedInt → tag.size = .natural →
      ScalarReads limit tag (flag b)
  | float64 {tag : Tag} {b : UInt64} : tag.element.dataType = .float → tag.size = .natural →
      ScalarReads limit tag (float64 b)
  | text {tag : Tag} {s : String} :
      tag.element.dataType = .string ∨ tag.element.dataType = .utf8 → tag.size = .natural →
      s.toList.getLast? ≠ some (Char.ofNat 0) → (Payload.utf8 s).length ≤ limit →
      ScalarReads limit tag (text s)
  | binary {tag : Tag} {d : Bytes} : tag.element.dataType = .binary → tag.size = .natural →
      d.length ≤ limit → ScalarReads limit tag (binary d)
  | block {tag : Tag} {b : Block} : tag.element.dataType = .block → tag.size = .natural →
      b.frames.getLast? ≠ some [] →
      (∀ data, b.encode = .ok data → data.length ≤ limit) → ScalarReads limit tag (block b)

/-- A slot that reads back from what it is written as under a tag, within an allocation limit:
a scalar that does, a record of fields with distinct elements under its element's plain tag,
or a list (under a tag that keeps empty items) or optional field whose items are scalars or
records that read back, with their cleared form as the fresh item. -/
inductive Restorable (limit : Nat) : Tag → Slot → Prop
  | scalar {tag : Tag} {x : Slot} : tag.stop = false → ScalarReads limit tag x →
      Restorable limit tag x
  | record {tag : Tag} {fs : List (Tag × Slot)} : tag = Tag.plain tag.element →
      (fs.map (·.1.element)).Nodup → (∀ f ∈ fs, Restorable limit f.1 f.2) →
      Restorable limit tag (record fs)
  | list {tag : Tag} {fresh : Slot} {items : List Slot} : tag.omitEmpty = false →
      (∀ x ∈ items, Restorable limit tag x) →
      (∀ x ∈ items, x.isCollection = false ∧ x.cleared = fresh) →
      Restorable limit tag (list fresh items)
  | option {tag : Tag} {fresh : Slot} {item : Option Slot} :
      (∀ x ∈ item, Restorable limit tag x) →
      (∀ x ∈ item, x.isCollection = false ∧ x.cleared = fresh) →
      Restorable limit tag (option fresh item)

@[simp] theorem isCollection_cleared (s : Slot) : s.cleared.isCollection = s.isCollection := by
  cases s <;> rfl

theorem place_of_isCollection {cur : Slot} (h : cur.isCollection = false) (x : Slot) :
    cur.place x = x := by
  cases cur <;> first | rfl | cases h

@[simp] theorem restoredFields_cons (tag : Tag) (s : Slot) (rest : List (Tag × Slot)) :
    restoredFields ((tag, s) :: rest) = (tag, restoredField tag s) :: restoredFields rest := rfl

@[simp] theorem map_fst_clearedFields :
    ∀ fs : List (Tag × Slot), (clearedFields fs).map Prod.fst = fs.map Prod.fst
  | [] => rfl
  | (tag, s) :: rest => by simp [clearedFields, map_fst_clearedFields rest]

/-- A field left out as zero reads back as it starts, and any other as it is restored. -/
theorem restoredField_of_written {tag : Tag} {s : Slot}
    (h : (tag.omitEmpty && s.view.zero) = false) :
    restoredField tag s = s.restored := by
  simp [restoredField, h]

/-- Closing the last item of a list closes it in place. -/
theorem closeLast_append_singleton (target item : Slot) :
    ∀ items : List Slot, closeLast (items ++ [item]) target = items ++ [close item target]
  | [] => by simp [closeLast]
  | [a] => by simp [closeLast]
  | a :: b :: rest => by
    have ih := closeLast_append_singleton target item (b :: rest)
    simp only [List.cons_append] at ih ⊢
    simp [closeLast, ih]

/-- Storing a value in a field that opens items from `fresh` stores what `fresh` becomes. -/
theorem assign_of_opens {cur fresh y : Slot} {v : Value} (hopen : Opens cur fresh)
    (h : fresh.assign v = (y, none)) : cur.assign v = (cur.place y, none) := by
  rcases hopen with ⟨rfl, hc⟩ | ⟨items, rfl⟩ | rfl
  · rw [place_of_isCollection hc, h]
  · simp [assign, place, h]
  · simp [assign, place, h]

/-- Entering a field that opens records reads into the fresh record, and closing it places the
record read. -/
theorem enter_of_opens {cur : Slot} {cfs : List (Tag × Slot)} (hopen : Opens cur (record cfs)) :
    ∃ mid, cur.enter = (mid, some (record cfs)) ∧
      ∀ fs, mid.close (record fs) = cur.place (record fs) := by
  rcases hopen with ⟨rfl, -⟩ | ⟨items, rfl⟩ | rfl
  · exact ⟨record cfs, rfl, fun fs => rfl⟩
  · refine ⟨list (record cfs) (items ++ [record cfs]), rfl, fun fs => ?_⟩
    simp only [close, closeLast_append_singleton, place]
  · exact ⟨option (record cfs) (some (record cfs)), rfl, fun fs => rfl⟩

/-- What a scalar that reads back is made of: the value it is written as under any zero flag,
an element that is no master, the value stored back into its cleared slot, and its data read
back as that value within the limit. -/
theorem ScalarReads.facts {limit : Nat} {tag : Tag} {x : Slot} (hx : ScalarReads limit tag x) :
    ∃ v, (∀ z, x.view.withZero z = .scalar v z) ∧ tag.element.isMaster = false ∧
      x.cleared.assign v = (x, none) ∧ x.isCollection = false ∧
      ∀ (opts : DecodeOptions) (data : Bytes) (s : Source) (rest : Bytes),
        Payload.encode tag.element v tag.size = .ok data → data.length ≤ Vint.maxUnsigned →
        limit ≤ opts.allocationLimit → s.ahead = data ++ rest →
        (Payload.read opts tag.element.dataType data.length).run s =
          (.ok v, { s with ahead := rest, position := s.position + data.length }) := by
  cases hx with
  | @uint u hdt hsize =>
    refine ⟨.uint u, fun z => rfl, by simp [Element.isMaster, hdt], rfl, rfl, ?_⟩
    intro opts data s rest h _ _ hs
    rw [hdt]
    cases hsz : tag.size with
    | natural =>
      simp [Payload.encode, hsz, hdt] at h
      exact Payload.read_encodeUnsigned h hs
    | exact n =>
      simp [Payload.encode, hsz, hdt] at h
      exact Payload.read_encodeUnsigned h hs
    | unknown => exact absurd hsz hsize
  | @int i hdt hsize =>
    refine ⟨.int i, fun z => rfl, by simp [Element.isMaster, hdt], rfl, rfl, ?_⟩
    intro opts data s rest h hmax _ hs
    rw [hsize] at h
    exact Payload.read_encode_number (.int hdt) (Or.inl hdt) h hmax hs
  | @flag b hdt hsize =>
    refine ⟨.uint (if b then 1 else 0), fun z => rfl, by simp [Element.isMaster, hdt],
      by cases b <;> rfl, rfl, ?_⟩
    intro opts data s rest h hmax _ hs
    rw [hsize] at h
    exact Payload.read_encode_number (.uint hdt) (Or.inr (Or.inl hdt)) h hmax hs
  | @float64 b hdt hsize =>
    refine ⟨.float64 b, fun z => rfl, by simp [Element.isMaster, hdt], rfl, rfl, ?_⟩
    intro opts data s rest h hmax _ hs
    rw [hsize] at h
    exact Payload.read_encode_number (.float64 hdt) (Or.inr (Or.inr hdt)) h hmax hs
  | @text str hdt hsize hlast hlen =>
    refine ⟨.string str, fun z => rfl, ?_, rfl, rfl, ?_⟩
    · rcases hdt with hdt | hdt <;> simp [Element.isMaster, hdt]
    intro opts data s rest h hmax hlimit hs
    rw [hsize] at h
    have hdata : data = Payload.utf8 str := by
      rcases hdt with hdt | hdt <;> simp [Payload.encode, Payload.pad, hdt] at h <;> exact h.symm
    subst hdata
    exact Payload.read_encode (.string hdt hlast) h hmax (by omega) hs
  | @binary d hdt hsize hlen =>
    refine ⟨.binary d, fun z => rfl, by simp [Element.isMaster, hdt], rfl, rfl, ?_⟩
    intro opts data s rest h hmax hlimit hs
    rw [hsize] at h
    have hdata : data = d := by
      simp [Payload.encode, Payload.pad, hdt] at h
      exact h.symm
    subst hdata
    exact Payload.read_encode (.binary hdt) h hmax (by omega) hs
  | @block b hdt hsize hlast hlen =>
    refine ⟨.block b, fun z => rfl, by simp [Element.isMaster, hdt], rfl, rfl, ?_⟩
    intro opts data s rest h hmax hlimit hs
    rw [hsize] at h
    have hdata : b.encode = .ok data := by
      cases henc : b.encode <;> simp [Payload.encode, hdt, henc] at h ⊢
      exact h
    have := hlen data hdata
    exact Payload.read_encode (.block hdt hlast) h hmax (by omega) hs

theorem ScalarReads.restored_eq {limit : Nat} {tag : Tag} {x : Slot}
    (hx : ScalarReads limit tag x) :
    x.restored = x := by
  cases hx <;> rfl

section Fields

variable {gs : List (Tag × Slot)} {i : Nat} {f : Slot → Slot}

@[simp] theorem map_fst_modifyField : (modifyField gs i f).map Prod.fst = gs.map Prod.fst := by
  apply List.ext_getElem?
  intro j
  rw [List.getElem?_map, List.getElem?_map, modifyField, List.getElem?_modify]
  cases gs[j]? with
  | none => rfl
  | some g =>
    simp only [Option.map_some, Option.map_eq_map, Option.some.injEq]
    split <;> rfl

theorem fieldIndex_eq_map (gs : List (Tag × Slot)) (e : Element) :
    fieldIndex gs e = (gs.map Prod.fst).findIdx? (·.element == e) := by
  simp [fieldIndex, Function.comp_def]

/-- Changing a field keeps every field where it is. -/
@[simp] theorem fieldIndex_modifyField (e : Element) :
    fieldIndex (modifyField gs i f) e = fieldIndex gs e := by
  rw [fieldIndex_eq_map, fieldIndex_eq_map, map_fst_modifyField]

theorem getElem?_modifyField {tag : Tag} {s : Slot} (h : gs[i]? = some (tag, s)) :
    (modifyField gs i f)[i]? = some (tag, f s) := by
  simp [modifyField, h]

theorem modifyField_modifyField (g : Slot → Slot) :
    modifyField (modifyField gs i f) i g = modifyField gs i (fun s => g (f s)) := by
  simp only [modifyField, List.modify_modify_eq]
  rfl

theorem modifyField_eq_self {tag : Tag} {s : Slot} (h : gs[i]? = some (tag, s)) :
    modifyField gs i (fun _ => s) = gs := by
  apply List.ext_getElem?
  intro j
  rw [modifyField, List.getElem?_modify]
  by_cases hij : i = j
  · subst hij
    simp [h]
  · simp [hij]

/-- The field of an element that no earlier field names is found where it stands. -/
theorem fieldIndex_append_cons {pre rest : List (Tag × Slot)} {tag : Tag} {s : Slot}
    (h : tag.element ∉ pre.map (·.1.element)) :
    fieldIndex (pre ++ (tag, s) :: rest) tag.element = some pre.length := by
  have hpre : pre.findIdx? (·.1.element == tag.element) = none := by
    rw [List.findIdx?_eq_none_iff]
    intro g hg
    simp only [beq_eq_false_iff_ne, ne_eq]
    intro hge
    exact h (List.mem_map.mpr ⟨g, hg, hge⟩)
  simp [fieldIndex, List.findIdx?_append, hpre, List.findIdx?_cons]

theorem modifyField_append_cons (tag : Tag) (s : Slot) (rest : List (Tag × Slot)) :
    ∀ pre : List (Tag × Slot),
      modifyField (pre ++ (tag, s) :: rest) pre.length f = pre ++ (tag, f s) :: rest
  | [] => rfl
  | g :: pre => by
    rw [List.cons_append, List.length_cons, modifyField, List.modify_succ_cons, ← modifyField,
      modifyField_append_cons tag s rest pre]
    rfl

end Fields

section Target

variable {gs : List (Tag × Slot)} {e : Element} {i : Nat} {tag : Tag} {s : Slot}
  (hi : fieldIndex gs e = some i) (hs : gs[i]? = some (tag, s))
include hi hs

/-- A record takes an element into the field that names it. -/
theorem target_select_record : target.select (record gs) e = some (tag, record gs) := by
  simp [target, hi, hs]

/-- A record's field is left as storing a value leaves it, refused or not. -/
theorem target_assign_record {v : Value} {s' : Slot} {err : Option Error}
    (ha : s.assign v = (s', err)) :
    target.assign (record gs) e v = (record (modifyField gs i fun _ => s'), err) := by
  simp [target, assignField, hi, hs, ha]

/-- A record's field is left as entering it leaves it, refused or not. -/
theorem target_enter_record {s' : Slot} {child : Option Slot} (he : s.enter = (s', child)) :
    target.enter (record gs) e = (record (modifyField gs i fun _ => s'), child) := by
  simp [target, enterField, hi, hs, he]

omit hs in
theorem target_close_record (c : Slot) :
    target.close (record gs) e c = record (modifyField gs i fun s => s.close c) := by
  simp [target, closeField, hi]

end Target

end Slot

namespace View

@[simp] theorem withZero_zero (v : View) : v.withZero v.zero = v := by
  cases v <;> rfl

@[simp] theorem zero_withZero (v : View) (z : Bool) : (v.withZero z).zero = z := by
  cases v <;> rfl

end View

namespace Marshal

/-- A field left out as zero writes nothing. -/
theorem field_omitted {opts : MarshalOptions} {depth : Nat} {tag : Tag} {v : View}
    (h : (tag.omitEmpty && v.zero) = true) (o : Output) : field opts depth tag v o = (o, none) := by
  unfold field
  simp [h]

/-- An absent field writes nothing. -/
theorem field_absent (opts : MarshalOptions) (depth : Nat) (tag : Tag) (z : Bool) (o : Output) :
    field opts depth tag (.absent z) o = (o, none) := by
  unfold field
  split <;> rfl

/-- A repeated field under a tag that keeps zero values writes each of its items. -/
theorem field_repeated_of_keeps {opts : MarshalOptions} {depth : Nat} {tag : Tag}
    (homit : tag.omitEmpty = false) (items : List View) (z : Bool) (o : Output) :
    field opts depth tag (.repeated items z) o = repeated opts depth tag items o := by
  unfold field
  simp [homit]

end Marshal

namespace Decoder

section RecordReading

variable (opts : DecodeOptions) (mopts : MarshalOptions)

/-- What reading back one item of a field does. Where the source starts with the octets the
item is written as (under any zero flag that does not leave it out), and the field it goes to
opens items from its cleared form, one step of reading into the record places the item, as it
reads back, in that field, and moves past the octets. -/
def ItemReads (depth : Nat) (tag : Tag) (x : Slot) : Prop :=
  ∀ (z : Bool) (w : Output), (tag.omitEmpty && z) = false →
    Marshal.field mopts depth tag (x.view.withZero z) {} = (w, none) →
    ∀ (gs : List (Tag × Slot)) (i : Nat) (cur : Slot), Slot.fieldIndex gs tag.element = some i →
      gs[i]? = some (tag, cur) → cur.Opens x.cleared →
    ∀ (fuel : Nat) (ext : Extent) (d : Decoder) (rest : Bytes),
      ext.depth = depth → ext.unknownTop = false → w.bytes.length ≤ fuel →
      d.source.ahead = w.bytes ++ rest → (∀ E ∈ ext.stop, d.source.position + w.bytes.length ≤ E) →
      0 < w.bytes.length ∧ ∃ recs,
        (readChildren opts Slot.target (fuel + 1) (.record gs) ext none).run d =
          (readChildren opts Slot.target fuel
            (.record (Slot.modifyField gs i fun _ => cur.place x.restored)) ext none).run
            (d.advance rest w.bytes.length recs)

/-- What reading back one field of a record does. Where the source starts with the octets the
field is written as, and the field holds its cleared form, reading into the record restores the
field and moves past the octets, in as many steps as they have octets at most. -/
def FieldReads (depth : Nat) (tag : Tag) (s : Slot) : Prop :=
  ∀ w : Output, Marshal.field mopts depth tag s.view {} = (w, none) →
    ∀ (gs : List (Tag × Slot)) (i : Nat), Slot.fieldIndex gs tag.element = some i →
      gs[i]? = some (tag, s.cleared) →
    ∀ (fuel : Nat) (ext : Extent) (d : Decoder) (rest : Bytes),
      ext.depth = depth → ext.unknownTop = false → w.bytes.length < fuel →
      d.source.ahead = w.bytes ++ rest → (∀ E ∈ ext.stop, d.source.position + w.bytes.length ≤ E) →
      ∃ fuel' recs, fuel ≤ fuel' + w.bytes.length ∧
        (readChildren opts Slot.target fuel (.record gs) ext none).run d =
        (readChildren opts Slot.target fuel'
          (.record (Slot.modifyField gs i fun _ => Slot.restoredField tag s)) ext none).run
          (d.advance rest w.bytes.length recs)

/-- A field left out as zero reads back in no step: it keeps its cleared form. -/
theorem fieldReads_omitted {depth : Nat} {tag : Tag} {s : Slot}
    (h : (tag.omitEmpty && s.view.zero) = true) : FieldReads opts mopts depth tag s := by
  intro w hw gs i hi hg fuel ext d rest _ _ hfuel hs _
  obtain ⟨rfl, -⟩ := Prod.mk.inj ((Marshal.field_omitted h _).symm.trans hw)
  have hempty : ({} : Output).bytes = [] := rfl
  rw [hempty, List.nil_append] at hs
  refine ⟨fuel, [], Nat.le_add_right _ _, ?_⟩
  rw [hempty, List.length_nil, advance_zero hs, Slot.restoredField, if_pos h,
    Slot.modifyField_eq_self hg]

/-- A field that is no collection reads back as its one item does. -/
theorem fieldReads_of_itemReads {depth : Nat} {tag : Tag} {s : Slot}
    (hc : s.isCollection = false) (hitem : ItemReads opts mopts depth tag s) :
    FieldReads opts mopts depth tag s := by
  cases hz : (tag.omitEmpty && s.view.zero)
  case true => exact fieldReads_omitted opts mopts hz
  intro w hw gs i hi hg fuel ext d rest hdepth htop hfuel hs hfit
  rw [← View.withZero_zero s.view] at hw
  have hopen : s.cleared.Opens s.cleared := Or.inl ⟨rfl, by rw [Slot.isCollection_cleared, hc]⟩
  obtain ⟨f, rfl⟩ : ∃ f, fuel = f + 1 := ⟨fuel - 1, by omega⟩
  obtain ⟨hpos, recs, hstep⟩ := hitem _ w hz hw gs i s.cleared hi hg hopen f ext d rest hdepth
    htop (by omega) hs hfit
  refine ⟨f, recs, by omega, ?_⟩
  rw [hstep, Slot.place_of_isCollection (by rw [Slot.isCollection_cleared, hc]),
    Slot.restoredField_of_written hz]

/-- The items of a list read back one step each, appended in order to the list being read. -/
theorem readChildren_items {depth : Nat} {tag : Tag} {fresh : Slot} :
    ∀ {xs : List Slot}, (∀ x ∈ xs, ItemReads opts mopts depth tag x) →
    (∀ x ∈ xs, x.cleared = fresh) → tag.omitEmpty = false →
    ∀ {o : Output}, Marshal.repeated mopts depth tag (Slot.viewItems xs) {} = (o, none) →
    ∀ (gs : List (Tag × Slot)) (i : Nat) (acc : List Slot),
      Slot.fieldIndex gs tag.element = some i → gs[i]? = some (tag, .list fresh acc) →
    ∀ (fuel : Nat) (ext : Extent) (d : Decoder) (rest : Bytes),
      ext.depth = depth → ext.unknownTop = false → o.bytes.length < fuel →
      d.source.ahead = o.bytes ++ rest → (∀ E ∈ ext.stop, d.source.position + o.bytes.length ≤ E) →
      ∃ fuel' recs, fuel ≤ fuel' + o.bytes.length ∧
        (readChildren opts Slot.target fuel (.record gs) ext none).run d =
        (readChildren opts Slot.target fuel'
          (.record (Slot.modifyField gs i fun _ => .list fresh (acc ++ Slot.restoredItems xs))) ext
            none).run (d.advance rest o.bytes.length recs)
  | [], _, _, _, o, h, gs, i, acc, _, hg, fuel, ext, d, rest, _, _, hfuel, hs, _ => by
    obtain ⟨rfl, -⟩ := Prod.mk.inj h
    have hempty : ({} : Output).bytes = [] := rfl
    rw [hempty, List.nil_append] at hs
    refine ⟨fuel, [], Nat.le_add_right _ _, ?_⟩
    rw [hempty, List.length_nil, advance_zero hs, Slot.restoredItems, List.append_nil,
      Slot.modifyField_eq_self hg]
  | x :: xs, hsteps, hfresh, homit, o, h, gs, i, acc, hi, hg, fuel, ext, d, rest, hdepth, htop,
      hfuel, hs, hfit => by
    obtain ⟨w, o', hw, ho', rfl⟩ := Marshal.repeated_cons_eq h
    rw [Output.bytes_append, List.length_append] at hfuel hfit ⊢
    rw [Output.bytes_append] at hs
    rw [← View.withZero_zero x.view] at hw
    have hopen : (Slot.list fresh acc).Opens x.cleared :=
      Or.inr (Or.inl ⟨acc, by rw [hfresh x List.mem_cons_self]⟩)
    obtain ⟨f, rfl⟩ : ∃ f, fuel = f + 1 := ⟨fuel - 1, by omega⟩
    obtain ⟨hpos, recs, hstep⟩ := hsteps x List.mem_cons_self _ w (by rw [homit]; rfl) hw gs i
      _ hi hg hopen f ext d (o'.bytes ++ rest) hdepth htop (by omega)
      (by rw [hs, List.append_assoc]) (fun E hE => by have := hfit E hE; omega)
    obtain ⟨fuel', recs', hfuel', hrest⟩ := readChildren_items
      (fun y hy => hsteps y (List.mem_cons_of_mem x hy))
      (fun y hy => hfresh y (List.mem_cons_of_mem x hy)) homit ho'
      (Slot.modifyField gs i fun _ => (Slot.list fresh acc).place x.restored) i
      (acc ++ [x.restored]) (by rw [Slot.fieldIndex_modifyField]; exact hi)
      (Slot.getElem?_modifyField hg) f ext (d.advance (o'.bytes ++ rest) w.bytes.length recs)
      rest hdepth htop (by omega) rfl
      (fun E hE => by simp only [advance]; have := hfit E hE; omega)
    refine ⟨fuel', recs ++ recs', by omega, ?_⟩
    rw [hstep, hrest, advance_advance, Slot.modifyField_modifyField, Slot.restoredItems]
    simp only [List.append_assoc, List.singleton_append]

/-- A list under a tag that keeps zero values reads back item by item. -/
theorem fieldReads_list {depth : Nat} {tag : Tag} {fresh : Slot} {items : List Slot}
    (homit : tag.omitEmpty = false) (hsteps : ∀ x ∈ items, ItemReads opts mopts depth tag x)
    (hfresh : ∀ x ∈ items, x.cleared = fresh) :
    FieldReads opts mopts depth tag (.list fresh items) := by
  intro w hw gs i hi hg fuel ext d rest hdepth htop hfuel hs hfit
  rw [Slot.view, Marshal.field_repeated_of_keeps homit] at hw
  obtain ⟨fuel', recs, hfuel', hrun⟩ := readChildren_items opts mopts hsteps hfresh homit hw gs i
    [] hi hg fuel ext d rest hdepth htop hfuel hs hfit
  refine ⟨fuel', recs, hfuel', ?_⟩
  rw [hrun, Slot.restoredField_of_written (by rw [homit]; rfl), List.nil_append]
  rfl

/-- An optional field reads back its item if it has one, and is left empty otherwise. -/
theorem fieldReads_option {depth : Nat} {tag : Tag} {fresh : Slot} {item : Option Slot}
    (hsteps : ∀ x ∈ item, ItemReads opts mopts depth tag x)
    (hfresh : ∀ x ∈ item, x.cleared = fresh) :
    FieldReads opts mopts depth tag (.option fresh item) := by
  cases item with
  | none =>
    intro w hw gs i hi hg fuel ext d rest _ _ hfuel hs _
    obtain ⟨rfl, -⟩ := Prod.mk.inj ((Marshal.field_absent _ _ _ _ _).symm.trans hw)
    have hempty : ({} : Output).bytes = [] := rfl
    rw [hempty, List.nil_append] at hs
    have hkeep : Slot.restoredField tag (.option fresh none) = .option fresh none := by
      unfold Slot.restoredField
      split <;> rfl
    refine ⟨fuel, [], Nat.le_add_right _ _, ?_⟩
    rw [hempty, List.length_nil, advance_zero hs, hkeep,
      Slot.modifyField_eq_self (s := .option fresh none) hg]
  | some x =>
    intro w hw gs i hi hg fuel ext d rest hdepth htop hfuel hs hfit
    have hopen : (Slot.option fresh none).Opens x.cleared :=
      Or.inr (Or.inr (by rw [hfresh x rfl]))
    obtain ⟨f, rfl⟩ : ∃ f, fuel = f + 1 := ⟨fuel - 1, by omega⟩
    obtain ⟨hpos, recs, hstep⟩ := hsteps x rfl false w (Bool.and_false _) hw gs i _ hi hg hopen f
      ext d rest hdepth htop (by omega) hs hfit
    refine ⟨f, recs, by omega, ?_⟩
    rw [hstep, Slot.restoredField_of_written (by simp [Slot.view])]
    rfl

/-- The fields of a record written one after another read back one after another, each in its
place: after the fields `pre` already read and before the fields `post` still to come, the
cleared fields become restored ones. -/
theorem readChildren_fields {depth : Nat} :
    ∀ {fs : List (Tag × Slot)}, (∀ f ∈ fs, FieldReads opts mopts depth f.1 f.2) →
    ∀ (pre post : List (Tag × Slot)), ((pre ++ fs).map (·.1.element)).Nodup →
    ∀ {o : Output}, Marshal.fields mopts depth (Slot.viewFields fs) {} = (o, none) →
    ∀ (fuel : Nat) (ext : Extent) (d : Decoder) (rest : Bytes),
      ext.depth = depth → ext.unknownTop = false → o.bytes.length < fuel →
      d.source.ahead = o.bytes ++ rest → (∀ E ∈ ext.stop, d.source.position + o.bytes.length ≤ E) →
      ∃ fuel' recs, fuel ≤ fuel' + o.bytes.length ∧
        (readChildren opts Slot.target fuel (.record (pre ++ Slot.clearedFields fs ++ post)) ext
          none).run d =
          (readChildren opts Slot.target fuel' (.record (pre ++ Slot.restoredFields fs ++ post))
            ext none).run (d.advance rest o.bytes.length recs)
  | [], _, pre, post, _, o, h, fuel, ext, d, rest, _, _, _, hs, _ => by
    obtain ⟨rfl, -⟩ := Prod.mk.inj h
    have hempty : ({} : Output).bytes = [] := rfl
    rw [hempty, List.nil_append] at hs
    refine ⟨fuel, [], Nat.le_add_right _ _, ?_⟩
    rw [hempty, List.length_nil, advance_zero hs]
    rfl
  | (tag, s) :: fs, hsteps, pre, post, hnodup, o, h, fuel, ext, d, rest, hdepth, htop, hfuel, hs,
      hfit => by
    obtain ⟨w, o', hw, ho', rfl⟩ := Marshal.fields_cons_eq h
    rw [Output.bytes_append, List.length_append] at hfuel hfit ⊢
    rw [Output.bytes_append] at hs
    have hnew : tag.element ∉ pre.map (·.1.element) := by
      rw [List.map_append, List.map_cons] at hnodup
      intro hmem
      exact (List.nodup_append.mp hnodup).2.2 _ hmem _ List.mem_cons_self rfl
    have hg : (pre ++ (tag, s.cleared) :: (Slot.clearedFields fs ++ post))[pre.length]? =
        some (tag, s.cleared) := by
      simp
    obtain ⟨f, recs, hf, hstep⟩ := hsteps (tag, s) List.mem_cons_self w hw _ _
      (Slot.fieldIndex_append_cons hnew) hg fuel ext d (o'.bytes ++ rest) hdepth htop (by omega)
      (by rw [hs, List.append_assoc]) (fun E hE => by have := hfit E hE; omega)
    have hsplit : ∀ l : List (Tag × Slot), pre ++ (tag, Slot.restoredField tag s) :: (l ++ post) =
        pre ++ [(tag, Slot.restoredField tag s)] ++ l ++ post := by
      simp
    rw [Slot.modifyField_append_cons, hsplit] at hstep
    obtain ⟨fuel', recs', hfuel', hrest⟩ := readChildren_fields
      (fun g hg => hsteps g (List.mem_cons_of_mem _ hg)) (pre ++ [(tag, Slot.restoredField tag s)])
      post (by simpa using hnodup) ho' f ext (d.advance (o'.bytes ++ rest) w.bytes.length recs)
      rest hdepth htop (by omega) rfl
      (fun E hE => by simp only [advance]; have := hfit E hE; omega)
    refine ⟨fuel', recs ++ recs', by omega, ?_⟩
    rw [Slot.clearedFields, List.append_assoc, List.cons_append, hstep, hrest, advance_advance,
      Slot.restoredFields_cons]
    simp only [List.append_assoc, List.cons_append, List.nil_append]

variable {opts mopts} (hid : 4 ≤ opts.maxIdLength)
  (hsize : min mopts.maxSizeLength 8 ≤ opts.maxSizeLength)
include hid hsize

/-- A scalar that reads back within the allocation limit is read in one step: its header, then
its data, stored into the field. -/
theorem itemReads_scalar {limit : Nat} (hlimit : limit ≤ opts.allocationLimit) {tag : Tag}
    {x : Slot} (hstop : tag.stop = false) (hx : Slot.ScalarReads limit tag x) (depth : Nat) :
    ItemReads opts mopts depth tag x := by
  intro z w homit hw gs i cur hi hg hopen fuel ext d rest _ htop _ hs hfit
  obtain ⟨v, hview, hm, hassign, -, hread⟩ := hx.facts
  rw [hview] at hw
  obtain ⟨data, hd, hp, hh, hbytes⟩ := Marshal.field_scalar_eq homit hw
  obtain ⟨sz, hsz, hhb⟩ := Marshal.header_ok hh
  have hmax : data.length ≤ Vint.maxUnsigned := (Vint.encode_some_ok hsz).2.1
  have hpos := tag.element.idBytes_length_pos
  rw [hbytes, hhb] at hs hfit ⊢
  simp only [List.length_append] at hfit ⊢
  have hhead := Header.read_encoded tag.element hid hsz hsize
    (show d.source.ahead = tag.element.idBytes ++ sz ++ (data ++ rest) by
      rw [hs, List.append_assoc])
  have hr := hread opts data _ rest hp hmax hlimit
    (show (Source.mk (data ++ rest) d.source.held d.source.breaks
      (d.source.position + (tag.element.idBytes.length + sz.length))).ahead = data ++ rest from rfl)
  refine ⟨by omega, [⟨tag.element, d.source.position, tag.element.idBytes.length + sz.length,
    some data.length⟩], ?_⟩
  rw [readChildren_header opts Slot.target (start_of_fits hfit (by omega)) hhead,
    readElement_scalar opts Slot.target rfl rfl (Nat.add_sub_cancel _ _)
      (overruns_of_fits (fun E hE => by have := hfit E hE; dsimp only; omega)) htop
      (Slot.target_select_record hi hg) hm hr
      (Slot.target_assign_record hi hg (Slot.assign_of_opens hopen hassign)) hstop,
    hx.restored_eq]
  simp only [advance, Nat.add_assoc]

/-- A record under its element's plain tag reads back in one step: its header, then its fields,
read into its cleared form one level deeper until its data is exhausted. -/
theorem itemReads_record {tag : Tag} {fs : List (Tag × Slot)} (htag : tag = Tag.plain tag.element)
    (hnodup : (fs.map (·.1.element)).Nodup)
    (hfields : ∀ depth, ∀ f ∈ fs, FieldReads opts mopts depth f.1 f.2) (depth : Nat) :
    ItemReads opts mopts depth tag (.record fs) := by
  intro z w _ hw gs i cur hi hg hopen fuel ext d rest hdepth htop hfuel hs hfit
  subst hdepth
  obtain ⟨e, rfl⟩ : ∃ e, tag = Tag.plain e := ⟨_, htag⟩
  change Slot.fieldIndex gs e = some i at hi
  change Marshal.field mopts ext.depth (Tag.plain e) (.master (Slot.viewFields fs) z) {} =
    (w, none) at hw
  have hopen' : cur.Opens (.record (Slot.clearedFields fs)) := hopen
  obtain ⟨mid, hent, hclose⟩ := Slot.enter_of_opens hopen'
  obtain ⟨hm, hdeep, inner, sz, hinner, hsz, hbytes⟩ := Marshal.field_master_ok hw
  have hpos := e.idBytes_length_pos
  have hszpos := Vint.length_encode_pos hsz
  rw [hbytes] at hs hfit hfuel ⊢
  simp only [List.length_append] at hfit hfuel ⊢
  have hhead := Header.read_encoded e hid hsz hsize
    (show d.source.ahead = e.idBytes ++ sz ++ (inner.bytes ++ rest) by rw [hs, List.append_assoc])
  obtain ⟨f, rfl⟩ : ∃ f, fuel = f + 1 := ⟨fuel - 1, by omega⟩
  let header : Record :=
    ⟨e, d.source.position, e.idBytes.length + sz.length, some inner.bytes.length⟩
  let d₁ := d.advance (inner.bytes ++ rest) (e.idBytes.length + sz.length) [header]
  obtain ⟨f', recs, hf', hrun⟩ := readChildren_fields opts mopts (hfields (ext.depth + 1)) [] []
    (by simpa using hnodup) hinner f
    ⟨some (d₁.source.position + inner.bytes.length), false, ext.depth + 1⟩ d₁ rest rfl rfl
    (by omega) rfl (fun E hE => by simp only [Option.mem_def, Option.some.injEq] at hE; omega)
  obtain ⟨f'', rfl⟩ : ∃ f'', f' = f'' + 1 := ⟨f' - 1, by omega⟩
  simp only [List.nil_append, List.append_nil] at hrun
  have hchild : (readMaster opts Slot.target (f + 1) (.record (Slot.clearedFields fs))
      ⟨some (d₁.source.position + inner.bytes.length), false, ext.depth + 1⟩).run d₁ =
      ((.record (Slot.restoredFields fs), .ok .exhausted),
        d₁.advance rest inner.bytes.length recs) := by
    rw [readMaster_succ opts Slot.target hdeep, hrun,
      readChildren_exhausted opts Slot.target rfl (by simp only [advance]; omega)]
  refine ⟨by omega, header :: recs, ?_⟩
  rw [readChildren_header opts Slot.target (start_of_fits hfit (by omega)) hhead,
    readElement_master opts Slot.target rfl rfl (Nat.add_sub_cancel _ _)
      (overruns_of_fits (fun E hE => by have := hfit E hE; dsimp only; omega)) htop
      (Slot.target_select_record hi hg) hm (Slot.target_enter_record hi hg hent) hchild
      (Slot.target_finish _) rfl,
    Slot.target_close_record (by rw [Slot.fieldIndex_modifyField]; exact hi)]
  simp only [Slot.modifyField_modifyField, hclose, d₁, advance_advance, List.singleton_append,
    Nat.add_assoc]
  rfl

/-- Every slot that reads back does so as a field, and, unless it is a list or an optional
field, as an item of one, at every depth. By induction on restorability: scalars and records
are read in one step each, lists and optional fields item by item. -/
theorem restorable_reads {limit : Nat} (hlimit : limit ≤ opts.allocationLimit) {tag : Tag}
    {s : Slot} (hs : Slot.Restorable limit tag s) :
    (∀ depth, FieldReads opts mopts depth tag s) ∧
      (s.isCollection = false → ∀ depth, ItemReads opts mopts depth tag s) := by
  induction hs with
  | scalar hstop hx =>
    have hitem := itemReads_scalar hid hsize hlimit hstop hx
    obtain ⟨-, -, -, -, hc, -⟩ := hx.facts
    exact ⟨fun depth => fieldReads_of_itemReads opts mopts hc (hitem depth), fun _ => hitem⟩
  | record htag hnodup _ ih =>
    have hitem := itemReads_record hid hsize htag hnodup (fun depth f hf => (ih f hf).1 depth)
    exact ⟨fun depth => fieldReads_of_itemReads opts mopts rfl (hitem depth), fun _ => hitem⟩
  | list homit _ hitems ih =>
    refine ⟨fun depth => fieldReads_list opts mopts homit
      (fun x hx => (ih x hx).2 (hitems x hx).1 depth) (fun x hx => (hitems x hx).2), ?_⟩
    intro hc
    cases hc
  | option _ hitems ih =>
    refine ⟨fun depth => fieldReads_option opts mopts
      (fun x hx => (ih x hx).2 (hitems x hx).1 depth) (fun x hx => (hitems x hx).2), ?_⟩
    intro hc
    cases hc

end RecordReading

/-- A record of fields that read back, with distinct elements, encoded as a document, decodes
from its cleared form into the record restored: every field written comes back, every field left
out as zero keeps its cleared value, and the decoding finishes at the end of the octets. -/
theorem unmarshal_encode_record {limit : Nat} {fs : List (Tag × Slot)}
    (hnodup : (fs.map (·.1.element)).Nodup) (hfs : ∀ f ∈ fs, Slot.Restorable limit f.1 f.2)
    {mopts : MarshalOptions} {bytes : Bytes} {records : List Record}
    (henc : Marshal.encode mopts (Slot.record fs).document = .ok (bytes, records))
    {opts : DecodeOptions} (hid : 4 ≤ opts.maxIdLength)
    (hsize : min mopts.maxSizeLength 8 ≤ opts.maxSizeLength)
    (hlimit : limit ≤ opts.allocationLimit) :
    ((unmarshal opts Slot.target (Slot.record (Slot.clearedFields fs))).run
        (ofSource (Source.ofBytes bytes))).1 =
      (Slot.record (Slot.restoredFields fs), .ok .finished) := by
  obtain ⟨o, hfields, rfl⟩ := Marshal.encode_ok henc
  rw [Slot.document] at hfields
  -- the budget is more than one step for each octet
  obtain ⟨f, hbudget, hf⟩ : ∃ f, budget (ofSource (Source.ofBytes o.bytes)) = f + 1 ∧
      o.bytes.length < f := by
    refine ⟨40 * (o.bytes.length + 2) - 1, ?_, by omega⟩
    simp only [budget, maxDepth, ofSource, Source.ofBytes]
    omega
  obtain ⟨fuel, recs, hfuel, hrun⟩ := readChildren_fields opts mopts
    (fun g hg => (restorable_reads hid hsize hlimit (hfs g hg)).1 0) [] [] hnodup hfields f
    ⟨none, false, 0⟩ (ofSource (Source.ofBytes o.bytes)) [] rfl rfl hf (List.append_nil _).symm
    (fun E hE => by cases hE)
  obtain ⟨fuel, rfl⟩ : ∃ k, fuel = k + 1 := ⟨fuel - 1, by omega⟩
  simp only [List.nil_append, List.append_nil] at hrun
  rw [unmarshal_run, hbudget, readMaster_succ opts Slot.target (Nat.zero_le _), hrun,
    readChildren_eof opts Slot.target rfl (Header.read_end rfl rfl)]
  rfl

end Decoder

end Ebml
