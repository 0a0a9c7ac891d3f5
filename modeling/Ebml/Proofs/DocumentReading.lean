import Ebml.Proofs.RecordReading
import Ebml.Matroska.Document

/-!
# Matroska documents read back

A document written under any options that encode it decodes back, in the strict mode and with
the default limits, as long as its data fits the allocation limit; only a double left out as zero
comes back as the positive zero (`unmarshal_encode_document`). It is the round trip of records
once each part of the document is shown to read back and to give itself back from its slot.
-/

namespace Ebml

namespace FloatBits

/-- A double with a zero of either sign made the positive zero. -/
def positiveZero (b : UInt64) : UInt64 := if isZero64 b then 0 else b

end FloatBits

namespace Slot

mutual
/-- Every scalar a slot holds, at any depth, has the property `p`. -/
def AllScalars (p : Slot → Prop) : Slot → Prop
  | record fs => AllFieldScalars p fs
  | list _ items => AllItemScalars p items
  | option _ (some x) => AllScalars p x
  | option _ none => True
  | s => p s

/-- Every scalar the fields of a record hold has the property `p`. -/
def AllFieldScalars (p : Slot → Prop) : List (Tag × Slot) → Prop
  | [] => True
  | (_, s) :: rest => AllScalars p s ∧ AllFieldScalars p rest

/-- Every scalar the items of a list hold has the property `p`. -/
def AllItemScalars (p : Slot → Prop) : List Slot → Prop
  | [] => True
  | s :: rest => AllScalars p s ∧ AllItemScalars p rest
end

/-- What the decoder needs of the data of a scalar to read it back within an allocation limit:
text has no trailing zero character, and text, octets and the data of a block are within the
limit; a block's last frame is not empty. -/
def Storable (limit : Nat) : Slot → Prop
  | text s => s.toList.getLast? ≠ some (Char.ofNat 0) ∧ (Payload.utf8 s).length ≤ limit
  | binary d => d.length ≤ limit
  | block b => b.frames.getLast? ≠ some [] ∧ ∀ data, b.encode = .ok data → data.length ≤ limit
  | _ => True

/-- Whether a scalar slot has the kind its tag's element is read as, with a size it reads back
under: any known size for unsigned numbers, the natural size otherwise. -/
def fitsTag (tag : Tag) : Slot → Bool
  | uint _ => tag.element.dataType == .unsignedInt && tag.size != .unknown
  | int _ => tag.element.dataType == .signedInt && tag.size == .natural
  | flag _ => tag.element.dataType == .unsignedInt && tag.size == .natural
  | float64 _ => tag.element.dataType == .float && tag.size == .natural
  | text _ => (tag.element.dataType == .string || tag.element.dataType == .utf8) &&
      tag.size == .natural
  | binary _ => tag.element.dataType == .binary && tag.size == .natural
  | block _ => tag.element.dataType == .block && tag.size == .natural
  | _ => false

variable {limit : Nat}

theorem allScalars_of_fitsTag {tag : Tag} {x : Slot} (p : Slot → Prop) (h : fitsTag tag x = true) :
    AllScalars p x = p x := by
  cases x <;> first | rfl | cases h

theorem scalarReads_of_fitsTag {tag : Tag} {x : Slot} (h : fitsTag tag x = true)
    (hx : Storable limit x) : ScalarReads limit tag x := by
  cases x <;> simp only [fitsTag, Bool.and_eq_true, beq_iff_eq, bne_iff_ne, ne_eq,
    Bool.or_eq_true] at h
  case uint => exact .uint h.1 h.2
  case int => exact .int h.1 h.2
  case flag => exact .flag h.1 h.2
  case float64 => exact .float64 h.1 h.2
  case text => exact .text h.1 h.2 hx.1 hx.2
  case binary => exact .binary h.1 h.2 hx
  case block => exact .block h.1 h.2 hx.1 hx.2
  all_goals cases h

/-- A scalar field reads back when it has its tag's kind and stores its data. -/
theorem restorable_of_fitsTag {tag : Tag} {x : Slot} (hstop : tag.stop = false)
    (h : fitsTag tag x = true) (hx : AllScalars (Storable limit) x) : Restorable limit tag x :=
  .scalar hstop (scalarReads_of_fitsTag h (allScalars_of_fitsTag (Storable limit) h ▸ hx))

theorem allFieldScalars_iff {p : Slot → Prop} :
    ∀ {fs : List (Tag × Slot)}, AllFieldScalars p fs ↔ ∀ f ∈ fs, AllScalars p f.2
  | [] => by simp [AllFieldScalars]
  | (tag, s) :: rest => by simp [AllFieldScalars, allFieldScalars_iff]

theorem allItemScalars_iff {p : Slot → Prop} :
    ∀ {xs : List Slot}, AllItemScalars p xs ↔ ∀ x ∈ xs, AllScalars p x
  | [] => by simp [AllItemScalars]
  | x :: rest => by simp [AllItemScalars, allItemScalars_iff]

/-- A record reads back when its scalars store their data, its fields that are scalars have
their tags' kinds, and each of its other fields reads back. -/
theorem restorable_record {tag : Tag} {fs : List (Tag × Slot)} (htag : tag = Tag.plain tag.element)
    (hnodup : (fs.map (·.1.element)).Nodup)
    (hfs : ∀ f ∈ fs, (!f.1.stop && fitsTag f.1 f.2) = false →
      AllScalars (Storable limit) f.2 → Restorable limit f.1 f.2)
    (hs : AllScalars (Storable limit) (record fs)) : Restorable limit tag (record fs) := by
  refine .record htag hnodup fun f hf => ?_
  have hf' := allFieldScalars_iff.mp hs f hf
  cases hfit : (!f.1.stop && fitsTag f.1 f.2)
  case false => exact hfs f hf hfit hf'
  case true =>
    simp only [Bool.and_eq_true, Bool.not_eq_true'] at hfit
    exact restorable_of_fitsTag hfit.1 hfit.2 hf'

/-- A list of items built from values reads back when each item does and starts from the
field's fresh item. -/
theorem restorable_listMap {α : Type} {tag : Tag} {fresh : Slot} {toSlot : α → Slot}
    {xs : List α} (homit : tag.omitEmpty = false)
    (h : ∀ x, AllScalars (Storable limit) (toSlot x) → Restorable limit tag (toSlot x))
    (hc : ∀ x, (toSlot x).isCollection = false) (hfresh : ∀ x, (toSlot x).cleared = fresh)
    (hs : AllScalars (Storable limit) (list fresh (xs.map toSlot))) :
    Restorable limit tag (list fresh (xs.map toSlot)) := by
  have hitems := allItemScalars_iff.mp hs
  refine .list homit (fun y hy => ?_) (fun y hy => ?_)
  · obtain ⟨x, -, rfl⟩ := List.mem_map.mp hy
    exact h x (hitems _ hy)
  · obtain ⟨x, -, rfl⟩ := List.mem_map.mp hy
    exact ⟨hc x, hfresh x⟩

/-- An optional item built from a value reads back when the item does and starts from the
field's fresh item. -/
theorem restorable_optionMap {α : Type} {tag : Tag} {fresh : Slot} {toSlot : α → Slot}
    {a : Option α}
    (h : ∀ x, AllScalars (Storable limit) (toSlot x) → Restorable limit tag (toSlot x))
    (hc : ∀ x, (toSlot x).isCollection = false) (hfresh : ∀ x, (toSlot x).cleared = fresh)
    (hs : AllScalars (Storable limit) (option fresh (a.map toSlot))) :
    Restorable limit tag (option fresh (a.map toSlot)) := by
  cases a with
  | none => exact .option (fun _ hy => by cases hy) (fun _ hy => by cases hy)
  | some x =>
    refine .option (fun y hy => ?_) (fun y hy => ?_)
    · cases hy
      exact h x hs
    · cases hy
      exact ⟨hc x, hfresh x⟩

@[simp] theorem restored_record (fs : List (Tag × Slot)) :
    (record fs).restored = record (restoredFields fs) := rfl

theorem restoredItems_eq_map : ∀ xs : List Slot, restoredItems xs = xs.map restored
  | [] => rfl
  | x :: xs => by rw [restoredItems, restoredItems_eq_map xs, List.map_cons]

@[simp] theorem restored_list (fresh : Slot) (items : List Slot) :
    (list fresh items).restored = list fresh (items.map restored) := by
  rw [restored, restoredItems_eq_map]

@[simp] theorem restored_option (fresh : Slot) (item : Option Slot) :
    (option fresh item).restored = option fresh (item.map restored) := by
  cases item <;> rfl

@[simp] theorem restoredFields_nil : restoredFields [] = [] := rfl

@[simp] theorem restored_int (i : Int64) : (int i).restored = int i := rfl

@[simp] theorem restored_flag (b : Bool) : (flag b).restored = flag b := rfl

@[simp] theorem restored_block (b : Block) : (block b).restored = block b := rfl

@[simp] theorem restoredField_plain (e : Element) (s : Slot) :
    restoredField (Tag.plain e) s = s.restored := rfl

/-- A number left out as zero reads back as the zero it is. -/
@[simp] theorem restoredField_uint (tag : Tag) (u : UInt64) :
    restoredField tag (uint u) = uint u := by
  unfold restoredField
  split
  · next h =>
    simp only [view, View.zero, Bool.and_eq_true, beq_iff_eq] at h
    rw [h.2]
    rfl
  · rfl

/-- Text left out as empty reads back as the empty text it is. -/
@[simp] theorem restoredField_text (tag : Tag) (s : String) :
    restoredField tag (text s) = text s := by
  unfold restoredField
  split
  · next h =>
    simp only [view, View.zero, Bool.and_eq_true, String.isEmpty_iff] at h
    rw [h.2]
    rfl
  · rfl

/-- Octets left out as empty read back as the empty octets they are. -/
@[simp] theorem restoredField_binary (tag : Tag) (d : Bytes) :
    restoredField tag (binary d) = binary d := by
  unfold restoredField
  split
  · next h =>
    simp only [view, View.zero, Bool.and_eq_true, List.isEmpty_iff] at h
    rw [h.2]
    rfl
  · rfl

/-- A double left out as zero reads back as the positive zero. -/
theorem restoredField_float64 (tag : Tag) (b : UInt64) :
    restoredField tag (float64 b) =
      float64 (if tag.omitEmpty then FloatBits.positiveZero b else b) := by
  unfold restoredField FloatBits.positiveZero
  cases tag.omitEmpty <;> cases h : FloatBits.isZero64 b <;> simp [view, h] <;> rfl

end Slot

namespace Matroska

variable {limit : Nat}

@[simp] theorem omitEmpty_omitting (e : Element) : (omitting e).omitEmpty = true := rfl

@[simp] theorem omitEmpty_plain (e : Element) : (Tag.plain e).omitEmpty = false := rfl

section Restorable

theorem EbmlHeader.restorable (h : EbmlHeader) (hs : h.toSlot.AllScalars (Slot.Storable limit)) :
    Slot.Restorable limit (.plain .ebml) h.toSlot := by
  refine Slot.restorable_record rfl (by simp only [List.map_cons, List.map_nil]; decide) ?_ hs
  intro f hf hns _
  simp only [List.mem_cons, List.not_mem_nil, or_false] at hf
  rcases hf with rfl | rfl | rfl | rfl | rfl | rfl | rfl <;> cases hns

theorem Info.restorable (i : Info) (hs : i.toSlot.AllScalars (Slot.Storable limit)) :
    Slot.Restorable limit (.plain .info) i.toSlot := by
  refine Slot.restorable_record rfl (by simp only [List.map_cons, List.map_nil]; decide) ?_ hs
  intro f hf hns _
  simp only [List.mem_cons, List.not_mem_nil, or_false] at hf
  rcases hf with rfl | rfl | rfl | rfl | rfl | rfl <;> cases hns

theorem Seek.restorable (s : Seek) (hs : s.toSlot.AllScalars (Slot.Storable limit)) :
    Slot.Restorable limit (.plain .seek) s.toSlot := by
  refine Slot.restorable_record rfl (by simp only [List.map_cons, List.map_nil]; decide) ?_ hs
  intro f hf hns _
  simp only [List.mem_cons, List.not_mem_nil, or_false] at hf
  rcases hf with rfl | rfl <;> cases hns

theorem Video.restorable (v : Video) (hs : v.toSlot.AllScalars (Slot.Storable limit)) :
    Slot.Restorable limit (.plain .video) v.toSlot := by
  refine Slot.restorable_record rfl (by simp only [List.map_cons, List.map_nil]; decide) ?_ hs
  intro f hf hns _
  simp only [List.mem_cons, List.not_mem_nil, or_false] at hf
  rcases hf with rfl | rfl | rfl | rfl | rfl <;> cases hns

theorem Audio.restorable (a : Audio) (hs : a.toSlot.AllScalars (Slot.Storable limit)) :
    Slot.Restorable limit (.plain .audio) a.toSlot := by
  refine Slot.restorable_record rfl (by simp only [List.map_cons, List.map_nil]; decide) ?_ hs
  intro f hf hns _
  simp only [List.mem_cons, List.not_mem_nil, or_false] at hf
  rcases hf with rfl | rfl | rfl | rfl <;> cases hns

theorem SeekHead.restorable (h : SeekHead) (hs : h.toSlot.AllScalars (Slot.Storable limit)) :
    Slot.Restorable limit (.plain .seekHead) h.toSlot := by
  refine Slot.restorable_record rfl (by simp only [List.map_cons, List.map_nil]; decide) ?_ hs
  intro f hf _ hsc
  simp only [List.mem_cons, List.not_mem_nil, or_false] at hf
  subst hf
  exact Slot.restorable_listMap rfl Seek.restorable (fun _ => rfl) (fun _ => rfl) hsc

theorem TrackEntry.restorable (t : TrackEntry) (hs : t.toSlot.AllScalars (Slot.Storable limit)) :
    Slot.Restorable limit (.plain .trackEntry) t.toSlot := by
  refine Slot.restorable_record rfl (by simp only [List.map_cons, List.map_nil]; decide) ?_ hs
  intro f hf hns hsc
  simp only [List.mem_cons, List.not_mem_nil, or_false] at hf
  rcases hf with rfl | rfl | rfl | rfl | rfl | rfl | rfl | rfl | rfl | rfl | rfl | rfl | rfl
  all_goals try (cases hns; done)
  · exact Slot.restorable_optionMap (fun _ => Slot.restorable_of_fitsTag rfl rfl) (fun _ => rfl)
      (fun _ => rfl) hsc
  · exact Slot.restorable_optionMap Video.restorable (fun _ => rfl) (fun _ => rfl) hsc
  · exact Slot.restorable_optionMap Audio.restorable (fun _ => rfl) (fun _ => rfl) hsc

theorem Tracks.restorable (t : Tracks) (hs : t.toSlot.AllScalars (Slot.Storable limit)) :
    Slot.Restorable limit (.plain .tracks) t.toSlot := by
  refine Slot.restorable_record rfl (by simp only [List.map_cons, List.map_nil]; decide) ?_ hs
  intro f hf _ hsc
  simp only [List.mem_cons, List.not_mem_nil, or_false] at hf
  subst hf
  exact Slot.restorable_listMap rfl TrackEntry.restorable (fun _ => rfl) (fun _ => rfl) hsc

theorem BlockGroup.restorable (g : BlockGroup) (hs : g.toSlot.AllScalars (Slot.Storable limit)) :
    Slot.Restorable limit (.plain .blockGroup) g.toSlot := by
  refine Slot.restorable_record rfl (by simp only [List.map_cons, List.map_nil]; decide) ?_ hs
  intro f hf hns hsc
  simp only [List.mem_cons, List.not_mem_nil, or_false] at hf
  rcases hf with rfl | rfl | rfl | rfl
  all_goals try (cases hns; done)
  exact Slot.restorable_listMap rfl (fun _ => Slot.restorable_of_fitsTag rfl rfl) (fun _ => rfl)
    (fun _ => rfl) hsc

theorem Cluster.restorable (c : Cluster) (hs : c.toSlot.AllScalars (Slot.Storable limit)) :
    Slot.Restorable limit (.plain .cluster) c.toSlot := by
  refine Slot.restorable_record rfl (by simp only [List.map_cons, List.map_nil]; decide) ?_ hs
  intro f hf hns hsc
  simp only [List.mem_cons, List.not_mem_nil, or_false] at hf
  rcases hf with rfl | rfl | rfl | rfl
  all_goals try (cases hns; done)
  · exact Slot.restorable_listMap rfl (fun _ => Slot.restorable_of_fitsTag rfl rfl) (fun _ => rfl)
      (fun _ => rfl) hsc
  · exact Slot.restorable_listMap rfl BlockGroup.restorable (fun _ => rfl) (fun _ => rfl) hsc

theorem Segment.restorable (s : Segment) (hs : s.toSlot.AllScalars (Slot.Storable limit)) :
    Slot.Restorable limit (.plain .segment) s.toSlot := by
  refine Slot.restorable_record rfl (by simp only [List.map_cons, List.map_nil]; decide) ?_ hs
  intro f hf _ hsc
  simp only [List.mem_cons, List.not_mem_nil, or_false] at hf
  rcases hf with rfl | rfl | rfl | rfl
  · exact Slot.restorable_optionMap SeekHead.restorable (fun _ => rfl) (fun _ => rfl) hsc
  · exact Info.restorable _ hsc
  · exact Tracks.restorable _ hsc
  · exact Slot.restorable_listMap rfl Cluster.restorable (fun _ => rfl) (fun _ => rfl) hsc

end Restorable

section ReadBack

/-- The information as it reads back: a duration left out as zero comes back as the positive
zero. -/
def Info.positiveZeros (i : Info) : Info :=
  { i with duration := FloatBits.positiveZero i.duration }

/-- The audio settings as they read back: an output frequency left out as zero comes back as
the positive zero. -/
def Audio.positiveZeros (a : Audio) : Audio :=
  { a with outputSamplingFrequency := FloatBits.positiveZero a.outputSamplingFrequency }

/-- A track as it reads back: its audio settings do. -/
def TrackEntry.positiveZeros (t : TrackEntry) : TrackEntry :=
  { t with audio := t.audio.map Audio.positiveZeros }

/-- The track list as it reads back. -/
def Tracks.positiveZeros (t : Tracks) : Tracks :=
  { entries := t.entries.map TrackEntry.positiveZeros }

/-- A segment as it reads back: its information and tracks do. -/
def Segment.positiveZeros (s : Segment) : Segment :=
  { s with info := s.info.positiveZeros, tracks := s.tracks.positiveZeros }

/-- A document as it reads back: its segment does. -/
def Document.positiveZeros (d : Document) : Document :=
  { d with segment := d.segment.positiveZeros }

theorem EbmlHeader.ofSlot_restored (h : EbmlHeader) : EbmlHeader.ofSlot h.toSlot.restored = h := by
  simp [EbmlHeader.toSlot, EbmlHeader.ofSlot, Slot.fieldSlots, Slot.toUInt64, Slot.toText]

theorem Info.ofSlot_restored (i : Info) : Info.ofSlot i.toSlot.restored = i.positiveZeros := by
  simp [Info.toSlot, Info.ofSlot, Info.positiveZeros, Slot.fieldSlots, Slot.toUInt64, Slot.toText,
    Slot.toBinary, Slot.toFloat64, Slot.restoredField_float64]

theorem Seek.ofSlot_restored (s : Seek) : Seek.ofSlot s.toSlot.restored = s := by
  simp [Seek.toSlot, Seek.ofSlot, Slot.fieldSlots, Slot.toUInt64, Slot.toBinary]

theorem SeekHead.ofSlot_restored (h : SeekHead) : SeekHead.ofSlot h.toSlot.restored = h := by
  simp [Function.comp_def, SeekHead.toSlot, SeekHead.ofSlot, Slot.fieldSlots, Slot.items,
    Seek.ofSlot_restored]

theorem Video.ofSlot_restored (v : Video) : Video.ofSlot v.toSlot.restored = v := by
  simp [Video.toSlot, Video.ofSlot, Slot.fieldSlots, Slot.toUInt64]

theorem Audio.ofSlot_restored (a : Audio) : Audio.ofSlot a.toSlot.restored = a.positiveZeros := by
  simp [Audio.toSlot, Audio.ofSlot, Audio.positiveZeros, Slot.fieldSlots, Slot.toUInt64,
    Slot.toFloat64, Slot.restoredField_float64]

theorem TrackEntry.ofSlot_restored (t : TrackEntry) :
    TrackEntry.ofSlot t.toSlot.restored = t.positiveZeros := by
  simp [Function.comp_def, TrackEntry.toSlot, TrackEntry.ofSlot, TrackEntry.positiveZeros,
    Slot.fieldSlots, Slot.toUInt64, Slot.toText, Slot.toBinary, Slot.toFlag, Slot.item?,
    Video.ofSlot_restored, Audio.ofSlot_restored]

theorem Tracks.ofSlot_restored (t : Tracks) :
    Tracks.ofSlot t.toSlot.restored = t.positiveZeros := by
  simp [Function.comp_def, Tracks.toSlot, Tracks.ofSlot, Tracks.positiveZeros, Slot.fieldSlots,
    Slot.items, TrackEntry.ofSlot_restored]

theorem BlockGroup.ofSlot_restored (g : BlockGroup) :
    BlockGroup.ofSlot g.toSlot.restored = g := by
  simp [Function.comp_def, BlockGroup.toSlot, BlockGroup.ofSlot, Slot.fieldSlots, Slot.toUInt64,
    Slot.toBlock, Slot.toInt64, Slot.items]

theorem Cluster.ofSlot_restored (c : Cluster) : Cluster.ofSlot c.toSlot.restored = c := by
  simp [Function.comp_def, Cluster.toSlot, Cluster.ofSlot, Slot.fieldSlots, Slot.toUInt64,
    Slot.toBlock, Slot.items, BlockGroup.ofSlot_restored]

theorem Segment.ofSlot_restored (s : Segment) :
    Segment.ofSlot s.toSlot.restored = s.positiveZeros := by
  simp [Function.comp_def, Segment.toSlot, Segment.ofSlot, Segment.positiveZeros, Slot.fieldSlots,
    Slot.items, Slot.item?, SeekHead.ofSlot_restored, Info.ofSlot_restored, Tracks.ofSlot_restored,
    Cluster.ofSlot_restored]

theorem Document.ofSlot_restored (d : Document) :
    Document.ofSlot d.toSlot.restored = d.positiveZeros := by
  simp [Document.toSlot, Document.ofSlot, Document.positiveZeros, Slot.fieldSlots,
    EbmlHeader.ofSlot_restored, Segment.ofSlot_restored]

end ReadBack

/-- A document written under any options that encode it decodes in the strict mode from the
empty document, when its text has no trailing zero characters, its blocks' last frames are not
empty, and its text, octets and block data are within the default allocation limit of 16 MiB:
the decoding finishes, and the document comes back as it was, except that a double left out as
zero comes back as the positive zero. -/
theorem unmarshal_encode_document {d : Document}
    (hd : d.toSlot.AllScalars (Slot.Storable (16 * 1024 * 1024))) {mopts : MarshalOptions}
    {bytes : Bytes} {records : List Record}
    (henc : Marshal.encode mopts d.toSlot.document = .ok (bytes, records)) :
    ∃ s, ((Decoder.unmarshal { mode := .strict } Slot.target (Document.toSlot {})).run
        (Decoder.ofSource (Source.ofBytes bytes))).1 = (s, .ok .finished) ∧
      Document.ofSlot s = d.positiveZeros := by
  refine ⟨d.toSlot.restored, ?_, Document.ofSlot_restored d⟩
  have hfields : ∀ f ∈ [(Tag.plain .ebml, d.header.toSlot), (Tag.plain .segment, d.segment.toSlot)],
      Slot.Restorable (16 * 1024 * 1024) f.1 f.2 := by
    have hs := Slot.allFieldScalars_iff.mp hd
    intro f hf
    simp only [List.mem_cons, List.not_mem_nil, or_false] at hf
    rcases hf with rfl | rfl
    · exact EbmlHeader.restorable _ (hs _ List.mem_cons_self)
    · exact Segment.restorable _ (hs _ (List.mem_cons_of_mem _ List.mem_cons_self))
  exact Decoder.unmarshal_encode_record (by simp only [List.map_cons, List.map_nil]; decide) hfields
    henc (by decide) (Nat.min_le_right _ _) (Nat.le_refl _)

/-- The WebM header read back, in a document that is otherwise empty. -/
theorem webm_document_reads_back :
    ∃ bytes records,
      Marshal.encode {} (Document.toSlot { header := .webm }).document = .ok (bytes, records) ∧
      ∃ s, ((Decoder.unmarshal { mode := .strict } Slot.target (Document.toSlot {})).run
          (Decoder.ofSource (Source.ofBytes bytes))).1 = (s, .ok .finished) ∧
        Document.ofSlot s = ({ header := .webm } : Document).positiveZeros := by
  have hd :
      (Document.toSlot { header := .webm }).AllScalars (Slot.Storable (16 * 1024 * 1024)) := by
    simp [Document.toSlot, EbmlHeader.toSlot, Segment.toSlot, Info.toSlot, Tracks.toSlot,
      Slot.AllScalars, Slot.AllFieldScalars, Slot.AllItemScalars, Slot.Storable, EbmlHeader.webm]
    decide
  have hok : (Marshal.encode {} (Document.toSlot { header := .webm }).document).toBool = true := by
    decide +kernel
  cases hw : Marshal.encode {} (Document.toSlot { header := .webm }).document with
  | error e =>
    rw [hw] at hok
    cases hok
  | ok p =>
    obtain ⟨bytes, records⟩ := p
    exact ⟨bytes, records, rfl, unmarshal_encode_document hd hw⟩

/-- The allocation limit bounds what a strict reading takes, not what is written: a document
type one octet over the default limit of 16 MiB is written, and reading it back fails inside
the EBML header with too much data. -/
theorem long_docType_refused :
    ∃ bytes records,
      Marshal.encode {} (Document.toSlot
        { header := { docType := String.ofList (List.replicate 16777217 'a') } }).document =
        .ok (bytes, records) ∧
      ∃ s, ((Decoder.unmarshal { mode := .strict } Slot.target (Document.toSlot {})).run
          (Decoder.ofSource (Source.ofBytes bytes))).1 =
        (s, .error (.context (.reading .ebml) (.context (.reading .docType) .tooMuchData))) := by
  generalize hs₀ : String.ofList (List.replicate 16777217 'a') = s₀
  have hlen : (Payload.utf8 s₀).length = 16777217 := by
    rw [← hs₀, Payload.length_utf8_replicate, show 'a'.utf8Size = 1 from rfl, Nat.mul_one]
  obtain ⟨hdD, hhD, hlD⟩ : ∃ hd, Marshal.header {} .docType (some 16777217) {} = (hd, none) ∧
      hd.bytes.length = 6 := ⟨_, rfl, rfl⟩
  have hD : ∃ w, Marshal.field {} 1 (.plain .docType) (.scalar (.string s₀) s₀.isEmpty) {} =
      (w, none) ∧ w.bytes = hdD.bytes ++ Payload.utf8 s₀ :=
    Marshal.field_scalar_of rfl rfl rfl (by rw [hlen]; exact hhD)
  obtain ⟨wD, hD, hbD⟩ := hD
  obtain ⟨o4, h4, hl4⟩ : ∃ o, Marshal.fields {} 1 (Slot.viewFields
      [(.plain .ebmlVersion, .uint 0), (.plain .ebmlReadVersion, .uint 0),
        (.plain .ebmlMaxIdLength, .uint 0), (.plain .ebmlMaxSizeLength, .uint 0)]) {} = (o, none) ∧
      o.bytes.length = 16 := ⟨_, rfl, rfl⟩
  obtain ⟨o2, h2, hl2⟩ : ∃ o, Marshal.fields {} 1 (Slot.viewFields
      [(.plain .docTypeVersion, .uint 0), (.plain .docTypeReadVersion, .uint 0)]) {} = (o, none) ∧
      o.bytes.length = 8 := ⟨_, rfl, rfl⟩
  obtain ⟨inner, hinner, hbinner⟩ := Marshal.fields_append_of (Marshal.fields_cons_of hD h2) h4
  have hlinner : inner.bytes.length = 16777247 := by
    rw [hbinner, Output.bytes_append, hbD]
    simp only [List.length_append, hlen, hl4, hlD, hl2]
  obtain ⟨hdE, hhE⟩ : ∃ hd, Marshal.header {} .ebml (some 16777247) {} = (hd, none) := ⟨_, rfl⟩
  have hE : ∃ w, Marshal.field {} 0 (.plain .ebml) (EbmlHeader.toSlot { docType := s₀ }).view {} =
      (w, none) ∧ w.bytes = hdE.bytes ++ inner.bytes :=
    Marshal.field_master_of rfl (by decide) hinner (hlinner ▸ hhE)
  obtain ⟨wE, hE, hbE⟩ := hE
  obtain ⟨wS, hS⟩ : ∃ w, Marshal.field {} 0 (.plain .segment) (Segment.toSlot {}).view {} =
      (w, none) := ⟨_, rfl⟩
  have hdoc : Marshal.fields {} 0 [(.plain .ebml, (EbmlHeader.toSlot { docType := s₀ }).view),
      (.plain .segment, (Segment.toSlot {}).view)] {} = (wE.append (wS.append {}), none) :=
    Marshal.fields_cons_of hE (Marshal.fields_cons_of hS rfl)
  have hrun : Marshal.run {} (Document.toSlot { header := { docType := s₀ } }).document =
      (wE.append (wS.append {}), none) := hdoc
  refine ⟨(wE.append (wS.append {})).bytes, (wE.append (wS.append {})).records,
    Marshal.encode_of_run hrun, ?_⟩
  obtain ⟨szE, hszE, hbE'⟩ := Marshal.header_ok hhE
  obtain ⟨szD, hszD, hbD'⟩ := Marshal.header_ok hhD
  have hbytes : (wE.append (wS.append {})).bytes = Element.ebml.idBytes ++ szE ++
      (o4.bytes ++ (Element.docType.idBytes ++ szD ++ (Payload.utf8 s₀ ++ (o2.bytes ++ wS.bytes)))) := by
    have hempty : ({} : Output).bytes = [] := rfl
    rw [Output.bytes_append, Output.bytes_append, hbE, hbE', hbinner, Output.bytes_append, hbD, hbD',
      hempty]
    simp only [List.append_assoc, List.append_nil]
  rw [hbytes]
  generalize hrest : Payload.utf8 s₀ ++ (o2.bytes ++ wS.bytes) = rest
  obtain ⟨f, hbudget, hf⟩ : ∃ f, Decoder.budget (Decoder.ofSource (Source.ofBytes
      (Element.ebml.idBytes ++ szE ++ (o4.bytes ++ (Element.docType.idBytes ++ szD ++ rest))))) =
      f + 3 ∧ 16 < f := by
    refine ⟨40 * (Element.ebml.idBytes.length + szE.length + (o4.bytes.length +
      (Element.docType.idBytes.length + szD.length + rest.length)) + 2) - 3, ?_, ?_⟩
    · simp only [Decoder.budget, maxDepth, Decoder.ofSource, Source.ofBytes, List.length_append]
      omega
    · have := Element.ebml.idBytes_length_pos
      omega
  have hid : 4 ≤ ({ mode := .strict } : DecodeOptions).maxIdLength := by decide
  have hmax : min ({} : MarshalOptions).maxSizeLength 8 ≤
      ({ mode := .strict } : DecodeOptions).maxSizeLength := by decide
  have hlD' : Element.docType.idBytes.length + szD.length = 6 := by
    rw [← List.length_append, ← hbD', hlD]
  have hchild : ∀ d : Decoder, d.source.ahead = o4.bytes ++ (Element.docType.idBytes ++ szD ++ rest) →
      ∃ child d', (Decoder.readMaster { mode := .strict } Slot.target (f + 1) (EbmlHeader.toSlot {})
        ⟨some (d.source.position + 16777247), false, 1⟩).run d =
        ((child, .error (.context (.reading .docType) .tooMuchData)), d') := by
    intro d hd
    have hreads : ∀ g ∈ [(Tag.plain .ebmlVersion, Slot.uint 0), (.plain .ebmlReadVersion, .uint 0),
        (.plain .ebmlMaxIdLength, .uint 0), (.plain .ebmlMaxSizeLength, .uint 0)],
        Decoder.FieldReads { mode := .strict } {} 1 g.1 g.2 := by
      intro g hg
      simp only [List.mem_cons, List.not_mem_nil, or_false] at hg
      refine (Decoder.restorable_reads hid hmax (Nat.zero_le _) ?_).1 1
      rcases hg with rfl | rfl | rfl | rfl <;> exact Slot.restorable_of_fitsTag rfl rfl trivial
    obtain ⟨g, rfl⟩ : ∃ g, f = g + 17 := ⟨f - 17, by omega⟩
    rw [Decoder.readMaster_succ _ _ (show 1 ≤ maxDepth by decide)]
    obtain ⟨fuel', recs, hfuel', hrun4⟩ := Decoder.readChildren_fields _ _ hreads []
      [(.plain .docType, .text ""), (.plain .docTypeVersion, .uint 0),
        (.plain .docTypeReadVersion, .uint 0)]
      (by simp only [List.nil_append, List.map_cons, List.map_nil]; decide) h4 (g + 17)
      ⟨some (d.source.position + 16777247), false, 1⟩ d (Element.docType.idBytes ++ szD ++ rest)
      rfl rfl (by omega) hd (fun E hE => by cases hE; omega)
    obtain ⟨g', rfl⟩ : ∃ g', fuel' = g' + 1 := ⟨fuel' - 1, by omega⟩
    have hh := Header.read_encoded (s := (d.advance (Element.docType.idBytes ++ szD ++ rest) 16
      recs).source) Element.docType hid hszD hmax rfl
    have hstart : (some (d.source.position + 16777247)).any (fun E =>
        decide ((d.advance (Element.docType.idBytes ++ szD ++ rest) 16 recs).source.position ≥ E)) =
        false := by
      refine Decoder.start_of_fits (fun E hE => ?_) Nat.one_pos
      cases hE
      simp only [Decoder.advance]
      omega
    have hover : Decoder.overruns (some (d.source.position + 16777247))
        (some ((d.advance (Element.docType.idBytes ++ szD ++ rest) 16 recs).source.position +
          (Element.docType.idBytes.length + szD.length) + 16777217)) = false := by
      refine Decoder.overruns_of_fits fun E hE => ?_
      cases hE
      simp only [Decoder.advance]
      omega
    rw [show EbmlHeader.toSlot {} = .record ([] ++
      Slot.clearedFields [(Tag.plain .ebmlVersion, Slot.uint 0), (.plain .ebmlReadVersion, .uint 0),
        (.plain .ebmlMaxIdLength, .uint 0), (.plain .ebmlMaxSizeLength, .uint 0)] ++
      [(.plain .docType, .text ""), (.plain .docTypeVersion, .uint 0),
        (.plain .docTypeReadVersion, .uint 0)]) from rfl, hrun4, hl4,
      Decoder.readChildren_header _ _ hstart hh]
    exact ⟨_, _, Decoder.readElement_scalar_error _ _ rfl rfl rfl hover rfl
      (Slot.target_select_record rfl rfl) rfl (Payload.read_over_limit (Or.inl rfl) (by decide) _)⟩
  rw [Decoder.unmarshal_run, hbudget]
  generalize hd₀ : Decoder.ofSource (Source.ofBytes (Element.ebml.idBytes ++ szE ++
    (o4.bytes ++ (Element.docType.idBytes ++ szD ++ rest)))) = d₀
  have hhead := Header.read_encoded Element.ebml hid hszE hmax
    (show d₀.source.ahead = Element.ebml.idBytes ++ szE ++
      (o4.bytes ++ (Element.docType.idBytes ++ szD ++ rest)) by rw [← hd₀]; rfl)
  obtain ⟨child, d', hc⟩ := hchild (d₀.advance (o4.bytes ++ (Element.docType.idBytes ++ szD ++ rest))
    (Element.ebml.idBytes.length + szE.length)
    [⟨.ebml, d₀.source.position, Element.ebml.idBytes.length + szE.length, some 16777247⟩]) rfl
  rw [Decoder.readMaster_succ _ _ (Nat.zero_le _), Decoder.readChildren_header _ _ rfl hhead,
    Document.toSlot, Decoder.readElement_master_error _ _ rfl rfl (Nat.add_sub_cancel _ _)
      (Decoder.overruns_of_fits fun E hE => by cases hE) rfl (Slot.target_select_record rfl rfl) rfl
      (Slot.target_enter_record rfl rfl rfl) hc]
  exact ⟨_, rfl⟩

end Matroska

end Ebml
